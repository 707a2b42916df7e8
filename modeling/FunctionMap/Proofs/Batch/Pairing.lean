import FunctionMap.Batch.Job
import Mathlib.Data.List.Infix

/-!
# Which output belongs to which input

The jobs of a command line are read off from left to right: an output belongs to the input before it, and
an input has one output at most. The same comes out where inputs and outputs are given apart, each
with its place on the command line, and every output goes to the last input of a smaller place.

* `outputsHere operands` -- the outputs up to the next input;
* `Pairable operands` -- no output stands before the first input, and at most one behind each input;
* `jobsOf operands` -- a job for every input, with the output that stands behind it;
* `FirstOffence operands e` -- the first output that cannot stand where it stands, and the error that says
  so;
* `pairApart inputs outputs` -- the jobs of inputs and outputs with their places.

Main statement: `pair_reads_command_line`.
-/

namespace FunctionMap

/-- The path of an input. -/
def Operand.input? : Operand → Option String
  | .input path => some path
  | .output _ => none

/-- The path of an output. -/
def Operand.output? : Operand → Option String
  | .input _ => none
  | .output path => some path

namespace Job

/-! ## 1. What a command line says -/

/-- The outputs up to the next input. -/
def outputsHere : List Operand → List String
  | .output path :: rest => path :: outputsHere rest
  | _ => []

/-- Behind every input stands at most one output before the next. -/
def AtMostOneEach (operands : List Operand) : Prop :=
  ∀ path after, .input path :: after <:+ operands → (outputsHere after).length ≤ 1

/-- No output stands before the first input, and at most one behind each input. -/
structure Pairable (operands : List Operand) : Prop where
  noneBefore : outputsHere operands = []
  atMostOne : AtMostOneEach operands

/-- The job of the input that operands start with. -/
def startingAt? : List Operand → Option Job
  | .input path :: after => some ⟨path, (outputsHere after).head?⟩
  | _ => none

/-- A job for every input, with the output that stands behind it. -/
def jobsOf (operands : List Operand) : List Job := operands.tails.filterMap startingAt?

/-- An output cannot stand behind some operands: no input is among them, or the last one has an output
    already. -/
inductive Offends : List Operand → String → PairingError → Prop where
  | orphan {before : List Operand} {path : String} (h : inputs before = []) :
      Offends before path (.orphan path)
  | twoOutputs {front outputs : List Operand} {input path : String} (hne : outputs ≠ [])
      (h : inputs outputs = []) :
      Offends (front ++ .input input :: outputs) path (.twoOutputs input)

/-- No output among some operands offends. -/
def Inoffensive (operands : List Operand) : Prop :=
  ∀ before path e, before ++ [.output path] <+: operands → ¬ Offends before path e

/-- The error of the first output that offends. -/
inductive FirstOffence : List Operand → PairingError → Prop where
  | mk {before after : List Operand} {path : String} {e : PairingError} (hfirst : Inoffensive before)
      (h : Offends before path e) : FirstOffence (before ++ .output path :: after) e

/-! ## 2. Operands that make jobs -/

theorem atMostOneEach_nil : AtMostOneEach [] := by
  intro path after h
  cases List.suffix_nil.mp h

theorem atMostOneEach_input {path : String} {rest : List Operand} :
    AtMostOneEach (.input path :: rest) ↔ (outputsHere rest).length ≤ 1 ∧ AtMostOneEach rest := by
  constructor
  · intro h
    exact ⟨h path rest (List.suffix_refl _), fun p after hafter => h p after (hafter.trans
      (List.suffix_cons _ _))⟩
  · intro h p after hafter
    obtain ⟨hrest, h⟩ := h
    rcases List.suffix_cons_iff.mp hafter with heq | hafter
    · cases heq
      exact hrest
    · exact h p after hafter

theorem atMostOneEach_output {path : String} {rest : List Operand} :
    AtMostOneEach (.output path :: rest) ↔ AtMostOneEach rest := by
  constructor
  · intro h p after hafter
    exact h p after (hafter.trans (List.suffix_cons _ _))
  · intro h p after hafter
    rcases List.suffix_cons_iff.mp hafter with heq | hafter
    · cases heq
    · exact h p after hafter

theorem jobsOf_nil : jobsOf [] = [] := rfl

theorem jobsOf_input (path : String) (rest : List Operand) :
    jobsOf (.input path :: rest) = ⟨path, (outputsHere rest).head?⟩ :: jobsOf rest := by
  rw [jobsOf, List.tails_cons, List.filterMap_cons_some (by rfl), jobsOf]

theorem jobsOf_output (path : String) (rest : List Operand) :
    jobsOf (.output path :: rest) = jobsOf rest := by
  rw [jobsOf, List.tails_cons, List.filterMap_cons_none (by rfl), jobsOf]

/-- **There is one job for each input, in their order.** -/
theorem inputs_jobsOf (operands : List Operand) : (jobsOf operands).map (·.input) = inputs operands := by
  induction operands with
  | nil => rfl
  | cons o rest ih =>
    cases o with
    | input path => rw [jobsOf_input, List.map_cons, ih, inputs]
    | output path => rw [jobsOf_output, ih, inputs]

theorem map_cons_eq_ok_iff {last : Job} {x : Except PairingError (List Job)} {jobs : List Job} :
    x.map (last :: ·) = .ok jobs ↔ ∃ js, x = .ok js ∧ jobs = last :: js := by
  cases x with
  | error e => exact ⟨fun h => (nomatch h), fun ⟨_, h, _⟩ => (nomatch h)⟩
  | ok js =>
    constructor
    · intro h
      exact ⟨js, rfl, (Except.ok.inj h).symm⟩
    · intro h
      obtain ⟨js', h, rfl⟩ := h
      cases h
      rfl

/-- Operands behind a job make jobs exactly if there is at most one output for it and for each input. -/
theorem pairAfter_eq_ok_iff {last : Job} {operands : List Operand} {jobs : List Job} :
    pairAfter last operands = .ok jobs ↔
      (last.output?.toList ++ outputsHere operands).length ≤ 1 ∧ AtMostOneEach operands ∧
        jobs = ⟨last.input, (last.output?.toList ++ outputsHere operands).head?⟩ :: jobsOf operands := by
  induction operands generalizing last jobs with
  | nil =>
    obtain ⟨input, output?⟩ := last
    rw [pairAfter]
    cases output? <;> simp [atMostOneEach_nil, outputsHere, jobsOf_nil, eq_comm]
  | cons o rest ih =>
    obtain ⟨input, output?⟩ := last
    cases o with
    | input path =>
      rw [pairAfter, map_cons_eq_ok_iff, atMostOneEach_input, jobsOf_input]
      simp only [ih]
      cases output? <;> simp [outputsHere, and_assoc]
    | output path =>
      rw [pairAfter, atMostOneEach_output, jobsOf_output]
      cases output? with
      | none =>
        dsimp only
        rw [ih]
        rfl
      | some first => simp [outputsHere]

/-- **Operands make jobs exactly if they are pairable, and then the jobs that they name.** -/
theorem pair_eq_ok_iff {operands : List Operand} {jobs : List Job} :
    pair operands = .ok jobs ↔ Pairable operands ∧ jobs = jobsOf operands := by
  have hpairable : Pairable operands ↔ outputsHere operands = [] ∧ AtMostOneEach operands :=
    ⟨fun h => ⟨h.noneBefore, h.atMostOne⟩, fun h => ⟨h.1, h.2⟩⟩
  rw [hpairable]
  unfold pair
  split
  · simp [outputsHere, atMostOneEach_nil, jobsOf_nil, eq_comm]
  · rw [pairAfter_eq_ok_iff, atMostOneEach_input, jobsOf_input]
    simp [outputsHere, and_assoc]
  · simp [outputsHere]

/-! ## 3. The first offence -/

theorem inputs_append (front back : List Operand) :
    inputs (front ++ back) = inputs front ++ inputs back := by
  induction front with
  | nil => rfl
  | cons o front ih => cases o <;> simp [inputs, ih]

theorem Inoffensive.input {operands : List Operand} (h : Inoffensive operands) (path : String) :
    Inoffensive (operands ++ [.input path]) := by
  intro before p e hprefix
  rcases List.prefix_concat_iff.mp hprefix with heq | hprefix
  · have hlast := (List.append_inj' heq rfl).2
    cases hlast
  · exact h before p e hprefix

theorem Inoffensive.output {operands : List Operand} (h : Inoffensive operands) {path : String}
    (hpath : ∀ e, ¬ Offends operands path e) : Inoffensive (operands ++ [.output path]) := by
  intro before p e hprefix
  rcases List.prefix_concat_iff.mp hprefix with heq | hprefix
  · obtain ⟨rfl, hlast⟩ := List.append_inj' heq rfl
    cases hlast
    exact hpath e
  · exact h before p e hprefix

theorem inputs_ne_nil (front : List Operand) (path : String) (back : List Operand) :
    inputs (front ++ .input path :: back) ≠ [] := by
  rw [inputs_append]
  exact List.append_ne_nil_of_right_ne_nil _ (List.cons_ne_nil _ _)

/-- What stands behind the last input among some operands is no matter of choice. -/
theorem outputs_eq_of_last_input {front front' outputs outputs' : List Operand} {path path' : String}
    (h : inputs outputs = []) (h' : inputs outputs' = [])
    (heq : front ++ .input path :: outputs = front' ++ .input path' :: outputs') :
    outputs = outputs' := by
  rcases List.append_eq_append_iff.mp heq with ⟨mid, -, hmid⟩ | ⟨mid, -, hmid⟩
  · cases mid with
    | nil => exact (List.cons.inj hmid).2
    | cons o mid =>
      have houtputs : outputs = mid ++ .input path' :: outputs' := (List.cons.inj hmid).2
      exact absurd (houtputs ▸ h) (inputs_ne_nil _ _ _)
  · cases mid with
    | nil => exact (List.cons.inj hmid).2.symm
    | cons o mid =>
      have houtputs : outputs' = mid ++ .input path :: outputs := (List.cons.inj hmid).2
      exact absurd (houtputs ▸ h') (inputs_ne_nil _ _ _)

/-- What has been read up to a job: its input, and its output if it has one, stand last, and no output
    offends. -/
structure ReadUpTo (front : List Operand) (last : Job) : Prop where
  last : ∃ earlier, front = earlier ++ .input last.input :: last.output?.toList.map .output
  inoffensive : Inoffensive front

theorem ReadUpTo.not_offends {front : List Operand} {input : String}
    (h : ReadUpTo front ⟨input, none⟩) (path : String) (e : PairingError) :
    ¬ Offends front path e := by
  obtain ⟨earlier, hfront⟩ := h.last
  intro hoffends
  cases hoffends with
  | orphan hnone => exact absurd (hfront ▸ hnone) (inputs_ne_nil _ _ _)
  | twoOutputs hne hnone => exact hne (outputs_eq_of_last_input hnone rfl hfront)

theorem ReadUpTo.input {front : List Operand} {last : Job} (h : ReadUpTo front last) (path : String) :
    ReadUpTo (front ++ [.input path]) ⟨path, none⟩ :=
  ⟨⟨front, rfl⟩, h.inoffensive.input path⟩

theorem ReadUpTo.output {front : List Operand} {input : String} (h : ReadUpTo front ⟨input, none⟩)
    (path : String) : ReadUpTo (front ++ [.output path]) ⟨input, some path⟩ := by
  refine ⟨?_, h.inoffensive.output (h.not_offends path)⟩
  obtain ⟨earlier, rfl⟩ := h.last
  exact ⟨earlier, by simp⟩

/-- **Behind what has been read, pairing fails at the first output that offends.** -/
theorem firstOffence_of_pairAfter {front operands : List Operand} {last : Job} {e : PairingError}
    (hread : ReadUpTo front last) (h : pairAfter last operands = .error e) :
    FirstOffence (front ++ operands) e := by
  -- what has been read grows by the operand that is read next
  induction operands generalizing front last with
  | nil => cases h
  | cons o rest ih =>
    obtain ⟨input, output?⟩ := last
    rw [← List.singleton_append, ← List.append_assoc]
    cases o with
    | input path =>
      refine ih (hread.input path) ?_
      rw [pairAfter] at h
      cases hrest : pairAfter ⟨path, none⟩ rest with
      | error e' =>
        rw [hrest] at h
        exact h
      | ok jobs =>
        rw [hrest] at h
        cases h
    | output path =>
      rw [pairAfter] at h
      cases output? with
      | none => exact ih (hread.output path) h
      | some first =>
        cases h
        obtain ⟨earlier, hfront⟩ := hread.last
        rw [List.append_assoc]
        refine .mk hread.inoffensive ?_
        rw [hfront]
        exact .twoOutputs (List.cons_ne_nil _ _) rfl

theorem inoffensive_nil : Inoffensive [] := by
  intro before path e h
  exact absurd (List.prefix_nil.mp h) (by simp)

theorem firstOffence_of_pair {operands : List Operand} {e : PairingError}
    (h : pair operands = .error e) : FirstOffence operands e := by
  unfold pair at h
  split at h
  · cases h
  · rename_i path rest
    have hread : ReadUpTo [.input path] ⟨path, none⟩ := ⟨⟨[], rfl⟩, inoffensive_nil.input path⟩
    exact firstOffence_of_pairAfter hread h
  · rename_i path rest
    cases h
    have hoffends : Offends [] path (.orphan path) := .orphan rfl
    exact .mk inoffensive_nil hoffends

/-! ## 4. Inputs and outputs apart -/

/-- The inputs of a command line, with their places. -/
def placedInputs (line : List (Nat × Operand)) : List (Nat × String) :=
  line.filterMap fun (place, o) => o.input?.map (place, ·)

/-- The outputs of a command line, with their places. -/
def placedOutputs (line : List (Nat × Operand)) : List (Nat × String) :=
  line.filterMap fun (place, o) => o.output?.map (place, ·)

section Placed

variable (place : Nat) (path : String) (line : List (Nat × Operand))

theorem placedInputs_input :
    placedInputs ((place, .input path) :: line) = (place, path) :: placedInputs line :=
  List.filterMap_cons_some rfl

theorem placedInputs_output : placedInputs ((place, .output path) :: line) = placedInputs line :=
  List.filterMap_cons_none rfl

theorem placedOutputs_input : placedOutputs ((place, .input path) :: line) = placedOutputs line :=
  List.filterMap_cons_none rfl

theorem placedOutputs_output :
    placedOutputs ((place, .output path) :: line) = (place, path) :: placedOutputs line :=
  List.filterMap_cons_some rfl

end Placed

/-- Gives an output to the last job of a smaller place. The jobs are listed from the last on. -/
def attach (place : Nat) (path : String) :
    List (Nat × Job) → Except PairingError (List (Nat × Job))
  | [] => .error (.orphan path)
  | (place', job) :: earlier =>
    if place' < place then
      match job.output? with
      | none => .ok ((place', { job with output? := some path }) :: earlier)
      | some _ => .error (.twoOutputs job.input)
    else (attach place path earlier).map ((place', job) :: ·)

/-- Gives outputs to jobs one after the other. -/
def attachAll (jobs : List (Nat × Job)) :
    List (Nat × String) → Except PairingError (List (Nat × Job))
  | [] => .ok jobs
  | (place, path) :: rest => do attachAll (← attach place path jobs) rest

/-- The jobs of some inputs without outputs, from the last on. -/
def bareJobs (inputs : List (Nat × String)) : List (Nat × Job) :=
  inputs.reverse.map fun (place, path) => (place, ⟨path, none⟩)

/-- The jobs of inputs and outputs that are given apart, each with its place. -/
def pairApart (inputs outputs : List (Nat × String)) : Except PairingError (List Job) :=
  ((attachAll (bareJobs inputs) outputs).map (·.map (·.2))).map List.reverse

/-- Jobs of greater places are passed over. -/
theorem attach_append {place : Nat} {later : List (Nat × Job)} (h : ∀ x ∈ later, place ≤ x.1)
    (path : String) (jobs : List (Nat × Job)) :
    attach place path (later ++ jobs) = (attach place path jobs).map (later ++ ·) := by
  induction later with
  | nil => cases hattach : attach place path jobs <;> rw [List.nil_append, hattach] <;> rfl
  | cons x later ih =>
    obtain ⟨hx, hlater⟩ := List.forall_mem_cons.mp h
    rw [List.cons_append, attach, if_neg (Nat.not_lt.mpr hx), ih hlater]
    cases attach place path jobs <;> rfl

theorem bareJobs_cons (place : Nat) (path : String) (rest : List (Nat × String)) :
    bareJobs ((place, path) :: rest) = bareJobs rest ++ [(place, ⟨path, none⟩)] := by
  rw [bareJobs, List.reverse_cons, List.map_append]
  rfl

theorem le_of_mem_bareJobs {place : Nat} {line : List (Nat × Operand)} (h : ∀ x ∈ line, place < x.1) :
    ∀ x ∈ bareJobs (placedInputs line), place ≤ x.1 := by
  intro x hx
  obtain ⟨y, hy, rfl⟩ := List.mem_map.mp hx
  obtain ⟨z, hz, hinput⟩ := List.mem_filterMap.mp (List.mem_reverse.mp hy)
  obtain ⟨path, -, rfl⟩ := Option.map_eq_some_iff.mp hinput
  exact Nat.le_of_lt (h z hz)

/-- **Outputs that stand behind a job go where the reading from left to right puts them.** The jobs of
    later inputs are there from the start, but an output passes them over. -/
theorem map_attachAll {place : Nat} {last : Job} {earlier : List (Nat × Job)}
    {line : List (Nat × Operand)} (hline : line.Pairwise (·.1 < ·.1)) (h : ∀ x ∈ line, place < x.1) :
    (attachAll (bareJobs (placedInputs line) ++ (place, last) :: earlier) (placedOutputs line)).map
        (·.map (·.2)) =
      (pairAfter last (line.map (·.2))).map (·.reverse ++ earlier.map (·.2)) := by
  -- an input closes the job before it, which then is one of the earlier jobs
  induction line generalizing place last earlier with
  | nil => rfl
  | cons x line ih =>
    obtain ⟨place', o⟩ := x
    obtain ⟨hlater, hrest⟩ := List.pairwise_cons.mp hline
    obtain ⟨hplace, hbehind⟩ := List.forall_mem_cons.mp h
    rw [List.map_cons]
    dsimp only
    cases o with
    | input path =>
      rw [placedInputs_input, placedOutputs_input, bareJobs_cons, List.append_assoc,
        List.singleton_append, ih hrest hlater, pairAfter]
      cases pairAfter ⟨path, none⟩ (line.map (·.2)) with
      | error e => rfl
      | ok jobs => simp [Except.map]
    | output path =>
      obtain ⟨input, output?⟩ := last
      rw [placedInputs_output, placedOutputs_output, attachAll,
        attach_append (le_of_mem_bareJobs hlater), attach, if_pos hplace, pairAfter]
      cases output? with
      | none => exact ih hrest hbehind
      | some first => rfl

/-- **Inputs and outputs that are given apart make the jobs of the command line.** -/
theorem pairApart_eq_pair {line : List (Nat × Operand)} (hline : line.Pairwise (·.1 < ·.1)) :
    pairApart (placedInputs line) (placedOutputs line) = pair (line.map (·.2)) := by
  cases line with
  | nil => rfl
  | cons x line =>
    obtain ⟨place, o⟩ := x
    obtain ⟨hlater, hrest⟩ := List.pairwise_cons.mp hline
    rw [List.map_cons]
    dsimp only
    cases o with
    | input path =>
      rw [placedInputs_input, placedOutputs_input, pairApart, bareJobs_cons,
        map_attachAll hrest hlater, pair]
      cases pairAfter ⟨path, none⟩ (line.map (·.2)) with
      | error e => rfl
      | ok jobs => simp [Except.map]
    | output path =>
      have hnone := attach_append (le_of_mem_bareJobs hlater) path []
      rw [List.append_nil] at hnone
      rw [placedInputs_output, placedOutputs_output, pairApart, attachAll, hnone]
      rfl

/-! ## 5. The pairing of a command line -/

/-- **Outputs are paired with inputs as the command line reads.** Given apart, with places that grow
    along the line, inputs and outputs make jobs exactly if no output stands before the first input and
    at most one behind each. There is then one job for every input, in their order, with the output that
    stands behind it. Otherwise the first output fails that cannot stand where it stands: it is named
    itself if no input stands before it, and the closest input before it is named if that one has an
    output already. -/
theorem pair_reads_command_line {line : List (Nat × Operand)} (hline : line.Pairwise (·.1 < ·.1)) :
    pairApart (placedInputs line) (placedOutputs line) = pair (line.map (·.2)) ∧
      (∀ jobs, pair (line.map (·.2)) = .ok jobs ↔
        Pairable (line.map (·.2)) ∧ jobs = jobsOf (line.map (·.2))) ∧
      (jobsOf (line.map (·.2))).map (·.input) = inputs (line.map (·.2)) ∧
      ∀ e, pair (line.map (·.2)) = .error e → FirstOffence (line.map (·.2)) e :=
  ⟨pairApart_eq_pair hline, fun _ => pair_eq_ok_iff, inputs_jobsOf _, fun _ => firstOffence_of_pair⟩

/-- A second output for an input offends, also behind an input that got its own. -/
theorem pair_reads_command_line_of_two_outputs :
    pairApart [(1, "a.mfm"), (4, "b.mfm")] [(3, "a.out"), (6, "one.yaml"), (8, "two.yaml")] =
        .error (.twoOutputs "b.mfm") ∧
      FirstOffence [.input "a.mfm", .output "a.out", .input "b.mfm", .output "one.yaml",
        .output "two.yaml"] (.twoOutputs "b.mfm") := by
  have hline : [(1, Operand.input "a.mfm"), (3, .output "a.out"), (4, .input "b.mfm"),
      (6, .output "one.yaml"), (8, .output "two.yaml")].Pairwise (·.1 < ·.1) := by decide
  obtain ⟨hapart, -, -, hoffence⟩ := pair_reads_command_line hline
  exact ⟨hapart.trans rfl, hoffence _ rfl⟩

end Job
end FunctionMap
