import FunctionMap.Declaration.Parser
import FunctionMap.Proofs.Declaration.Table

/-!
# The parser as a transition system

What a step can do is said once, for all proofs about runs:

* `Transition s s'` -- the step from `s` succeeds and leads to `s'`: a turn to the phase that stands
  behind white space, the end of a comment, a header, or an entry, each with what was read;
* `Refusal s e` -- the step from `s` fails with `e`;
* `run`, `visited` -- what they give at the end of the source, behind a transition and at a refusal.

Main statements: a step succeeds exactly as `Transition` says and fails only as `Refusal` says
(`step_eq_ok_iff`, `Refusal.of_step`), and what holds at the start and is kept by every transition
holds at every state that a run visits (`visited_induction`).
-/

namespace FunctionMap
namespace Parser

/-! ## 1. One step -/

/-- A step that succeeds, by what it does. -/
inductive Transition (s : State) : State → Prop where
  | turn (resume : Resume) (p : Phase) (hphase : s.phase = resume.phase)
      (hnext : nextPhase? resume s.cursor.skipWhitespace = some p) :
      Transition s { s with phase := p, cursor := s.cursor.skipWhitespace }
  | uncomment (resume : Resume) (hphase : s.phase = .comment resume) :
      Transition s { s with phase := resume.phase, cursor := s.cursor.skipComment }
  | enumHeader (name elementType : String) (c : Cursor) (hphase : s.phase = .enumHeader)
      (hread : readEnumHeader s.cursor = .ok (name, elementType, c))
      (hnew : name ∉ s.table.enumNames) :
      Transition s ⟨.values, c, s.table.addEnum ⟨name, elementType, []⟩,
        some s.table.enums.length, none⟩
  | value (value : EnumValue) (c : Cursor) (table : Table) (hphase : s.phase = .values)
      (hentry : nextPhase? .values s.cursor.skipWhitespace = none)
      (hread : readValue s.cursor.skipWhitespace = .ok (value, c))
      (hpush : s.openEnum.bind (s.table.pushValue? · value) = some table) :
      Transition s { s with cursor := c, table }
  | functionHeader (key : FunctionKey) (name : String) (c : Cursor)
      (hphase : s.phase = .functionHeader)
      (hread : readFunctionHeader s.cursor = .ok (key, name, c))
      (hnew : key ∉ s.table.functionKeys) :
      Transition s ⟨.parameters, c, s.table.addFunction ⟨key, name, []⟩,
        none, some s.table.functions.length⟩
  | parameter (parameter : Parameter) (c : Cursor) (table : Table) (hphase : s.phase = .parameters)
      (hentry : nextPhase? .parameters s.cursor.skipWhitespace = none)
      (hread : readParameter s.cursor.skipWhitespace = .ok (parameter, c))
      (hpush : s.openFunction.bind (s.table.pushParameter? · parameter) = some table) :
      Transition s { s with cursor := c, table }

/-- A step that fails, by its error. -/
inductive Refusal (s : State) : SourceError → Prop where
  | top (hphase : s.phase = .top) (hnext : nextPhase? .top s.cursor.skipWhitespace = none) :
      Refusal s s.cursor.skipWhitespace.unexpected
  | enumHeader (e : SourceError) (hphase : s.phase = .enumHeader)
      (hread : readEnumHeader s.cursor = .error e) : Refusal s e
  | duplicateEnum (name elementType : String) (c : Cursor) (hphase : s.phase = .enumHeader)
      (hread : readEnumHeader s.cursor = .ok (name, elementType, c))
      (hold : name ∈ s.table.enumNames) : Refusal s (.duplicate .enumeration name)
  | value (e : SourceError) (hphase : s.phase = .values)
      (hentry : nextPhase? .values s.cursor.skipWhitespace = none)
      (hread : readValue s.cursor.skipWhitespace = .error e) : Refusal s e
  | strayValue (value : EnumValue) (c : Cursor) (hphase : s.phase = .values)
      (hentry : nextPhase? .values s.cursor.skipWhitespace = none)
      (hread : readValue s.cursor.skipWhitespace = .ok (value, c))
      (hpush : s.openEnum.bind (s.table.pushValue? · value) = none) :
      Refusal s (.strayEntry "enum value outside of a map declaration")
  | functionHeader (e : SourceError) (hphase : s.phase = .functionHeader)
      (hread : readFunctionHeader s.cursor = .error e) : Refusal s e
  | duplicateFunction (key : FunctionKey) (name : String) (c : Cursor)
      (hphase : s.phase = .functionHeader)
      (hread : readFunctionHeader s.cursor = .ok (key, name, c))
      (hold : key ∈ s.table.functionKeys) : Refusal s (.duplicate .function key.text)
  | parameter (e : SourceError) (hphase : s.phase = .parameters)
      (hentry : nextPhase? .parameters s.cursor.skipWhitespace = none)
      (hread : readParameter s.cursor.skipWhitespace = .error e) : Refusal s e
  | strayParameter (parameter : Parameter) (c : Cursor) (hphase : s.phase = .parameters)
      (hentry : nextPhase? .parameters s.cursor.skipWhitespace = none)
      (hread : readParameter s.cursor.skipWhitespace = .ok (parameter, c))
      (hpush : s.openFunction.bind (s.table.pushParameter? · parameter) = none) :
      Refusal s (.strayEntry "parameter outside of a function declaration")

/-- What comes of a step: a transition where it succeeds, a refusal where it fails. -/
def Outcome (s : State) : Except SourceError State → Prop
  | .ok s' => Transition s s'
  | .error e => Refusal s e

theorem stepTop_spec {s : State} (hp : s.phase = .top) : Outcome s s.stepTop := by
  unfold State.stepTop
  dsimp only
  cases hnext : nextPhase? .top s.cursor.skipWhitespace with
  | some p => exact .turn .top p hp hnext
  | none => exact .top hp hnext

theorem stepEnumHeader_spec {s : State} (hp : s.phase = .enumHeader) :
    Outcome s s.stepEnumHeader := by
  unfold State.stepEnumHeader
  cases hread : readEnumHeader s.cursor with
  | error e => exact .enumHeader e hp hread
  | ok r =>
    obtain ⟨name, elementType, c⟩ := r
    by_cases hname : name ∈ s.table.enumNames
    · simp only [Table.insertEnum_of_mem (e := ⟨name, elementType, []⟩) hname]
      exact .duplicateEnum name elementType c hp hread hname
    · simp only [Table.insertEnum_of_not_mem (e := ⟨name, elementType, []⟩) hname]
      exact .enumHeader name elementType c hp hread hname

theorem stepValues_spec {s : State} (hp : s.phase = .values) : Outcome s s.stepValues := by
  unfold State.stepValues
  dsimp only
  cases hnext : nextPhase? .values s.cursor.skipWhitespace with
  | some p => exact .turn .values p hp hnext
  | none =>
    dsimp only
    cases hread : readValue s.cursor.skipWhitespace with
    | error e => exact .value e hp hnext hread
    | ok r =>
      obtain ⟨value, c⟩ := r
      dsimp only
      cases hpush : s.openEnum.bind (s.table.pushValue? · value) with
      | some table => exact .value value c table hp hnext hread hpush
      | none => exact .strayValue value c hp hnext hread hpush

theorem stepFunctionHeader_spec {s : State} (hp : s.phase = .functionHeader) :
    Outcome s s.stepFunctionHeader := by
  unfold State.stepFunctionHeader
  cases hread : readFunctionHeader s.cursor with
  | error e => exact .functionHeader e hp hread
  | ok r =>
    obtain ⟨key, name, c⟩ := r
    by_cases hkey : key ∈ s.table.functionKeys
    · simp only [Table.insertFunction_of_mem (f := ⟨key, name, []⟩) hkey]
      exact .duplicateFunction key name c hp hread hkey
    · simp only [Table.insertFunction_of_not_mem (f := ⟨key, name, []⟩) hkey]
      exact .functionHeader key name c hp hread hkey

theorem stepParameters_spec {s : State} (hp : s.phase = .parameters) :
    Outcome s s.stepParameters := by
  unfold State.stepParameters
  dsimp only
  cases hnext : nextPhase? .parameters s.cursor.skipWhitespace with
  | some p => exact .turn .parameters p hp hnext
  | none =>
    dsimp only
    cases hread : readParameter s.cursor.skipWhitespace with
    | error e => exact .parameter e hp hnext hread
    | ok r =>
      obtain ⟨parameter, c⟩ := r
      dsimp only
      cases hpush : s.openFunction.bind (s.table.pushParameter? · parameter) with
      | some table => exact .parameter parameter c table hp hnext hread hpush
      | none => exact .strayParameter parameter c hp hnext hread hpush

/-- **A step succeeds with a transition or fails with a refusal.** -/
theorem step_spec (s : State) : Outcome s s.step := by
  unfold State.step
  cases hp : s.phase with
  | top => exact stepTop_spec hp
  | comment resume => exact .uncomment resume hp
  | enumHeader => exact stepEnumHeader_spec hp
  | values => exact stepValues_spec hp
  | functionHeader => exact stepFunctionHeader_spec hp
  | parameters => exact stepParameters_spec hp

theorem Transition.of_step {s s' : State} (h : s.step = .ok s') : Transition s s' := by
  have hs := step_spec s
  rwa [h] at hs

theorem Refusal.of_step {s : State} {e : SourceError} (h : s.step = .error e) : Refusal s e := by
  have hs := step_spec s
  rwa [h] at hs

/-- A transition is what the step does. -/
theorem Transition.step {s s' : State} (h : Transition s s') : s.step = .ok s' := by
  cases h with
  | turn resume p hphase hnext =>
    cases resume <;>
      simp only [State.step, hphase, Resume.phase, State.stepTop, State.stepValues,
        State.stepParameters, hnext]
  | uncomment resume hphase => simp only [State.step, hphase]
  | enumHeader name elementType c hphase hread hnew =>
    simp only [State.step, hphase, State.stepEnumHeader, hread,
      Table.insertEnum_of_not_mem (e := ⟨name, elementType, []⟩) hnew]
  | value value c table hphase hentry hread hpush =>
    simp only [State.step, hphase, State.stepValues, hentry, hread, hpush]
  | functionHeader key name c hphase hread hnew =>
    simp only [State.step, hphase, State.stepFunctionHeader, hread,
      Table.insertFunction_of_not_mem (f := ⟨key, name, []⟩) hnew]
  | parameter parameter c table hphase hentry hread hpush =>
    simp only [State.step, hphase, State.stepParameters, hentry, hread, hpush]

theorem step_eq_ok_iff {s s' : State} : s.step = .ok s' ↔ Transition s s' :=
  ⟨Transition.of_step, Transition.step⟩

/-! ## 2. Runs -/

theorem run_of_end {s : State} (hs : s.cursor.rest = []) : run s = .ok s.table := by
  rw [run, dif_pos hs]

theorem run_of_step {s s' : State} (hs : s.cursor.rest ≠ []) (h : s.step = .ok s') :
    run s = run s' := by
  rw [run, dif_neg hs]
  split
  · rename_i e he
    rw [h] at he
    cases he
  · rename_i s'' hs''
    rw [h] at hs''
    cases hs''
    rfl

theorem Transition.run_eq {s s' : State} (h : Transition s s') (hs : s.cursor.rest ≠ []) :
    run s = run s' := run_of_step hs h.step

theorem run_of_refusal {s : State} {e : SourceError} (hs : s.cursor.rest ≠ [])
    (h : s.step = .error e) : run s = .error e := by
  rw [run, dif_neg hs]
  split
  · rename_i e' he
    rw [h] at he
    cases he
    rfl
  · rename_i s' hs'
    rw [h] at hs'
    cases hs'

theorem visited_of_end {s : State} (hs : s.cursor.rest = []) : visited s = [s] := by
  rw [visited, dif_pos hs]

theorem visited_of_step {s s' : State} (hs : s.cursor.rest ≠ []) (h : s.step = .ok s') :
    visited s = s :: visited s' := by
  rw [visited, dif_neg hs]
  congr 1
  split
  · rename_i e he
    rw [h] at he
    cases he
  · rename_i s'' hs''
    rw [h] at hs''
    cases hs''
    rfl

theorem visited_of_refusal {s : State} {e : SourceError} (hs : s.cursor.rest ≠ [])
    (h : s.step = .error e) : visited s = [s] := by
  rw [visited, dif_neg hs]
  congr 1
  split
  · rfl
  · rename_i s' hs'
    rw [h] at hs'
    cases hs'

/-- **Induction along a run**: from the end backwards, a state is at the end of the source, before a
    transition, or at a refusal. -/
theorem run_induction {motive : State → Prop}
    (atEnd : ∀ s, s.cursor.rest = [] → motive s)
    (step : ∀ s s', s.cursor.rest ≠ [] → Transition s s' → motive s' → motive s)
    (refusal : ∀ s e, s.cursor.rest ≠ [] → s.step = .error e → motive s) (s : State) : motive s := by
  by_cases hs : s.cursor.rest = []
  · exact atEnd s hs
  · cases h : s.step with
    | error e => exact refusal s e hs h
    | ok s' =>
      have := weight_step hs h
      exact step s s' hs (.of_step h) (run_induction atEnd step refusal s')
termination_by s.weight

/-- A state that a run visits is its first, or is visited behind the first transition. -/
theorem visited_eq_append_cases {s s' : State} {mid after : List State}
    (h : visited s = mid ++ s' :: after) :
    (mid = [] ∧ s' = s) ∨ ∃ s₂ mid', s.cursor.rest ≠ [] ∧ Transition s s₂ ∧ mid = s :: mid' ∧
      visited s₂ = mid' ++ s' :: after := by
  have hcons : ∃ tail, visited s = s :: tail ∧
      (tail = [] ∨ ∃ s₂, s.cursor.rest ≠ [] ∧ Transition s s₂ ∧ tail = visited s₂) := by
    by_cases hs : s.cursor.rest = []
    · exact ⟨[], visited_of_end hs, Or.inl rfl⟩
    · cases hstep : s.step with
      | error e => exact ⟨[], visited_of_refusal hs hstep, Or.inl rfl⟩
      | ok s₂ => exact ⟨_, visited_of_step hs hstep, Or.inr ⟨s₂, hs, .of_step hstep, rfl⟩⟩
  obtain ⟨tail, hvisited, htail⟩ := hcons
  rw [hvisited] at h
  cases mid with
  | nil =>
    cases h
    exact Or.inl ⟨rfl, rfl⟩
  | cons m mid' =>
    obtain ⟨rfl, hrest⟩ := List.cons.inj h
    rcases htail with rfl | ⟨s₂, hs, ht, rfl⟩
    · simp at hrest
    · exact Or.inr ⟨s₂, mid', hs, ht, rfl, hrest⟩

/-- **What holds at the start and is kept by every transition holds at every state that a run
    visits**; it may speak of the states visited before. -/
theorem visited_induction {P : List State → State → Prop}
    (hstep : ∀ before s s', P before s → s.cursor.rest ≠ [] → Transition s s' → P (before ++ [s]) s')
    {s : State} {before : List State} (hs : P before s) {mid : List State} {s' : State}
    {after : List State} (h : visited s = mid ++ s' :: after) : P (before ++ mid) s' := by
  induction mid generalizing s before with
  | nil =>
    rcases visited_eq_append_cases h with ⟨-, rfl⟩ | ⟨_, _, _, _, hmid, _⟩
    · rwa [List.append_nil]
    · cases hmid
  | cons m mid ih =>
    rcases visited_eq_append_cases h with ⟨hmid, -⟩ | ⟨s₂, mid', hne, ht, hmid, hvisited⟩
    · cases hmid
    · cases hmid
      rw [List.append_cons]
      exact ih (hstep before m s₂ hs hne ht) hvisited

/-- What every transition keeps holds at every state that a run visits. -/
theorem forall_mem_visited {P : State → Prop}
    (hstep : ∀ s s', P s → s.cursor.rest ≠ [] → Transition s s' → P s') {s s' : State} (hs : P s)
    (h : s' ∈ visited s) : P s' := by
  obtain ⟨mid, after, h⟩ := List.append_of_mem h
  exact @visited_induction (fun _ s => P s) (fun _ => hstep) s [] hs mid s' after h

/-- A run gives what is given from any state on that it visits. -/
theorem run_of_mem_visited {s s' : State} (h : s' ∈ visited s) : run s = run s' :=
  forall_mem_visited (P := fun s' => run s = run s') (fun _ _ hs hne ht => hs.trans (ht.run_eq hne))
    rfl h

/-- The weight of the states that a run visits goes down. -/
theorem weight_lt_of_visited {s s' : State} {before after : List State}
    (h : visited s = before ++ s' :: after) : ∀ s₀ ∈ before, s'.weight < s₀.weight := by
  have hstep : ∀ (before : List State) (s s' : State), (∀ s₀ ∈ before, s.weight < s₀.weight) →
      s.cursor.rest ≠ [] → Transition s s' → ∀ s₀ ∈ before ++ [s], s'.weight < s₀.weight := by
    intro before s s' hs hne ht s₀ hs₀
    have hlt := weight_step hne ht.step
    rcases List.mem_append.mp hs₀ with hs₀ | hs₀
    · exact Nat.lt_trans hlt (hs s₀ hs₀)
    · rwa [List.mem_singleton.mp hs₀]
  have hnone : ∀ s₀ ∈ ([] : List State), s.weight < s₀.weight := fun _ h => nomatch h
  exact visited_induction (P := fun before s => ∀ s₀ ∈ before, s.weight < s₀.weight) hstep hnone h

/-- A state that a run visits right behind another is reached by a transition. -/
theorem transition_of_visited {s s₁ s₂ : State} {before after : List State}
    (h : visited s = before ++ s₁ :: s₂ :: after) : s₁.cursor.rest ≠ [] ∧ Transition s₁ s₂ := by
  induction before generalizing s with
  | nil =>
    have h' : visited s = [s₁] ++ s₂ :: after := h
    obtain ⟨t, mid', hne, ht, hmid, hvisited⟩ : ∃ t mid', s.cursor.rest ≠ [] ∧ Transition s t ∧
        [s₁] = s :: mid' ∧ visited t = mid' ++ s₂ :: after :=
      (visited_eq_append_cases h').resolve_left fun h => nomatch h.1
    cases hmid
    rcases visited_eq_append_cases hvisited with ⟨-, rfl⟩ | ⟨_, _, _, _, hmid, _⟩
    · exact ⟨hne, ht⟩
    · cases hmid
  | cons m mid ih =>
    rcases visited_eq_append_cases h with ⟨hmid, -⟩ | ⟨t, mid', -, -, hmid, hvisited⟩
    · cases hmid
    · cases hmid
      exact ih hvisited

/-- The table that a run gives is that of the last state it visits. -/
theorem getLast?_visited_of_run_ok {s : State} {t : Table} (h : run s = .ok t) :
    ∃ s', (visited s).getLast? = some s' ∧ s'.cursor.rest = [] ∧ s'.table = t := by
  induction s using run_induction with
  | atEnd s hend =>
    rw [run_of_end hend] at h
    cases h
    exact ⟨s, by rw [visited_of_end hend]; rfl, hend, rfl⟩
  | refusal s e hne he =>
    rw [run_of_refusal hne he] at h
    cases h
  | step s s₂ hne ht ih =>
    rw [run_of_step hne ht.step] at h
    obtain ⟨s', hs', hend, htable⟩ := ih h
    refine ⟨s', ?_, hend, htable⟩
    rw [visited_of_step hne ht.step, List.getLast?_cons, hs']
    rfl

/-- The error that a run gives is the refusal of the last state it visits. -/
theorem getLast?_visited_of_run_error {s : State} {e : SourceError} (h : run s = .error e) :
    ∃ s', (visited s).getLast? = some s' ∧ s'.cursor.rest ≠ [] ∧ Refusal s' e := by
  induction s using run_induction with
  | atEnd s hend =>
    rw [run_of_end hend] at h
    cases h
  | refusal s e' hne he =>
    rw [run_of_refusal hne he] at h
    cases h
    exact ⟨s, by rw [visited_of_refusal hne he]; rfl, hne, .of_step he⟩
  | step s s₂ hne ht ih =>
    rw [run_of_step hne ht.step] at h
    obtain ⟨s', hs', hend, href⟩ := ih h
    refine ⟨s', ?_, hend, href⟩
    rw [visited_of_step hne ht.step, List.getLast?_cons, hs']
    rfl

theorem exists_visited_of_run_error {s : State} {e : SourceError} (h : run s = .error e) :
    ∃ s' ∈ visited s, s'.cursor.rest ≠ [] ∧ Refusal s' e := by
  obtain ⟨s', hlast, hne, href⟩ := getLast?_visited_of_run_error h
  exact ⟨s', List.mem_of_getLast? hlast, hne, href⟩

end Parser
end FunctionMap
