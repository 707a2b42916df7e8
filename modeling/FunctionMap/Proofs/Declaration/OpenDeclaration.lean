import FunctionMap.Proofs.Declaration.Place

/-!
# Entries belong to the declaration opened last

A list has no mark of its own in a source, so the parser has to remember which declaration its
entries belong to, also over comments and over the end of other lists. This file states what holds
whenever the parser is about to take a step:

* `State.Consistent` -- in a list, and in a comment that interrupts one, the open declaration is the
  last of its kind and none of the other kind is open; a header or a comment is entered at its first
  character;
* `OpenedLast before s` -- that declaration is the one of the last header among the states `before`;
* `Growth s s'` -- what a step adds to the table: a declaration without entries behind the others, or
  an entry to the last one. Everything else stays.

Main statement: `entries_belong_to_last_header`, for every state that the parser visits on any
source; in particular no source leads to a stray entry.
-/

namespace FunctionMap
namespace Parser

/-! ## 1. The invariant -/

/-- The phase reads the list or level that `r` names, or a comment that interrupts it. -/
def Phase.Within (p : Phase) (r : Resume) : Prop := p = r.phase ∨ p = .comment r

/-- What the phase of a state says about the open declaration and the cursor. -/
structure State.Consistent (s : State) : Prop where
  values : s.phase.Within .values → s.table.enums ≠ [] ∧
    s.openEnum = some (s.table.enums.length - 1) ∧ s.openFunction = none
  parameters : s.phase.Within .parameters → s.table.functions ≠ [] ∧
    s.openFunction = some (s.table.functions.length - 1) ∧ s.openEnum = none
  enumHeader : s.phase = .enumHeader → s.cursor.current? = some 'm'
  functionHeader : s.phase = .functionHeader → s.cursor.current? = some '['
  comment : ∀ r, s.phase = .comment r → s.cursor.current? = some '#'

/-- The last header among some states. -/
def lastHeader? (states : List State) : Option Header := (states.filterMap State.header?).getLast?

/-- In a list, the last declaration of the kind of the list is that of the last header before. -/
structure OpenedLast (before : List State) (s : State) : Prop where
  values : s.phase.Within .values → ∃ es e, s.table.enums = es ++ [e] ∧
    lastHeader? before = some (.enumeration e.name e.elementType)
  parameters : s.phase.Within .parameters → ∃ fs f, s.table.functions = fs ++ [f] ∧
    lastHeader? before = some (.function f.key f.name)

/-- What a step from `s` to `s'` does to the table, by the phase of `s`. -/
def Growth (s s' : State) : Prop :=
  match s.phase with
  | .top | .comment _ => s'.table = s.table
  | .enumHeader => ∃ name elementType, s.header? = some (.enumeration name elementType) ∧
      s'.table = ⟨s.table.enums ++ [⟨name, elementType, []⟩], s.table.functions⟩
  | .functionHeader => ∃ key name, s.header? = some (.function key name) ∧
      s'.table = ⟨s.table.enums, s.table.functions ++ [⟨key, name, []⟩]⟩
  | .values =>
      ((nextPhase? .values s.cursor.skipWhitespace).isSome ∧ s'.table = s.table) ∨
      ∃ es e value, readValue s.cursor.skipWhitespace = .ok (value, s'.cursor) ∧
        s.table.enums = es ++ [e] ∧
        s'.table = ⟨es ++ [{ e with values := e.values ++ [value] }], s.table.functions⟩
  | .parameters =>
      ((nextPhase? .parameters s.cursor.skipWhitespace).isSome ∧ s'.table = s.table) ∨
      ∃ fs f parameter, readParameter s.cursor.skipWhitespace = .ok (parameter, s'.cursor) ∧
        s.table.functions = fs ++ [f] ∧
        s'.table = ⟨s.table.enums, fs ++ [{ f with parameters := f.parameters ++ [parameter] }]⟩

theorem consistent_start (c : Cursor) : (State.start c).Consistent where
  values h := by rcases h with h | h <;> cases h
  parameters h := by rcases h with h | h <;> cases h
  enumHeader h := by cases h
  functionHeader h := by cases h
  comment r h := by cases h

theorem openedLast_start (c : Cursor) : OpenedLast [] (State.start c) where
  values h := by rcases h with h | h <;> cases h
  parameters h := by rcases h with h | h <;> cases h

theorem Resume.phase_injective {r r' : Resume} (h : r.phase = r'.phase) : r = r' := by
  cases r <;> cases r' <;> first | rfl | cases h

/-- A phase that stands behind white space: the end is the end of all lists, a comment resumes the
    list it interrupts, and a header is entered at its first character. -/
theorem nextPhase?_eq_some_cases {resume : Resume} {c : Cursor} {p : Phase}
    (h : nextPhase? resume c = some p) :
    (c.rest = [] ∧ p = .top) ∨ (c.current? = some '#' ∧ p = .comment resume) ∨
      (c.current? = some 'm' ∧ p = .enumHeader) ∨ (c.current? = some '[' ∧ p = .functionHeader) := by
  unfold nextPhase? at h
  unfold Cursor.current?
  split at h
  · rename_i hc
    cases h
    exact Or.inl ⟨hc, rfl⟩
  · rename_i x rest hc
    rw [hc]
    right
    split at h
    · rename_i hx
      cases h
      exact Or.inl ⟨by rw [hx]; rfl, rfl⟩
    · split at h
      · rename_i hx
        cases h
        exact Or.inr (Or.inl ⟨by rw [hx]; rfl, rfl⟩)
      · split at h
        · rename_i hx
          cases h
          exact Or.inr (Or.inr ⟨by rw [hx]; rfl, rfl⟩)
        · cases h

theorem not_within_enumHeader (r : Resume) : ¬ Phase.enumHeader.Within r := by
  intro h
  rcases h with h | h
  · cases r <;> cases h
  · cases h

theorem not_within_functionHeader (r : Resume) : ¬ Phase.functionHeader.Within r := by
  intro h
  rcases h with h | h
  · cases r <;> cases h
  · cases h

/-- A phase is within one list or level at most. -/
theorem Phase.Within.unique {p : Phase} {r r' : Resume} (h : p.Within r) (h' : p.Within r') :
    r = r' := by
  rcases h with rfl | rfl <;> rcases h' with h' | h'
  · exact Resume.phase_injective h'
  · cases r <;> cases h'
  · cases r' <;> cases h'
  · cases h'
    rfl

/-! ## 2. Where entries go -/

/-- In a list of values the values go to the last enumeration. -/
theorem State.Consistent.pushValue {s : State} (hs : s.Consistent)
    (hp : s.phase.Within .values) : ∃ es e, s.table.enums = es ++ [e] ∧
      s.openEnum = some es.length ∧ ∀ value, s.openEnum.bind (s.table.pushValue? · value)
        = some ⟨es ++ [{ e with values := e.values ++ [value] }], s.table.functions⟩ := by
  obtain ⟨hne, hopen, -⟩ := hs.values hp
  obtain ⟨es, e, he⟩ : ∃ es e, s.table.enums = es ++ [e] :=
    ⟨_, _, (List.dropLast_concat_getLast hne).symm⟩
  have hlen : s.openEnum = some es.length := by
    rw [hopen, he, List.length_append]
    rfl
  have htable : s.table = ⟨es ++ [e], s.table.functions⟩ := by rw [← he]
  refine ⟨es, e, he, hlen, fun value => ?_⟩
  rw [hlen, Option.bind_some, htable]
  exact Table.pushValue?_last es e _ value

/-- In a list of parameters the parameters go to the last function. -/
theorem State.Consistent.pushParameter {s : State} (hs : s.Consistent)
    (hp : s.phase.Within .parameters) : ∃ fs f, s.table.functions = fs ++ [f] ∧
      s.openFunction = some fs.length ∧
      ∀ parameter, s.openFunction.bind (s.table.pushParameter? · parameter)
        = some ⟨s.table.enums, fs ++ [{ f with parameters := f.parameters ++ [parameter] }]⟩ := by
  obtain ⟨hne, hopen, -⟩ := hs.parameters hp
  obtain ⟨fs, f, hf⟩ : ∃ fs f, s.table.functions = fs ++ [f] :=
    ⟨_, _, (List.dropLast_concat_getLast hne).symm⟩
  have hlen : s.openFunction = some fs.length := by
    rw [hopen, hf, List.length_append]
    rfl
  have htable : s.table = ⟨s.table.enums, fs ++ [f]⟩ := by rw [← hf]
  refine ⟨fs, f, hf, hlen, fun parameter => ?_⟩
  rw [hlen, Option.bind_some, htable]
  exact Table.pushParameter?_last _ fs f parameter

theorem State.Consistent.value_pushed {s : State} (hs : s.Consistent)
    (hp : s.phase.Within .values) {value : EnumValue} {table : Table}
    (h : s.openEnum.bind (s.table.pushValue? · value) = some table) :
    ∃ es e, s.table.enums = es ++ [e] ∧ s.openEnum = some es.length ∧
      table = ⟨es ++ [{ e with values := e.values ++ [value] }], s.table.functions⟩ := by
  obtain ⟨es, e, he, hopen, hlast⟩ := hs.pushValue hp
  exact ⟨es, e, he, hopen, Option.some.inj (h.symm.trans (hlast value))⟩

theorem State.Consistent.parameter_pushed {s : State} (hs : s.Consistent)
    (hp : s.phase.Within .parameters) {parameter : Parameter} {table : Table}
    (h : s.openFunction.bind (s.table.pushParameter? · parameter) = some table) :
    ∃ fs f, s.table.functions = fs ++ [f] ∧ s.openFunction = some fs.length ∧
      table = ⟨s.table.enums, fs ++ [{ f with parameters := f.parameters ++ [parameter] }]⟩ := by
  obtain ⟨fs, f, hf, hopen, hlast⟩ := hs.pushParameter hp
  exact ⟨fs, f, hf, hopen, Option.some.inj (h.symm.trans (hlast parameter))⟩

theorem within_self {s : State} {r : Resume} (h : s.phase = r.phase) : s.phase.Within r := Or.inl h

/-- **A step adds what its phase says and leaves all earlier declarations alone.** -/
theorem Transition.growth {s s' : State} (h : Transition s s') (hs : s.Consistent) :
    Growth s s' := by
  unfold Growth
  cases h with
  | turn resume p hphase hnext =>
    cases resume with
    | top => rw [hphase, Resume.phase]
    | values =>
      rw [hphase]
      exact Or.inl ⟨by rw [hnext]; rfl, rfl⟩
    | parameters =>
      rw [hphase]
      exact Or.inl ⟨by rw [hnext]; rfl, rfl⟩
  | uncomment resume hphase => rw [hphase]
  | enumHeader name elementType c hphase hread hnew =>
    rw [hphase]
    refine ⟨name, elementType, ?_, rfl⟩
    simp only [State.header?, hphase, hread]
  | functionHeader key name c hphase hread hnew =>
    rw [hphase]
    refine ⟨key, name, ?_, rfl⟩
    simp only [State.header?, hphase, hread]
  | value value c table hphase hentry hread hpush =>
    obtain ⟨es, e, he, -, htable⟩ := hs.value_pushed (within_self hphase) hpush
    rw [hphase]
    exact Or.inr ⟨es, e, value, hread, he, htable⟩
  | parameter parameter c table hphase hentry hread hpush =>
    obtain ⟨fs, f, hf, -, htable⟩ := hs.parameter_pushed (within_self hphase) hpush
    rw [hphase]
    exact Or.inr ⟨fs, f, parameter, hread, hf, htable⟩

/-! ## 3. The invariant along a run -/

/-- The invariant inside a list or level: only its own field asks for anything. -/
theorem consistent_of_phase {s : State} {r : Resume} (hp : s.phase = r.phase)
    (hv : r = .values → s.table.enums ≠ [] ∧
      s.openEnum = some (s.table.enums.length - 1) ∧ s.openFunction = none)
    (hf : r = .parameters → s.table.functions ≠ [] ∧
      s.openFunction = some (s.table.functions.length - 1) ∧ s.openEnum = none) : s.Consistent where
  values h := hv (Phase.Within.unique (Or.inl hp) h)
  parameters h := hf (Phase.Within.unique (Or.inl hp) h)
  enumHeader h := by rw [hp] at h; cases r <;> cases h
  functionHeader h := by rw [hp] at h; cases r <;> cases h
  comment r' h := by rw [hp] at h; cases r <;> cases h

theorem consistent_of_values {s : State} (hp : s.phase = .values) (hne : s.table.enums ≠ [])
    (henum : s.openEnum = some (s.table.enums.length - 1)) (hfunction : s.openFunction = none) :
    s.Consistent :=
  consistent_of_phase (r := .values) hp (fun _ => ⟨hne, henum, hfunction⟩) (fun h => by cases h)

theorem consistent_of_parameters {s : State} (hp : s.phase = .parameters)
    (hne : s.table.functions ≠ []) (hfunction : s.openFunction = some (s.table.functions.length - 1))
    (henum : s.openEnum = none) : s.Consistent :=
  consistent_of_phase (r := .parameters) hp (fun h => by cases h) (fun _ => ⟨hne, hfunction, henum⟩)

/-- The invariant where a header or a comment is entered. -/
theorem State.Consistent.turn {s : State} (hs : s.Consistent) {resume : Resume} {p : Phase}
    (hphase : s.phase = resume.phase) (hnext : nextPhase? resume s.cursor.skipWhitespace = some p) :
    State.Consistent { s with phase := p, cursor := s.cursor.skipWhitespace } := by
  rcases nextPhase?_eq_some_cases hnext with ⟨-, rfl⟩ | ⟨hc, rfl⟩ | ⟨hc, rfl⟩ | ⟨hc, rfl⟩
  · exact consistent_of_phase (r := .top) rfl (fun h => nomatch h) (fun h => nomatch h)
  · refine ⟨fun h => ?_, fun h => ?_, (fun h => nomatch h), (fun h => nomatch h), fun _ _ => hc⟩
    · obtain rfl := Phase.Within.unique (Or.inr rfl) h
      exact hs.values (Or.inl hphase)
    · obtain rfl := Phase.Within.unique (Or.inr rfl) h
      exact hs.parameters (Or.inl hphase)
  · exact ⟨fun h => absurd h (not_within_enumHeader _), fun h => absurd h (not_within_enumHeader _),
      fun _ => hc, (fun h => nomatch h), (fun _ h => nomatch h)⟩
  · exact ⟨fun h => absurd h (not_within_functionHeader _),
      fun h => absurd h (not_within_functionHeader _), (fun h => nomatch h), fun _ => hc,
      (fun _ h => nomatch h)⟩

/-- **Every step keeps the invariant.** -/
theorem Transition.consistent {s s' : State} (h : Transition s s') (hs : s.Consistent) :
    s'.Consistent := by
  cases h with
  | turn resume p hphase hnext => exact hs.turn hphase hnext
  | uncomment resume hphase =>
    refine consistent_of_phase (r := resume) rfl (fun h => ?_) (fun h => ?_)
    · subst h
      exact hs.values (Or.inr hphase)
    · subst h
      exact hs.parameters (Or.inr hphase)
  | enumHeader name elementType c hphase hread hnew =>
    refine consistent_of_values rfl ?_ ?_ rfl
    · exact List.append_ne_nil_of_right_ne_nil _ (List.cons_ne_nil _ _)
    · simp [Table.addEnum]
  | functionHeader key name c hphase hread hnew =>
    refine consistent_of_parameters rfl ?_ ?_ rfl
    · exact List.append_ne_nil_of_right_ne_nil _ (List.cons_ne_nil _ _)
    · simp [Table.addFunction]
  | value value c table hphase hentry hread hpush =>
    have hw : s.phase.Within .values := within_self hphase
    obtain ⟨es, e, he, hopen, htable⟩ := hs.value_pushed hw hpush
    refine consistent_of_values hphase ?_ ?_ (hs.values hw).2.2
    · rw [htable]
      exact List.append_ne_nil_of_right_ne_nil _ (List.cons_ne_nil _ _)
    · simp [htable, hopen]
  | parameter parameter c table hphase hentry hread hpush =>
    have hw : s.phase.Within .parameters := within_self hphase
    obtain ⟨fs, f, hf, hopen, htable⟩ := hs.parameter_pushed hw hpush
    refine consistent_of_parameters hphase ?_ ?_ (hs.parameters hw).2.2
    · rw [htable]
      exact List.append_ne_nil_of_right_ne_nil _ (List.cons_ne_nil _ _)
    · simp [htable, hopen]

theorem lastHeader?_append_of_none {before : List State} {s : State} (h : s.header? = none) :
    lastHeader? (before ++ [s]) = lastHeader? before := by
  simp [lastHeader?, List.filterMap_append, h]

theorem lastHeader?_append_of_some {before : List State} {s : State} {x : Header}
    (h : s.header? = some x) : lastHeader? (before ++ [s]) = some x := by
  simp [lastHeader?, List.filterMap_append, h]

theorem header?_eq_none {s : State} {r : Resume} (h : s.phase.Within r) : s.header? = none := by
  rcases h with h | h
  · cases r <;> simp only [State.header?, h, Resume.phase]
  · simp only [State.header?, h]

/-- A step that reads no header and leaves the table as it is keeps the lists with the last
    header, if it leads to no other list. -/
theorem OpenedLast.keep {before : List State} {s s' : State} (hb : OpenedLast before s)
    (hheader : s.header? = none) (htable : s'.table = s.table)
    (hwithin : ∀ r, r ≠ .top → s'.phase.Within r → s.phase.Within r) :
    OpenedLast (before ++ [s]) s' where
  values h := by
    rw [htable, lastHeader?_append_of_none hheader]
    exact hb.values (hwithin _ (by decide) h)
  parameters h := by
    rw [htable, lastHeader?_append_of_none hheader]
    exact hb.parameters (hwithin _ (by decide) h)

theorem openedLast_of_values {before : List State} {s : State} (hp : s.phase = .values)
    {es : List Enumeration} {e : Enumeration} (he : s.table.enums = es ++ [e])
    (hlast : lastHeader? before = some (.enumeration e.name e.elementType)) :
    OpenedLast before s where
  values _ := ⟨es, e, he, hlast⟩
  parameters h := by cases Phase.Within.unique (r := .values) (Or.inl hp) h

theorem openedLast_of_parameters {before : List State} {s : State} (hp : s.phase = .parameters)
    {fs : List Function} {f : Function} (hf : s.table.functions = fs ++ [f])
    (hlast : lastHeader? before = some (.function f.key f.name)) : OpenedLast before s where
  values h := by cases Phase.Within.unique (r := .parameters) (Or.inl hp) h
  parameters _ := ⟨fs, f, hf, hlast⟩

/-- **Every step keeps the lists with the last header.** -/
theorem Transition.openedLast {s s' : State} (h : Transition s s') (hs : s.Consistent)
    {before : List State} (hb : OpenedLast before s) : OpenedLast (before ++ [s]) s' := by
  cases h with
  | turn resume p hphase hnext =>
    refine hb.keep (header?_eq_none (within_self hphase)) rfl fun r htop hr => ?_
    rcases nextPhase?_eq_some_cases hnext with ⟨-, rfl⟩ | ⟨-, rfl⟩ | ⟨-, rfl⟩ | ⟨-, rfl⟩
    · exact absurd (Phase.Within.unique (r := .top) (Or.inl rfl) hr).symm htop
    · obtain rfl := Phase.Within.unique (Or.inr rfl) hr
      exact Or.inl hphase
    · exact absurd hr (not_within_enumHeader r)
    · exact absurd hr (not_within_functionHeader r)
  | uncomment resume hphase =>
    refine hb.keep (header?_eq_none (Or.inr hphase)) rfl fun r _ hr => ?_
    obtain rfl := Phase.Within.unique (Or.inl rfl) hr
    exact Or.inr hphase
  | enumHeader name elementType c hphase hread hnew =>
    have hheader : s.header? = some (.enumeration name elementType) := by
      simp only [State.header?, hphase, hread]
    exact openedLast_of_values rfl rfl (lastHeader?_append_of_some hheader)
  | functionHeader key name c hphase hread hnew =>
    have hheader : s.header? = some (.function key name) := by
      simp only [State.header?, hphase, hread]
    exact openedLast_of_parameters rfl rfl (lastHeader?_append_of_some hheader)
  | value value c table hphase hentry hread hpush =>
    have hw : s.phase.Within .values := within_self hphase
    obtain ⟨es, e, he, -, htable⟩ := hs.value_pushed hw hpush
    obtain ⟨es', e', he', hlast⟩ := hb.values hw
    obtain ⟨rfl, hlast'⟩ := List.append_inj' (he.symm.trans he') rfl
    cases hlast'
    rw [← lastHeader?_append_of_none (header?_eq_none hw)] at hlast
    exact openedLast_of_values hphase (congrArg Table.enums htable) hlast
  | parameter parameter c table hphase hentry hread hpush =>
    have hw : s.phase.Within .parameters := within_self hphase
    obtain ⟨fs, f, hf, -, htable⟩ := hs.parameter_pushed hw hpush
    obtain ⟨fs', f', hf', hlast⟩ := hb.parameters hw
    obtain ⟨rfl, hlast'⟩ := List.append_inj' (hf.symm.trans hf') rfl
    cases hlast'
    rw [← lastHeader?_append_of_none (header?_eq_none hw)] at hlast
    exact openedLast_of_parameters hphase (congrArg Table.functions htable) hlast

/-! ## 4. Refusals -/

/-- The error of a header whose key is in the table already. -/
inductive Repeats (s : State) : SourceError → Prop where
  | enumeration (name elementType : String)
      (hheader : s.header? = some (.enumeration name elementType))
      (hold : name ∈ s.table.enumNames) : Repeats s (.duplicate .enumeration name)
  | function (key : FunctionKey) (name : String) (hheader : s.header? = some (.function key name))
      (hold : key ∈ s.table.functionKeys) : Repeats s (.duplicate .function key.text)

/-- **Whatever is refused in a state that meets the invariant points into the text or repeats a
    key**: every entry has a declaration to belong to. -/
theorem Refusal.pointsInto_or_repeats {s : State} {e : SourceError} (h : Refusal s e)
    (hs : s.Consistent) {text : List Char} (htext : s.cursor.In text) :
    e.PointsInto text s.phase.dueWidth ∨ Repeats s e := by
  cases h with
  | top hphase hnext => exact Or.inl htext.skipWhitespace.pointsInto_unexpected
  | enumHeader e hphase hread => exact Or.inl ((reads_readEnumHeader htext).error e hread)
  | duplicateEnum name elementType c hphase hread hold =>
    have hheader : s.header? = some (.enumeration name elementType) := by
      simp only [State.header?, hphase, hread]
    exact Or.inr (.enumeration name elementType hheader hold)
  | value e hphase hentry hread =>
    rw [hphase]
    exact Or.inl ((reads_readValue htext.skipWhitespace).error e hread)
  | strayValue value c hphase hentry hread hpush =>
    obtain ⟨es, e, -, -, hlast⟩ := hs.pushValue (within_self (r := .values) hphase)
    rw [hlast value] at hpush
    cases hpush
  | functionHeader e hphase hread =>
    rw [hphase]
    exact Or.inl ((reads_readFunctionHeader htext).error e hread)
  | duplicateFunction key name c hphase hread hold =>
    have hheader : s.header? = some (.function key name) := by
      simp only [State.header?, hphase, hread]
    exact Or.inr (.function key name hheader hold)
  | parameter e hphase hentry hread =>
    exact Or.inl ((reads_readParameter htext.skipWhitespace).error e hread)
  | strayParameter parameter c hphase hentry hread hpush =>
    obtain ⟨fs, f, -, -, hlast⟩ := hs.pushParameter (within_self (r := .parameters) hphase)
    rw [hlast parameter] at hpush
    cases hpush

theorem Refusal.located_or_duplicate {s : State} {e : SourceError} (h : Refusal s e)
    (hs : s.Consistent) : e.Located ∨ ∃ kind key, e = .duplicate kind key := by
  obtain ⟨text, htext⟩ := s.cursor.exists_in
  rcases h.pointsInto_or_repeats hs htext with he | he
  · exact Or.inl he.located
  · cases he <;> exact Or.inr ⟨_, _, rfl⟩

/-! ## 5. All states of a run -/

theorem invariant_of_visited {c : Cursor} {before after : List State} {s : State}
    (h : visited (State.start c) = before ++ s :: after) : s.Consistent ∧ OpenedLast before s := by
  have hstep : ∀ before s s', s.Consistent ∧ OpenedLast before s → s.cursor.rest ≠ [] →
      Transition s s' → s'.Consistent ∧ OpenedLast (before ++ [s]) s' :=
    fun before s s' hs _ ht => ⟨ht.consistent hs.1, ht.openedLast hs.1 hs.2⟩
  have hstart : (State.start c).Consistent ∧ OpenedLast [] (State.start c) :=
    ⟨consistent_start c, openedLast_start c⟩
  exact visited_induction (P := fun before s => s.Consistent ∧ OpenedLast before s) hstep hstart h

theorem consistent_of_mem_visited {c : Cursor} {s : State} (h : s ∈ visited (State.start c)) :
    s.Consistent := by
  obtain ⟨before, after, h⟩ := List.append_of_mem h
  exact (invariant_of_visited h).1

/-- A run ends at top level or in a list: a header or a comment is only entered where something
    is still to be read. -/
theorem State.Consistent.phase_of_end {s : State} (hs : s.Consistent) (hend : s.cursor.rest = []) :
    s.phase = .top ∨ s.phase = .values ∨ s.phase = .parameters := by
  have hnone : s.cursor.current? = none := by rw [Cursor.current?, hend, List.head?_nil]
  cases hphase : s.phase with
  | top => exact Or.inl rfl
  | values => exact Or.inr (Or.inl rfl)
  | parameters => exact Or.inr (Or.inr rfl)
  | enumHeader =>
    have h := hs.enumHeader hphase
    rw [hnone] at h
    cases h
  | functionHeader =>
    have h := hs.functionHeader hphase
    rw [hnone] at h
    cases h
  | comment r =>
    have h := hs.comment r hphase
    rw [hnone] at h
    cases h

/-- The states that the parser goes through on a source. -/
def statesOf (source : Bytes) : List State :=
  match Cursor.ofBytes source with
  | .error _ => []
  | .ok c => visited (.start c)

theorem parse_eq_run {source : Bytes} {c : Cursor} (hc : Cursor.ofBytes source = .ok c) :
    parse source = run (.start c) ∧ statesOf source = visited (.start c) := by
  constructor
  · rw [parse, hc]
    rfl
  · rw [statesOf, hc]

theorem parse_of_notUtf8 {source : Bytes} {e : SourceError} (hc : Cursor.ofBytes source = .error e) :
    parse source = .error e ∧ statesOf source = [] := by
  constructor
  · rw [parse, hc]
    rfl
  · rw [statesOf, hc]

theorem eq_notUtf8_of_ofBytes {source : Bytes} {e : SourceError}
    (hc : Cursor.ofBytes source = .error e) : ∃ offset, e = .notUtf8 offset := by
  obtain ⟨offset, -, he⟩ := Cursor.ofBytes_eq_error_iff.mp hc
  exact ⟨offset, he⟩

/-- **Entries belong to the declaration opened last.** Whatever state the parser is in on whatever
    source, the open declaration is the last one of its kind, and the one of the last header read;
    headers and comments are entered at their first character; the parser stops at top level or in
    a list; and from each state to the next the table gains one declaration at its end, one entry
    of the open declaration, or nothing. The table it gives is the one it ends with, and it never
    gives a stray entry. -/
theorem entries_belong_to_last_header (source : Bytes) :
    (∀ before s after, statesOf source = before ++ s :: after →
      s.Consistent ∧ OpenedLast before s ∧
      (s.cursor.rest = [] → s.phase = .top ∨ s.phase = .values ∨ s.phase = .parameters) ∧
      ∀ s' ∈ after.head?, Growth s s') ∧
    (∀ t, parse source = .ok t →
      ∃ s, (statesOf source).getLast? = some s ∧ s.cursor.rest = [] ∧ s.table = t) ∧
    ∀ what, parse source ≠ .error (.strayEntry what) := by
  cases hc : Cursor.ofBytes source with
  | error e =>
    obtain ⟨hparse, hstates⟩ := parse_of_notUtf8 hc
    obtain ⟨offset, rfl⟩ := eq_notUtf8_of_ofBytes hc
    rw [hparse, hstates]
    refine ⟨fun before s after h => ?_, (fun t ht => nomatch ht), (fun what h => nomatch h)⟩
    exact absurd h.symm (List.append_ne_nil_of_right_ne_nil _ (List.cons_ne_nil _ _))
  | ok c =>
    obtain ⟨hparse, hstates⟩ := parse_eq_run hc
    rw [hparse, hstates]
    refine ⟨fun before s after h => ?_, fun t ht => getLast?_visited_of_run_ok ht, ?_⟩
    · obtain ⟨hs, hb⟩ := invariant_of_visited h
      refine ⟨hs, hb, hs.phase_of_end, fun s' hs' => ?_⟩
      obtain ⟨after', rfl⟩ := List.head?_eq_some_iff.mp hs'
      exact (transition_of_visited h).2.growth hs
    · intro what h
      obtain ⟨s, hs, -, href⟩ := exists_visited_of_run_error h
      rcases href.located_or_duplicate (consistent_of_mem_visited hs) with he | ⟨_, _, he⟩
      · cases he
      · cases he

/-- The header of `K` is read before the value 7, so 7 goes to `K`. -/
theorem value_belongs_to_header_of_K :
    let header : State := ⟨.enumHeader, ⟨0, "map K T 7".toList⟩, .empty, none, none⟩
    let opened : State := ⟨.values, ⟨7, " 7".toList⟩, ⟨[⟨"K", "T", []⟩], []⟩, some 0, none⟩
    let closed : State := ⟨.values, ⟨9, []⟩, ⟨[⟨"K", "T", [⟨7, ""⟩]⟩], []⟩, some 0, none⟩
    let before := [State.start (.ofText "map K T 7".toList), header]
    statesOf (Utf8.encode "map K T 7".toList) = before ++ opened :: [closed] ∧
      OpenedLast before opened ∧ Growth opened closed := by
  intro header opened closed before
  have hstates : statesOf (Utf8.encode "map K T 7".toList) = before ++ opened :: [closed] := by
    decide +kernel
  obtain ⟨hvisited, -, -⟩ := entries_belong_to_last_header (Utf8.encode "map K T 7".toList)
  obtain ⟨-, hlast, -, hgrowth⟩ := hvisited before opened [closed] hstates
  exact ⟨hstates, hlast, hgrowth closed rfl⟩

end Parser
end FunctionMap
