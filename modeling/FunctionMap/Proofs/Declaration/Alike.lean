import FunctionMap.Proofs.Source.Alike
import FunctionMap.Proofs.Declaration.OpenDeclaration

/-!
# Runs that read alike

Where cursors read alike, so do the readers of the parser, its steps and its runs: two states that
differ only in their cursors give the same table or related errors, however far apart the cursors
are. The readers are compared part by part; a step needs the invariant of a run, since a comment is
only skipped where one starts.

Main statement: `Alike.run`.
-/

namespace FunctionMap
namespace Parser

/-- States that differ in their cursors only, which `C` relates. -/
inductive State.Like (C : Cursor → Cursor → Prop) (s : State) : State → Prop where
  | mk {c' : Cursor} (hc : C s.cursor c') : State.Like C s { s with cursor := c' }

/-- A step in a list whose entries are read by `read` and go into the table by `push`. -/
def State.stepList {α : Type} (r : Resume) (read : Cursor → Except SourceError (α × Cursor))
    (push : α → Option Table) (stray : SourceError) (s : State) : Except SourceError State :=
  let c := s.cursor.skipWhitespace
  match nextPhase? r c with
  | some phase => .ok { s with phase, cursor := c }
  | none =>
    match read c with
    | .error e => .error e
    | .ok (entry, c) =>
      match push entry with
      | some table => .ok { s with cursor := c, table }
      | none => .error stray

theorem stepValues_eq_stepList (s : State) : s.stepValues = s.stepList .values readValue
    (fun value => s.openEnum.bind (s.table.pushValue? · value))
    (.strayEntry "enum value outside of a map declaration") := by
  unfold State.stepValues State.stepList
  dsimp only
  cases nextPhase? .values s.cursor.skipWhitespace with
  | some phase => rfl
  | none =>
    cases readValue s.cursor.skipWhitespace with
    | error e => rfl
    | ok entry =>
      cases hpush : s.openEnum.bind (s.table.pushValue? · entry.1) <;> simp only [hpush]

theorem stepParameters_eq_stepList (s : State) : s.stepParameters = s.stepList .parameters
    readParameter (fun parameter => s.openFunction.bind (s.table.pushParameter? · parameter))
    (.strayEntry "parameter outside of a function declaration") := by
  unfold State.stepParameters State.stepList
  dsimp only
  cases nextPhase? .parameters s.cursor.skipWhitespace with
  | some phase => rfl
  | none =>
    cases readParameter s.cursor.skipWhitespace with
    | error e => rfl
    | ok entry =>
      cases hpush : s.openFunction.bind (s.table.pushParameter? · entry.1) <;> simp only [hpush]

end Parser

/-- The keyword of enumerations is neither white space nor a comment. -/
theorem plain_mapKeyword : ∀ x ∈ Symbol.mapKeyword, Symbol.isWhitespace x = false ∧ x ≠ '#' := by
  simp [Symbol.mapKeyword, Symbol.isWhitespace]

namespace Alike

open FunctionMap.Parser

variable {C : Cursor → Cursor → Prop} {E : SourceError → SourceError → Prop} (h : Alike C E)

include h

/-! ## 1. Readers -/

section Readers

variable {c c' : Cursor} (hc : C c c')

include hc

theorem readEnumHeader : Agree (fun r r' => r.1 = r'.1 ∧ r.2.1 = r'.2.1 ∧ C r.2.2 r'.2.2) E
    (readEnumHeader c) (readEnumHeader c') := by
  unfold Parser.readEnumHeader
  rcases h.expectWord Symbol.mapKeywordText plain_mapKeyword hc with
    ⟨d, d', hd, hd', hc₁⟩ | ⟨e, e', d, d', hd, hd', he⟩
  · rw [hd, hd']
    refine (h.readToken_skipWhitespace hc₁).bind fun (name, c₂) (name', c₂') ⟨hname, hc₂⟩ => ?_
    refine (h.readToken_skipWhitespace hc₂).bind fun (type, c₃) (type', c₃') ⟨htype, hc₃⟩ => ?_
    exact .ok ⟨hname.text, htype.text, hc₃⟩
  · rw [hd, hd']
    exact .error he

theorem readFunctionHeader : Agree (fun r r' => r.1 = r'.1 ∧ r.2.1 = r'.2.1 ∧ C r.2.2 r'.2.2) E
    (readFunctionHeader c) (readFunctionHeader c') := by
  refine (h.expect c c' _ _ hc (by decide) (by decide)).bind fun c₁ c₁' hc₁ => ?_
  refine (h.readToken_skipWhitespace hc₁).bind fun (group, c₂) (group', c₂') ⟨ht, hc₂⟩ => ?_
  refine ht.integer.bind fun key key' hkey => ?_
  refine (h.expect_skipWhitespace hc₂ _ (by decide) (by decide)).bind fun c₃ c₃' hc₃ => ?_
  refine (h.readToken_skipWhitespace hc₃).bind fun (typeId, c₄) (typeId', c₄') ⟨hu, hc₄⟩ => ?_
  refine hu.integer.bind fun key₂ key₂' hkey₂ => ?_
  refine (h.expect_skipWhitespace hc₄ _ (by decide) (by decide)).bind fun c₅ c₅' hc₅ => ?_
  refine (h.readToken_skipWhitespace hc₅).bind fun (name, c₆) (name', c₆') ⟨hname, hc₆⟩ => ?_
  exact .ok ⟨by rw [hkey, hkey₂], hname.text, hc₆⟩

theorem readValue : Agree (fun r r' => r.1 = r'.1 ∧ C r.2 r'.2) E (readValue c) (readValue c') := by
  refine (h.readToken c c' hc).bind fun (t, c₁) (t', c₁') ⟨ht, hc₁⟩ => ?_
  refine ht.integer.bind fun key key' hkey => ?_
  refine (h.readToken_skipWhitespace hc₁).bind fun (name, c₂) (name', c₂') ⟨hname, hc₂⟩ => ?_
  exact .ok ⟨by rw [hkey, hname.text], hc₂⟩

theorem readParameter :
    Agree (fun r r' => r.1 = r'.1 ∧ C r.2 r'.2) E (readParameter c) (readParameter c') := by
  refine (h.readToken c c' hc).bind fun (t, c₁) (t', c₁') ⟨ht, hc₁⟩ => ?_
  refine (h.readToken_skipWhitespace hc₁).bind fun (name, c₂) (name', c₂') ⟨hname, hc₂⟩ => ?_
  exact .ok ⟨by rw [ht.text, hname.text], hc₂⟩

/-- Behind white space both stand before the same phase. -/
theorem nextPhase? (r : Resume) :
    nextPhase? r c.skipWhitespace = nextPhase? r c'.skipWhitespace := by
  have hcurrent := h.current? c c' hc
  unfold Cursor.current? at hcurrent
  unfold Parser.nextPhase?
  generalize c.skipWhitespace.rest = text, c'.skipWhitespace.rest = text' at hcurrent
  cases text with
  | nil =>
    cases text' with
    | nil => rfl
    | cons x text' => cases hcurrent
  | cons x text =>
    cases text' with
    | nil => cases hcurrent
    | cons x' text' =>
      cases hcurrent
      rfl

end Readers

/-! ## 2. Steps -/

section Steps

variable {s : State} {c' : Cursor} (hc : C s.cursor c')

include hc

theorem stepTop : Agree (State.Like C) E s.stepTop (State.stepTop { s with cursor := c' }) := by
  unfold State.stepTop
  dsimp only
  rw [← h.nextPhase? hc]
  cases Parser.nextPhase? .top s.cursor.skipWhitespace with
  | some p => exact .ok (.mk (s := { s with phase := p, cursor := _ }) (h.skipWhitespace _ _ hc))
  | none => exact .error (h.unexpected _ _ (h.skipWhitespace _ _ hc))

theorem stepEnumHeader :
    Agree (State.Like C) E s.stepEnumHeader (State.stepEnumHeader { s with cursor := c' }) := by
  have hread := h.readEnumHeader hc
  unfold State.stepEnumHeader
  dsimp only
  generalize Parser.readEnumHeader s.cursor = r, Parser.readEnumHeader c' = r' at hread
  cases hread with
  | error he => exact .error he
  | @ok r r' hr =>
    obtain ⟨name, elementType, c₁⟩ := r
    obtain ⟨name', elementType', c₁'⟩ := r'
    obtain ⟨rfl, rfl, hc₁⟩ := hr
    dsimp only
    by_cases hname : name ∈ s.table.enumNames
    · rw [Table.insertEnum_of_mem (e := ⟨name, elementType, []⟩) hname]
      exact .error (h.unlocated _ rfl)
    · rw [Table.insertEnum_of_not_mem (e := ⟨name, elementType, []⟩) hname]
      exact .ok (.mk (s := ⟨_, _, _, _, _⟩) hc₁)

theorem stepFunctionHeader : Agree (State.Like C) E s.stepFunctionHeader
    (State.stepFunctionHeader { s with cursor := c' }) := by
  have hread := h.readFunctionHeader hc
  unfold State.stepFunctionHeader
  dsimp only
  generalize Parser.readFunctionHeader s.cursor = r, Parser.readFunctionHeader c' = r' at hread
  cases hread with
  | error he => exact .error he
  | @ok r r' hr =>
    obtain ⟨key, name, c₁⟩ := r
    obtain ⟨key', name', c₁'⟩ := r'
    obtain ⟨rfl, rfl, hc₁⟩ := hr
    dsimp only
    by_cases hkey : key ∈ s.table.functionKeys
    · rw [Table.insertFunction_of_mem (f := ⟨key, name, []⟩) hkey]
      exact .error (h.unlocated _ rfl)
    · rw [Table.insertFunction_of_not_mem (f := ⟨key, name, []⟩) hkey]
      exact .ok (.mk (s := ⟨_, _, _, _, _⟩) hc₁)

theorem stepList {α : Type} {r : Resume} {read : Cursor → Except SourceError (α × Cursor)}
    (hread : ∀ c c', C c c' →
      Agree (fun x x' => x.1 = x'.1 ∧ C x.2 x'.2) E (read c) (read c'))
    {push : α → Option Table} {stray : SourceError} (hstray : stray.offset? = none) :
    Agree (State.Like C) E (s.stepList r read push stray)
      (State.stepList r read push stray { s with cursor := c' }) := by
  have hc₁ := h.skipWhitespace _ _ hc
  unfold State.stepList
  dsimp only
  rw [← h.nextPhase? hc]
  cases Parser.nextPhase? r s.cursor.skipWhitespace with
  | some p => exact .ok (.mk (s := { s with phase := p, cursor := _ }) hc₁)
  | none =>
    have hentry := hread _ _ hc₁
    dsimp only
    generalize read s.cursor.skipWhitespace = x, read c'.skipWhitespace = x' at hentry
    cases hentry with
    | error he => exact .error he
    | @ok x x' hx =>
      obtain ⟨entry, c₂⟩ := x
      obtain ⟨entry', c₂'⟩ := x'
      obtain ⟨rfl, hc₂⟩ := hx
      dsimp only
      cases push entry with
      | some table => exact .ok (.mk (s := { s with cursor := _, table }) hc₂)
      | none => exact .error (h.unlocated _ hstray)

theorem stepValues :
    Agree (State.Like C) E s.stepValues (State.stepValues { s with cursor := c' }) := by
  rw [stepValues_eq_stepList, stepValues_eq_stepList]
  exact h.stepList hc (fun _ _ hc => h.readValue hc) rfl

theorem stepParameters :
    Agree (State.Like C) E s.stepParameters (State.stepParameters { s with cursor := c' }) := by
  rw [stepParameters_eq_stepList, stepParameters_eq_stepList]
  exact h.stepList hc (fun _ _ hc => h.readParameter hc) rfl

/-- **The steps of two states that differ in their cursors only agree.** -/
theorem step (hs : s.Consistent) :
    Agree (State.Like C) E s.step (State.step { s with cursor := c' }) := by
  obtain ⟨phase, cursor, table, openEnum, openFunction⟩ := s
  cases phase with
  | top => exact h.stepTop hc
  | comment r =>
    have hskip := h.skipComment cursor c' hc (hs.comment r rfl)
    exact .ok (.mk (s := ⟨r.phase, cursor.skipComment, table, openEnum, openFunction⟩) hskip)
  | enumHeader => exact h.stepEnumHeader hc
  | values => exact h.stepValues hc
  | functionHeader => exact h.stepFunctionHeader hc
  | parameters => exact h.stepParameters hc

end Steps

/-! ## 3. Runs -/

/-- **Runs from two states that differ in their cursors only give the same table or related
    errors.** -/
theorem run {s s' : State} (hs : s.Consistent) (hlike : s.Like C s') :
    Agree (· = ·) E (run s) (run s') := by
  induction s using run_induction generalizing s' with
  | atEnd s hend =>
    cases hlike with
    | mk hc =>
      rw [run_of_end hend, run_of_end ((h.atEnd _ _ hc).mp hend)]
      exact .ok rfl
  | refusal s e hne he =>
    cases hlike with
    | @mk c' hc =>
      have hne' : c'.rest ≠ [] := fun hend => hne ((h.atEnd _ _ hc).mpr hend)
      have hstep := h.step hc hs
      rw [he] at hstep
      generalize hx : State.step { s with cursor := c' } = x at hstep
      cases hstep with
      | error herror =>
        rw [run_of_refusal hne he, run_of_refusal hne' hx]
        exact .error herror
  | step s s₂ hne ht ih =>
    cases hlike with
    | @mk c' hc =>
      have hne' : c'.rest ≠ [] := fun hend => hne ((h.atEnd _ _ hc).mpr hend)
      have hstep := h.step hc hs
      rw [ht.step] at hstep
      generalize hx : State.step { s with cursor := c' } = x at hstep
      cases hstep with
      | ok hlike₂ =>
        rw [ht.run_eq hne, run_of_step hne' hx]
        exact ih (ht.consistent hs) hlike₂

end Alike
end FunctionMap
