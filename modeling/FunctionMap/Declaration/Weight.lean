import FunctionMap.Declaration.State

/-!
# Progress of the declaration parser

Main statement: every step of the parser makes its weight smaller (`weight_step`), so the parser ends
on every source. Two steps in a row cannot both leave the cursor where it is.
-/

namespace FunctionMap
namespace Parser

/-! ## 1. The weight of a state -/

/-- What a phase may still cost without reading a character. A comment is entered at its first
    character; elsewhere it may be empty. -/
def Phase.cost (p : Phase) (c : Cursor) : Nat :=
  match p with
  | .top | .values | .parameters => 1
  | .enumHeader | .functionHeader => 0
  | .comment _ => if c.rest.head? = some '#' then 0 else 2

/-- What is still to do: two units for a character that remains, and the cost of the phase. -/
def State.weight (s : State) : Nat := 2 * s.cursor.rest.length + s.phase.cost s.cursor

/-- The phases that a special character calls for cost nothing. -/
theorem cost_nextPhase? {resume : Resume} {c : Cursor} {p : Phase}
    (h : nextPhase? resume c = some p) : c.rest = [] ∧ p.cost c = 1 ∨ p.cost c = 0 := by
  unfold nextPhase? at h
  split at h
  · rename_i hc
    cases h
    exact Or.inl ⟨hc, rfl⟩
  · rename_i x rest hc
    right
    split at h
    · rename_i hx
      cases h
      simp [Phase.cost, hc, hx]
    · split at h
      · cases h; rfl
      · split at h
        · cases h; rfl
        · cases h

theorem cost_phase (resume : Resume) (c : Cursor) : resume.phase.cost c = 1 := by
  cases resume <;> rfl

/-! ## 2. What is read has characters -/

theorem length_rest_readEnumHeader_lt {c c' : Cursor} {name elementType : String}
    (h : readEnumHeader c = .ok (name, elementType, c')) :
    c'.rest.length < c.rest.length := by
  unfold readEnumHeader at h
  split at h
  · cases h
  · rename_i c₁ h₁
    simp only [bind, Except.bind, pure, Except.pure] at h
    split at h
    · cases h
    · rename_i r₂ h₂
      split at h
      · cases h
      · rename_i r₃ h₃
        cases h
        have e₁ := Cursor.length_rest_expectWord h₁
        have e₂ := Cursor.length_rest_readToken_le h₂
        have e₃ := Cursor.length_rest_readToken_le h₃
        have w₁ := c₁.length_rest_skipWhitespace_le
        have w₂ := r₂.2.length_rest_skipWhitespace_le
        simp only [Symbol.mapKeyword, List.length_cons, List.length_nil] at e₁
        omega

theorem length_rest_readFunctionHeader_lt {c c' : Cursor} {key : FunctionKey} {name : String}
    (h : readFunctionHeader c = .ok (key, name, c')) :
    c'.rest.length < c.rest.length := by
  unfold readFunctionHeader at h
  simp only [bind, Except.bind, pure, Except.pure] at h
  repeat' split at h
  all_goals try cases h
  rename_i c₁ h₁ _ r₂ h₂ _ _ _ _ c₃ h₃ _ r₄ h₄ _ _ _ _ c₅ h₅ _ r₆ h₆
  have e₁ := Cursor.length_rest_expect h₁
  have e₂ := Cursor.length_rest_readToken_le h₂
  have e₃ := Cursor.length_rest_expect h₃
  have e₄ := Cursor.length_rest_readToken_le h₄
  have e₅ := Cursor.length_rest_expect h₅
  have e₆ := Cursor.length_rest_readToken_le h₆
  have w₁ := c₁.length_rest_skipWhitespace_le
  have w₂ := r₂.2.length_rest_skipWhitespace_le
  have w₃ := c₃.length_rest_skipWhitespace_le
  have w₄ := r₄.2.length_rest_skipWhitespace_le
  have w₅ := c₅.length_rest_skipWhitespace_le
  omega

/-- An entry is due where something stands that is neither white space nor special. -/
theorem rest_of_nextPhase?_eq_none {resume : Resume} {c : Cursor} (h : nextPhase? resume c = none) :
    ∃ x rest, c.rest = x :: rest ∧ x ≠ '#' := by
  unfold nextPhase? at h
  split at h
  · cases h
  · rename_i x rest hc
    refine ⟨x, rest, hc, ?_⟩
    rintro rfl
    simp at h

theorem length_rest_readValue_lt {c c' : Cursor} {value : EnumValue}
    (h : readValue c = .ok (value, c')) : c'.rest.length < c.rest.length := by
  unfold readValue at h
  simp only [bind, Except.bind, pure, Except.pure] at h
  repeat' split at h
  all_goals try cases h
  rename_i r₁ h₁ _ _ hkey _ r₂ h₂
  have e₁ := Cursor.length_rest_readToken_lt h₁ (Token.ne_empty_of_integer hkey)
  have e₂ := Cursor.length_rest_readToken_le h₂
  have w₁ := r₁.2.length_rest_skipWhitespace_le
  omega

theorem length_rest_readParameter_lt {c c' : Cursor} {parameter : Parameter} {x : Char}
    {rest : List Char} (hc : c.rest = x :: rest) (hx : Symbol.isWhitespace x = false)
    (hx' : x ≠ '#') (h : readParameter c = .ok (parameter, c')) :
    c'.rest.length < c.rest.length := by
  unfold readParameter at h
  simp only [bind, Except.bind, pure, Except.pure] at h
  repeat' split at h
  all_goals try cases h
  rename_i r₁ h₁ _ r₂ h₂
  have e₁ := Cursor.length_rest_readToken_lt h₁ (Cursor.readToken_ne_empty hc hx hx' h₁)
  have e₂ := Cursor.length_rest_readToken_le h₂
  have w₁ := r₁.2.length_rest_skipWhitespace_le
  omega

/-! ## 3. Every step makes the weight smaller -/

/-- Going over to the phase that stands behind white space makes the weight smaller. -/
theorem weight_of_nextPhase? {s : State} {resume : Resume} {p : Phase} (hs : s.cursor.rest ≠ [])
    (hcost : s.phase.cost s.cursor = 1)
    (h : nextPhase? resume s.cursor.skipWhitespace = some p) :
    State.weight { s with phase := p, cursor := s.cursor.skipWhitespace } < s.weight := by
  have hpos := List.length_pos_iff.mpr hs
  have hskip := s.cursor.length_rest_skipWhitespace_le
  simp only [State.weight, hcost]
  rcases cost_nextPhase? h with ⟨hend, hp⟩ | hp
  · rw [hp, hend, List.length_nil]
    omega
  · rw [hp]
    omega

/-- **A step that succeeds before the end makes the weight smaller**, whatever state it starts
    from. -/
theorem weight_step {s s' : State} (hs : s.cursor.rest ≠ []) (h : s.step = .ok s') :
    s'.weight < s.weight := by
  have hskip := s.cursor.length_rest_skipWhitespace_le
  unfold State.step at h
  split at h
  · rename_i hp
    unfold State.stepTop at h
    dsimp only at h
    split at h
    · rename_i hnext
      cases h
      exact weight_of_nextPhase? hs (by rw [hp]; rfl) hnext
    · cases h
  · rename_i resume hp
    cases h
    simp only [State.weight, hp, cost_phase]
    by_cases hhash : s.cursor.rest.head? = some '#'
    · obtain ⟨rest, hrest⟩ := List.head?_eq_some_iff.mp hhash
      have := Cursor.length_rest_skipComment_lt hrest
      omega
    · have := s.cursor.length_rest_skipComment_le
      simp only [Phase.cost, hhash, if_false]
      omega
  · rename_i hp
    unfold State.stepEnumHeader at h
    split at h
    · cases h
    · rename_i hread
      split at h
      · cases h
      · cases h
        have := length_rest_readEnumHeader_lt hread
        simp only [State.weight, hp, Phase.cost]
        omega
  · rename_i hp
    unfold State.stepValues at h
    dsimp only at h
    split at h
    · rename_i hnext
      cases h
      exact weight_of_nextPhase? hs (by rw [hp]; rfl) hnext
    · split at h
      · cases h
      · rename_i hread
        have := length_rest_readValue_lt hread
        repeat' split at h
        all_goals cases h
        simp only [State.weight, hp, Phase.cost]
        omega
  · rename_i hp
    unfold State.stepFunctionHeader at h
    split at h
    · cases h
    · rename_i hread
      split at h
      · cases h
      · cases h
        have := length_rest_readFunctionHeader_lt hread
        simp only [State.weight, hp, Phase.cost]
        omega
  · rename_i hp
    unfold State.stepParameters at h
    dsimp only at h
    split at h
    · rename_i hnext
      cases h
      exact weight_of_nextPhase? hs (by rw [hp]; rfl) hnext
    · rename_i hnext
      obtain ⟨x, rest, hc, hx⟩ := rest_of_nextPhase?_eq_none hnext
      split at h
      · cases h
      · rename_i hread
        have := length_rest_readParameter_lt hc
          (Cursor.isWhitespace_of_rest_skipWhitespace hc) hx hread
        repeat' split at h
        all_goals cases h
        simp only [State.weight, hp, Phase.cost]
        omega

end Parser
end FunctionMap
