import FunctionMap.Proofs.Declaration.OpenDeclaration

/-!
# The parser always makes progress

Many steps read nothing: a header or a comment is entered before it is read, and tokens may be empty.
The weight of a state (`State.weight`) counts two units for a character that remains and at most one
for the phase, so of two steps in a row one reads something.

* `EndsWithin k s result` -- from the state `s` the loop of the parser ends with `result` after `k`
  rounds at most; this is said round by round, and not by the recursion of `run`;
* `Progress source` -- on a source, the cursor stays inside, never moves back, and moves on in every
  two rounds.

Main statement: `parser_progress`, for all sources: on `n` bytes there are `2 * n` rounds at most.
-/

namespace FunctionMap

/-! ## 1. Offsets -/

/-- What is before a cursor in a text and what is behind it make up the text. -/
theorem Cursor.In.offset_add {c : Cursor} {text : List Char} (h : c.In text) :
    c.offset + Utf8.size c.rest = Utf8.size text := by
  obtain ⟨before, htext, hoffset⟩ := h
  rw [htext, hoffset, Utf8.size_append]

/-- Of two cursors in a text, the one with less to come stands behind the other. -/
theorem Cursor.In.offset_le {c c' : Cursor} {text : List Char} (h : c.In text) (h' : c'.In text)
    (hsuffix : c'.rest <:+ c.rest) : c.offset ≤ c'.offset := by
  have hsize := Cursor.size_le_of_suffix hsuffix
  have hc := h.offset_add
  have hc' := h'.offset_add
  omega

namespace Parser

/-! ## 2. What a step reads -/

/-- A phase of a run costs one unit at most. -/
theorem State.Consistent.cost_le {s : State} (hs : s.Consistent) : s.phase.cost s.cursor ≤ 1 := by
  cases hphase : s.phase with
  | comment r =>
    have hhash : s.cursor.rest.head? = some '#' := hs.comment r hphase
    simp [Phase.cost, hhash]
  | top | values | parameters => exact Nat.le_refl 1
  | enumHeader | functionHeader => exact Nat.zero_le 1

/-- A step leaves an end of what remains. -/
theorem Transition.suffix {s s' : State} (h : Transition s s') (hs : s.Consistent)
    (hne : s.cursor.rest ≠ []) : s'.cursor.rest <:+ s.cursor.rest := by
  obtain ⟨text, htext⟩ := s.cursor.exists_in
  obtain ⟨before', hbefore', -⟩ := h.cursor_in htext
  obtain ⟨before, hbefore, -⟩ := htext
  have hweight := weight_step hne h.step
  have hcost := hs.cost_le
  rw [State.weight, State.weight] at hweight
  exact List.suffix_of_suffix_length_le ⟨before', hbefore'.symm⟩ ⟨before, hbefore.symm⟩ (by omega)

/-- **Two steps in a row read a character**: the first one of them costs at most the unit that the
    phase before it has to spend. -/
theorem length_rest_lt_of_transitions {s s₁ s₂ : State} (hs : s.Consistent)
    (hne : s.cursor.rest ≠ []) (h : Transition s s₁) (hne₁ : s₁.cursor.rest ≠ [])
    (h₁ : Transition s₁ s₂) : s₂.cursor.rest.length < s.cursor.rest.length := by
  have hweight := weight_step hne h.step
  have hweight₁ := weight_step hne₁ h₁.step
  have hcost := hs.cost_le
  rw [State.weight, State.weight] at hweight hweight₁
  omega

/-! ## 3. Rounds of the loop -/

/-- From a state the loop of the parser ends with a result after `k` rounds at most. -/
inductive EndsWithin : Nat → State → Except SourceError Table → Prop where
  | atEnd {k : Nat} {s : State} (hend : s.cursor.rest = []) : EndsWithin k s (.ok s.table)
  | refused {k : Nat} {s : State} {e : SourceError} (hne : s.cursor.rest ≠ [])
      (hstep : s.step = .error e) : EndsWithin (k + 1) s (.error e)
  | next {k : Nat} {s s' : State} {result : Except SourceError Table} (hne : s.cursor.rest ≠ [])
      (hstep : s.step = .ok s') (hrest : EndsWithin k s' result) : EndsWithin (k + 1) s result

/-- Where something remains, there is a round to take. -/
theorem one_lt_weight {s : State} (hne : s.cursor.rest ≠ []) : 1 < s.weight := by
  have hpos := List.length_pos_iff.mpr hne
  rw [State.weight]
  omega

/-- The weight of a state bounds the rounds, and the last unit is never spent. -/
theorem endsWithin_run {k : Nat} {s : State} (hk : s.weight ≤ k + 1) : EndsWithin k s (run s) := by
  induction s using run_induction generalizing k with
  | atEnd s hend =>
    rw [run_of_end hend]
    exact .atEnd hend
  | refusal s e hne he =>
    have hpos := one_lt_weight hne
    obtain ⟨k, rfl⟩ := Nat.exists_eq_add_one_of_ne_zero (n := k) (by omega)
    rw [run_of_refusal hne he]
    exact .refused hne he
  | step s s' hne ht ih =>
    have hpos := one_lt_weight hne
    have hweight := weight_step hne ht.step
    obtain ⟨k, rfl⟩ := Nat.exists_eq_add_one_of_ne_zero (n := k) (by omega)
    rw [ht.run_eq hne]
    exact .next hne ht.step (ih (by omega))

/-! ## 4. Sources -/

/-- What a source makes the parser do ends, and moves the cursor on while it lasts. -/
structure Progress (source : Bytes) : Prop where
  /-- Bytes that are no text are refused before the first round. -/
  notText : ∀ e, Cursor.ofBytes source = .error e → parse source = .error e ∧ statesOf source = []
  ends : ∀ c, Cursor.ofBytes source = .ok c →
    EndsWithin (2 * source.length) (.start c) (parse source)
  inside : ∀ s ∈ statesOf source, s.cursor.offset ≤ source.length
  forward : ∀ before s s' after, statesOf source = before ++ s :: s' :: after →
    s.cursor.offset ≤ s'.cursor.offset
  movesOn : ∀ before s s₁ s₂ after, statesOf source = before ++ s :: s₁ :: s₂ :: after →
    s.cursor.offset + 1 ≤ s₂.cursor.offset

theorem length_le_size (text : List Char) : text.length ≤ Utf8.size text := by
  induction text with
  | nil => exact Nat.le_refl 0
  | cons x text ih =>
    have hpos := x.utf8Size_pos
    rw [Utf8.size_cons, List.length_cons]
    omega

theorem progress_of_notText {source : Bytes} {e : SourceError}
    (hc : Cursor.ofBytes source = .error e) : Progress source := by
  have hnot := parse_of_notUtf8 hc
  have hnone : ∀ {before after : List State} {s : State},
      statesOf source ≠ before ++ s :: after := by
    intro before after s h
    rw [hnot.2] at h
    exact absurd h.symm (List.append_ne_nil_of_right_ne_nil _ (List.cons_ne_nil _ _))
  refine ⟨fun e' he => ?_, fun c h => ?_, fun s hs => ?_, ?_, ?_⟩
  · rw [hc] at he
    cases he
    exact hnot
  · rw [hc] at h
    cases h
  · rw [hnot.2] at hs
    cases hs
  · exact fun before s s' after h => absurd h hnone
  · exact fun before s s₁ s₂ after h => absurd h hnone

theorem progress_encode (text : List Char) : Progress (Utf8.encode text) := by
  have hc := Cursor.ofBytes_encode text
  obtain ⟨hparse, hstates⟩ := parse_eq_run hc
  have hin : ∀ s ∈ statesOf (Utf8.encode text), s.cursor.In text := fun s hs =>
    cursor_in_of_mem_visited (hstates ▸ hs)
  have hconsistent : ∀ s ∈ statesOf (Utf8.encode text), s.Consistent := fun s hs =>
    consistent_of_mem_visited (hstates ▸ hs)
  have hnext : ∀ {before after : List State} {s s' : State},
      statesOf (Utf8.encode text) = before ++ s :: s' :: after →
        s.cursor.rest ≠ [] ∧ Transition s s' := fun h =>
    transition_of_visited (hstates ▸ h)
  refine ⟨fun e he => ?_, fun c h => ?_, fun s hs => ?_, ?_, ?_⟩
  · rw [hc] at he
    cases he
  · rw [hc] at h
    cases h
    have hlen := length_le_size text
    have hweight : (State.start (.ofText text)).weight = 2 * text.length + 1 := rfl
    rw [hparse, Utf8.length_encode]
    exact endsWithin_run (by omega)
  · rw [Utf8.length_encode, ← (hin s hs).offset_add]
    exact Nat.le_add_right _ _
  · intro before s s' after h
    obtain ⟨hne, ht⟩ := hnext h
    have hs : s ∈ statesOf (Utf8.encode text) := by simp [h]
    have hs' : s' ∈ statesOf (Utf8.encode text) := by simp [h]
    exact (hin s hs).offset_le (hin s' hs') (ht.suffix (hconsistent s hs) hne)
  · intro before s s₁ s₂ after h
    obtain ⟨hne, ht⟩ := hnext h
    have h₁ : statesOf (Utf8.encode text) = (before ++ [s]) ++ s₁ :: s₂ :: after := by simp [h]
    obtain ⟨hne₁, ht₁⟩ := hnext h₁
    have hs : s ∈ statesOf (Utf8.encode text) := by simp [h]
    have hs₂ : s₂ ∈ statesOf (Utf8.encode text) := by simp [h]
    have hlt := length_rest_lt_of_transitions (hconsistent s hs) hne ht hne₁ ht₁
    exact (hin s hs).offset_lt (hin s₂ hs₂) hlt

/-- **The parser ends on every source, because it always makes progress.** The loop takes two rounds
    for a byte at most, however the source is made of comments, missing names, stray commas and
    brackets, and headers that break off. -/
theorem parser_progress (source : Bytes) : Progress source := by
  cases hc : Cursor.ofBytes source with
  | error e => exact progress_of_notText hc
  | ok c =>
    obtain ⟨text, rfl, -⟩ := Cursor.ofBytes_eq_ok_iff.mp hc
    exact progress_encode text

end Parser
end FunctionMap
