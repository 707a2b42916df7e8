import FunctionMap.Text.Numeral

/-!
# Integers as decimal text: what the reader accepts

A text spells an integer if it is an optional sign and one or more ASCII digits with that value
(`Spells`). The reader takes one digit at a time and gives up as soon as the value so far leaves
the range; as the value only moves away from zero, it gives up exactly where the whole is out of
range.

Main statements: the reader accepts exactly the texts that spell an integer of the width
(`read_eq_ok_iff`, and `Width.RepresentedBy.readAs_eq_ok_iff` for the values of a type), and what is
written spells the integer it was written for (`spells_write`).
-/

namespace FunctionMap
namespace Numeral

/-! ## 1. The texts that spell an integer -/

/-- The decimal value of a run of digits. -/
def decimalValue (digits : List Char) : Nat := Nat.ofDigitChars 10 digits 0

/-- One or more ASCII digits. -/
def IsDigits (text : List Char) : Prop := text ≠ [] ∧ ∀ c ∈ text, c.isDigit

/-- A text that spells an integer: an optional sign and one or more ASCII digits. -/
inductive Spells : List Char → Int → Prop where
  | unsigned {digits : List Char} (h : IsDigits digits) : Spells digits (decimalValue digits)
  | plus {digits : List Char} (h : IsDigits digits) : Spells ('+' :: digits) (decimalValue digits)
  | minus {digits : List Char} (h : IsDigits digits) : Spells ('-' :: digits) (-decimalValue digits)

/-- The integer at a distance from zero, on the side of a sign. -/
def Sign.apply : Sign → Nat → Int
  | .plus, n => n
  | .minus, n => -n

/-! ## 2. Reading digits -/

theorem Sign.extend_apply (s : Sign) (n d : Nat) : s.extend (s.apply n) d = s.apply (10 * n + d) := by
  cases s <;> simp only [Sign.extend, Sign.apply] <;> omega

/-- A width that holds an integer holds those nearer to zero on the same side. -/
theorem Width.Holds.of_le {w : Width} {s : Sign} {m n : Nat} (h : w.Holds (s.apply n)) (hmn : m ≤ n) :
    w.Holds (s.apply m) := by
  cases w <;> cases s <;> simp only [Width.Holds, Width.least, Width.greatest, Sign.apply] at * <;>
    omega

theorem le_ofDigitChars (digits : List Char) (n : Nat) : n ≤ Nat.ofDigitChars 10 digits n := by
  induction digits generalizing n with
  | nil => simp
  | cons c cs ih =>
    rw [Nat.ofDigitChars_cons]
    exact Nat.le_trans (by omega) (ih _)

/-- **The digits that follow a value are accepted exactly if the whole is in range.** -/
theorem readDigits_eq_ok_iff {w : Width} {s : Sign} {n : Nat} {text : List Char} {v : Int}
    (hn : w.Holds (s.apply n)) : readDigits w s (s.apply n) text = .ok v ↔
      (∀ c ∈ text, c.isDigit) ∧ v = s.apply (Nat.ofDigitChars 10 text n) ∧ w.Holds v := by
  induction text generalizing n with
  | nil =>
    rw [readDigits, Nat.ofDigitChars_nil]
    constructor
    · intro h
      cases h
      exact ⟨fun c hc => absurd hc List.not_mem_nil, rfl, hn⟩
    · intro h
      obtain ⟨-, rfl, -⟩ := h
      rfl
  | cons c cs ih =>
    rw [readDigits, digit?]
    by_cases hc : c.isDigit
    · rw [if_pos hc]
      dsimp only
      rw [s.extend_apply, Nat.ofDigitChars_cons]
      by_cases hr : w.Holds (s.apply (10 * n + (c.toNat - '0'.toNat)))
      · rw [if_pos hr, ih hr]
        simp [hc]
      · rw [if_neg hr]
        constructor
        · intro h
          cases h
        · intro h
          obtain ⟨-, rfl, hv⟩ := h
          exact absurd (hv.of_le (le_ofDigitChars _ _)) hr
    · rw [if_neg hc]
      constructor
      · intro h
        cases h
      · intro h
        obtain ⟨hcs, -⟩ := h
        exact absurd (hcs c List.mem_cons_self) hc

theorem Width.holds_zero (w : Width) (s : Sign) : w.Holds (s.apply 0) := by
  cases w <;> cases s <;> decide

theorem readUnsigned_eq_ok_iff {w : Width} {s : Sign} {text : List Char} {v : Int} :
    readUnsigned w s text = .ok v ↔ IsDigits text ∧ v = s.apply (decimalValue text) ∧ w.Holds v := by
  cases text with
  | nil =>
    constructor
    · intro h
      cases h
    · intro h
      obtain ⟨⟨h, -⟩, -⟩ := h
      exact absurd rfl h
  | cons c cs =>
    have hz : s.apply 0 = 0 := by cases s <;> rfl
    rw [readUnsigned, ← hz, readDigits_eq_ok_iff (w.holds_zero s)]
    simp [IsDigits, decimalValue]

/-! ## 3. Reading integers -/

/-- **The reader accepts exactly the texts that spell an integer of the width.** -/
theorem read_eq_ok_iff {w : Width} {text : List Char} {v : Int} :
    read w text = .ok v ↔ Spells text v ∧ w.Holds v := by
  unfold read
  split
  · constructor
    · intro h
      cases h
    · intro h
      obtain ⟨⟨h, -⟩, -⟩ := h
      exact absurd rfl h
  · rename_i cs
    rw [readUnsigned_eq_ok_iff]
    constructor
    · intro h
      obtain ⟨h, rfl, hv⟩ := h
      exact ⟨.plus h, hv⟩
    · intro h
      obtain ⟨hs, hv⟩ := h
      cases hs with
      | unsigned h => exact absurd (h.2 _ List.mem_cons_self) (by decide)
      | plus h => exact ⟨h, rfl, hv⟩
  · rename_i cs
    rw [readUnsigned_eq_ok_iff]
    constructor
    · intro h
      obtain ⟨h, rfl, hv⟩ := h
      exact ⟨.minus h, hv⟩
    · intro h
      obtain ⟨hs, hv⟩ := h
      cases hs with
      | unsigned h => exact absurd (h.2 _ List.mem_cons_self) (by decide)
      | minus h => exact ⟨h, rfl, hv⟩
  · rename_i c cs hplus hminus
    rw [← readUnsigned, readUnsigned_eq_ok_iff]
    constructor
    · intro h
      obtain ⟨h, rfl, hv⟩ := h
      exact ⟨.unsigned h, hv⟩
    · intro h
      obtain ⟨hs, hv⟩ := h
      cases hs with
      | unsigned h => exact ⟨h, rfl, hv⟩
      | plus h => exact (hplus rfl).elim
      | minus h => exact (hminus rfl).elim

/-- A type has one value for each integer of a width, and no others. -/
structure Width.RepresentedBy (w : Width) {α : Type} (ofInt : Int → α) (toInt : α → Int) : Prop where
  toInt_ofInt : ∀ v, w.Holds v → toInt (ofInt v) = v
  ofInt_toInt : ∀ k, ofInt (toInt k) = k
  holds : ∀ k, w.Holds (toInt k)

theorem represented_int32 : Width.bits32.RepresentedBy Int32.ofInt Int32.toInt where
  toInt_ofInt _ hv := Int32.toInt_ofInt_of_le hv.1 (Int.lt_add_one_of_le hv.2)
  ofInt_toInt := Int32.ofInt_toInt
  holds k := ⟨k.le_toInt, Int.le_of_lt_add_one k.toInt_lt⟩

theorem represented_int64 : Width.bits64.RepresentedBy Int64.ofInt Int64.toInt where
  toInt_ofInt _ hv := Int64.toInt_ofInt_of_le hv.1 (Int.lt_add_one_of_le hv.2)
  ofInt_toInt := Int64.ofInt_toInt
  holds k := ⟨k.le_toInt, Int.le_of_lt_add_one k.toInt_lt⟩

/-- **A value is read exactly from the texts that spell its integer.** -/
theorem Width.RepresentedBy.readAs_eq_ok_iff {w : Width} {α : Type} {ofInt : Int → α}
    {toInt : α → Int} (h : w.RepresentedBy ofInt toInt) {text : List Char} {k : α} :
    readAs w ofInt text = .ok k ↔ Spells text (toInt k) := by
  unfold readAs
  constructor
  · intro hread
    cases hv : read w text with
    | error e => rw [hv] at hread; cases hread
    | ok v =>
      rw [hv] at hread
      obtain ⟨hspells, hheld⟩ := read_eq_ok_iff.mp hv
      cases hread
      rwa [h.toInt_ofInt v hheld]
  · intro hspells
    rw [read_eq_ok_iff.mpr ⟨hspells, h.holds k⟩, Except.map, h.ofInt_toInt]

/-! ## 4. What is written -/

theorem isDigits_writeNat (n : Nat) : IsDigits (writeNat n) :=
  ⟨Nat.toDigits_ne_nil, fun _ hc => Nat.isDigit_of_mem_toDigits (by decide) (by decide) hc⟩

theorem decimalValue_writeNat (n : Nat) : decimalValue (writeNat n) = n :=
  Nat.ofDigitChars_ten_toDigits

/-- **What is written for an integer spells it.** -/
theorem spells_write (v : Int) : Spells (write v) v := by
  have h := isDigits_writeNat v.natAbs
  have e := decimalValue_writeNat v.natAbs
  unfold write
  split
  · have hs := Spells.minus h
    rwa [e, show -(v.natAbs : Int) = v by omega] at hs
  · have hs := Spells.unsigned h
    rwa [e, show (v.natAbs : Int) = v by omega] at hs

/-- The characters of a text that spells an integer: a sign or digits. -/
theorem Spells.isDigit_or_sign {text : List Char} {v : Int} (h : Spells text v) :
    text ≠ [] ∧ ∀ c ∈ text, c = '+' ∨ c = '-' ∨ c.isDigit := by
  cases h with
  | unsigned h => exact ⟨h.1, fun c hc => Or.inr (Or.inr (h.2 c hc))⟩
  | plus h =>
    refine ⟨List.cons_ne_nil _ _, fun c hc => ?_⟩
    rcases List.mem_cons.mp hc with rfl | hc
    · exact Or.inl rfl
    · exact Or.inr (Or.inr (h.2 c hc))
  | minus h =>
    refine ⟨List.cons_ne_nil _ _, fun c hc => ?_⟩
    rcases List.mem_cons.mp hc with rfl | hc
    · exact Or.inr (Or.inl rfl)
    · exact Or.inr (Or.inr (h.2 c hc))

end Numeral
end FunctionMap
