import FunctionMap.Proofs.Source.Cursor
import Mathlib.Data.List.TakeWhile

/-!
# Integer tokens at the limits of their width

`Proofs/Text/Numeral` says which texts spell an integer. Here every text is cut into a sign, the longest
run of digits behind it and what stands behind that run, and these three tell what becomes of it: which
integer it is, or which of the four faults it has.

* `figures text` -- the longest run of digits behind the sign;
* `leadingValue text` -- the integer that sign and digits spell, in whatever range;
* `IsWhole text` -- there are digits, and nothing stands behind them;
* `Faulty w text fault` -- the fault of a text that is no integer of the width `w`;
* `readWord w text` -- the reading in machine words of the width, where each product and each sum is
  checked on its own.

Main statement: `integer_tokens_exact`, for both widths.
-/

namespace FunctionMap
namespace Numeral

/-! ## 1. The parts of a text -/

/-- The sign that a text starts with, and what stands behind it. A text without a sign is positive. -/
def splitSign : List Char → Sign × List Char
  | '+' :: rest => (.plus, rest)
  | '-' :: rest => (.minus, rest)
  | text => (.plus, text)

/-- The sign of a text. -/
def signOf (text : List Char) : Sign := (splitSign text).1

/-- A text without its sign. -/
def unsigned (text : List Char) : List Char := (splitSign text).2

/-- The longest run of ASCII digits behind the sign. -/
def figures (text : List Char) : List Char := (unsigned text).takeWhile Char.isDigit

/-- The integer that the sign and the digits behind it spell. -/
def leadingValue (text : List Char) : Int := (signOf text).apply (decimalValue (figures text))

/-- Behind the sign stand digits and nothing else. -/
def IsWhole (text : List Char) : Prop := figures text ≠ [] ∧ figures text = unsigned text

/-- The fault of a text that is no integer of a width: a value out of range counts, whatever stands
    behind it, before a character that is no digit. -/
def Faulty (w : Width) (text : List Char) : Fault → Prop
  | .empty => text = []
  | .tooLarge => signOf text = .plus ∧ ¬ w.Holds (leadingValue text)
  | .tooSmall => signOf text = .minus ∧ ¬ w.Holds (leadingValue text)
  | .invalidDigit => text ≠ [] ∧ w.Holds (leadingValue text) ∧ ¬ IsWhole text

theorem figures_eq_unsigned_iff {text : List Char} :
    figures text = unsigned text ↔ ∀ c ∈ unsigned text, c.isDigit :=
  List.takeWhile_eq_self_iff

theorem isWhole_iff {text : List Char} : IsWhole text ↔ IsDigits (unsigned text) := by
  unfold IsWhole IsDigits
  rw [figures_eq_unsigned_iff]
  refine and_congr_left fun hdigits => ?_
  rw [figures_eq_unsigned_iff.mpr hdigits]

theorem splitSign_of_ne {text : List Char} (hplus : text.head? ≠ some '+')
    (hminus : text.head? ≠ some '-') : splitSign text = (.plus, text) := by
  unfold splitSign
  split
  · exact absurd rfl hplus
  · exact absurd rfl hminus
  · rfl

theorem splitSign_of_isDigits {digits : List Char} (h : IsDigits digits) :
    splitSign digits = (.plus, digits) := by
  obtain ⟨hne, hdigits⟩ := h
  cases digits with
  | nil => exact absurd rfl hne
  | cons c cs =>
    have hc := hdigits c List.mem_cons_self
    refine splitSign_of_ne ?_ ?_ <;> intro h <;> cases h <;> exact absurd hc (by decide)

/-- **A text spells an integer exactly if it is whole, and then the one that its digits give.** -/
theorem spells_iff {text : List Char} {v : Int} :
    Spells text v ↔ IsWhole text ∧ v = leadingValue text := by
  have hvalue : IsWhole text →
      leadingValue text = (signOf text).apply (decimalValue (unsigned text)) := by
    intro hwhole
    rw [leadingValue, hwhole.2]
  constructor
  · intro h
    have hspelt : IsWhole text ∧ v = (signOf text).apply (decimalValue (unsigned text)) := by
      cases h with
      | unsigned hdigits =>
        rw [isWhole_iff, unsigned, signOf, splitSign_of_isDigits hdigits]
        exact ⟨hdigits, rfl⟩
      | plus hdigits => exact ⟨isWhole_iff.mpr hdigits, rfl⟩
      | minus hdigits => exact ⟨isWhole_iff.mpr hdigits, rfl⟩
    exact ⟨hspelt.1, hspelt.2.trans (hvalue hspelt.1).symm⟩
  · intro h
    obtain ⟨hwhole, rfl⟩ := h
    rw [hvalue hwhole]
    rw [isWhole_iff] at hwhole
    unfold signOf unsigned at *
    revert hwhole
    unfold splitSign
    split
    · exact .plus
    · exact .minus
    · exact .unsigned

/-! ## 2. Faults -/

/-- The value of the digits at the front of a text, behind the value `n`. -/
theorem ofDigitChars_figures_cons {c : Char} {cs : List Char} {n : Nat} (hc : c.isDigit) :
    Nat.ofDigitChars 10 ((c :: cs).takeWhile Char.isDigit) n =
      Nat.ofDigitChars 10 (cs.takeWhile Char.isDigit) (10 * n + (c.toNat - '0'.toNat)) := by
  rw [List.takeWhile_cons_of_pos hc, Nat.ofDigitChars_cons]

/-- **Digits are refused for the first reason from the left.** -/
theorem readDigits_eq_error_iff {w : Width} {s : Sign} {n : Nat} {text : List Char} {fault : Fault}
    (hn : w.Holds (s.apply n)) : readDigits w s (s.apply n) text = .error fault ↔
      (¬ w.Holds (s.apply (Nat.ofDigitChars 10 (text.takeWhile Char.isDigit) n)) ∧
        fault = s.overflow) ∨
      (w.Holds (s.apply (Nat.ofDigitChars 10 (text.takeWhile Char.isDigit) n)) ∧
        text.takeWhile Char.isDigit ≠ text ∧ fault = .invalidDigit) := by
  induction text generalizing n with
  | nil => simp [readDigits, hn]
  | cons c cs ih =>
    rw [readDigits, digit?]
    by_cases hc : c.isDigit
    · rw [if_pos hc, ofDigitChars_figures_cons hc]
      dsimp only
      rw [s.extend_apply]
      by_cases hr : w.Holds (s.apply (10 * n + (c.toNat - '0'.toNat)))
      · rw [if_pos hr, ih hr]
        simp [hc]
      · have hout : ¬ w.Holds (s.apply (Nat.ofDigitChars 10 (cs.takeWhile Char.isDigit)
            (10 * n + (c.toNat - '0'.toNat)))) := fun h => hr (h.of_le (le_ofDigitChars _ _))
        rw [if_neg hr]
        simp only [hout, not_false_eq_true, true_and, false_and, or_false, Except.error.injEq]
        exact eq_comm
    · rw [if_neg hc, List.takeWhile_cons_of_neg hc, Nat.ofDigitChars_nil]
      simp only [hn, not_true_eq_false, false_and, false_or, true_and, Except.error.injEq]
      simp [eq_comm]

theorem Sign.apply_zero (s : Sign) : s.apply 0 = 0 := by cases s <;> rfl

/-- What is read of a text that is not empty. -/
theorem read_of_ne_nil {w : Width} {text : List Char} (htext : text ≠ []) : read w text =
    if unsigned text = [] then .error .invalidDigit
    else readDigits w (signOf text) 0 (unsigned text) := by
  have hunsigned : ∀ s rest, readUnsigned w s rest =
      if rest = [] then .error .invalidDigit else readDigits w s 0 rest := by
    intro s rest
    cases rest <;> rfl
  unfold read
  split
  · exact absurd rfl htext
  · exact hunsigned _ _
  · exact hunsigned _ _
  · rename_i c cs hplus hminus
    have hsplit : splitSign (c :: cs) = (.plus, c :: cs) :=
      splitSign_of_ne (fun h => hplus (Option.some.inj h)) (fun h => hminus (Option.some.inj h))
    rw [unsigned, signOf, hsplit, if_neg (List.cons_ne_nil c cs)]

/-- The two kinds of faults that a text has which is not empty. -/
theorem faulty_of_ne_nil {w : Width} {text : List Char} {fault : Fault} (htext : text ≠ []) :
    Faulty w text fault ↔ (¬ w.Holds (leadingValue text) ∧ fault = (signOf text).overflow) ∨
      (w.Holds (leadingValue text) ∧ ¬ IsWhole text ∧ fault = .invalidDigit) := by
  cases hsign : signOf text <;> cases fault <;> simp [Faulty, hsign, htext, Sign.overflow]

/-- **A text is refused exactly for its fault.** -/
theorem read_eq_error_iff {w : Width} {text : List Char} {fault : Fault} :
    read w text = .error fault ↔ Faulty w text fault := by
  by_cases htext : text = []
  · subst htext
    have hzero : w.Holds (leadingValue []) := w.holds_zero .plus
    cases fault <;> simp [read, Faulty, hzero]
  rw [read_of_ne_nil htext, faulty_of_ne_nil htext]
  by_cases hdigits : unsigned text = []
  · have hfigures : figures text = [] := by rw [figures, hdigits, List.takeWhile_nil]
    have hzero : w.Holds (leadingValue text) := by
      rw [leadingValue, hfigures]
      exact w.holds_zero _
    have hwhole : ¬ IsWhole text := fun h => h.1 hfigures
    simp [hdigits, hzero, hwhole, eq_comm]
  · have hwhole : IsWhole text ↔ (unsigned text).takeWhile Char.isDigit = unsigned text :=
      ⟨fun h => h.2, fun h => ⟨fun hnil => hdigits (h.symm.trans hnil), h⟩⟩
    rw [if_neg hdigits, ← (signOf text).apply_zero, readDigits_eq_error_iff (w.holds_zero _), hwhole]
    rfl

/-! ## 3. Machine words -/

/-- The number of bits of the integers of a width. -/
def Width.bits : Width → Nat
  | .bits32 => 32
  | .bits64 => 64

/-- A word with one more digit added on the side of a sign, unless that overflows. -/
def Sign.addWord? {n : Nat} (s : Sign) (v d : BitVec n) : Option (BitVec n) :=
  match s with
  | .plus => if v.saddOverflow d then none else some (v + d)
  | .minus => if v.ssubOverflow d then none else some (v - d)

/-- Reads the digits that follow the word `v`, in words alone: the product with ten and the sum are
    checked one after the other. -/
def readWordDigits {n : Nat} (s : Sign) (v : BitVec n) : List Char → Except Fault (BitVec n)
  | [] => .ok v
  | c :: cs =>
    match digit? c with
    | none => .error .invalidDigit
    | some d =>
      if v.smulOverflow (BitVec.ofNat n 10) then .error s.overflow
      else match s.addWord? (v * BitVec.ofNat n 10) (BitVec.ofNat n d) with
        | none => .error s.overflow
        | some v' => readWordDigits s v' cs

/-- Reads an integer in words of a width. -/
def readWord (w : Width) (text : List Char) : Except Fault (BitVec w.bits) :=
  if text = [] then .error .empty
  else if unsigned text = [] then .error .invalidDigit
  else readWordDigits (signOf text) 0#w.bits (unsigned text)

theorem toInt_ofNat_of_le {w : Width} {d : Nat} (hd : d ≤ 10) : (BitVec.ofNat w.bits d).toInt = d := by
  rw [BitVec.toInt_eq_toNat_cond]
  cases w <;> simp [Width.bits] <;> omega

theorem digit?_le {c : Char} {d : Nat} (h : digit? c = some d) : d ≤ 9 := by
  unfold digit? at h
  split at h
  · rename_i hc
    cases h
    have hc := (Char.isDigit_iff_toNat.mp hc).2
    show c.toNat - 48 ≤ 9
    have : c.toNat ≤ 57 := hc
    omega
  · cases h

section Overflow

/-- What the overflow tests ask of a sum, a difference or a product is whether the width holds it. -/
theorem Width.not_overflow_iff {w : Width} {limit : Int} (hlimit : limit = w.greatest + 1) (v : Int) :
    (decide (v ≥ limit) || decide (v < -limit)) = false ↔ w.Holds v := by
  rw [Bool.or_eq_false_iff, decide_eq_false_iff_not, decide_eq_false_iff_not, hlimit]
  cases w <;> simp only [Width.Holds, Width.least, Width.greatest] <;> omega

variable {w : Width} {x y : BitVec w.bits}

theorem smulOverflow_eq_false_iff : x.smulOverflow y = false ↔ w.Holds (x.toInt * y.toInt) :=
  Width.not_overflow_iff (by cases w <;> rfl) _

theorem saddOverflow_eq_false_iff : x.saddOverflow y = false ↔ w.Holds (x.toInt + y.toInt) :=
  Width.not_overflow_iff (by cases w <;> rfl) _

theorem ssubOverflow_eq_false_iff : x.ssubOverflow y = false ↔ w.Holds (x.toInt - y.toInt) :=
  Width.not_overflow_iff (by cases w <;> rfl) _

variable {s : Sign} {m d : Nat}

theorem Sign.apply_add (s : Sign) (m d : Nat) : s.apply (m + d) = s.apply m + s.apply d := by
  cases s <;> simp only [apply] <;> omega

theorem addWord?_of_holds (hx : x.toInt = s.apply m) (hy : y.toInt = d)
    (h : w.Holds (s.apply (m + d))) : ∃ v, s.addWord? x y = some v ∧ v.toInt = s.apply (m + d) := by
  rw [s.apply_add, ← hx] at h ⊢
  cases s with
  | plus =>
    have hsum : x.toInt + Sign.plus.apply d = x.toInt + y.toInt := by rw [hy]; rfl
    rw [hsum, ← saddOverflow_eq_false_iff] at h
    refine ⟨x + y, by rw [Sign.addWord?, h]; rfl, ?_⟩
    rw [hsum, BitVec.toInt_add_of_not_saddOverflow (by simp [h])]
  | minus =>
    have hsum : x.toInt + Sign.minus.apply d = x.toInt - y.toInt := by rw [hy]; rfl
    rw [hsum, ← ssubOverflow_eq_false_iff] at h
    refine ⟨x - y, by rw [Sign.addWord?, h]; rfl, ?_⟩
    rw [hsum, BitVec.toInt_sub_of_not_ssubOverflow (by simp [h])]

theorem addWord?_of_not_holds (hx : x.toInt = s.apply m) (hy : y.toInt = d)
    (h : ¬ w.Holds (s.apply (m + d))) : s.addWord? x y = none := by
  rw [s.apply_add, ← hx] at h
  cases s with
  | plus =>
    have hsum : x.toInt + Sign.plus.apply d = x.toInt + y.toInt := by rw [hy]; rfl
    rw [hsum, ← saddOverflow_eq_false_iff, Bool.not_eq_false] at h
    rw [Sign.addWord?, if_pos h]
  | minus =>
    have hsum : x.toInt + Sign.minus.apply d = x.toInt - y.toInt := by rw [hy]; rfl
    rw [hsum, ← ssubOverflow_eq_false_iff, Bool.not_eq_false] at h
    rw [Sign.addWord?, if_pos h]

end Overflow

/-- **In words, digits are read as they are in integers without bounds**: no product and no sum leaves
    the range without being reported. -/
theorem readWordDigits_eq {w : Width} {s : Sign} {n : Nat} {v : BitVec w.bits}
    (hv : v.toInt = s.apply n) (text : List Char) :
    (readWordDigits s v text).map BitVec.toInt = readDigits w s (s.apply n) text := by
  induction text generalizing n v with
  | nil =>
    rw [readWordDigits, readDigits, ← hv]
    rfl
  | cons c cs ih =>
    rw [readWordDigits, readDigits]
    cases hd : digit? c with
    | none => rfl
    | some d =>
      have hd := digit?_le hd
      have hten : (BitVec.ofNat w.bits 10).toInt = 10 := toInt_ofNat_of_le (Nat.le_refl 10)
      have hdigit : (BitVec.ofNat w.bits d).toInt = d := toInt_ofNat_of_le (by omega)
      have hproduct : v.toInt * (BitVec.ofNat w.bits 10).toInt = s.apply (10 * n) := by
        rw [hv, hten]
        cases s <;> simp only [Sign.apply] <;> omega
      dsimp only
      rw [s.extend_apply]
      by_cases hover : v.smulOverflow (BitVec.ofNat w.bits 10) = true
      · -- the sum lies further from zero than the product
        have hout : ¬ w.Holds (s.apply (10 * n + d)) := by
          intro h
          have hholds : w.Holds (s.apply (10 * n)) := h.of_le (Nat.le_add_right _ d)
          rw [← hproduct, ← smulOverflow_eq_false_iff, hover] at hholds
          cases hholds
        rw [if_pos hover, if_neg hout]
        rfl
      · have hmul : (v * BitVec.ofNat w.bits 10).toInt = s.apply (10 * n) := by
          rw [BitVec.toInt_mul_of_not_smulOverflow hover, hproduct]
        rw [if_neg hover]
        by_cases hin : w.Holds (s.apply (10 * n + d))
        · obtain ⟨v', hadd, hv'⟩ := addWord?_of_holds hmul hdigit hin
          rw [hadd, if_pos hin]
          exact ih hv'
        · rw [addWord?_of_not_holds hmul hdigit hin, if_neg hin]
          rfl

/-- **An integer is read in words as it is read in integers without bounds.** -/
theorem readWord_eq (w : Width) (text : List Char) :
    (readWord w text).map BitVec.toInt = read w text := by
  unfold readWord
  by_cases htext : text = []
  · subst htext
    rfl
  · rw [if_neg htext, read_of_ne_nil htext]
    by_cases hdigits : unsigned text = []
    · rw [if_pos hdigits, if_pos hdigits]
      rfl
    · have hzero : (0#w.bits).toInt = (signOf text).apply 0 := by
        rw [BitVec.toInt_zero, Sign.apply_zero]
      rw [if_neg hdigits, if_neg hdigits, readWordDigits_eq hzero, Sign.apply_zero]

/-! ## 4. Texts with zeros in front -/

/-- The decimal text of an integer with zeros in front of its digits. -/
def writePadded (zeros : Nat) (v : Int) : List Char :=
  (if v < 0 then ['-'] else []) ++ List.replicate zeros '0' ++ writeNat v.natAbs

theorem writePadded_zero (v : Int) : writePadded 0 v = write v := by
  unfold writePadded write
  split <;> rfl

theorem decimalValue_padded (zeros n : Nat) :
    decimalValue (List.replicate zeros '0' ++ writeNat n) = n := by
  have hzeros : Nat.ofDigitChars 10 (List.replicate zeros '0') 0 = 0 := by
    induction zeros with
    | zero => rfl
    | succ zeros ih => rw [List.replicate_succ, Nat.ofDigitChars_cons]; exact ih
  rw [decimalValue, Nat.ofDigitChars_append, hzeros]
  exact decimalValue_writeNat n

theorem isDigits_padded (zeros n : Nat) : IsDigits (List.replicate zeros '0' ++ writeNat n) := by
  obtain ⟨hne, hdigits⟩ := isDigits_writeNat n
  refine ⟨List.append_ne_nil_of_right_ne_nil _ hne, fun c hc => ?_⟩
  rcases List.mem_append.mp hc with hzero | hc
  · rw [List.eq_of_mem_replicate hzero]
    rfl
  · exact hdigits c hc

/-- **Zeros in front change nothing.** -/
theorem spells_writePadded (zeros : Nat) (v : Int) : Spells (writePadded zeros v) v := by
  have hdigits := isDigits_padded zeros v.natAbs
  have hvalue := decimalValue_padded zeros v.natAbs
  unfold writePadded
  split
  · have hspells := Spells.minus hdigits
    rwa [hvalue, show -(v.natAbs : Int) = v by omega] at hspells
  · have hspells := Spells.unsigned hdigits
    rwa [hvalue, show (v.natAbs : Int) = v by omega] at hspells

/-- The fault of an integer that is out of range. -/
def Fault.beyond (v : Int) : Fault := if v < 0 then .tooSmall else .tooLarge

theorem signOf_writePadded (zeros : Nat) (v : Int) :
    (signOf (writePadded zeros v)).overflow = .beyond v := by
  unfold writePadded Fault.beyond
  split
  · rfl
  · rw [signOf, List.nil_append, splitSign_of_isDigits (isDigits_padded zeros v.natAbs)]
    rfl

/-- An integer out of range is refused as too small or too large, by its sign. -/
theorem read_writePadded_of_not_holds {w : Width} {v : Int} (hv : ¬ w.Holds v) (zeros : Nat) :
    read w (writePadded zeros v) = .error (.beyond v) := by
  have hvalue := (spells_iff.mp (spells_writePadded zeros v)).2
  have htext : writePadded zeros v ≠ [] :=
    List.append_ne_nil_of_right_ne_nil _ (isDigits_writeNat v.natAbs).1
  rw [read_eq_error_iff, faulty_of_ne_nil htext, ← hvalue, signOf_writePadded]
  exact Or.inl ⟨hv, rfl⟩

end Numeral

/-! ## 5. Tokens -/

open Numeral

/-- A reader of tokens takes the integers of a width, which are the values of a type, exactly. -/
structure ReadsExactly (w : Width) {α : Type} (toInt : α → Int) (read : Token → Except SourceError α) :
    Prop where
  /-- A token is an integer if it is whole and its value is in range. -/
  accepts_iff : ∀ t, (∃ v, read t = .ok v) ↔
    IsWhole t.text.toList ∧ w.Holds (leadingValue t.text.toList)
  ok_iff : ∀ t v, read t = .ok v ↔ IsWhole t.text.toList ∧ toInt v = leadingValue t.text.toList
  /-- Every other token is refused for its fault. -/
  error_iff : ∀ t e, read t = .error e ↔
    ∃ fault, Faulty w t.text.toList fault ∧ e = .notAnInteger t.text t.offset fault
  /-- No product and no sum of the reading leaves the range without being reported. -/
  inWords : ∀ t, (read t).map toInt =
    ((readWord w t.text.toList).map BitVec.toInt).mapError (.notAnInteger t.text t.offset)
  /-- Every integer of the type is read from its decimal text. -/
  decimal : ∀ v offset, read ⟨String.ofList (write (toInt v)), offset⟩ = .ok v
  /-- Zeros in front change neither what is accepted nor what is beyond the limits. -/
  padded : ∀ v zeros offset, read ⟨String.ofList (writePadded zeros (toInt v)), offset⟩ = .ok v
  beyond : ∀ v, ¬ w.Holds v → ∀ zeros offset, read ⟨String.ofList (writePadded zeros v), offset⟩ =
    .error (.notAnInteger (String.ofList (writePadded zeros v)) offset (.beyond v))

/-- **The reader of the values of a type is exact.** -/
theorem readsExactly_integer {w : Width} {α : Type} {ofInt : Int → α} {toInt : α → Int}
    (hw : w.RepresentedBy ofInt toInt) : ReadsExactly w toInt (Token.integer w ofInt) := by
  have hok : ∀ (t : Token) v, t.integer w ofInt = .ok v ↔
      IsWhole t.text.toList ∧ toInt v = leadingValue t.text.toList := by
    intro t v
    rw [Token.integer_eq_ok_iff hw, spells_iff]
  have hpadded : ∀ v zeros offset,
      Token.integer w ofInt ⟨String.ofList (writePadded zeros (toInt v)), offset⟩ = .ok v := by
    intro v zeros offset
    rw [hok, String.toList_ofList, ← spells_iff]
    exact spells_writePadded zeros (toInt v)
  refine ⟨fun t => ?_, hok, fun t e => ?_, fun t => ?_, fun v offset => ?_, hpadded,
    fun v hv zeros offset => ?_⟩
  · constructor
    · intro h
      obtain ⟨v, hv⟩ := h
      obtain ⟨hwhole, hvalue⟩ := (hok t v).mp hv
      exact ⟨hwhole, hvalue ▸ hw.holds v⟩
    · intro h
      exact ⟨ofInt (leadingValue t.text.toList), (hok t _).mpr ⟨h.1, hw.toInt_ofInt _ h.2⟩⟩
  · rw [Token.integer, readAs]
    cases hvalue : Numeral.read w t.text.toList with
    | ok v =>
      constructor
      · intro h
        cases h
      · intro h
        obtain ⟨fault, hfault, -⟩ := h
        rw [read_eq_error_iff.mpr hfault] at hvalue
        cases hvalue
    | error fault =>
      have hfault := read_eq_error_iff.mp hvalue
      constructor
      · intro h
        cases h
        exact ⟨fault, hfault, rfl⟩
      · intro h
        obtain ⟨other, hother, rfl⟩ := h
        rw [← read_eq_error_iff, hvalue] at hother
        cases hother
        rfl
  · rw [Token.integer, readAs, readWord_eq]
    cases hvalue : Numeral.read w t.text.toList with
    | error fault => rfl
    | ok v =>
      show Except.ok (toInt (ofInt v)) = Except.ok v
      rw [hw.toInt_ofInt v (read_eq_ok_iff.mp hvalue).2]
  · rw [← writePadded_zero]
    exact hpadded v 0 offset
  · rw [Token.integer, readAs, String.toList_ofList, read_writePadded_of_not_holds hv zeros]
    rfl

/-- **Integer tokens are read exactly**, at both widths and at both ends of their ranges: as the integer
    that sign and digits spell, if there is nothing else and the width holds it, and else for the first
    fault from the left. -/
theorem integer_tokens_exact :
    ReadsExactly .bits32 Int32.toInt Token.int32 ∧ ReadsExactly .bits64 Int64.toInt Token.int64 :=
  ⟨readsExactly_integer represented_int32, readsExactly_integer represented_int64⟩

/-- Digits out of range count before the letter behind them; digits in range do not. -/
example : Numeral.read .bits32 "2147483648x".toList = .error .tooLarge ∧
    Numeral.read .bits32 "2147483647x".toList = .error .invalidDigit ∧
    Numeral.read .bits32 "-2147483648".toList = .ok (-2147483648) := by decide

end FunctionMap
