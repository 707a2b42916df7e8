import FunctionMap.Text.UpperCase
import FunctionMap.Proofs.Text.Utf8

/-!
# Upper cases are capitals

What another character is the upper case of is a letter `A` to `Z` or a character behind ASCII, so no
character of ASCII with a meaning of its own is (`upper_eq_or_isCapital`). No run speaks of what a run
leads to, so an upper case is its own upper case (`upper_upper`).
-/

namespace FunctionMap
namespace UpperCase

/-! ## 1. What the runs lead to -/

/-- The letters `A` to `Z` and everything behind ASCII, by code point. -/
def IsCapital (n : Nat) : Prop := 0x41 ≤ n ∧ (n ≤ 0x5A ∨ 0x80 ≤ n)

/-- The characters that the runs lead to are capitals, none of them a surrogate or out of range. -/
theorem image_of_mem_runs {r : CaseRun} (hr : r ∈ runs) {n : Nat} (hn : r.covers n = true) :
    (r.image n).isValidChar ∧ IsCapital (r.image n) := by
  have hbounds : ∀ r ∈ runs, 0x41 ≤ r.first + r.shift ∧
      (r.last + r.shift ≤ 0x5A ∨ 0x80 ≤ r.first + r.shift) ∧
      (r.last + r.shift < 0xD800 ∨ 0xDFFF < r.first + r.shift ∧ r.last + r.shift < 0x110000) := by
    decide +kernel
  obtain ⟨hfirst, hlast, hvalid⟩ := hbounds r hr
  simp only [CaseRun.covers, Bool.and_eq_true, decide_eq_true_eq] at hn
  unfold Nat.isValidChar IsCapital CaseRun.image
  omega

theorem upper_of_find?_eq_none {c : Char} (h : runs.find? (·.covers c.toNat) = none) :
    upper c = c := by rw [upper, CaseRun.convert, h]

theorem toNat_upper {c : Char} {r : CaseRun} (h : runs.find? (·.covers c.toNat) = some r) :
    (upper c).toNat = r.image c.toNat := by
  have hcovers := List.find?_some (p := fun r : CaseRun => r.covers c.toNat) h
  obtain ⟨hvalid, -⟩ := image_of_mem_runs (List.mem_of_find?_eq_some h) hcovers
  rw [upper, CaseRun.convert, h]
  exact Utf8.val_toNat_ofNat hvalid

/-- **A character has no other upper case than a capital.** -/
theorem upper_eq_or_isCapital (c : Char) : upper c = c ∨ IsCapital (upper c).toNat := by
  cases hrun : runs.find? (·.covers c.toNat) with
  | none => exact Or.inl (upper_of_find?_eq_none hrun)
  | some r =>
    have hcovers := List.find?_some (p := fun r : CaseRun => r.covers c.toNat) hrun
    rw [toNat_upper hrun]
    exact Or.inr (image_of_mem_runs (List.mem_of_find?_eq_some hrun) hcovers).2

/-! ## 2. Where the runs lead no further -/

/-- No run speaks of what a run leads to: the two lie apart, or between each other where both take
    every second character. -/
def leadsOut (r : CaseRun) : Bool :=
  runs.all fun q =>
    Nat.blt (r.image r.last) q.first || Nat.blt q.last (r.image r.first)
      || (q.step == 2 && (r.step == 2 || r.first == r.last)
        && (r.image r.first + q.first) % 2 == 1)

theorem leadsOut_of_mem_runs : ∀ r ∈ runs, leadsOut r = true := by decide +kernel

theorem covers_image {r q : CaseRun} (hr : r ∈ runs) (hq : q ∈ runs) {n : Nat}
    (hn : r.covers n = true) : q.covers (r.image n) = false := by
  have hout := List.all_eq_true.mp (leadsOut_of_mem_runs r hr) q hq
  refine Bool.eq_false_iff.mpr fun hcovers => ?_
  simp only [CaseRun.covers, Bool.or_eq_true, Bool.and_eq_true, decide_eq_true_eq, beq_iff_eq,
    Nat.blt_eq] at hout hn hcovers
  have hfirst : r.covers r.first = true := by
    simp only [CaseRun.covers, Bool.and_eq_true, decide_eq_true_eq, beq_iff_eq]
    exact ⟨⟨Nat.le_refl _, Nat.le_trans hn.1.1 hn.1.2⟩, by rw [Nat.sub_self, Nat.zero_mod]⟩
  obtain ⟨-, hpositive, -⟩ := image_of_mem_runs hr hfirst
  unfold CaseRun.image at hout hpositive hcovers
  rcases hout with (hbelow | habove) | ⟨⟨hstep, hsparse | hsingle⟩, hparity⟩
  · omega
  · omega
  · rw [hstep] at hcovers
    rw [hsparse] at hn
    omega
  · rw [hstep] at hcovers
    omega

/-- **An upper case is its own upper case.** -/
theorem upper_upper (c : Char) : upper (upper c) = upper c := by
  cases hrun : runs.find? (·.covers c.toNat) with
  | none => rw [upper_of_find?_eq_none hrun, upper_of_find?_eq_none hrun]
  | some r =>
    have hcovers := List.find?_some (p := fun r : CaseRun => r.covers c.toNat) hrun
    refine upper_of_find?_eq_none (List.find?_eq_none.mpr fun q hq => ?_)
    rw [toNat_upper hrun, covers_image (List.mem_of_find?_eq_some hrun) hq hcovers]
    decide

end UpperCase
end FunctionMap
