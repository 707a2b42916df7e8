import FunctionMap.Proofs.Yaml.Quoted

/-!
# Scalars can be made out

The first character of a scalar tells its style, and the style where it ends: a quoted scalar at its
last quote, and a plain one where a space or a line feed stands, if its string holds neither.

`Compact` strings are those that are written in one of these ways. Main statement: `legible_write`.
-/

namespace FunctionMap
namespace Yaml
namespace Scalar

/-! ## 1. Styles -/

/-- The style that the first character of a scalar tells. -/
def styleOf (text : List Char) : Style :=
  if text.head? = some '\'' then .single
  else if text.head? = some '"' then .double
  else if text.head? = some '|' then .literal
  else .plain

/-- A plain scalar reads as a string, and nothing in it keeps it from standing without quotes. -/
theorem plainAllowed_of_plain {s : List Char} (h : style s = .plain) :
    readsAsOther s = false ∧ plainAllowed s = true := by
  unfold style at h
  split at h
  · split at h <;> cases h
  · split at h
    · rename_i hplain
      simpa using hplain
    · split at h <;> cases h

/-- A plain scalar is not empty, and its first character marks nothing. -/
theorem exists_cons_of_plain {s : List Char} (h : style s = .plain) :
    ∃ c cs, s = c :: cs ∧ c ∉ indicators := by
  obtain ⟨hother, hplain⟩ := plainAllowed_of_plain h
  cases s with
  | nil => cases hother
  | cons c cs =>
    refine ⟨c, cs, rfl, fun hc => ?_⟩
    have hmarks : marksFirst (c :: cs) = true := by simp [marksFirst, hc]
    simp [plainAllowed, indicates, hmarks] at hplain

theorem styleOf_write (indent : Nat) (s r : List Char) :
    styleOf (write indent s ++ r) = style s := by
  rw [write]
  cases hstyle : style s with
  | plain =>
    obtain ⟨c, cs, rfl, hc⟩ := exists_cons_of_plain hstyle
    have hquote : c ≠ '\'' ∧ c ≠ '"' ∧ c ≠ '|' := by
      refine ⟨?_, ?_, ?_⟩ <;> rintro rfl <;> exact hc (by decide)
    simp [styleOf, hquote]
  | single => rfl
  | double => rfl
  | literal => rfl

/-! ## 2. Scalars in a line -/

/-- A space or a line feed. -/
def isGap (c : Char) : Bool := c = ' ' || c = '\n'

/-- A string that needs no block and, where it stands without quotes, holds no space. -/
structure Compact (s : List Char) : Prop where
  noLineFeed : '\n' ∉ s
  noSpace : style s = .plain → ' ' ∉ s

theorem Compact.style_ne_literal {s : List Char} (h : Compact s) : style s ≠ .literal := by
  intro hstyle
  rw [style, if_neg h.noLineFeed] at hstyle
  split at hstyle
  · cases hstyle
  · split at hstyle <;> cases hstyle

theorem Compact.isGap_eq_false {s : List Char} (h : Compact s) (hstyle : style s = .plain) {c : Char}
    (hc : c ∈ s) : isGap c = false := by
  cases hgap : isGap c with
  | false => rfl
  | true =>
    simp only [isGap, Bool.or_eq_true, decide_eq_true_eq] at hgap
    rcases hgap with rfl | rfl
    · exact absurd hc (h.noSpace hstyle)
    · exact absurd hc h.noLineFeed

/-- A plain scalar and a fixed text behind it are one run without a gap. -/
theorem Compact.run {s behind : List Char} (h : Compact s) (hstyle : style s = .plain)
    (hgap : ∀ c ∈ behind, isGap c = false) : ∀ c ∈ s ++ behind, (!isGap c) = true := by
  intro c hc
  rcases List.mem_append.mp hc with hc | hc
  · rw [h.isGap_eq_false hstyle hc]
    rfl
  · rw [hgap c hc]
    rfl

theorem legible_plain {behind : List Char} (hgap : ∀ c ∈ behind, isGap c = false) :
    Legible (fun s => s ++ behind) id (fun s => Compact s ∧ style s = .plain)
      fun r => ∀ c ∈ r.head?, isGap c = true := by
  refine (Legible.of_run (p := fun c => !isGap c) (fun s hs => ?_) ?_).mono (fun _ h => h) ?_
  · exact hs.1.run hs.2 hgap
  · exact fun a b _ _ hab => List.append_cancel_right hab
  · intro r hr c hc
    rw [hr c hc]
    rfl

/-- **Scalars are legible in front of a gap**, with a fixed text behind them or not. -/
theorem legible_write (indent : Nat) (behind : List Char) (hgap : ∀ c ∈ behind, isGap c = false)
    (hquote : ∀ c ∈ behind.head?, c ≠ '\'') :
    Legible (fun s => write indent s ++ behind) id Compact
      fun r => ∀ c ∈ r.head?, isGap c = true := by
  have hfollow : ∀ r : List Char, (∀ c ∈ r.head?, isGap c = true) →
      ∀ c ∈ (behind ++ r).head?, c ≠ '\'' := by
    intro r hr c hc
    cases behind with
    | nil =>
      rintro rfl
      cases hr _ hc
    | cons d ds => exact hquote c hc
  intro a b ha hb r s hr hs h
  have hstyle : style a = style b := by
    rw [← styleOf_write indent a (behind ++ r), ← styleOf_write indent b (behind ++ s),
      ← List.append_assoc, ← List.append_assoc, h]
  have hrest : ∀ {x y : List Char}, x = y ∧ behind ++ r = behind ++ s → x = y ∧ r = s :=
    fun h => ⟨h.1, List.append_cancel_left h.2⟩
  dsimp only at h
  rw [List.append_assoc, List.append_assoc, write, write, ← hstyle] at h
  cases hb' : style a with
  | plain =>
    rw [hb'] at h hstyle
    dsimp only at h
    rw [← List.append_assoc, ← List.append_assoc] at h
    exact legible_plain hgap ⟨ha, hb'⟩ ⟨hb, hstyle.symm⟩ hr hs h
  | single =>
    rw [hb'] at h
    exact hrest (legible_single indent (any a) (any b) (hfollow r hr) (hfollow s hs) h)
  | double =>
    rw [hb'] at h
    exact hrest (legible_double (any a) (any b) (any _) (any _) h)
  | literal => exact absurd hb' ha.style_ne_literal

/-- **A scalar that ends its line is legible in front of anything.** -/
theorem legible_writeLine (indent : Nat) : Legible (writeLine indent) id Compact Any := by
  have hline := (legible_write indent [] (by simp) (by simp)).followed ['\n']
    (G := Any) fun r _ c hc => by cases hc; rfl
  refine hline.congr fun s hs => ?_
  rw [writeLine, if_neg fun h => hs.style_ne_literal h.1, List.append_nil]

end Scalar
end Yaml
end FunctionMap
