import FunctionMap.Yaml.Tag
import FunctionMap.Proofs.Text.ValidPrefix
import FunctionMap.Proofs.Yaml.Scalar

/-!
# What a tag shows of its name

Every byte of a name can be read from its tag, as it is or behind a percent sign. What stands behind
the first NUL of a name is in no tag, so the tag shows the name exactly up to there, `Tag.shown`.

Main statement: `legible_write`, with `write_eq_iff` for tags alone.
-/

namespace FunctionMap
namespace Yaml
namespace Tag

open Scalar (isGap isBreak)

/-- A name up to its first NUL. -/
def shown (name : List Char) : List Char := name.takeWhile (· ≠ '\x00')

theorem shown_eq_self {name : List Char} (h : '\x00' ∉ name) : shown name = name :=
  takeWhile_eq_self fun _ hc => decide_eq_true fun heq => h (heq ▸ hc)

theorem shown_shown (name : List Char) : shown (shown name) = shown name :=
  takeWhile_eq_self fun _ hc => mem_takeWhile hc

/-! ## 1. Bytes -/

/-- The first byte of a tag, and what is behind its text. -/
def readByte : List Char → Option (UInt8 × List Char)
  | '%' :: rest => (digits? 16 (rest.take 2)).map fun n => (UInt8.ofNat n, rest.drop 2)
  | c :: rest => some (UInt8.ofNat c.toNat, rest)
  | [] => none

/-- The characters that show ink, of ASCII. A tag has no others. -/
def isGraphic (c : Char) : Bool := '!' ≤ c && c ≤ '~'

theorem isGap_of_isGraphic {c : Char} (h : isGraphic c = true) : isGap c = false := by
  refine Bool.eq_false_iff.mpr fun hgap => ?_
  simp only [isGap, Bool.or_eq_true, decide_eq_true_eq] at hgap
  rcases hgap with rfl | rfl <;> cases h

theorem isBreak_of_isGraphic {c : Char} (h : isGraphic c = true) : isBreak c = false := by
  refine Bool.eq_false_iff.mpr fun hbreak => ?_
  simp only [isBreak, Bool.or_eq_true, decide_eq_true_eq] at hbreak
  rcases hbreak with (((rfl | rfl) | rfl) | rfl) | rfl <;> cases h

/-- The bytes that stand for themselves are ASCII characters; none of them has a meaning of its own
    at the start of a tag, announces digits or ends the tag. -/
theorem plain_byte : ∀ n < 256, isPlain (UInt8.ofNat n) = true →
    (Char.ofNat n).toNat = n ∧ Char.ofNat n ≠ '%' ∧ Char.ofNat n ≠ '<' ∧
      isGraphic (Char.ofNat n) = true := by
  decide +kernel

theorem plain_of_isPlain {b : UInt8} (h : isPlain b = true) :
    (Char.ofNat b.toNat).toNat = b.toNat ∧ Char.ofNat b.toNat ≠ '%' ∧ Char.ofNat b.toNat ≠ '<' ∧
      isGraphic (Char.ofNat b.toNat) = true :=
  plain_byte b.toNat b.toNat_lt (by rwa [UInt8.ofNat_toNat])

theorem readByte_writeByte (b : UInt8) (rest : List Char) :
    readByte (writeByte b ++ rest) = some (b, rest) := by
  unfold writeByte
  split
  · rename_i hb
    obtain ⟨hvalue, hpercent, -⟩ := plain_of_isPlain hb
    rw [List.singleton_append, readByte, hvalue, UInt8.ofNat_toNat]
    exact hpercent
  · have hlength := Scalar.length_hex 2 b.toNat
    rw [List.cons_append, readByte, List.take_left' hlength, List.drop_left' hlength,
      Scalar.digits?_hex (by decide) b.toNat_lt, Option.map_some, UInt8.ofNat_toNat]

theorem legible_writeByte : Legible writeByte id Any Any :=
  .of_read fun b _ rest _ => readByte_writeByte b rest

theorem writeByte_ne_nil (b : UInt8) : writeByte b ≠ [] := by
  unfold writeByte
  split <;> exact List.cons_ne_nil _ _

/-- No byte is written with the mark of a tag that holds no name. -/
theorem writeByte_ne_mark (b : UInt8) (r s : List Char) : writeByte b ++ r ≠ '<' :: s := by
  unfold writeByte
  split
  · rename_i hb
    obtain ⟨-, -, hmark, -⟩ := plain_of_isPlain hb
    intro h
    injection h with h
    exact hmark h
  · intro h
    injection h with h
    cases h

theorem isGraphic_writeByte {b : UInt8} {c : Char} (h : c ∈ writeByte b) : isGraphic c = true := by
  unfold writeByte at h
  split at h
  · rename_i hb
    obtain ⟨-, -, -, hgraphic⟩ := plain_of_isPlain hb
    rw [List.mem_singleton.mp h]
    exact hgraphic
  · rcases List.mem_cons.mp h with rfl | h
    · rfl
    · exact Scalar.forall_mem_hex (P := (isGraphic · = true)) (by decide) 2 b.toNat c h

/-! ## 2. Names -/

theorem isGraphic_write {name : List Char} {c : Char} (h : c ∈ write name) : isGraphic c = true := by
  unfold write at h
  split at h
  · simp only [List.mem_cons, List.not_mem_nil, or_false] at h
    rcases h with rfl | rfl | rfl | rfl | rfl | rfl <;> rfl
  · rcases List.mem_cons.mp h with rfl | h
    · rfl
    · obtain ⟨b, -, hb⟩ := List.mem_flatMap.mp h
      exact isGraphic_writeByte hb

theorem isGap_write {name : List Char} {c : Char} (h : c ∈ write name) : isGap c = false :=
  isGap_of_isGraphic (isGraphic_write h)

theorem body_eq (name : List Char) : body name = Utf8.encode (shown name) := rfl

theorem flatMap_writeByte_injective {a b : Bytes} (h : a.flatMap writeByte = b.flatMap writeByte) :
    a = b := by
  have hbytes := (legible_writeByte.flatMap (E := (· = [])) (fun _ _ _ => any _) (fun _ _ => any _)
    (by
      rintro b r s - rfl hnil
      exact writeByte_ne_nil b (List.append_eq_nil_iff.mp hnil).1)).of_map_id
  exact hbytes.view_eq rfl (fun b _ => any b) (fun b _ => any b) h

/-- **Two names have one tag exactly if they are the same up to their first NUL.** -/
theorem write_eq_iff {a b : List Char} : write a = write b ↔ shown a = shown b := by
  constructor
  · intro h
    refine Utf8.encode_injective ?_
    rw [← body_eq, ← body_eq]
    unfold write at h
    cases ha : body a with
    | nil =>
      cases hb : body b with
      | nil => rfl
      | cons y ys =>
        rw [ha, hb] at h
        injection h with _ h
        exact absurd h.symm (writeByte_ne_mark y _ _)
    | cons x xs =>
      cases hb : body b with
      | nil =>
        rw [ha, hb] at h
        injection h with _ h
        exact absurd h (writeByte_ne_mark x _ _)
      | cons y ys =>
        rw [ha, hb] at h
        injection h with _ h
        exact flatMap_writeByte_injective h
  · intro h
    unfold write
    rw [body_eq, body_eq, h]

theorem write_shown (name : List Char) : write (shown name) = write name :=
  write_eq_iff.mpr (shown_shown name)

/-- **A tag is legible in front of a gap**, as far as it shows its name. -/
theorem legible_write : Legible write shown Any fun r => ∀ c ∈ r.head?, isGap c = true := by
  refine (Legible.of_run (p := fun c => !isGap c) ?_ ?_).mono (fun _ h => h) ?_
  · intro name _ c hc
    rw [isGap_write hc]
    rfl
  · exact fun a b _ _ hab => write_eq_iff.mp hab
  · intro r hr c hc
    rw [hr c hc]
    rfl

end Tag
end Yaml
end FunctionMap
