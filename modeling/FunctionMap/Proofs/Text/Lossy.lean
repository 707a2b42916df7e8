import FunctionMap.Proofs.Text.Utf8

/-!
# UTF-8: an ASCII byte is always a character

A byte below 0x80 continues no character of several bytes. Wherever it stands, also behind bytes
that belong to no character, the reader ends what it has and reads the byte as the character it is
(`pieces_append_ascii`). So lossy decoding keeps ASCII characters where they are
(`decodeLossy_append_ascii`), and shows none that is not there (`mem_of_mem_decodeLossy`,
`getLast?_of_getLast?_decodeLossy`).
-/

namespace FunctionMap
namespace Utf8

/-! ## 1. Reading an ASCII byte -/

/-- A reader between two pieces, or inside a character that no ASCII byte continues. -/
def Reader.AboveAscii (r : Reader) : Prop := ∀ p, r = some p → 0x80 ≤ p.low

theorem Reader.aboveAscii_none : Reader.AboveAscii none := fun _ hp => nomatch hp

theorem Reader.aboveAscii_enter (b : UInt8) : (Reader.enter b).2.AboveAscii := by
  intro p hp
  unfold Reader.enter at hp
  split at hp
  · cases hp
  · split at hp
    · rename_i q hq
      cases hp
      rcases Pending.ofLead_cases hq with ⟨-, rfl⟩ | ⟨-, low, high, rfl, hr, -⟩
        | ⟨-, low, high, rfl, hr, -⟩
      · exact UInt8.le_refl _
      · exact hr.1
      · exact hr.1
    · cases hp

theorem Reader.aboveAscii_step (r : Reader) (b : UInt8) : (r.step b).2.AboveAscii := by
  cases r with
  | none => exact Reader.aboveAscii_enter b
  | some p =>
    unfold Reader.step
    dsimp only
    split
    · split
      · exact fun q hq => nomatch hq
      · intro q hq
        cases hq
        exact UInt8.le_refl _
    · exact Reader.aboveAscii_enter b

section Ascii

variable {b : UInt8} (hb : b < 0x80)

include hb

/-- The character that an ASCII byte is. -/
theorem Reader.step_ascii {r : Reader} (h : r.AboveAscii) :
    r.step b = (Reader.read r [] ++ [⟨[b], some (Char.ofNat b.toNat)⟩], none) := by
  have henter : Reader.enter b = ([⟨[b], some (Char.ofNat b.toNat)⟩], none) := if_pos hb
  cases r with
  | none => exact henter
  | some p =>
    have hnot : ¬ (p.low ≤ b ∧ b ≤ p.high) := fun hin =>
      UInt8.not_lt.mpr (UInt8.le_trans (h p rfl) hin.1) hb
    simp only [Reader.step, if_neg hnot, henter, Reader.read]
    rfl

/-- **An ASCII byte ends what stands in front of it and is read as itself.** -/
theorem Reader.read_append_ascii {r : Reader} (h : r.AboveAscii) (front rest : Bytes) :
    Reader.read r (front ++ b :: rest) =
      Reader.read r front ++ ⟨[b], some (Char.ofNat b.toNat)⟩ :: Reader.read none rest := by
  induction front generalizing r with
  | nil =>
    rw [List.nil_append, Reader.read, Reader.step_ascii hb h, List.append_assoc]
    rfl
  | cons a front ih =>
    rw [List.cons_append, Reader.read, ih (Reader.aboveAscii_step r a), Reader.read,
      List.append_assoc]

theorem pieces_append_ascii (front rest : Bytes) :
    pieces (front ++ b :: rest) =
      pieces front ++ ⟨[b], some (Char.ofNat b.toNat)⟩ :: pieces rest :=
  Reader.read_append_ascii hb Reader.aboveAscii_none front rest

/-- **Lossy decoding keeps an ASCII character where it stands.** -/
theorem decodeLossy_append_ascii (front rest : Bytes) :
    decodeLossy (front ++ b :: rest) =
      decodeLossy front ++ Char.ofNat b.toNat :: decodeLossy rest := by
  rw [decodeLossy, pieces_append_ascii hb, List.map_append, List.map_cons]
  rfl

/-! ## 2. What lossy decoding shows -/

/-- A piece that shows an ASCII character consists of its byte. -/
theorem Piece.bytes_of_shown {p : Piece} (hp : p.Faithful) (h : p.shown = Char.ofNat b.toNat) :
    p.bytes = [b] := by
  obtain ⟨bytes, _ | c⟩ := p
  · -- the mark of an ill-formed run is no ASCII character
    have hlt : b.toNat < 0x80 := hb
    have hvalid : b.toNat.isValidChar := Or.inl (by omega)
    have hval := congrArg (fun c : Char => c.val.toNat) h
    simp only [val_toNat_ofNat hvalid, Piece.shown, Option.getD_none] at hval
    have hmark : '\uFFFD'.val.toNat = 0xFFFD := rfl
    omega
  · rw [← hp c rfl, show c = Char.ofNat b.toNat from h, utf8EncodeChar_one hb]

/-- An ASCII character that lossy decoding shows stands among the bytes. -/
theorem mem_of_mem_decodeLossy {bs : Bytes} (h : Char.ofNat b.toNat ∈ decodeLossy bs) : b ∈ bs := by
  obtain ⟨p, hp, hshown⟩ := List.mem_map.mp h
  rw [← flatten_pieces bs]
  refine List.mem_flatMap.mpr ⟨p, hp, ?_⟩
  rw [Piece.bytes_of_shown hb (faithful_of_mem_pieces hp) hshown]
  exact List.mem_singleton_self b

/-- An ASCII character at the end of what lossy decoding shows is the last byte. -/
theorem getLast?_of_getLast?_decodeLossy {bs : Bytes}
    (h : (decodeLossy bs).getLast? = some (Char.ofNat b.toNat)) : bs.getLast? = some b := by
  rw [decodeLossy, List.getLast?_map, Option.map_eq_some_iff] at h
  obtain ⟨p, hlast, hshown⟩ := h
  have hfaithful := faithful_of_mem_pieces (List.mem_of_getLast? hlast)
  obtain ⟨front, hfront⟩ := List.getLast?_eq_some_iff.mp hlast
  rw [← flatten_pieces bs, hfront, List.flatMap_append, List.flatMap_singleton,
    Piece.bytes_of_shown hb hfaithful hshown, List.getLast?_concat]

end Ascii

theorem decodeLossy_eq_nil_iff {bs : Bytes} : decodeLossy bs = [] ↔ bs = [] := by
  constructor
  · intro h
    rw [← flatten_pieces bs, List.map_eq_nil_iff.mp h]
    rfl
  · rintro rfl
    rfl

end Utf8
end FunctionMap
