import FunctionMap.Proofs.Text.Utf8

/-!
# UTF-8: how far a byte string reads as a text

A byte string that is no encoding of a text still starts with one, if only with that of the empty
text. Main statement: decoding fails exactly for the byte strings that are no encoding, and the
offset it gives is the length of the longest start that is one (`decode_eq_error_iff`). It is found
by a reader that never looks ahead, so the two halves are separate facts: what was read so far is an
encoding (`exists_encode_of_ofPieces`), and no encoding is longer (`size_le_of_ofPieces`).
-/

namespace FunctionMap
namespace Utf8

/-! ## 1. Encodings and their lengths -/

/-- A byte string that is the encoding of a text. -/
def Valid (bs : Bytes) : Prop := ∃ text, bs = encode text

/-- The first `n` bytes are the longest start of a byte string that is the encoding of a text. -/
structure ValidUpTo (bs : Bytes) (n : Nat) : Prop where
  le : n ≤ bs.length
  valid : Valid (bs.take n)
  longest : ∀ m, m ≤ bs.length → Valid (bs.take m) → m ≤ n

theorem ValidUpTo.unique {bs : Bytes} {m n : Nat} (hm : ValidUpTo bs m) (hn : ValidUpTo bs n) :
    m = n :=
  Nat.le_antisymm (hn.longest m hm.le hm.valid) (hm.longest n hn.le hn.valid)

theorem length_encode (text : List Char) : (encode text).length = size text := by
  induction text with
  | nil => rfl
  | cons c text ih => rw [encode_cons, List.length_append, String.length_utf8EncodeChar, ih, size_cons]

theorem take_encode_append (text : List Char) (rest : Bytes) :
    (encode text ++ rest).take (size text) = encode text :=
  List.take_left' (length_encode text)

theorem drop_encode_append (text : List Char) (rest : Bytes) :
    (encode text ++ rest).drop (size text) = rest :=
  List.drop_left' (length_encode text)

theorem decode_encode (text : List Char) : decode (encode text) = .ok text :=
  decode_eq_ok_iff.mpr rfl

theorem encode_injective {text text' : List Char} (h : encode text = encode text') : text = text' := by
  have hdecode := decode_encode text
  rw [h, decode_encode text'] at hdecode
  exact (Except.ok.inj hdecode).symm

/-- A byte string that starts with the encoding of a text is the encoding of a text that starts with
    it, if of any. -/
theorem exists_append_of_encode {text front : List Char} {rest : Bytes}
    (h : encode text = encode front ++ rest) : ∃ back, text = front ++ back := by
  have hpieces := congrArg pieces h
  rw [pieces_encode, pieces_encode_append] at hpieces
  obtain ⟨front', back, rfl, hfront, -⟩ := List.map_eq_append_iff.mp hpieces
  obtain rfl : front' = front :=
    (List.map_inj_right fun _ _ hpiece => Option.some.inj (congrArg Piece.char? hpiece)).mp hfront
  exact ⟨back, rfl⟩

/-! ## 2. Where decoding stops -/

/-- A character does not stop the decoder: what is wrong comes behind it. -/
theorem ofPieces_char_eq_error {bytes : Bytes} {c : Char} {ps : List Piece} {offset n : Nat}
    (h : ofPieces offset (⟨bytes, some c⟩ :: ps) = .error n) :
    ofPieces (offset + bytes.length) ps = .error n := by
  rw [ofPieces] at h
  cases htail : ofPieces (offset + bytes.length) ps with
  | ok tail => rw [htail] at h; cases h
  | error k => rw [htail] at h; cases h; rfl

theorem le_of_ofPieces {ps : List Piece} {offset n : Nat} (h : ofPieces offset ps = .error n) :
    offset ≤ n := by
  induction ps generalizing offset with
  | nil => cases h
  | cons p ps ih =>
    obtain ⟨bytes, _ | c⟩ := p
    · cases h
      exact Nat.le_refl _
    · exact Nat.le_trans (Nat.le_add_right _ _) (ih (ofPieces_char_eq_error h))

/-- The offset of an ill-formed piece lies behind all characters that stand before it. -/
theorem size_le_of_ofPieces {text : List Char} {ps : List Piece} {offset n : Nat}
    (h : ofPieces offset (text.map (fun c => ⟨String.utf8EncodeChar c, some c⟩) ++ ps) = .error n) :
    offset + size text ≤ n := by
  induction text generalizing offset with
  | nil => exact le_of_ofPieces h
  | cons c text ih =>
    have hle := ih (ofPieces_char_eq_error h)
    rw [String.length_utf8EncodeChar] at hle
    rw [size_cons]
    omega

/-- What stands before an ill-formed piece is the encoding of a text. -/
theorem exists_encode_of_ofPieces {ps : List Piece} (hps : ∀ p ∈ ps, p.Faithful) {offset n : Nat}
    (h : ofPieces offset ps = .error n) :
    ∃ text rest, ps.flatMap Piece.bytes = encode text ++ rest ∧ n = offset + size text := by
  induction ps generalizing offset with
  | nil => cases h
  | cons p ps ih =>
    obtain ⟨bytes, _ | c⟩ := p
    · cases h
      exact ⟨[], _, rfl, rfl⟩
    · have htail := ofPieces_char_eq_error h
      obtain ⟨text, rest, hbytes, rfl⟩ := ih (fun p hp => hps p (List.mem_cons_of_mem _ hp)) htail
      have hc : String.utf8EncodeChar c = bytes := hps _ List.mem_cons_self c rfl
      refine ⟨c :: text, rest, ?_, ?_⟩
      · rw [List.flatMap_cons, hbytes, encode_cons, hc, List.append_assoc]
      · rw [← hc, String.length_utf8EncodeChar, size_cons, Nat.add_assoc]

/-! ## 3. The longest start that is a text -/

theorem not_valid_of_decode_eq_error {bs : Bytes} {n : Nat} (h : decode bs = .error n) :
    ¬ Valid bs := by
  rintro ⟨text, rfl⟩
  rw [decode_encode] at h
  cases h

theorem validUpTo_of_decode_eq_error {bs : Bytes} {n : Nat} (h : decode bs = .error n) :
    ValidUpTo bs n := by
  obtain ⟨text, rest, hbytes, hn⟩ :=
    exists_encode_of_ofPieces (fun _ hp => faithful_of_mem_pieces hp) h
  rw [Nat.zero_add] at hn
  have hbs : bs = encode text ++ rest := (flatten_pieces bs).symm.trans hbytes
  refine ⟨?_, ⟨text, ?_⟩, fun m hm hvalid => ?_⟩
  · rw [hbs, List.length_append, length_encode, hn]
    exact Nat.le_add_right _ _
  · rw [hbs, hn, take_encode_append]
  · obtain ⟨text', htext'⟩ := hvalid
    have hsplit : bs = encode text' ++ bs.drop m := by rw [← htext', List.take_append_drop]
    rw [hsplit, decode, pieces_encode_append] at h
    have hle := size_le_of_ofPieces h
    have hsize : size text' = m := by
      rw [← length_encode, ← htext', List.length_take, Nat.min_eq_left hm]
    omega

/-- **Decoding fails for what is no encoding, at the end of the longest start that is one.** -/
theorem decode_eq_error_iff {bs : Bytes} {n : Nat} :
    decode bs = .error n ↔ ¬ Valid bs ∧ ValidUpTo bs n := by
  constructor
  · intro h
    exact ⟨not_valid_of_decode_eq_error h, validUpTo_of_decode_eq_error h⟩
  · rintro ⟨hinvalid, hn⟩
    cases hbs : decode bs with
    | ok text => exact absurd ⟨text, decode_eq_ok_iff.mp hbs⟩ hinvalid
    | error k => rw [(validUpTo_of_decode_eq_error hbs).unique hn]

end Utf8
end FunctionMap
