/-!
# UTF-8: bytes as characters

Sources and outputs are byte strings; every rule of the library is about characters. This file
fixes how the one reads as the other:

* `encode` writes characters as bytes, `size` counts the bytes it writes;
* `pieces` cuts any byte string into characters and maximal ill-formed runs, with a reader that
  takes one byte at a time (`Reader.step`) and never looks ahead;
* `decode` accepts the byte strings without an ill-formed run and names the offset of the first
  one otherwise; `decodeLossy` shows U+FFFD for each of them.

Main statement: the pieces of a byte string, joined, are that byte string (`flatten_pieces`).
-/

namespace FunctionMap

/-- A byte string. -/
abbrev Bytes := List UInt8

namespace Utf8

/-! ## 1. Writing -/

/-- The bytes of a text. -/
def encode (text : List Char) : Bytes := text.flatMap String.utf8EncodeChar

/-- The number of bytes of a text. -/
def size : List Char → Nat
  | [] => 0
  | c :: text => c.utf8Size + size text

@[simp] theorem encode_nil : encode [] = [] := rfl

@[simp] theorem encode_cons (c : Char) (text : List Char) :
    encode (c :: text) = String.utf8EncodeChar c ++ encode text := rfl

@[simp] theorem encode_append (a b : List Char) : encode (a ++ b) = encode a ++ encode b := by
  simp [encode]

@[simp] theorem size_nil : size [] = 0 := rfl

@[simp] theorem size_cons (c : Char) (text : List Char) :
    size (c :: text) = c.utf8Size + size text := rfl

@[simp] theorem size_append (a b : List Char) : size (a ++ b) = size a + size b := by
  induction a with
  | nil => simp
  | cons c a ih => simp [ih, Nat.add_assoc]

/-! ## 2. Reading, one byte at a time -/

/-- A run of bytes that reads as one: a character, or (`char?` is `none`) a maximal run that starts
    a character and never completes it. -/
structure Piece where
  bytes : Bytes
  char? : Option Char
  deriving DecidableEq, Repr

/-- What a piece shows when ill-formed runs are let through. -/
def Piece.shown (p : Piece) : Char := p.char?.getD '\uFFFD'

/-- A character of several bytes whose first bytes are `seen`: `owed` more are due, the next one
    between `low` and `high`. -/
structure Pending where
  seen : Bytes
  value : Nat
  owed : Nat
  low : UInt8
  high : UInt8
  deriving DecidableEq, Repr

/-- The character that a first byte announces. The narrowed ranges after `E0`, `ED`, `F0` and `F4`
    leave out overlong forms, surrogates and what lies above U+10FFFF. -/
def Pending.ofLead (b : UInt8) : Option Pending :=
  if 0xC2 ≤ b ∧ b ≤ 0xDF then some ⟨[b], b.toNat % 32, 1, 0x80, 0xBF⟩
  else if b = 0xE0 then some ⟨[b], b.toNat % 16, 2, 0xA0, 0xBF⟩
  else if b = 0xED then some ⟨[b], b.toNat % 16, 2, 0x80, 0x9F⟩
  else if 0xE1 ≤ b ∧ b ≤ 0xEF then some ⟨[b], b.toNat % 16, 2, 0x80, 0xBF⟩
  else if b = 0xF0 then some ⟨[b], b.toNat % 8, 3, 0x90, 0xBF⟩
  else if 0xF1 ≤ b ∧ b ≤ 0xF3 then some ⟨[b], b.toNat % 8, 3, 0x80, 0xBF⟩
  else if b = 0xF4 then some ⟨[b], b.toNat % 8, 3, 0x80, 0x8F⟩
  else none

/-- The reader between two bytes: between two pieces, or inside a character. -/
abbrev Reader := Option Pending

/-- The pieces that a byte completes when it stands between two pieces, and the reader after it. -/
def Reader.enter (b : UInt8) : List Piece × Reader :=
  if b < 0x80 then ([⟨[b], some (Char.ofNat b.toNat)⟩], none)
  else match Pending.ofLead b with
    | some p => ([], some p)
    | none => ([⟨[b], none⟩], none)

/-- The pieces that a byte completes, and the reader after it. A byte that cannot continue the
    character at hand ends an ill-formed run and is read afresh. -/
def Reader.step : Reader → UInt8 → List Piece × Reader
  | none, b => Reader.enter b
  | some p, b =>
    if p.low ≤ b ∧ b ≤ p.high then
      if p.owed = 1 then
        ([⟨p.seen ++ [b], some (Char.ofNat (p.value * 64 + b.toNat % 64))⟩], none)
      else
        ([], some ⟨p.seen ++ [b], p.value * 64 + b.toNat % 64, p.owed - 1, 0x80, 0xBF⟩)
    else
      (⟨p.seen, none⟩ :: (Reader.enter b).1, (Reader.enter b).2)

/-- The pieces still to come: a character that the end cuts off is an ill-formed run. -/
def Reader.read : Reader → Bytes → List Piece
  | none, [] => []
  | some p, [] => [⟨p.seen, none⟩]
  | r, b :: bs => (r.step b).1 ++ Reader.read (r.step b).2 bs

/-- The pieces of a byte string. -/
def pieces (bs : Bytes) : List Piece := Reader.read none bs

/-! ## 3. Decoding -/

/-- The characters of the pieces, or the offset of the first ill-formed one, when `offset` bytes
    stand before them. -/
def ofPieces (offset : Nat) : List Piece → Except Nat (List Char)
  | [] => .ok []
  | ⟨bytes, some c⟩ :: ps => (ofPieces (offset + bytes.length) ps).map (c :: ·)
  | ⟨_, none⟩ :: _ => .error offset

/-- The text of a byte string, or the offset of the first byte that belongs to no character. -/
def decode (bs : Bytes) : Except Nat (List Char) := ofPieces 0 (pieces bs)

/-- The text of a byte string, each maximal ill-formed run shown as U+FFFD. -/
def decodeLossy (bs : Bytes) : List Char := (pieces bs).map Piece.shown

/-! ## 4. The pieces are the byte string -/

/-- The bytes that a reader has taken without completing a piece. -/
def Reader.seen : Reader → Bytes
  | none => []
  | some p => p.seen

theorem Pending.seen_ofLead {b : UInt8} {p : Pending} (h : Pending.ofLead b = some p) :
    p.seen = [b] := by
  unfold Pending.ofLead at h
  repeat' split at h
  all_goals first | (cases h; rfl) | cases h

theorem Reader.bytes_enter (b : UInt8) :
    ((Reader.enter b).1.flatMap Piece.bytes) ++ (Reader.enter b).2.seen = [b] := by
  unfold Reader.enter
  split
  · rfl
  · split
    · rename_i p hp
      simpa [Reader.seen] using Pending.seen_ofLead hp
    · rfl

/-- A step loses no byte and invents none. -/
theorem Reader.bytes_step (r : Reader) (b : UInt8) :
    ((r.step b).1.flatMap Piece.bytes) ++ (r.step b).2.seen = r.seen ++ [b] := by
  cases r with
  | none => exact Reader.bytes_enter b
  | some p =>
    unfold Reader.step
    dsimp only
    split
    · split <;> simp [Reader.seen]
    · have h := Reader.bytes_enter b
      simp only [List.flatMap_cons, List.append_assoc, h]
      rfl

theorem Reader.bytes_read (r : Reader) (bs : Bytes) :
    (Reader.read r bs).flatMap Piece.bytes = r.seen ++ bs := by
  induction bs generalizing r with
  | nil => cases r <;> simp [Reader.read, Reader.seen]
  | cons b bs ih =>
    rw [Reader.read, List.flatMap_append, ih, ← List.append_assoc, Reader.bytes_step,
      List.append_assoc]
    rfl

/-- **The pieces of a byte string, joined, are that byte string.** -/
theorem flatten_pieces (bs : Bytes) : (pieces bs).flatMap Piece.bytes = bs := by
  simpa [pieces, Reader.seen] using Reader.bytes_read none bs

end Utf8

end FunctionMap
