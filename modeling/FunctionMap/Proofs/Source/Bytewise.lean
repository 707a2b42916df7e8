import FunctionMap.Proofs.Source.Local
import FunctionMap.Proofs.Source.Place

/-!
# The cursor, byte by byte

A cursor moves over characters. Here a second one moves over the bytes of a source, one byte at a time,
and looks at nothing but the byte in front of it. All bytes that it asks for are ASCII, and no ASCII byte
lies inside a character of several bytes, so both cursors come to the same places, whatever is asked of
them and in whatever order.

* `Cursor.Operation`, `perform`, `performAll` -- what can be asked of a cursor, and what it answers;
* `ByteCursor` -- the cursor over bytes, for the same operations;
* `OnBytes p q` -- every byte of a character is in the class `q` exactly if the character is in `p`;
* `InPlace text c op` -- what an operation on the cursor `c` in a text does to its place.

Main statement: `cursor_stays_in_place`, for all operations after any others.
-/

namespace FunctionMap

/-! ## 1. Operations -/

/-- An ASCII character, which is one byte. -/
abbrev Ascii := { c : Char // c.toNat < 0x80 }

/-- The byte of an ASCII character. -/
def Ascii.byte (a : Ascii) : UInt8 := UInt8.ofNat a.val.toNat

theorem Ascii.toNat_byte (a : Ascii) : a.byte.toNat = a.val.toNat := by
  have := a.property
  rw [Ascii.byte, UInt8.toNat_ofNat']
  omega

namespace Cursor

/-- What can be asked of a cursor. -/
inductive Operation where
  | skipWhitespace
  | skipComment
  | readToken
  | expect (due : Ascii) (description : String)
  | expectWord (word : List Ascii) (description : String)

/-- What a cursor answers. -/
inductive Answer where
  | done
  | token (t : Token)
  | refused (e : SourceError)

/-- What a cursor answers to an operation, and where it stands then. -/
def perform (c : Cursor) : Operation → Answer × Cursor
  | .skipWhitespace => (.done, c.skipWhitespace)
  | .skipComment => (.done, c.skipComment)
  | .readToken =>
    match c.readToken with
    | .ok (t, c') => (.token t, c')
    | .error e => (.refused e, c)
  | .expect due description =>
    match c.expect due.val description with
    | .ok c' => (.done, c')
    | .error e => (.refused e, c)
  | .expectWord word description =>
    match c.expectWord description (word.map Subtype.val) with
    | (.ok (), c') => (.done, c')
    | (.error e, c') => (.refused e, c')

/-- Where a cursor stands after some operations, refused or not. -/
def performAll (c : Cursor) (ops : List Operation) : Cursor := ops.foldl (fun c op => (c.perform op).2) c

end Cursor

/-! ## 2. A cursor over bytes -/

/-- The bytes of white space. -/
def isWhitespaceByte (b : UInt8) : Bool := b = 0x20 || b = 0x09 || b = 0x0D || b = 0x0A

/-- The bytes that end a token. -/
def isDelimiterByte (b : UInt8) : Bool := isWhitespaceByte b || b = 0x23 || b = 0x2C || b = 0x5D

/-- A position in some bytes. -/
structure ByteCursor where
  source : Bytes
  position : Nat

/-- What a cursor over bytes answers; a token is the bytes between two positions. -/
inductive ByteAnswer where
  | done
  | token (bytes : Bytes)
  | refused
  deriving DecidableEq

/-- What an answer is in bytes. -/
def Cursor.Answer.onBytes : Cursor.Answer → ByteAnswer
  | .done => .done
  | .token t => .token (Utf8.encode t.text.toList)
  | .refused _ => .refused

namespace ByteCursor

/-- The byte in front of the cursor. -/
def peek? (b : ByteCursor) : Option UInt8 := b.source[b.position]?

/-- The cursor one byte further. -/
def next (b : ByteCursor) : ByteCursor := { b with position := b.position + 1 }

theorem position_lt_of_peek? {b : ByteCursor} {x : UInt8} (h : b.peek? = some x) :
    b.position < b.source.length := (List.getElem?_eq_some_iff.mp h).1

/-- Moves on by one byte as long as the byte in front is in a class. -/
def skipWhile (q : UInt8 → Bool) (b : ByteCursor) : ByteCursor :=
  match _hx : b.peek? with
  | none => b
  | some x => if q x then b.next.skipWhile q else b
termination_by b.source.length - b.position
decreasing_by
  have := position_lt_of_peek? _hx
  simp only [next]
  omega

/-- Moves behind the bytes of a word, up to the first one that differs. -/
def expectWord (b : ByteCursor) : List Ascii → ByteAnswer × ByteCursor
  | [] => (.done, b)
  | x :: xs => if b.peek? = some x.byte then b.next.expectWord xs else (.refused, b)

/-- What a cursor over bytes answers to an operation, and where it stands then. -/
def perform (b : ByteCursor) : Cursor.Operation → ByteAnswer × ByteCursor
  | .skipWhitespace => (.done, b.skipWhile isWhitespaceByte)
  | .skipComment => (.done, b.skipWhile (· ≠ 0x0A))
  | .readToken =>
    let b' := b.skipWhile (!isDelimiterByte ·)
    if b'.position = b.position ∧ (b'.peek? = some 0x2C ∨ b'.peek? = some 0x5D) then (.refused, b')
    else (.token ((b.source.take b'.position).drop b.position), b')
  | .expect due _ => if b.peek? = some due.byte then (.done, b.next) else (.refused, b)
  | .expectWord word _ => b.expectWord word

/-- Where a cursor over bytes stands after some operations, refused or not. -/
def performAll (b : ByteCursor) (ops : List Cursor.Operation) : ByteCursor :=
  ops.foldl (fun b op => (b.perform op).2) b

theorem skipWhile_eq (q : UInt8 → Bool) (b : ByteCursor) :
    b.skipWhile q =
      { b with position := b.position + ((b.source.drop b.position).takeWhile q).length } := by
  fun_induction skipWhile q b with
  | case1 b h =>
    have hend : b.source.drop b.position = [] :=
      List.drop_eq_nil_of_le (List.getElem?_eq_none_iff.mp h)
    rw [hend]
    rfl
  | case2 b x h hx ih =>
    obtain ⟨hlt, hget⟩ := List.getElem?_eq_some_iff.mp h
    rw [ih, List.drop_eq_getElem_cons hlt, hget, List.takeWhile_cons_of_pos hx]
    simp only [next, List.length_cons, ByteCursor.mk.injEq, true_and]
    omega
  | case3 b x h hx =>
    obtain ⟨hlt, hget⟩ := List.getElem?_eq_some_iff.mp h
    rw [List.drop_eq_getElem_cons hlt, hget, List.takeWhile_cons_of_neg hx]
    rfl

end ByteCursor

/-! ## 3. Classes of characters and of bytes -/

namespace Utf8

/-- Every byte of a character is in the class `q` exactly if the character is in the class `p`. -/
def OnBytes (p : Char → Bool) (q : UInt8 → Bool) : Prop :=
  ∀ c, ∀ b ∈ String.utf8EncodeChar c, q b = p c

theorem utf8EncodeChar_of_ascii {c : Char} (h : c.toNat < 0x80) :
    String.utf8EncodeChar c = [UInt8.ofNat c.toNat] := by
  have hc : c.val.toNat ≤ 0x7F := Nat.le_of_lt_succ h
  simp only [String.utf8EncodeChar, if_pos hc]
  rfl

theorem exists_cons_utf8EncodeChar (c : Char) : ∃ b bs, String.utf8EncodeChar c = b :: bs := by
  refine List.exists_cons_of_ne_nil fun hnil => ?_
  have hlength := String.length_utf8EncodeChar c
  rw [hnil] at hlength
  exact Nat.ne_of_gt c.utf8Size_pos hlength.symm

/-- **A byte is that of an ASCII character exactly if it belongs to this character.** -/
theorem onBytes_eq (a : Ascii) : OnBytes (· = a.val) (· = a.byte) := by
  intro c b hb
  rw [decide_eq_decide]
  constructor
  · rintro rfl
    have hlow : a.byte < 0x80 := by
      rw [UInt8.lt_iff_toNat_lt, a.toNat_byte]
      exact a.property
    have hmem : a.byte ∈ encode [c] := List.mem_append_left _ hb
    have hc := List.mem_singleton.mp (ofNat_mem_of_mem_encode hlow hmem)
    rw [← hc, a.toNat_byte, Char.ofNat_toNat]
  · rintro rfl
    rw [utf8EncodeChar_of_ascii a.property] at hb
    exact List.mem_singleton.mp hb

variable {p p' : Char → Bool} {q q' : UInt8 → Bool}

theorem OnBytes.or (h : OnBytes p q) (h' : OnBytes p' q') :
    OnBytes (fun c => p c || p' c) (fun b => q b || q' b) := by
  intro c b hb
  show (q b || q' b) = (p c || p' c)
  rw [h c b hb, h' c b hb]

theorem OnBytes.not (h : OnBytes p q) : OnBytes (!p ·) (!q ·) := by
  intro c b hb
  show (!q b) = (!p c)
  rw [h c b hb]

/-- **A run of characters of a class is a run of bytes of the class.** -/
theorem takeWhile_encode (h : OnBytes p q) (text : List Char) :
    (encode text).takeWhile q = encode (text.takeWhile p) := by
  induction text with
  | nil => rfl
  | cons c text ih =>
    rw [encode_cons]
    by_cases hc : p c = true
    · have hall : ∀ b ∈ String.utf8EncodeChar c, q b = true := fun b hb => by rw [h c b hb, hc]
      rw [List.takeWhile_append_of_pos hall, ih, List.takeWhile_cons_of_pos hc, encode_cons]
    · rw [List.takeWhile_cons_of_neg hc]
      obtain ⟨b, bs, hbytes⟩ := exists_cons_utf8EncodeChar c
      have hb := h c b (by rw [hbytes]; exact List.mem_cons_self)
      rw [hbytes, List.cons_append, List.takeWhile_cons_of_neg (by rwa [hb])]
      rfl

/-- The first byte of a text is in a class exactly if the first character is. -/
theorem map_head?_encode (h : OnBytes p q) (text : List Char) :
    (encode text).head?.map q = text.head?.map p := by
  cases text with
  | nil => rfl
  | cons c text =>
    obtain ⟨b, bs, hbytes⟩ := exists_cons_utf8EncodeChar c
    have hb := h c b (by rw [hbytes]; exact List.mem_cons_self)
    rw [encode_cons, hbytes]
    show some (q b) = some (p c)
    rw [hb]

end Utf8

theorem onBytes_isWhitespace : Utf8.OnBytes Symbol.isWhitespace isWhitespaceByte :=
  (((Utf8.onBytes_eq ⟨' ', by decide⟩).or (Utf8.onBytes_eq ⟨'\t', by decide⟩)).or
    (Utf8.onBytes_eq ⟨'\r', by decide⟩)).or (Utf8.onBytes_eq ⟨'\n', by decide⟩)

theorem onBytes_isDelimiter : Utf8.OnBytes Symbol.isDelimiter isDelimiterByte :=
  ((onBytes_isWhitespace.or (Utf8.onBytes_eq ⟨'#', by decide⟩)).or
    (Utf8.onBytes_eq ⟨',', by decide⟩)).or (Utf8.onBytes_eq ⟨']', by decide⟩)

theorem onBytes_ne_lineFeed : Utf8.OnBytes (· ≠ '\n') (· ≠ 0x0A) := by
  intro c b hb
  have h : decide (b = 0x0A) = decide (c = '\n') := Utf8.onBytes_eq ⟨'\n', by decide⟩ c b hb
  show decide (¬ b = 0x0A) = decide (¬ c = '\n')
  rw [decide_not, decide_not, h]

/-! ## 4. What an operation moves over -/

namespace Cursor

variable {c c' : Cursor} {text read : List Char}

/-- The cursor `c'` stands behind some of the characters that remain at `c`. -/
def MovesOver (c : Cursor) (read : List Char) (c' : Cursor) : Prop :=
  c.rest = read ++ c'.rest ∧ c'.offset = c.offset + Utf8.size read

theorem movesOver_refl (c : Cursor) : c.MovesOver [] c := ⟨rfl, rfl⟩

theorem movesOver_skipWhile (p : Char → Bool) (c : Cursor) :
    c.MovesOver (c.rest.takeWhile p) (c.skipWhile p) :=
  ⟨List.takeWhile_append_dropWhile.symm, rfl⟩

theorem MovesOver.in (h : c.MovesOver read c') (hc : c.In text) : c'.In text := by
  obtain ⟨hrest, hoffset⟩ := h
  have hadvance := hc.advance hrest
  rwa [show c.advance read c'.rest = c' by rw [advance, ← hoffset]] at hadvance

theorem movesOver_of_expect {x : Char} {description : String}
    (h : c.expect x description = .ok c') : c.MovesOver [x] c' := by
  unfold expect at h
  split at h
  · cases h
  · rename_i y rest hrest
    split at h
    · rename_i hy
      cases h
      exact ⟨by rw [hrest, hy]; rfl, by rw [hy]; rfl⟩
    · cases h

theorem size_ascii (a : Ascii) : a.val.utf8Size = 1 := by
  rw [← String.length_utf8EncodeChar, Utf8.utf8EncodeChar_of_ascii a.property]
  rfl

theorem offset_of_expect {a : Ascii} {description : String} (h : c.expect a.val description = .ok c') :
    c'.offset = c.offset + 1 := by
  rw [(movesOver_of_expect h).2, Utf8.size_cons, size_ascii]
  rfl

theorem expect_eq_error_iff {x : Char} {description : String} :
    (∃ e, c.expect x description = .error e) ↔ c.rest.head? ≠ some x := by
  unfold expect
  split
  · simp [*]
  · rename_i y rest hrest
    rw [hrest]
    by_cases hy : y = x <;> simp [hy]

/-- A word and what remains at a cursor agree up to the end of `front`, and no further. -/
structure AgreesUpTo (c : Cursor) (word front : List Ascii) : Prop where
  start : front <+: word
  stands : front.map Subtype.val <+: c.rest
  longest : ∀ front', front' <+: word → front'.map Subtype.val <+: c.rest → front' <+: front

theorem AgreesUpTo.cons {a : Ascii} {word front : List Ascii} (h : c'.AgreesUpTo word front)
    (hrest : c.rest = a.val :: c'.rest) : c.AgreesUpTo (a :: word) (a :: front) where
  start := List.cons_prefix_cons.mpr ⟨rfl, h.start⟩
  stands := by
    rw [hrest]
    exact List.cons_prefix_cons.mpr ⟨rfl, h.stands⟩
  longest front' hword hstands := by
    cases front' with
    | nil => exact List.nil_prefix
    | cons b front' =>
      obtain ⟨rfl, hfront⟩ := List.cons_prefix_cons.mp hword
      rw [hrest] at hstands
      obtain ⟨-, hstands⟩ := List.cons_prefix_cons.mp hstands
      exact List.cons_prefix_cons.mpr ⟨rfl, h.longest front' hfront hstands⟩

theorem agreesUpTo_nil {a : Ascii} {word : List Ascii} (h : c.rest.head? ≠ some a.val) :
    c.AgreesUpTo (a :: word) [] where
  start := List.nil_prefix
  stands := List.nil_prefix
  longest front' hword hstands := by
    cases front' with
    | nil => exact List.nil_prefix
    | cons b front' =>
      obtain ⟨rfl, -⟩ := List.cons_prefix_cons.mp hword
      obtain ⟨after, hrest⟩ := hstands
      exact absurd (List.head?_eq_some_iff.mpr ⟨_, hrest.symm⟩) h

theorem perform_expectWord_of_ok {a : Ascii} {description : String}
    (h : c.expect a.val description = .ok c') (word : List Ascii) :
    c.perform (.expectWord (a :: word) description) = c'.perform (.expectWord word description) := by
  rw [perform, perform, List.map_cons, expectWord, h]

theorem perform_expectWord_of_error {a : Ascii} {description : String} {e : SourceError}
    (h : c.expect a.val description = .error e) (word : List Ascii) :
    c.perform (.expectWord (a :: word) description) = (.refused e, c) := by
  rw [perform, List.map_cons, expectWord, h]

/-- **A word is read up to where it and the text part**, and is accepted exactly if that is its
    end. -/
theorem perform_expectWord (c : Cursor) (word : List Ascii) (description : String) :
    ∃ front, c.AgreesUpTo word front ∧
      c.MovesOver (front.map Subtype.val) (c.perform (.expectWord word description)).2 ∧
      ((c.perform (.expectWord word description)).1 = .done ↔ front = word) := by
  induction word generalizing c with
  | nil =>
    refine ⟨[], ⟨List.nil_prefix, List.nil_prefix, fun _ h _ => h⟩, movesOver_refl c, ?_⟩
    exact ⟨fun _ => rfl, fun _ => rfl⟩
  | cons a word ih =>
    cases ha : c.expect a.val description with
    | ok c₁ =>
      obtain ⟨hrest, hoffset⟩ := movesOver_of_expect ha
      obtain ⟨front, hagrees, ⟨hrest₁, hoffset₁⟩, hdone⟩ := ih c₁
      rw [perform_expectWord_of_ok ha]
      refine ⟨a :: front, hagrees.cons hrest, ⟨?_, ?_⟩, ?_⟩
      · rw [hrest, hrest₁]
        rfl
      · rw [hoffset₁, hoffset, List.map_cons, Utf8.size_cons, Utf8.size_cons, Utf8.size_nil]
        omega
      · rw [hdone, List.cons_inj_right]
    | error e =>
      rw [perform_expectWord_of_error ha]
      have hhead := expect_eq_error_iff.mp ⟨e, ha⟩
      exact ⟨[], agreesUpTo_nil hhead, movesOver_refl c, nofun, nofun⟩

/-- **Every operation moves over characters**, or not at all. -/
theorem exists_movesOver (c : Cursor) (op : Operation) : ∃ read, c.MovesOver read (c.perform op).2 := by
  cases op with
  | skipWhitespace => exact ⟨_, movesOver_skipWhile _ c⟩
  | skipComment => exact ⟨_, movesOver_skipWhile _ c⟩
  | readToken =>
    obtain ⟨n, rest⟩ := c
    obtain ⟨run, rest, rfl, h⟩ | ⟨x, rest, rfl, hx⟩ := token_cases rest
    · rw [perform, h.readToken n]
      exact ⟨run, rfl, rfl⟩
    · rw [perform, readToken_of_refused hx n]
      exact ⟨[], movesOver_refl _⟩
  | expect due description =>
    rw [perform]
    cases hdue : c.expect due.val description with
    | ok c' => exact ⟨_, movesOver_of_expect hdue⟩
    | error e => exact ⟨[], movesOver_refl c⟩
  | expectWord word description =>
    obtain ⟨front, -, hmoves, -⟩ := perform_expectWord c word description
    exact ⟨_, hmoves⟩

/-! ## 5. Both cursors in step -/

/-- The cursor over the bytes of a text that stands where a cursor in the text does. -/
def inBytes (c : Cursor) (text : List Char) : ByteCursor := ⟨Utf8.encode text, c.offset⟩

/-- What lies before a cursor is whole characters, and what lies behind it is what remains. -/
theorem In.split (h : c.In text) : ∃ before, text = before ++ c.rest ∧
    (Utf8.encode text).take c.offset = Utf8.encode before ∧
    (Utf8.encode text).drop c.offset = Utf8.encode c.rest := by
  obtain ⟨before, rfl, hoffset⟩ := h
  refine ⟨before, rfl, ?_, ?_⟩
  · rw [hoffset, Utf8.encode_append, Utf8.take_encode_append]
  · rw [hoffset, Utf8.encode_append, Utf8.drop_encode_append]

theorem In.peek?_inBytes (h : c.In text) :
    (c.inBytes text).peek? = (Utf8.encode c.rest).head? := by
  obtain ⟨before, -, -, hdrop⟩ := h.split
  show (Utf8.encode text)[c.offset]? = _
  rw [← hdrop, List.head?_drop]

theorem In.peek?_eq_byte_iff (h : c.In text) (a : Ascii) :
    (c.inBytes text).peek? = some a.byte ↔ c.rest.head? = some a.val := by
  have hclass := Utf8.map_head?_encode (Utf8.onBytes_eq a) c.rest
  rw [h.peek?_inBytes]
  have hbyte : ∀ o : Option UInt8, o = some a.byte ↔ o.map (decide <| · = a.byte) = some true := by
    intro o
    cases o <;> simp
  have hchar : ∀ o : Option Char, o = some a.val ↔ o.map (decide <| · = a.val) = some true := by
    intro o
    cases o <;> simp
  rw [hbyte, hchar, hclass]

theorem In.skipWhile_inBytes (h : c.In text) {p : Char → Bool} {q : UInt8 → Bool}
    (hclass : Utf8.OnBytes p q) :
    (c.inBytes text).skipWhile q = (c.skipWhile p).inBytes text := by
  obtain ⟨before, -, -, hdrop⟩ := h.split
  rw [ByteCursor.skipWhile_eq]
  show ByteCursor.mk (Utf8.encode text)
    (c.offset + (((Utf8.encode text).drop c.offset).takeWhile q).length) = _
  rw [hdrop, Utf8.takeWhile_encode hclass, Utf8.length_encode]
  rfl

/-- The bytes between two positions are the characters that a cursor has moved over. -/
theorem MovesOver.slice (h : c.MovesOver read c') (hc : c.In text) :
    ((Utf8.encode text).take c'.offset).drop c.offset = Utf8.encode read := by
  obtain ⟨before, htext, hoffset⟩ := hc
  obtain ⟨hrest, hoffset'⟩ := h
  have hsize : c'.offset = Utf8.size (before ++ read) := by
    rw [hoffset', hoffset, Utf8.size_append]
  rw [htext, hrest, ← List.append_assoc, Utf8.encode_append, hsize, Utf8.take_encode_append,
    Utf8.encode_append, hoffset, Utf8.drop_encode_append]

theorem In.expectWord_inBytes (h : c.In text) (word : List Ascii) (description : String) :
    (c.inBytes text).expectWord word =
      ((c.perform (.expectWord word description)).1.onBytes,
        (c.perform (.expectWord word description)).2.inBytes text) := by
  induction word generalizing c with
  | nil => rfl
  | cons a word ih =>
    rw [ByteCursor.expectWord]
    cases ha : c.expect a.val description with
    | ok c₁ =>
      have hmoves := movesOver_of_expect ha
      have hnext : (c.inBytes text).next = c₁.inBytes text := by
        show ByteCursor.mk (Utf8.encode text) (c.offset + 1) = ⟨Utf8.encode text, c₁.offset⟩
        rw [offset_of_expect ha]
      rw [if_pos ((h.peek?_eq_byte_iff a).mpr (by rw [hmoves.1]; rfl)), hnext,
        perform_expectWord_of_ok ha]
      exact ih (hmoves.in h)
    | error e =>
      have hhead := expect_eq_error_iff.mp ⟨e, ha⟩
      rw [if_neg fun hpeek => hhead ((h.peek?_eq_byte_iff a).mp hpeek),
        perform_expectWord_of_error ha]
      rfl

theorem skipWhile_of_tokenAt {run rest : List Char} (h : TokenAt run rest) (n : Nat) :
    Cursor.skipWhile (!Symbol.isDelimiter ·) ⟨n, run ++ rest⟩ = ⟨n + Utf8.size run, rest⟩ := by
  rw [Cursor.skipWhile]
  dsimp only
  rw [h.takeWhile, h.dropWhile, advance]

/-- Where a token is refused, nothing is skipped. -/
theorem skipWhile_of_refused {x : Char} (hx : x = ',' ∨ x = ']') (n : Nat) (rest : List Char) :
    Cursor.skipWhile (!Symbol.isDelimiter ·) ⟨n, x :: rest⟩ = ⟨n, x :: rest⟩ := by
  obtain rfl | rfl := hx <;> rfl

theorem size_eq_zero {read : List Char} (h : Utf8.size read = 0) : read = [] := by
  cases read with
  | nil => rfl
  | cons x read =>
    have := x.utf8Size_pos
    rw [Utf8.size_cons] at h
    omega

theorem In.readToken_inBytes (h : c.In text) :
    (c.inBytes text).perform .readToken =
      ((c.perform .readToken).1.onBytes, (c.perform .readToken).2.inBytes text) := by
  have hstop := h.skipWhile_inBytes onBytes_isDelimiter.not
  have hin := h.skipWhile (!Symbol.isDelimiter ·)
  have hcomma := hin.peek?_eq_byte_iff ⟨',', by decide⟩
  have hbracket := hin.peek?_eq_byte_iff ⟨']', by decide⟩
  have hslice := (movesOver_skipWhile (!Symbol.isDelimiter ·) c).slice h
  obtain ⟨n, all⟩ := c
  rw [ByteCursor.perform, hstop]
  obtain ⟨run, rest, rfl, htoken⟩ | ⟨x, rest, rfl, hx⟩ := token_cases all
  · rw [skipWhile_of_tokenAt htoken] at hcomma hbracket hslice ⊢
    rw [htoken.takeWhile] at hslice
    rw [perform, htoken.readToken n, if_neg]
    · show (ByteAnswer.token _, _) = (ByteAnswer.token _, _)
      rw [String.toList_ofList, ← hslice]
      rfl
    -- nothing was read, so the token is empty, and neither sign may stand behind an empty token
    · rintro ⟨hposition, hsign⟩
      have hsize : Utf8.size run = 0 := Nat.add_left_cancel (k := 0) hposition
      obtain ⟨hnoComma, hnoBracket⟩ := htoken.due (size_eq_zero hsize)
      exact hsign.elim (fun h => hnoComma (hcomma.mp h)) fun h => hnoBracket (hbracket.mp h)
  · rw [skipWhile_of_refused hx] at hcomma hbracket ⊢
    rw [perform, readToken_of_refused hx n, if_pos]
    · rfl
    · refine ⟨rfl, hx.imp (fun h => hcomma.mpr ?_) fun h => hbracket.mpr ?_⟩
      · rw [h]; rfl
      · rw [h]; rfl

/-- **Both cursors answer the same and come to the same place.** -/
theorem In.perform_inBytes (h : c.In text) (op : Operation) :
    (c.inBytes text).perform op = ((c.perform op).1.onBytes, (c.perform op).2.inBytes text) := by
  cases op with
  | skipWhitespace => exact congrArg (ByteAnswer.done, ·) (h.skipWhile_inBytes onBytes_isWhitespace)
  | skipComment => exact congrArg (ByteAnswer.done, ·) (h.skipWhile_inBytes onBytes_ne_lineFeed)
  | readToken => exact h.readToken_inBytes
  | expectWord word description => exact h.expectWord_inBytes word description
  | expect due description =>
    rw [ByteCursor.perform, perform]
    cases hdue : c.expect due.val description with
    | ok c' =>
      obtain ⟨hrest, -⟩ := movesOver_of_expect hdue
      rw [if_pos ((h.peek?_eq_byte_iff due).mpr (by rw [hrest]; rfl))]
      show (ByteAnswer.done, ByteCursor.mk (Utf8.encode text) (c.offset + 1)) = (.done, ⟨_, c'.offset⟩)
      rw [offset_of_expect hdue]
    | error e =>
      have hhead := expect_eq_error_iff.mp ⟨e, hdue⟩
      rw [if_neg fun hpeek => hhead ((h.peek?_eq_byte_iff due).mp hpeek)]
      rfl

theorem In.perform (h : c.In text) (op : Operation) : (c.perform op).2.In text := by
  obtain ⟨read, hmoves⟩ := exists_movesOver c op
  exact hmoves.in h

/-- **After any operations both cursors stand at the same place of the text.** -/
theorem In.performAll (h : c.In text) (ops : List Operation) :
    (c.performAll ops).In text ∧
      (c.inBytes text).performAll ops = (c.performAll ops).inBytes text := by
  induction ops generalizing c with
  | nil => exact ⟨h, rfl⟩
  | cons op ops ih =>
    obtain ⟨hin, hbytes⟩ := ih (h.perform op)
    refine ⟨hin, ?_⟩
    rw [← show _ = (c.performAll (op :: ops)).inBytes text from hbytes]
    show ((c.inBytes text).perform op).2.performAll ops = _
    rw [h.perform_inBytes op]

/-! ## 6. Places -/

theorem size_map_ascii (word : List Ascii) : Utf8.size (word.map Subtype.val) = word.length := by
  induction word with
  | nil => rfl
  | cons a word ih =>
    rw [List.map_cons, Utf8.size_cons, size_ascii, ih, List.length_cons]
    omega

/-- A token is the text between two positions. It holds no byte that ends a token, and one of these or
    the end stands behind it; it is empty only at the end, at white space and at a comment. -/
structure ReadBetween (text : List Char) (n : Nat) (t : Token) (n' : Nat) : Prop where
  offset : t.offset = n
  slice : Utf8.encode t.text.toList = ((Utf8.encode text).take n').drop n
  plain : ∀ b ∈ Utf8.encode t.text.toList, isDelimiterByte b = false
  maximal : ∀ b, (Utf8.encode text)[n']? = some b → isDelimiterByte b = true
  due : t.text = "" → ∀ b, (Utf8.encode text)[n]? = some b → isWhitespaceByte b = true ∨ b = 0x23

/-- What an operation on a cursor in a text does to its place. -/
structure InPlace (text : List Char) (c : Cursor) (op : Operation) : Prop where
  bytewise : (c.inBytes text).perform op = ((c.perform op).1.onBytes, (c.perform op).2.inBytes text)
  forward : c.offset ≤ (c.perform op).2.offset
  within : (c.perform op).2.offset ≤ (Utf8.encode text).length
  boundary : Utf8.Valid ((Utf8.encode text).take (c.perform op).2.offset) ∧
    (Utf8.encode text).drop (c.perform op).2.offset = Utf8.encode (c.perform op).2.rest
  readToken : op = .readToken →
    (∃ t, (c.perform op).1 = .token t ∧ ReadBetween text c.offset t (c.perform op).2.offset) ∨
      ∃ e, c.perform op = (.refused e, c)
  expect : ∀ due description, op = .expect due description →
    (c.perform op).1 = .done ∧ (c.perform op).2.offset = c.offset + 1 ∨
      ∃ e, c.perform op = (.refused e, c)
  word : ∀ word description, op = .expectWord word description →
    ∃ front, c.AgreesUpTo word front ∧ (c.perform op).2.offset = c.offset + front.length ∧
      ((c.perform op).1 = .done ↔ front = word)

theorem In.isDelimiterByte_of_peek? (h : c.In text)
    (hmaximal : ∀ x ∈ c.rest.head?, Symbol.isDelimiter x = true) {b : UInt8}
    (hb : (c.inBytes text).peek? = some b) : isDelimiterByte b = true := by
  have hclass := Utf8.map_head?_encode onBytes_isDelimiter c.rest
  rw [← h.peek?_inBytes, hb] at hclass
  obtain ⟨x, hx, hxb⟩ := Option.map_eq_some_iff.mp hclass.symm
  rw [← hxb]
  exact hmaximal x hx

/-- **A token that is read lies between the old and the new position.** -/
theorem In.readBetween {t : Token} (h : c.In text) (hread : c.readToken = .ok (t, c')) :
    ReadBetween text c.offset t c'.offset := by
  obtain ⟨n, all⟩ := c
  obtain ⟨run, rest, rfl, htoken⟩ | ⟨x, rest, rfl, hx⟩ := token_cases all
  · have hmoves : (Cursor.mk n (run ++ rest)).MovesOver run ⟨n + Utf8.size run, rest⟩ := ⟨rfl, rfl⟩
    have hin := hmoves.in h
    rw [htoken.readToken n] at hread
    cases hread
    refine ⟨rfl, ?_, ?_, fun b hb => hin.isDelimiterByte_of_peek? htoken.maximal hb, ?_⟩
    · rw [String.toList_ofList]
      exact (hmoves.slice h).symm
    · intro b hb
      rw [String.toList_ofList] at hb
      obtain ⟨x, hx, hxb⟩ := List.mem_flatMap.mp hb
      rw [onBytes_isDelimiter x b hxb, htoken.plain x hx]
    · intro hempty b hb
      have hrun : run = [] := by
        rw [← String.toList_ofList (l := run), show String.ofList run = "" from hempty]
        rfl
      subst hrun
      obtain ⟨hcomma, hbracket⟩ := htoken.due rfl
      have hdelimiter := hin.isDelimiterByte_of_peek? htoken.maximal hb
      have hnoComma : b ≠ 0x2C := by
        rintro rfl
        exact hcomma ((hin.peek?_eq_byte_iff ⟨',', by decide⟩).mp hb)
      have hnoBracket : b ≠ 0x5D := by
        rintro rfl
        exact hbracket ((hin.peek?_eq_byte_iff ⟨']', by decide⟩).mp hb)
      simpa [isDelimiterByte, hnoComma, hnoBracket] using hdelimiter
  · rw [readToken_of_refused hx n] at hread
    cases hread

theorem In.inPlace (h : c.In text) (op : Operation) : InPlace text c op where
  bytewise := h.perform_inBytes op
  forward := by
    obtain ⟨read, -, hoffset⟩ := exists_movesOver c op
    omega
  within := by
    obtain ⟨before, htext, hoffset⟩ := h.perform op
    rw [hoffset, htext, Utf8.length_encode, Utf8.size_append]
    omega
  boundary := by
    obtain ⟨before, -, htake, hdrop⟩ := (h.perform op).split
    exact ⟨⟨before, htake⟩, hdrop⟩
  readToken hop := by
    subst hop
    rw [Cursor.perform]
    cases hread : c.readToken with
    | ok r => exact Or.inl ⟨r.1, rfl, h.readBetween hread⟩
    | error e => exact Or.inr ⟨e, rfl⟩
  expect due description hop := by
    subst hop
    rw [Cursor.perform]
    cases hdue : c.expect due.val description with
    | ok c' => exact Or.inl ⟨rfl, offset_of_expect hdue⟩
    | error e => exact Or.inr ⟨e, rfl⟩
  word word description hop := by
    subst hop
    obtain ⟨front, hagrees, ⟨-, hoffset⟩, hdone⟩ := perform_expectWord c word description
    rw [size_map_ascii] at hoffset
    exact ⟨front, hagrees, hoffset, hdone⟩

/-- **No operations lead a cursor to a bad place.** -/
theorem cursor_stays_in_place (text : List Char) (ops : List Operation) :
    ofBytes (Utf8.encode text) = .ok (ofText text) ∧
      (ByteCursor.mk (Utf8.encode text) 0).performAll ops =
        ⟨Utf8.encode text, ((ofText text).performAll ops).offset⟩ ∧
      ∀ op, InPlace text ((ofText text).performAll ops) op := by
  obtain ⟨hin, hbytes⟩ := (in_ofText text).performAll ops
  exact ⟨ofBytes_encode text, hbytes, fun op => hin.inPlace op⟩

-- a character of two bytes is read with the token, and of the word that is due only its comma is there
example : ((ofText ['a', 'é', ',', 'b']).performAll [.readToken,
    .expectWord [⟨',', by decide⟩, ⟨'c', by decide⟩] "a list"]).offset = 4 := by decide

end Cursor

end FunctionMap
