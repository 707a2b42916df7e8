import FunctionMap.Text.Utf8
import FunctionMap.Text.Numeral
import FunctionMap.Source.Symbol
import FunctionMap.Source.Error

/-!
# The cursor

A cursor stands in a source between what has been read, of which it keeps the number of bytes, and
the text that remains. What a character means depends on where the reader stands, so there is no
token stream: the reader asks the cursor for what is due.

* `skipWhitespace` and `skipComment` always succeed;
* `readToken` and `expect` fail without moving;
* `expectWord` fails where the first character differs, behind those that agreed.

Main statements: no operation moves back (`length_rest_…`), so a reader that has read a non-empty
token, a character or a word has less left to read.
-/

namespace FunctionMap

/-- A token and the offset at which it starts. -/
structure Token where
  text : String
  offset : Nat
  deriving DecidableEq, Repr

namespace Token

/-- A token as an integer of width `w`. -/
def integer {α : Type} (w : Numeral.Width) (ofInt : Int → α) (t : Token) : Except SourceError α :=
  (Numeral.readAs w ofInt t.text.toList).mapError (.notAnInteger t.text t.offset)

/-- A token as an integer of 32 bits. -/
abbrev int32 (t : Token) : Except SourceError Int32 := t.integer .bits32 Int32.ofInt

/-- A token as an integer of 64 bits. -/
abbrev int64 (t : Token) : Except SourceError Int64 := t.integer .bits64 Int64.ofInt

/-- An empty token is no integer. -/
theorem ne_empty_of_integer {α : Type} {w : Numeral.Width} {ofInt : Int → α} {t : Token} {v : α}
    (h : t.integer w ofInt = .ok v) : t.text.toList ≠ [] := by
  intro hempty
  rw [integer, hempty] at h
  cases h

end Token

/-- A place in a source: the number of bytes before it and the text behind it. -/
structure Cursor where
  offset : Nat
  rest : List Char
  deriving DecidableEq, Repr

namespace Cursor

/-! ## 1. Where the cursor stands -/

/-- The cursor at the start of a text. -/
def ofText (text : List Char) : Cursor := ⟨0, text⟩

/-- The cursor at the start of a source. -/
def ofBytes (source : Bytes) : Except SourceError Cursor :=
  match Utf8.decode source with
  | .ok text => .ok (ofText text)
  | .error offset => .error (.notUtf8 offset)

/-- Whether nothing remains. -/
def atEnd (c : Cursor) : Bool := c.rest.isEmpty

/-- The character under the cursor. -/
def current? (c : Cursor) : Option Char := c.rest.head?

/-- The byte under the cursor. -/
def peek? (c : Cursor) : Option UInt8 := (Utf8.encode c.rest).head?

/-- The cursor behind `read`, with `rest` still to come. -/
def advance (c : Cursor) (read rest : List Char) : Cursor := ⟨c.offset + Utf8.size read, rest⟩

/-- The error of the character under the cursor, where a declaration is due. -/
def unexpected (c : Cursor) : SourceError :=
  match c.rest with
  | [] => .unexpectedEnd "a declaration" c.offset
  | x :: _ => .unexpectedCharacter x c.offset

/-! ## 2. Moving -/

/-- The cursor behind the longest run of characters of a class. -/
def skipWhile (p : Char → Bool) (c : Cursor) : Cursor :=
  c.advance (c.rest.takeWhile p) (c.rest.dropWhile p)

/-- The cursor behind any white space. -/
def skipWhitespace (c : Cursor) : Cursor := c.skipWhile Symbol.isWhitespace

/-- The cursor at the next line feed or at the end. -/
def skipComment (c : Cursor) : Cursor := c.skipWhile (· ≠ '\n')

/-- Reads the longest token at the cursor. It may be empty at the end of the source, at white space
    and at a comment; at a comma or a closing bracket an empty token is an error. -/
def readToken (c : Cursor) : Except SourceError (Token × Cursor) :=
  let text := c.rest.takeWhile (!Symbol.isDelimiter ·)
  let rest := c.rest.dropWhile (!Symbol.isDelimiter ·)
  match text, rest with
  | [], ',' :: _ => .error (.unexpectedCharacter ',' c.offset)
  | [], ']' :: _ => .error (.unexpectedCharacter ']' c.offset)
  | _, _ => .ok (⟨String.ofList text, c.offset⟩, c.advance text rest)

/-- Reads the character that is due; `description` names it in an error at the end of the source. -/
def expect (due : Char) (description : String) (c : Cursor) : Except SourceError Cursor :=
  match c.rest with
  | [] => .error (.unexpectedEnd description c.offset)
  | x :: rest => if x = due then .ok (c.advance [x] rest) else .error c.unexpected

/-- Reads the word that is due: the cursor behind the part of it that is there, and the error of
    what stands there instead of the remainder. -/
def expectWord (description : String) : List Char → Cursor → Except SourceError Unit × Cursor
  | [], c => (.ok (), c)
  | x :: xs, c =>
    match c.expect x description with
    | .ok c' => expectWord description xs c'
    | .error e => (.error e, c)

/-! ## 3. What remains only gets shorter -/

theorem length_dropWhile_le (p : Char → Bool) (text : List Char) :
    (text.dropWhile p).length ≤ text.length := (List.dropWhile_suffix p).length_le

theorem length_rest_skipWhitespace_le (c : Cursor) :
    c.skipWhitespace.rest.length ≤ c.rest.length := length_dropWhile_le _ _

theorem length_rest_skipComment_le (c : Cursor) :
    c.skipComment.rest.length ≤ c.rest.length := length_dropWhile_le _ _

/-- A comment is not empty: its first character is no line feed. -/
theorem length_rest_skipComment_lt {c : Cursor} {rest : List Char} (h : c.rest = '#' :: rest) :
    c.skipComment.rest.length < c.rest.length := by
  have hle := length_dropWhile_le (· ≠ '\n') rest
  have hrest : c.skipComment.rest = rest.dropWhile (· ≠ '\n') := by
    simp only [skipComment, skipWhile, advance, h]
    rw [List.dropWhile_cons_of_pos (by decide)]
  rw [hrest, h, List.length_cons]
  omega

/-- What a token leaves, in characters. -/
theorem length_readToken {c c' : Cursor} {t : Token} (h : c.readToken = .ok (t, c')) :
    t.text.toList.length + c'.rest.length = c.rest.length := by
  unfold readToken at h
  have hlen := congrArg List.length
    (List.takeWhile_append_dropWhile (p := (!Symbol.isDelimiter ·)) (l := c.rest))
  rw [List.length_append] at hlen
  dsimp only at h
  split at h
  · cases h
  · cases h
  · cases h
    simpa [advance] using hlen

theorem length_rest_readToken_le {c c' : Cursor} {t : Token} (h : c.readToken = .ok (t, c')) :
    c'.rest.length ≤ c.rest.length := by
  have := length_readToken h
  omega

theorem length_rest_readToken_lt {c c' : Cursor} {t : Token} (h : c.readToken = .ok (t, c'))
    (ht : t.text.toList ≠ []) : c'.rest.length < c.rest.length := by
  have := length_readToken h
  have := List.length_pos_iff.mpr ht
  omega

theorem length_rest_expect {c c' : Cursor} {due : Char} {description : String}
    (h : c.expect due description = .ok c') : c'.rest.length + 1 = c.rest.length := by
  unfold expect at h
  split at h
  · cases h
  · rename_i x rest hc
    split at h
    · cases h
      simp [advance, hc]
    · cases h

theorem length_rest_expectWord {description : String} {word : List Char} {c c' : Cursor}
    (h : c.expectWord description word = (.ok (), c')) :
    c'.rest.length + word.length = c.rest.length := by
  induction word generalizing c with
  | nil => cases h; rfl
  | cons x xs ih =>
    unfold expectWord at h
    split at h
    · rename_i c₁ h₁
      have := ih h
      have := length_rest_expect h₁
      simp only [List.length_cons]
      omega
    · cases h

/-- Behind white space stands none. -/
theorem isWhitespace_of_rest_skipWhitespace {c : Cursor} {x : Char} {rest : List Char}
    (h : c.skipWhitespace.rest = x :: rest) : Symbol.isWhitespace x = false := by
  have hx := List.head?_dropWhile_not Symbol.isWhitespace c.rest
  have hrest : c.rest.dropWhile Symbol.isWhitespace = x :: rest := h
  simpa [hrest] using hx

/-- A token is not empty where neither white space nor a comment stands. -/
theorem readToken_ne_empty {c c' : Cursor} {t : Token} {x : Char} {rest : List Char}
    (hc : c.rest = x :: rest) (hx : Symbol.isWhitespace x = false) (hx' : x ≠ '#')
    (h : c.readToken = .ok (t, c')) : t.text.toList ≠ [] := by
  unfold readToken at h
  dsimp only at h
  split at h
  · cases h
  · cases h
  · rename_i hcomma hbracket
    cases h
    simp only [String.toList_ofList]
    by_cases hd : Symbol.isDelimiter x = true
    · have hx'' : x = ',' ∨ x = ']' := by
        simp only [Symbol.isDelimiter, hx, Bool.false_or, Bool.or_eq_true, decide_eq_true_eq] at hd
        rcases hd with (hd | hd) | hd
        · exact absurd hd hx'
        · exact Or.inl hd
        · exact Or.inr hd
      have ht : c.rest.takeWhile (!Symbol.isDelimiter ·) = [] := by simp [hc, hd]
      have hr : c.rest.dropWhile (!Symbol.isDelimiter ·) = x :: rest := by simp [hc, hd]
      rcases hx'' with rfl | rfl
      · exact absurd hr (hcomma _ ht)
      · exact absurd hr (hbracket _ ht)
    · have hd' : Symbol.isDelimiter x = false := by simpa using hd
      simp [hc, hd']

end Cursor
end FunctionMap
