import FunctionMap.Proofs.Text.ValidPrefix
import FunctionMap.Proofs.Source.Cursor

/-!
# Places in a text

A cursor keeps an offset and what remains; nothing in it says that the two belong together. Here a
text is fixed, and a cursor or token is related to it:

* `Cursor.In c text` -- what remains is an end of the text, and the offset counts the bytes before it;
* `Token.In t text` -- the token stands in the text at its offset, and is as long as possible there;
* `SourceError.PointsInto text due e` -- what the error says stands in the text at its offset; `due`
  is the width of the integers that are due, if any are.

Main statements: every operation of a cursor in a text leads to cursors and tokens in that text, or
fails with an error that points into it. `Reads` says so of one computation, and `Reads.bind` of two
in a row.
-/

namespace FunctionMap

open Numeral (Width)

/-! ## 1. Cursors, tokens and errors in a text -/

/-- What remains at the cursor is an end of the text, and its offset is where that end starts. -/
def Cursor.In (c : Cursor) (text : List Char) : Prop :=
  ∃ before, text = before ++ c.rest ∧ c.offset = Utf8.size before

/-- The token stands in the text at its offset, holds no character that ends a token, and the next
    one does. -/
structure Token.In (t : Token) (text : List Char) : Prop where
  stands : ∃ before after, text = before ++ t.text.toList ++ after ∧ t.offset = Utf8.size before ∧
    ∀ c ∈ after.head?, Symbol.isDelimiter c = true
  plain : ∀ c ∈ t.text.toList, Symbol.isDelimiter c = false

/-- What an error with an offset says stands in the text there. -/
inductive SourceError.PointsInto (text : List Char) (due : Option Width) : SourceError → Prop where
  | unexpectedCharacter {x : Char} {offset : Nat} {after : List Char}
      (h : Cursor.In ⟨offset, x :: after⟩ text) : PointsInto text due (.unexpectedCharacter x offset)
  | unexpectedEnd {expected : String} {offset : Nat} (h : Cursor.In ⟨offset, []⟩ text) :
      PointsInto text due (.unexpectedEnd expected offset)
  | notAnInteger {t : Token} {w : Width} {fault : Numeral.Fault} (h : t.In text)
      (hdue : due = some w) (hread : Numeral.read w t.text.toList = .error fault) :
      PointsInto text due (.notAnInteger t.text t.offset fault)

/-- An error that points at an offset. -/
def SourceError.Located (e : SourceError) : Prop := e.offset?.isSome = true

theorem SourceError.PointsInto.located {text : List Char} {due : Option Width} {e : SourceError}
    (h : e.PointsInto text due) : e.Located := by cases h <;> rfl

/-- A computation that gives what meets `Q`, or fails with an error that points into the text. -/
structure Reads {α : Type} (text : List Char) (due : Option Width) (Q : α → Prop)
    (x : Except SourceError α) : Prop where
  ok : ∀ a, x = .ok a → Q a
  error : ∀ e, x = .error e → e.PointsInto text due

section Reads

variable {α β : Type} {text : List Char} {due : Option Width} {Q : α → Prop} {R : β → Prop}

theorem reads_ok {a : α} (h : Q a) : Reads text due Q (.ok a) where
  ok a' ha := by cases ha; exact h
  error e he := nomatch he

theorem reads_error {e : SourceError} (h : e.PointsInto text due) : Reads text due Q (.error e) where
  ok a ha := nomatch ha
  error e' he := by cases he; exact h

theorem Reads.bind {x : Except SourceError α} {f : α → Except SourceError β}
    (hx : Reads text due Q x) (hf : ∀ a, Q a → Reads text due R (f a)) :
    Reads text due R (x >>= f) := by
  cases x with
  | error e => exact reads_error (hx.error e rfl)
  | ok a => exact hf a (hx.ok a rfl)

end Reads

/-! ## 2. Moving in a text -/

namespace Cursor

theorem in_ofText (text : List Char) : (ofText text).In text := ⟨[], rfl, rfl⟩

theorem ofBytes_encode (text : List Char) : ofBytes (Utf8.encode text) = .ok (ofText text) := by
  rw [ofBytes, Utf8.decode_encode]

/-- A cursor is put at the start of a source exactly if the source is the encoding of a text. -/
theorem ofBytes_eq_ok_iff {source : Bytes} {c : Cursor} :
    ofBytes source = .ok c ↔ ∃ text, source = Utf8.encode text ∧ c = ofText text := by
  constructor
  · intro h
    unfold ofBytes at h
    split at h
    · rename_i text hdecode
      cases h
      exact ⟨text, Utf8.decode_eq_ok_iff.mp hdecode, rfl⟩
    · cases h
  · rintro ⟨text, rfl, rfl⟩
    exact ofBytes_encode text

theorem ofBytes_eq_error_iff {source : Bytes} {e : SourceError} :
    ofBytes source = .error e ↔ ∃ offset, Utf8.decode source = .error offset ∧ e = .notUtf8 offset := by
  unfold ofBytes
  cases Utf8.decode source with
  | ok text => exact ⟨fun h => (nomatch h), fun ⟨_, h, _⟩ => (nomatch h)⟩
  | error offset =>
    constructor
    · intro h
      cases h
      exact ⟨offset, rfl, rfl⟩
    · rintro ⟨offset', h, rfl⟩
      cases h
      rfl

/-- Every cursor stands in some text. -/
theorem exists_in (c : Cursor) : ∃ text, c.In text := by
  have hsize : ∀ n, Utf8.size (List.replicate n ' ') = n := by
    intro n
    induction n with
    | zero => rfl
    | succ n ih =>
      rw [List.replicate_succ, Utf8.size_cons, ih]
      exact Nat.add_comm 1 n
  exact ⟨List.replicate c.offset ' ' ++ c.rest, _, rfl, (hsize c.offset).symm⟩

section Moving

variable {c : Cursor} {text : List Char} {due : Option Width}

theorem In.advance (h : c.In text) {read rest : List Char} (hrest : c.rest = read ++ rest) :
    (c.advance read rest).In text := by
  obtain ⟨before, htext, hoffset⟩ := h
  refine ⟨before ++ read, ?_, ?_⟩
  · rw [htext, hrest, List.append_assoc]
    rfl
  · rw [Utf8.size_append, ← hoffset]
    rfl

theorem In.skipWhile (h : c.In text) (p : Char → Bool) : (c.skipWhile p).In text :=
  h.advance List.takeWhile_append_dropWhile.symm

theorem In.skipWhitespace (h : c.In text) : c.skipWhitespace.In text := h.skipWhile _

theorem In.skipComment (h : c.In text) : c.skipComment.In text := h.skipWhile _

/-- Of two cursors in a text, the one with less to come has the greater offset. -/
theorem In.offset_lt {c' : Cursor} (h : c.In text) (h' : c'.In text)
    (hlt : c'.rest.length < c.rest.length) : c.offset < c'.offset := by
  obtain ⟨before, htext, hoffset⟩ := h
  obtain ⟨before', htext', hoffset'⟩ := h'
  rw [htext] at htext'
  rcases List.append_eq_append_iff.mp htext' with ⟨read, rfl, hrest⟩ | ⟨read, rfl, hrest⟩
  · have hpos : 0 < Utf8.size read := by
      cases read with
      | nil => simp [hrest] at hlt
      | cons x read =>
        rw [Utf8.size_cons]
        exact Nat.add_pos_left x.utf8Size_pos _
    rw [hoffset, hoffset', Utf8.size_append]
    omega
  · have hlen := congrArg List.length hrest
    rw [List.length_append] at hlen
    omega

/-- Where something remains, it is the next character. -/
theorem In.pointsInto_unexpected (h : c.In text) : c.unexpected.PointsInto text due := by
  obtain ⟨offset, rest⟩ := c
  cases rest with
  | nil => exact .unexpectedEnd h
  | cons x rest => exact .unexpectedCharacter h

theorem In.reads_expect (h : c.In text) (x : Char) (description : String) :
    Reads text due (·.In text) (c.expect x description) := by
  obtain ⟨offset, rest⟩ := c
  cases rest with
  | nil => exact reads_error (.unexpectedEnd h)
  | cons y rest =>
    simp only [expect]
    split
    · exact reads_ok (h.advance rfl)
    · exact reads_error (.unexpectedCharacter h)

/-- Whether the word is there or not, the cursor stays in the text. -/
theorem In.in_of_expectWord {description : String} {word : List Char} {r : Except SourceError Unit}
    {c' : Cursor} (h : c.In text) (hword : c.expectWord description word = (r, c')) :
    c'.In text := by
  induction word generalizing c with
  | nil =>
    cases hword
    exact h
  | cons x xs ih =>
    have hx : Reads text none (·.In text) (c.expect x description) := h.reads_expect x description
    unfold Cursor.expectWord at hword
    split at hword
    · rename_i c₁ h₁
      exact ih (hx.ok c₁ h₁) hword
    · cases hword
      exact h

theorem In.pointsInto_of_expectWord {description : String} {word : List Char} {e : SourceError}
    {c' : Cursor} (h : c.In text) (hword : c.expectWord description word = (.error e, c')) :
    e.PointsInto text due := by
  induction word generalizing c with
  | nil => cases hword
  | cons x xs ih =>
    have hx : Reads text due (·.In text) (c.expect x description) := h.reads_expect x description
    unfold Cursor.expectWord at hword
    split at hword
    · rename_i c₁ h₁
      exact ih (hx.ok c₁ h₁) hword
    · rename_i e' he
      cases hword
      exact hx.error e he

/-- **A token that is read stands in the text, and so does the cursor behind it.** -/
theorem In.reads_readToken (h : c.In text) :
    Reads text due (fun r => r.1.In text ∧ r.2.In text) c.readToken := by
  obtain ⟨offset, all⟩ := c
  unfold readToken
  dsimp only
  have hsplit : all = all.takeWhile (!Symbol.isDelimiter ·) ++ all.dropWhile (!Symbol.isDelimiter ·) :=
    List.takeWhile_append_dropWhile.symm
  split
  · rename_i ht hd
    rw [ht, hd] at hsplit
    exact reads_error (.unexpectedCharacter (hsplit ▸ h))
  · rename_i ht hd
    rw [ht, hd] at hsplit
    exact reads_error (.unexpectedCharacter (hsplit ▸ h))
  · refine reads_ok ⟨⟨?_, fun c hc => ?_⟩, h.advance hsplit⟩
    · obtain ⟨before, htext, hoffset⟩ := h
      refine ⟨before, all.dropWhile (!Symbol.isDelimiter ·), ?_, hoffset, fun c hc => ?_⟩
      · rw [String.toList_ofList, List.append_assoc, ← hsplit]
        exact htext
      · simpa using head?_dropWhile all c hc
    · rw [String.toList_ofList] at hc
      simpa using mem_takeWhile hc

end Moving

end Cursor

/-! ## 3. Integers -/

/-- A token that is no integer of the width that is due is refused as it stands. -/
theorem Token.In.reads_integer {t : Token} {text : List Char} (h : t.In text) {w : Width} {α : Type}
    {ofInt : Int → α} : Reads text (some w) (fun _ => True) (t.integer w ofInt) := by
  unfold Token.integer Numeral.readAs
  cases hread : Numeral.read w t.text.toList with
  | ok v => exact reads_ok trivial
  | error fault => exact reads_error (.notAnInteger h rfl hread)

end FunctionMap
