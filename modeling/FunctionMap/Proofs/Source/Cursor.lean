import FunctionMap.Source.Cursor
import FunctionMap.Proofs.Text.CharRun
import FunctionMap.Proofs.Source.Lexeme
import FunctionMap.Proofs.Text.Numeral

/-!
# What the cursor reads

The operations of a cursor, stated by the lexemes they read. A cursor that has read something is
known by what remains: `c.upTo rest` is the cursor `c` moved to where `rest` is still to come, with
the offset that goes with it.

Main statements: a token behind white space is an optional word (`readToken_eq_ok_iff`), a token is
an integer where its text spells one (`integer_eq_ok_iff`), and an expected character
is the one that stands there (`expect_eq_ok_iff`).
-/

namespace FunctionMap

/-! ## 1. Computations that can fail -/

theorem bind_eq_ok_iff {ε α β : Type} {x : Except ε α} {f : α → Except ε β} {b : β} :
    (x >>= f) = .ok b ↔ ∃ a, x = .ok a ∧ f a = .ok b := by
  cases x with
  | error e => exact ⟨fun h => (nomatch h), fun ⟨a, ha, _⟩ => (nomatch ha)⟩
  | ok a =>
    constructor
    · intro h
      exact ⟨a, rfl, h⟩
    · intro h
      obtain ⟨a', ha', h⟩ := h
      cases ha'
      exact h

theorem ok_bind {ε α β : Type} (a : α) (f : α → Except ε β) : (Except.ok a >>= f) = f a := rfl

theorem mapError_eq_ok_iff {ε ε' α : Type} {x : Except ε α} {f : ε → ε'} {a : α} :
    x.mapError f = .ok a ↔ x = .ok a := by
  cases x with
  | error e => exact ⟨fun h => (nomatch h), fun h => (nomatch h)⟩
  | ok a' => exact ⟨fun h => by cases h; rfl, fun h => by cases h; rfl⟩

theorem toOption_eq_some_iff {ε α : Type} {x : Except ε α} {a : α} :
    x.toOption = some a ↔ x = .ok a := by
  cases x with
  | error e => exact ⟨fun h => (nomatch h), fun h => (nomatch h)⟩
  | ok a' => exact ⟨fun h => congrArg Except.ok (Option.some.inj h), fun h => by cases h; rfl⟩

theorem eq_ok_of_toOption {ε α : Type} {x : Except ε α} {a : α} (h : x.toOption = some a) :
    x = .ok a :=
  toOption_eq_some_iff.mp h

/-- The error of a computation that fails. -/
def error? {ε α : Type} : Except ε α → Option ε
  | .ok _ => none
  | .error e => some e

theorem eq_error_of_error? {ε α : Type} {x : Except ε α} {e : ε} (h : error? x = some e) :
    x = .error e := by
  cases x with
  | ok a => cases h
  | error e' =>
    cases h
    rfl

namespace Cursor

open Grammar

/-! ## 2. A cursor by what remains -/

/-- The cursor moved to where `rest` is still to come. -/
def upTo (c : Cursor) (rest : List Char) : Cursor :=
  ⟨c.offset + (Utf8.size c.rest - Utf8.size rest), rest⟩

@[simp] theorem rest_upTo (c : Cursor) (rest : List Char) : (c.upTo rest).rest = rest := rfl

@[simp] theorem upTo_self (c : Cursor) : c.upTo c.rest = c := by
  rw [upTo, Nat.sub_self, Nat.add_zero]

theorem size_le_of_suffix {rest text : List Char} (h : rest <:+ text) :
    Utf8.size rest ≤ Utf8.size text := by
  obtain ⟨read, rfl⟩ := h
  rw [Utf8.size_append]
  exact Nat.le_add_left _ _

theorem upTo_upTo {c : Cursor} {mid rest : List Char} (hmid : mid <:+ c.rest)
    (hrest : rest <:+ mid) : (c.upTo mid).upTo rest = c.upTo rest := by
  have h₁ := size_le_of_suffix hmid
  have h₂ := size_le_of_suffix hrest
  simp only [upTo, Cursor.mk.injEq, and_true]
  omega

theorem advance_eq_upTo {c : Cursor} {read rest : List Char} (h : c.rest = read ++ rest) :
    c.advance read rest = c.upTo rest := by
  rw [advance, upTo, h, Utf8.size_append, Nat.add_sub_cancel]

theorem skipWhile_eq_upTo (p : Char → Bool) (c : Cursor) :
    c.skipWhile p = c.upTo (c.rest.dropWhile p) :=
  advance_eq_upTo List.takeWhile_append_dropWhile.symm

/-! ## 3. White space and comments -/

theorem blanks_dropWhile (text : List Char) : Blanks text (text.dropWhile Symbol.isWhitespace) := by
  induction text with
  | nil => exact .none []
  | cons c text ih =>
    by_cases hc : Symbol.isWhitespace c = true
    · rw [List.dropWhile_cons_of_pos hc]
      exact .more c hc ih
    · rw [List.dropWhile_cons_of_neg hc]
      exact .none _

theorem noBlank_dropWhile (text : List Char) : NoBlank (text.dropWhile Symbol.isWhitespace) :=
  head?_dropWhile text

/-- Blanks behind which no white space stands are all the white space there is. -/
theorem dropWhile_of_blanks {text rest : List Char} (h : Blanks text rest) (hrest : NoBlank rest) :
    text.dropWhile Symbol.isWhitespace = rest := by
  induction h with
  | none rest => exact dropWhile_eq_self hrest
  | more c hc h ih => rw [List.dropWhile_cons_of_pos hc, ih hrest]

theorem skipWhitespace_eq_upTo (c : Cursor) :
    c.skipWhitespace = c.upTo (c.rest.dropWhile Symbol.isWhitespace) := skipWhile_eq_upTo _ c

theorem skipWhitespace_of_blanks {c : Cursor} {rest : List Char} (h : Blanks c.rest rest)
    (hrest : NoBlank rest) : c.skipWhitespace = c.upTo rest := by
  rw [skipWhitespace_eq_upTo, dropWhile_of_blanks h hrest]

/-- What is read behind white space is read from the cursor. -/
theorem upTo_skipWhitespace {c : Cursor} {rest : List Char} (h : rest <:+ c.skipWhitespace.rest) :
    c.skipWhitespace.upTo rest = c.upTo rest := by
  rw [skipWhitespace_eq_upTo] at h ⊢
  exact upTo_upTo (List.dropWhile_suffix _) h

theorem skipWhitespace_of_noBlank {c : Cursor} (h : NoBlank c.rest) : c.skipWhitespace = c := by
  rw [skipWhitespace_of_blanks (.none c.rest) h, upTo_self]

/-- White space skipped in part is skipped whole in the end. -/
theorem skipWhitespace_upTo {c : Cursor} {rest : List Char} (h : Blanks c.rest rest) :
    (c.upTo rest).skipWhitespace = c.skipWhitespace := by
  have hrest := blanks_dropWhile rest
  rw [skipWhitespace_eq_upTo, rest_upTo, upTo_upTo h.suffix hrest.suffix,
    skipWhitespace_of_blanks (h.trans hrest) (noBlank_dropWhile rest)]

theorem blanks_skipWhitespace (c : Cursor) : Blanks c.rest c.skipWhitespace.rest :=
  blanks_dropWhile c.rest

theorem noBlank_skipWhitespace (c : Cursor) : NoBlank c.skipWhitespace.rest :=
  noBlank_dropWhile c.rest

theorem comment_dropWhile {rest : List Char} :
    Comment ('#' :: rest) (rest.dropWhile (· ≠ '\n')) where
  text_eq := by
    refine ⟨rest.takeWhile (· ≠ '\n'), ?_, fun c hc => ?_⟩
    · rw [List.cons_append, List.takeWhile_append_dropWhile]
    · simpa using mem_takeWhile hc
  maximal c hc := by simpa using head?_dropWhile rest c hc

/-- **A comment is skipped whole.** -/
theorem skipComment_of_comment {c : Cursor} {rest : List Char} (h : Comment c.rest rest) :
    c.skipComment = c.upTo rest := by
  obtain ⟨body, htext, hbody⟩ := h.text_eq
  have hdrop : c.rest.dropWhile (· ≠ '\n') = rest := by
    rw [htext]
    refine dropWhile_of_maximal (fun x hx => ?_) (fun x hx => by simpa using h.maximal x hx)
    rcases List.mem_cons.mp hx with rfl | hx
    · decide
    · simpa using hbody x hx
  rw [skipComment, skipWhile_eq_upTo, hdrop]

theorem comment_skipComment {c : Cursor} {rest : List Char} (h : c.rest = '#' :: rest) :
    Comment c.rest c.skipComment.rest := by
  have hrest : c.skipComment.rest = rest.dropWhile (· ≠ '\n') := by
    rw [skipComment, skipWhile_eq_upTo, rest_upTo, h, List.dropWhile_cons_of_pos (by decide)]
  rw [hrest, h]
  exact comment_dropWhile

/-! ## 4. Tokens -/

/-- What ends a token and may stand where no token does. -/
theorem isDelimiter_cases {c : Char} (hd : Symbol.isDelimiter c = true)
    (hw : Symbol.isWhitespace c = false) : c = '#' ∨ c = ',' ∨ c = ']' := by
  simpa [Symbol.isDelimiter, hw, or_assoc] using hd

theorem readToken_of_word {c : Cursor} {word rest : List Char} (h : Word c.rest word rest) :
    c.readToken = .ok (⟨String.ofList word, c.offset⟩, c.upTo rest) := by
  obtain ⟨htext, hne, hinside, hmaximal⟩ := h
  have hrun : ∀ x ∈ word, (!Symbol.isDelimiter x) = true := fun x hx => by rw [hinside x hx]; rfl
  have hrest : ∀ x ∈ rest.head?, (!Symbol.isDelimiter x) = false :=
    fun x hx => by rw [hmaximal x hx]; rfl
  have htake : c.rest.takeWhile (!Symbol.isDelimiter ·) = word := by
    rw [htext, takeWhile_of_maximal hrun hrest]
  have hdrop : c.rest.dropWhile (!Symbol.isDelimiter ·) = rest := by
    rw [htext, dropWhile_of_maximal hrun hrest]
  simp only [readToken, htake, hdrop]
  split
  · exact absurd rfl hne
  · exact absurd rfl hne
  · rw [advance_eq_upTo htext]

theorem readToken_of_optWord {c : Cursor} {word rest : List Char} (h : OptWord c.rest word rest) :
    c.readToken = .ok (⟨String.ofList word, c.offset⟩, c.upTo rest) := by
  generalize htext : c.rest = text at h
  cases h with
  | word h => exact readToken_of_word (htext ▸ h)
  | atComment rest =>
    have ht : c.rest.takeWhile (!Symbol.isDelimiter ·) = [] := by
      rw [htext, List.takeWhile_cons_of_neg (by decide)]
    have hd : c.rest.dropWhile (!Symbol.isDelimiter ·) = '#' :: rest := by
      rw [htext, List.dropWhile_cons_of_neg (by decide)]
    have hread : c.rest = [] ++ '#' :: rest := htext
    simp only [readToken, ht, hd, advance_eq_upTo hread]
    rfl
  | atEnd =>
    simp only [readToken, htext, List.takeWhile_nil, List.dropWhile_nil]
    rw [advance_eq_upTo htext]

/-- A character that ends no token starts a word. -/
theorem word_takeWhile {x : Char} {xs : List Char} (hx : Symbol.isDelimiter x = false) :
    Word (x :: xs) ((x :: xs).takeWhile (!Symbol.isDelimiter ·))
      ((x :: xs).dropWhile (!Symbol.isDelimiter ·)) where
  text_eq := List.takeWhile_append_dropWhile.symm
  ne_nil := by
    rw [List.takeWhile_cons_of_pos (by rw [hx]; rfl)]
    exact List.cons_ne_nil _ _
  inside c hc := by simpa using mem_takeWhile hc
  maximal c hc := by simpa using head?_dropWhile (x :: xs) c hc

/-- **Where no white space stands, a token is read exactly where an optional word stands.** -/
theorem readToken_eq_ok_iff {c c' : Cursor} {t : Token} (hc : NoBlank c.rest) :
    c.readToken = .ok (t, c') ↔
      ∃ word rest, OptWord c.rest word rest ∧ t = ⟨String.ofList word, c.offset⟩ ∧
        c' = c.upTo rest := by
  constructor
  · intro h
    cases htext : c.rest with
    | nil =>
      have hword : OptWord c.rest [] [] := htext ▸ .atEnd
      rw [readToken_of_optWord hword] at h
      cases h
      exact ⟨[], [], htext ▸ hword, rfl, rfl⟩
    | cons x xs =>
      by_cases hx : Symbol.isDelimiter x = true
      · rcases isDelimiter_cases hx (hc x (by rw [htext]; rfl)) with rfl | rfl | rfl
        · have hword : OptWord c.rest [] ('#' :: xs) := htext ▸ .atComment xs
          rw [readToken_of_optWord hword] at h
          cases h
          exact ⟨[], _, htext ▸ hword, rfl, rfl⟩
        · rw [readToken, htext, List.takeWhile_cons_of_neg (by decide),
            List.dropWhile_cons_of_neg (by decide)] at h
          cases h
        · rw [readToken, htext, List.takeWhile_cons_of_neg (by decide),
            List.dropWhile_cons_of_neg (by decide)] at h
          cases h
      · have hx' : Symbol.isDelimiter x = false := by simpa using hx
        have hword : Word (x :: xs) _ _ := word_takeWhile hx'
        rw [← htext] at hword
        rw [readToken_of_word hword] at h
        cases h
        exact ⟨_, _, htext ▸ .word hword, rfl, rfl⟩
  · intro h
    obtain ⟨word, rest, h, rfl, rfl⟩ := h
    exact readToken_of_optWord h

/-- **Behind white space, a token is read exactly where an optional word stands.** -/
theorem readToken_skipWhitespace_eq_ok_iff {c c' : Cursor} {t : Token} :
    c.skipWhitespace.readToken = .ok (t, c') ↔
      ∃ mid word rest, Blanks c.rest mid ∧ OptWord mid word rest ∧
        t = ⟨String.ofList word, (c.upTo mid).offset⟩ ∧ c' = c.upTo rest := by
  rw [readToken_eq_ok_iff (noBlank_skipWhitespace c)]
  constructor
  · intro h
    obtain ⟨word, rest, hword, rfl, rfl⟩ := h
    have hblanks := blanks_skipWhitespace c
    have hskip := skipWhitespace_of_blanks hblanks (noBlank_skipWhitespace c)
    exact ⟨_, word, rest, hblanks, hword, by rw [← hskip], upTo_skipWhitespace hword.suffix⟩
  · intro h
    obtain ⟨mid, word, rest, hblanks, hword, rfl, rfl⟩ := h
    have hskip := skipWhitespace_of_blanks hblanks hword.noBlank
    rw [hskip, rest_upTo]
    exact ⟨word, rest, hword, rfl, (upTo_upTo hblanks.suffix hword.suffix).symm⟩

/-! ## 5. Characters and words that are due -/

theorem expect_eq_ok_iff {c c' : Cursor} {due : Char} {description : String} :
    c.expect due description = .ok c' ↔ ∃ rest, c.rest = due :: rest ∧ c' = c.upTo rest := by
  unfold expect
  constructor
  · intro h
    split at h
    · cases h
    · rename_i x rest hc
      split at h
      · rename_i hx
        cases h
        exact ⟨rest, hx ▸ hc, advance_eq_upTo hc⟩
      · cases h
  · intro h
    obtain ⟨rest, hc, rfl⟩ := h
    have hread : c.rest = [due] ++ rest := hc
    simp only [hc, if_true]
    rw [advance_eq_upTo hread]

theorem expect_skipWhitespace_eq_ok_iff {c c' : Cursor} {due : Char} {description : String}
    (hdue : Symbol.isWhitespace due = false) : c.skipWhitespace.expect due description = .ok c' ↔
      ∃ rest, Blanks c.rest (due :: rest) ∧ c' = c.upTo rest := by
  rw [expect_eq_ok_iff]
  constructor
  · intro h
    obtain ⟨rest, hrest, rfl⟩ := h
    refine ⟨rest, hrest ▸ blanks_skipWhitespace c, upTo_skipWhitespace ?_⟩
    exact ⟨[due], hrest.symm⟩
  · intro h
    obtain ⟨rest, hblanks, rfl⟩ := h
    rw [skipWhitespace_of_blanks hblanks (noBlank_cons hdue)]
    exact ⟨rest, rfl, (upTo_upTo hblanks.suffix (List.suffix_cons due rest)).symm⟩

theorem expectWord_eq_ok_iff {description : String} {word : List Char} {c c' : Cursor} :
    c.expectWord description word = (.ok (), c') ↔
      ∃ rest, c.rest = word ++ rest ∧ c' = c.upTo rest := by
  induction word generalizing c with
  | nil =>
    constructor
    · intro h
      cases h
      exact ⟨_, rfl, (upTo_self _).symm⟩
    · intro h
      obtain ⟨rest, hrest, rfl⟩ := h
      cases hrest
      rw [expectWord, upTo_self]
  | cons x xs ih =>
    constructor
    · intro h
      unfold expectWord at h
      split at h
      · rename_i c₁ h₁
        obtain ⟨rest₁, hrest₁, rfl⟩ := expect_eq_ok_iff.mp h₁
        obtain ⟨rest, hrest, rfl⟩ := ih.mp h
        rw [rest_upTo] at hrest
        have hc : c.rest = x :: xs ++ rest := by rw [hrest₁, hrest]; rfl
        refine ⟨rest, hc, upTo_upTo ⟨[x], hrest₁.symm⟩ ⟨xs, hrest.symm⟩⟩
      · cases h
    · intro h
      obtain ⟨rest, hrest, rfl⟩ := h
      have h₁ : c.expect x description = .ok (c.upTo (xs ++ rest)) :=
        expect_eq_ok_iff.mpr ⟨xs ++ rest, hrest, rfl⟩
      rw [expectWord, h₁]
      refine ih.mpr ⟨rest, rfl, ?_⟩
      exact (upTo_upTo ⟨[x], hrest.symm⟩ ⟨xs, rfl⟩).symm

end Cursor

namespace Token

theorem integer_eq_ok_iff {w : Numeral.Width} {α : Type} {ofInt : Int → α} {toInt : α → Int}
    (h : w.RepresentedBy ofInt toInt) {t : Token} {v : α} :
    t.integer w ofInt = .ok v ↔ Numeral.Spells t.text.toList (toInt v) := by
  rw [integer, mapError_eq_ok_iff, h.readAs_eq_ok_iff]

end Token
end FunctionMap
