import FunctionMap.Source.Symbol

/-!
# The lexemes of a source

What a source is made of below its declarations, stated on what remains of it: `Word text word rest`
says that `text` starts with the word `word` and goes on with `rest`.

* blanks -- any number of white-space characters, none included;
* a word -- one or more characters of which none ends a token, as many as there are;
* an optional word -- a word, or nothing where a comment starts or the source ends;
* a comment -- `#` and all that follows up to the next line feed, or up to the end;
* a gap -- blanks and comments in any number and order.

No reader is used here; `Proofs/Source/Cursor` shows which of these the cursor reads.
-/

namespace FunctionMap
namespace Grammar

/-! ## 1. The relations -/

/-- Blanks, and what remains behind them. -/
inductive Blanks : List Char → List Char → Prop where
  | none (rest : List Char) : Blanks rest rest
  | more (c : Char) {text rest : List Char} (hc : Symbol.isWhitespace c = true)
      (h : Blanks text rest) : Blanks (c :: text) rest

/-- A word at the start of a text, and what remains behind it. -/
structure Word (text word rest : List Char) : Prop where
  text_eq : text = word ++ rest
  ne_nil : word ≠ []
  inside : ∀ c ∈ word, Symbol.isDelimiter c = false
  maximal : ∀ c ∈ rest.head?, Symbol.isDelimiter c = true

/-- A word, or nothing where a comment starts or the source ends. -/
inductive OptWord : List Char → List Char → List Char → Prop where
  | word {text word rest : List Char} (h : Word text word rest) : OptWord text word rest
  | atComment (rest : List Char) : OptWord ('#' :: rest) [] ('#' :: rest)
  | atEnd : OptWord [] [] []

/-- A comment at the start of a text, and what remains behind it: a line feed or nothing. -/
structure Comment (text rest : List Char) : Prop where
  text_eq : ∃ body, text = '#' :: body ++ rest ∧ ∀ c ∈ body, c ≠ '\n'
  maximal : ∀ c ∈ rest.head?, c = '\n'

/-- Blanks and comments, and what remains behind them. -/
inductive Gap : List Char → List Char → Prop where
  | none (rest : List Char) : Gap rest rest
  | blank (c : Char) {text rest : List Char} (hc : Symbol.isWhitespace c = true)
      (h : Gap text rest) : Gap (c :: text) rest
  | comment {text mid rest : List Char} (hc : Comment text mid) (h : Gap mid rest) : Gap text rest

/-- Any number of items, each behind the one before. -/
inductive Star {α : Type} (item : List Char → α → List Char → Prop) :
    List Char → List α → List Char → Prop where
  | nil (rest : List Char) : Star item rest [] rest
  | cons {text mid rest : List Char} {x : α} {xs : List α} (hx : item text x mid)
      (hxs : Star item mid xs rest) : Star item text (x :: xs) rest

/-! ## 2. What remains is an end of the text -/

theorem Blanks.suffix {text rest : List Char} (h : Blanks text rest) : rest <:+ text := by
  induction h with
  | none rest => exact List.suffix_refl rest
  | more c hc h ih => exact ih.trans (List.suffix_cons c _)

theorem Word.suffix {text word rest : List Char} (h : Word text word rest) : rest <:+ text :=
  ⟨word, h.text_eq.symm⟩

theorem OptWord.suffix {text word rest : List Char} (h : OptWord text word rest) :
    rest <:+ text := by
  cases h with
  | word h => exact h.suffix
  | atComment rest => exact List.suffix_refl _
  | atEnd => exact List.suffix_refl _

theorem Comment.suffix {text rest : List Char} (h : Comment text rest) : rest <:+ text := by
  obtain ⟨body, rfl, -⟩ := h.text_eq
  exact List.suffix_append _ rest

theorem Gap.suffix {text rest : List Char} (h : Gap text rest) : rest <:+ text := by
  induction h with
  | none rest => exact List.suffix_refl rest
  | blank c hc h ih => exact ih.trans (List.suffix_cons c _)
  | comment hc h ih => exact ih.trans hc.suffix

theorem Star.suffix {α : Type} {item : List Char → α → List Char → Prop}
    (hitem : ∀ text x rest, item text x rest → rest <:+ text) {text rest : List Char} {xs : List α}
    (h : Star item text xs rest) : rest <:+ text := by
  induction h with
  | nil rest => exact List.suffix_refl rest
  | cons hx hxs ih => exact ih.trans (hitem _ _ _ hx)

/-! ## 3. Putting together -/

theorem Blanks.trans {text mid rest : List Char} (h : Blanks text mid) (h' : Blanks mid rest) :
    Blanks text rest := by
  induction h with
  | none _ => exact h'
  | more c hc h ih => exact .more c hc (ih h')

theorem blanks_append {run : List Char} (h : ∀ c ∈ run, Symbol.isWhitespace c = true)
    (rest : List Char) : Blanks (run ++ rest) rest := by
  induction run with
  | nil => exact .none rest
  | cons c run ih =>
    obtain ⟨hc, hrun⟩ := List.forall_mem_cons.mp h
    exact .more c hc (ih hrun)

theorem Blanks.exists_run {text rest : List Char} (h : Blanks text rest) :
    ∃ run, text = run ++ rest ∧ ∀ c ∈ run, Symbol.isWhitespace c = true := by
  induction h with
  | none rest => exact ⟨[], rfl, List.forall_mem_nil _⟩
  | more c hc h ih =>
    obtain ⟨run, rfl, hrun⟩ := ih
    exact ⟨c :: run, rfl, List.forall_mem_cons.mpr ⟨hc, hrun⟩⟩

theorem Blanks.gap {text mid rest : List Char} (h : Blanks text mid) (hg : Gap mid rest) :
    Gap text rest := by
  induction h with
  | none _ => exact hg
  | more c hc h ih => exact .blank c hc (ih hg)

/-- A comment, the line feed that ends it, and what stands behind. -/
def commented (body rest : List Char) : List Char := '#' :: (body ++ '\n' :: rest)

theorem comment_commented {body : List Char} (hbody : '\n' ∉ body) (rest : List Char) :
    Comment (commented body rest) ('\n' :: rest) where
  text_eq := ⟨body, rfl, fun _ hc heq => hbody (heq ▸ hc)⟩
  maximal c hc := by cases hc; rfl

/-- A comment that is put in where another one ends becomes a part of it. -/
theorem Comment.merge {read back body : List Char} (h : Comment (read ++ back) back)
    (hbody : '\n' ∉ body) (rest : List Char) :
    Comment (read ++ commented body rest) ('\n' :: rest) := by
  obtain ⟨first, htext, hfirst⟩ := h.text_eq
  have hread : read = '#' :: first := List.append_cancel_right htext
  refine ⟨⟨first ++ '#' :: body, ?_, fun c hc => ?_⟩, fun c hc => by cases hc; rfl⟩
  · rw [hread, commented]
    simp
  · rcases List.mem_append.mp hc with hc | hc
    · exact hfirst c hc
    · rcases List.mem_cons.mp hc with rfl | hc
      · decide
      · exact fun heq => hbody (heq ▸ hc)

theorem Gap.commented {text rest body : List Char} (h : Gap text rest) (hbody : '\n' ∉ body) :
    Gap (commented body text) rest :=
  .comment (comment_commented hbody text) (.blank '\n' (by decide) h)

/-- A `#` at the end of a line is a comment without a text. -/
theorem Gap.emptyLine {text rest : List Char} (h : Gap text rest) :
    Gap ('#' :: '\n' :: text) rest := h.commented List.not_mem_nil

theorem Star.append {α : Type} {item : List Char → α → List Char → Prop} {text mid rest : List Char}
    {xs ys : List α} (hx : Star item text xs mid) (hy : Star item mid ys rest) :
    Star item text (xs ++ ys) rest := by
  induction hx with
  | nil _ => exact hy
  | cons h _ ih => exact .cons h (ih hy)

/-! ## 4. First characters -/

/-- No white space stands at the start of a text. -/
def NoBlank (text : List Char) : Prop := ∀ c ∈ text.head?, Symbol.isWhitespace c = false

theorem noBlank_nil : NoBlank [] := fun _ hc => nomatch hc

theorem noBlank_cons {c : Char} {text : List Char} (hc : Symbol.isWhitespace c = false) :
    NoBlank (c :: text) := by
  intro x hx
  cases hx
  exact hc

theorem Blanks.eq_of_noBlank {text rest : List Char} (h : Blanks text rest) (htext : NoBlank text) :
    text = rest := by
  cases h with
  | none rest => rfl
  | more c hc h =>
    rw [htext c rfl] at hc
    cases hc

theorem isWhitespace_of_isDelimiter {c : Char} (h : Symbol.isDelimiter c = false) :
    Symbol.isWhitespace c = false := by
  simp only [Symbol.isDelimiter, Bool.or_eq_false_iff] at h
  exact h.1.1.1

theorem Word.exists_cons {text word rest : List Char} (h : Word text word rest) :
    ∃ c cs, word = c :: cs ∧ text = c :: (cs ++ rest) ∧ Symbol.isDelimiter c = false := by
  obtain ⟨rfl, hne, hinside, -⟩ := h
  cases word with
  | nil => exact absurd rfl hne
  | cons c cs => exact ⟨c, cs, rfl, rfl, hinside c List.mem_cons_self⟩

theorem Word.noBlank {text word rest : List Char} (h : Word text word rest) : NoBlank text := by
  obtain ⟨c, cs, -, rfl, hc⟩ := h.exists_cons
  exact noBlank_cons (isWhitespace_of_isDelimiter hc)

theorem OptWord.noBlank {text word rest : List Char} (h : OptWord text word rest) :
    NoBlank text := by
  cases h with
  | word h => exact h.noBlank
  | atComment rest => exact noBlank_cons (by decide)
  | atEnd => exact noBlank_nil

end Grammar
end FunctionMap
