import FunctionMap.Proofs.Source.Cursor

/-!
# Cursors that read alike

Two runs over two sources are compared by their cursors. `C` relates a cursor in the one source to
one in the other, and `E` the errors of the two:

* `Agree R E x y` -- both computations succeed, with results that `R` relates, or both fail, with
  errors that `E` relates;
* `Alike C E` -- every operation on cursors that `C` relates agrees, and leads to cursors that `C`
  relates again.

How the two sources differ is not said here: `Alike` is all that a comparison of runs needs of it.
-/

namespace FunctionMap

/-! ## 1. Computations that agree -/

/-- Both computations succeed with related results, or both fail with related errors. -/
inductive Agree {α β : Type} (R : α → β → Prop) (E : SourceError → SourceError → Prop) :
    Except SourceError α → Except SourceError β → Prop where
  | ok {a : α} {b : β} (h : R a b) : Agree R E (.ok a) (.ok b)
  | error {e e' : SourceError} (h : E e e') : Agree R E (.error e) (.error e')

theorem Agree.bind {α β γ δ : Type} {R : α → β → Prop} {S : γ → δ → Prop}
    {E : SourceError → SourceError → Prop} {x : Except SourceError α} {y : Except SourceError β}
    {f : α → Except SourceError γ} {g : β → Except SourceError δ} (hx : Agree R E x y)
    (hf : ∀ a b, R a b → Agree S E (f a) (g b)) : Agree S E (x >>= f) (y >>= g) := by
  cases hx with
  | ok h => exact hf _ _ h
  | error h => exact .error h

theorem agree_mapError {ε α : Type} {E : SourceError → SourceError → Prop} (x : Except ε α)
    {f g : ε → SourceError} (h : ∀ e, E (f e) (g e)) :
    Agree (· = ·) E (x.mapError f) (x.mapError g) := by
  cases x with
  | ok a => exact .ok rfl
  | error e => exact .error (h e)

/-! ## 2. Tokens and cursors -/

/-- Tokens with the same text, of which none is refused as an integer without the other. -/
structure Token.Alike (E : SourceError → SourceError → Prop) (t t' : Token) : Prop where
  text : t.text = t'.text
  fault : ∀ fault, E (.notAnInteger t.text t.offset fault) (.notAnInteger t'.text t'.offset fault)

theorem Token.Alike.integer {E : SourceError → SourceError → Prop} {t t' : Token} (h : t.Alike E t')
    {w : Numeral.Width} {α : Type} {ofInt : Int → α} :
    Agree (· = ·) E (t.integer w ofInt) (t'.integer w ofInt) := by
  rw [Token.integer, Token.integer, ← h.text]
  exact agree_mapError _ fun fault => h.text ▸ h.fault fault

/-- Cursors that `C` relates read alike. A comment is only skipped where one starts, and only
    characters are expected that are neither white space nor the start of a comment. -/
structure Alike (C : Cursor → Cursor → Prop) (E : SourceError → SourceError → Prop) : Prop where
  unlocated : ∀ e, e.offset? = none → E e e
  atEnd : ∀ c c', C c c' → (c.rest = [] ↔ c'.rest = [])
  skipWhitespace : ∀ c c', C c c' → C c.skipWhitespace c'.skipWhitespace
  current? : ∀ c c', C c c' → c.skipWhitespace.current? = c'.skipWhitespace.current?
  skipComment : ∀ c c', C c c' → c.current? = some '#' → C c.skipComment c'.skipComment
  unexpected : ∀ c c', C c c' → E c.unexpected c'.unexpected
  expect : ∀ c c' x description, C c c' → Symbol.isWhitespace x = false → x ≠ '#' →
    Agree C E (c.expect x description) (c'.expect x description)
  readToken : ∀ c c', C c c' →
    Agree (fun r r' => r.1.Alike E r'.1 ∧ C r.2 r'.2) E c.readToken c'.readToken

namespace Alike

variable {C : Cursor → Cursor → Prop} {E : SourceError → SourceError → Prop}

theorem readToken_skipWhitespace (h : Alike C E) {c c' : Cursor} (hc : C c c') :
    Agree (fun r r' => r.1.Alike E r'.1 ∧ C r.2 r'.2) E c.skipWhitespace.readToken
      c'.skipWhitespace.readToken := h.readToken _ _ (h.skipWhitespace _ _ hc)

theorem expect_skipWhitespace (h : Alike C E) {c c' : Cursor} (hc : C c c') {x : Char}
    (description : String) (hx : Symbol.isWhitespace x = false) (hx' : x ≠ '#') :
    Agree C E (c.skipWhitespace.expect x description) (c'.skipWhitespace.expect x description) :=
  h.expect _ _ x description (h.skipWhitespace _ _ hc) hx hx'

/-- A word is there for both or for none. -/
theorem expectWord (h : Alike C E) (description : String) {word : List Char}
    (hword : ∀ x ∈ word, Symbol.isWhitespace x = false ∧ x ≠ '#') {c c' : Cursor} (hc : C c c') :
    (∃ d d', c.expectWord description word = (.ok (), d) ∧
      c'.expectWord description word = (.ok (), d') ∧ C d d') ∨
    ∃ e e' d d', c.expectWord description word = (.error e, d) ∧
      c'.expectWord description word = (.error e', d') ∧ E e e' := by
  induction word generalizing c c' with
  | nil => exact Or.inl ⟨c, c', rfl, rfl, hc⟩
  | cons x xs ih =>
    obtain ⟨hx, hx'⟩ := hword x List.mem_cons_self
    have hexpect := h.expect c c' x description hc hx hx'
    rw [Cursor.expectWord, Cursor.expectWord]
    generalize c.expect x description = r, c'.expect x description = r' at hexpect
    cases hexpect with
    | ok hd => exact ih (fun y hy => hword y (List.mem_cons_of_mem x hy)) hd
    | error he => exact Or.inr ⟨_, _, c, c', rfl, rfl, he⟩

end Alike
end FunctionMap
