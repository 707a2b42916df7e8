import FunctionMap.Proofs.Text.CharRun
import FunctionMap.Proofs.Text.Numeral

/-!
# Text from which values can be made out

A text is put together from the texts of many values, and what belongs to which value has to follow
from the text alone. `Legible write view P F` says this of one kind of value: of a value with `P` that
is written in front of a text with `F`, the whole text tells `view`, and where the text behind starts.

The ways to see that values are legible:

* `Legible.of_read` -- a reader gives back the value and what is behind it;
* `Legible.of_run` -- the text of a value is a run of characters that ends where `F` begins;
* `Legible.append` -- two legible parts of a value, one behind the other;
* `Legible.flatMap` -- legible values in a row, up to a text that no value starts;
* `Legible.of_cons` -- lists of which the empty one is told apart from the others;
* `Legible.quoted` -- characters with escapes between two quotes.
-/

namespace FunctionMap

/-! ## 1. Legible values -/

section Legible

variable {α β γ : Type} {write : α → List Char} {view : α → β} {P : α → Prop} {F : List Char → Prop}

/-- Values with `P`, written in front of a text with `F`, can be made out: equal texts show equal
    views, and the same text behind them. -/
def Legible (write : α → List Char) (view : α → β) (P : α → Prop) (F : List Char → Prop) : Prop :=
  ∀ ⦃a b : α⦄, P a → P b → ∀ ⦃r s : List Char⦄, F r → F s →
    write a ++ r = write b ++ s → view a = view b ∧ r = s

/-- Anything at all. -/
def Any (_ : α) : Prop := True

theorem any (a : α) : Any a := trivial

namespace Legible

/-- What is legible in front of many texts is legible in front of some of them. -/
theorem mono (h : Legible write view P F) {Q : α → Prop} {G : List Char → Prop}
    (hP : ∀ a, Q a → P a) (hF : ∀ r, G r → F r) : Legible write view Q G :=
  fun a b ha hb _ _ hr hs heq => h (hP a ha) (hP b hb) (hF _ hr) (hF _ hs) heq

/-- What shows one view shows every view that follows from it. -/
theorem of_view (h : Legible write view P F) {view' : α → γ}
    (hview : ∀ a b, view a = view b → view' a = view' b) : Legible write view' P F := by
  intro a b ha hb r s hr hs heq
  obtain ⟨hab, hrs⟩ := h ha hb hr hs heq
  exact ⟨hview a b hab, hrs⟩

/-- Another way to write the same text. -/
theorem congr (h : Legible write view P F) {write' : α → List Char}
    (hwrite : ∀ a, P a → write' a = write a) : Legible write' view P F := by
  intro a b ha hb r s hr hs heq
  rw [hwrite a ha, hwrite b hb] at heq
  exact h ha hb hr hs heq

/-- What is legible is so as a part of something else. -/
theorem comp (h : Legible write view P F) (part : γ → α) {Q : γ → Prop}
    (hP : ∀ a, Q a → P (part a)) :
    Legible (fun a => write (part a)) (fun a => view (part a)) Q F :=
  fun _ _ ha hb _ _ hr hs heq => h (hP _ ha) (hP _ hb) hr hs heq

theorem comp_any (h : Legible write view Any F) (part : γ → α) :
    Legible (fun a => write (part a)) (fun a => view (part a)) Any F :=
  h.comp part fun a _ => any (part a)

theorem of_read {read : List Char → Option (β × List Char)}
    (h : ∀ a, P a → ∀ r, F r → read (write a ++ r) = some (view a, r)) :
    Legible write view P F := by
  intro a b ha hb r s hr hs heq
  have hread := h a ha r hr
  rw [heq, h b hb s hs] at hread
  obtain ⟨hview, hrest⟩ := Prod.mk.inj (Option.some.inj hread)
  exact ⟨hview.symm, hrest.symm⟩

/-- **A run of characters of one kind ends where a character of another kind stands.** -/
theorem of_run {p : Char → Bool} (hrun : ∀ a, P a → ∀ c ∈ write a, p c = true)
    (hview : ∀ a b, P a → P b → write a = write b → view a = view b) :
    Legible write view P fun r => ∀ c ∈ r.head?, p c = false := by
  intro a b ha hb r s hr hs heq
  have hwrite : write a = write b := by
    rw [← takeWhile_of_maximal (hrun a ha) hr, heq, takeWhile_of_maximal (hrun b hb) hs]
  rw [hwrite] at heq
  exact ⟨hview a b ha hb hwrite, List.append_cancel_left heq⟩

theorem append {write' : α → List Char} {view' : α → γ} {G : List Char → Prop}
    (h : Legible write view P F) (h' : Legible write' view' P G)
    (hF : ∀ a r, P a → G r → F (write' a ++ r)) :
    Legible (fun a => write a ++ write' a) (fun a => (view a, view' a)) P G := by
  intro a b ha hb r s hr hs heq
  rw [List.append_assoc, List.append_assoc] at heq
  obtain ⟨hab, heq⟩ := h ha hb (hF a r ha hr) (hF b s hb hs) heq
  obtain ⟨hab', hrs⟩ := h' ha hb hr hs heq
  exact ⟨Prod.ext hab hab', hrs⟩

/-- A fixed text in front changes nothing. -/
theorem prepend (h : Legible write view P F) (text : List Char) :
    Legible (fun a => text ++ write a) view P F := by
  intro a b ha hb r s hr hs heq
  rw [List.append_assoc, List.append_assoc] at heq
  exact h ha hb hr hs (List.append_cancel_left heq)

/-- A fixed text behind a value, in front of which the value is legible. -/
theorem followed (h : Legible write view P F) (text : List Char) {G : List Char → Prop}
    (hF : ∀ r, G r → F (text ++ r)) : Legible (fun a => write a ++ text) view P G := by
  intro a b ha hb r s hr hs heq
  rw [List.append_assoc, List.append_assoc] at heq
  obtain ⟨hab, heq⟩ := h ha hb (hF r hr) (hF s hs) heq
  exact ⟨hab, List.append_cancel_left heq⟩

/-- **Values in a row are legible up to a text that no value starts**, if a value may stand in front
    of another one and in front of that text. -/
theorem flatMap (h : Legible write view P F) {E : List Char → Prop}
    (hnext : ∀ a r, P a → F (write a ++ r)) (hend : ∀ r, E r → F r)
    (hne : ∀ a r s, P a → E s → write a ++ r ≠ s) :
    Legible (List.flatMap write) (List.map view) (fun xs => ∀ x ∈ xs, P x) E := by
  intro xs
  induction xs with
  | nil =>
    intro ys _ hys r s hr _ heq
    cases ys with
    | nil => exact ⟨rfl, heq⟩
    | cons y ys =>
      rw [List.flatMap_nil, List.nil_append, List.flatMap_cons, List.append_assoc] at heq
      exact absurd heq.symm (hne y _ r (hys y List.mem_cons_self) hr)
  | cons x xs ih =>
    intro ys hxs hys r s hr hs heq
    have hfollow : ∀ zs : List α, (∀ z ∈ zs, P z) → ∀ r, E r → F (zs.flatMap write ++ r) := by
      intro zs hzs r hr
      cases zs with
      | nil => exact hend r hr
      | cons z zs =>
        rw [List.flatMap_cons, List.append_assoc]
        exact hnext z _ (hzs z List.mem_cons_self)
    obtain ⟨hx, hxs⟩ := List.forall_mem_cons.mp hxs
    rw [List.flatMap_cons, List.append_assoc] at heq
    cases ys with
    | nil => exact absurd heq (hne x _ s hx hs)
    | cons y ys =>
      obtain ⟨hy, hys⟩ := List.forall_mem_cons.mp hys
      rw [List.flatMap_cons, List.append_assoc] at heq
      obtain ⟨hxy, heq⟩ := h hx hy (hfollow xs hxs r hr) (hfollow ys hys s hs) heq
      obtain ⟨hmap, hrs⟩ := ih hxs hys hr hs heq
      exact ⟨by rw [List.map_cons, List.map_cons, hxy, hmap], hrs⟩

/-- Values in a row that show themselves. -/
theorem of_map_id {writeAll : List α → List Char} {Q : List α → Prop}
    (h : Legible writeAll (List.map id) Q F) : Legible writeAll id Q F :=
  h.of_view fun a b hab => by rwa [List.map_id, List.map_id] at hab

/-- Lists are legible if the empty one has a text of its own and the others, by their first value and
    the rest, are legible. -/
theorem of_cons {writeAll : List α → List Char} {viewAll : List α → γ} {Q : List α → Prop}
    (hnil : ∀ x xs r s, Q (x :: xs) → writeAll (x :: xs) ++ r ≠ writeAll [] ++ s)
    (hcons : Legible (fun p : α × List α => writeAll (p.1 :: p.2)) (fun p => viewAll (p.1 :: p.2))
      (fun p => Q (p.1 :: p.2)) F) : Legible writeAll viewAll Q F := by
  intro xs ys hxs hys r s hr hs heq
  cases xs with
  | nil =>
    cases ys with
    | nil => exact ⟨rfl, List.append_cancel_left heq⟩
    | cons y ys => exact absurd heq.symm (hnil y ys s r hys)
  | cons x xs =>
    cases ys with
    | nil => exact absurd heq (hnil x xs r s hxs)
    | cons y ys =>
      have hpairs := @hcons (x, xs) (y, ys)
      exact hpairs hxs hys hr hs heq

/-- **Characters between quotes are legible in front of anything**, if a reader takes them out of their
    escapes one by one and the quote is escaped. -/
theorem quoted {escape : Char → List Char} {read : List Char → Option (Char × List Char)}
    {quote : Char} (hread : ∀ c rest, read (escape c ++ rest) = some (c, rest))
    (hquote : ∀ rest, read (quote :: rest) = some (quote, rest))
    (hescaped : ∀ r s, escape quote ++ r ≠ quote :: s) :
    Legible (fun s : List Char => quote :: s.flatMap escape ++ [quote]) id Any Any := by
  have hne : ∀ c r s, escape c ++ r ≠ quote :: s := by
    intro c r s h
    have hc := hread c r
    rw [h, hquote] at hc
    cases hc
    exact hescaped _ _ h
  have hescape : Legible escape id Any Any := .of_read fun c _ rest _ => hread c rest
  have hcharacters := hescape.flatMap (E := fun r => ∃ s, r = quote :: s) (fun _ _ _ => any _)
    (fun _ _ => any _) (by rintro c r s - ⟨s, rfl⟩; exact hne c r s)
  have hquoted := (hcharacters.of_map_id.followed [quote] (G := Any) fun r _ => ⟨r, rfl⟩).prepend
    [quote]
  exact hquoted.mono (fun _ _ c _ => any c) fun _ h => h

/-- Two whole texts of the same view. -/
theorem view_eq (h : Legible write view P F) (hF : F []) {a b : α} (ha : P a) (hb : P b)
    (heq : write a = write b) : view a = view b :=
  (h ha hb hF hF (congrArg (· ++ []) heq)).1

end Legible

end Legible

/-! ## 2. Integers -/

namespace Numeral

/-- The characters that integers are spelt with. -/
def isFigure (c : Char) : Bool := c.isDigit || c = '+' || c = '-'

theorem Spells.unique {text : List Char} {v w : Int} (hv : Spells text v) (hw : Spells text w) :
    v = w := by
  cases hv with
  | unsigned hdigits =>
    cases hw with
    | unsigned _ => rfl
    | plus _ => exact absurd (hdigits.2 '+' List.mem_cons_self) (by decide)
    | minus _ => exact absurd (hdigits.2 '-' List.mem_cons_self) (by decide)
  | plus hdigits =>
    cases hw with
    | unsigned hdigits' => exact absurd (hdigits'.2 '+' List.mem_cons_self) (by decide)
    | plus _ => rfl
  | minus hdigits =>
    cases hw with
    | unsigned hdigits' => exact absurd (hdigits'.2 '-' List.mem_cons_self) (by decide)
    | minus _ => rfl

theorem isFigure_of_mem_write {v : Int} {c : Char} (h : c ∈ write v) : isFigure c = true := by
  rcases (spells_write v).isDigit_or_sign.2 c h with rfl | rfl | hdigit
  · rfl
  · rfl
  · rw [isFigure, hdigit]
    rfl

/-- **Integers are legible in front of everything that is no figure.** -/
theorem legible_write :
    Legible write id Any fun r => ∀ c ∈ r.head?, isFigure c = false := by
  refine .of_run (fun v _ c hc => isFigure_of_mem_write hc) fun v w _ _ heq => ?_
  have hv := spells_write v
  rw [heq] at hv
  exact hv.unique (spells_write w)

end Numeral
end FunctionMap
