import FunctionMap.Text.Blank
import FunctionMap.Proofs.Text.CharRun

/-!
# Trimming

Trimming takes characters of a class away from both ends of a text and from nowhere else: what is
left has none at either end (`trimmed_trimBy`), and a text that has none at either end is what is
left when some are put around it (`trimBy_append`). Together they say what trimming gives
(`trimBy_eq_iff`).
-/

namespace FunctionMap
namespace Blank

/-- No character of the class stands at either end. -/
def Trimmed (p : Char → Bool) (text : List Char) : Prop :=
  (∀ c ∈ text.head?, p c = false) ∧ ∀ c ∈ text.getLast?, p c = false

/-- Of what trimming has left at the start it takes the longest run of the class away at the end. -/
theorem dropWhile_eq_trimBy_append (p : Char → Bool) (text : List Char) :
    text.dropWhile p = trimBy p text ++ ((text.dropWhile p).reverse.takeWhile p).reverse := by
  rw [trimBy, ← List.reverse_append, List.takeWhile_append_dropWhile, List.reverse_reverse]

/-- **What trimming leaves has no character of the class at either end.** -/
theorem trimmed_trimBy (p : Char → Bool) (text : List Char) : Trimmed p (trimBy p text) := by
  constructor
  · intro c hc
    refine head?_dropWhile text c ?_
    rw [dropWhile_eq_trimBy_append, List.head?_append, Option.mem_def.mp hc]
    rfl
  · intro c hc
    rw [trimBy, List.getLast?_reverse] at hc
    exact head?_dropWhile _ c hc

/-- **What stands around a trimmed text is trimmed away.** -/
theorem trimBy_append {p : Char → Bool} {front core back : List Char}
    (hfront : ∀ c ∈ front, p c = true) (hcore : Trimmed p core) (hback : ∀ c ∈ back, p c = true) :
    trimBy p (front ++ core ++ back) = core := by
  obtain ⟨hhead, hlast⟩ := hcore
  rw [trimBy, List.append_assoc, List.dropWhile_append_of_pos hfront]
  cases core with
  | nil =>
    have hall : (back ++ []).dropWhile p = [] := dropWhile_of_maximal hback (by simp)
    rw [List.append_nil] at hall
    rw [List.nil_append, hall]
    rfl
  | cons c core =>
    have hleft : (c :: core ++ back).dropWhile p = c :: core ++ back :=
      dropWhile_eq_self fun d hd => hhead d hd
    have hright : ∀ d ∈ (c :: core).reverse.head?, p d = false := fun d hd => by
      rw [List.head?_reverse] at hd
      exact hlast d hd
    rw [hleft, List.reverse_append, dropWhile_of_maximal (by simpa using hback) hright,
      List.reverse_reverse]

/-- One character of the class on either side is trimmed away. -/
theorem trimBy_surrounded {p : Char → Bool} {text : List Char} (h : Trimmed p text) {x y : Char}
    (hx : p x = true) (hy : p y = true) : trimBy p (x :: text ++ [y]) = text := by
  have hfront : ∀ c ∈ [x], p c = true := by simpa using hx
  have hback : ∀ c ∈ [y], p c = true := by simpa using hy
  exact trimBy_append hfront h hback

/-- `core` is what remains of `text` when characters of the class are taken away from its ends until
    there are none. -/
structure Trims (p : Char → Bool) (text core : List Char) : Prop where
  split : ∃ front back, text = front ++ core ++ back ∧
    (∀ c ∈ front, p c = true) ∧ ∀ c ∈ back, p c = true
  trimmed : Trimmed p core

/-- **Trimming takes characters of the class away from the ends until there are none.** -/
theorem trimBy_eq_iff {p : Char → Bool} {text core : List Char} :
    trimBy p text = core ↔ Trims p text core := by
  constructor
  · rintro rfl
    refine ⟨⟨text.takeWhile p, ((text.dropWhile p).reverse.takeWhile p).reverse, ?_,
      fun c hc => mem_takeWhile hc, fun c hc => mem_takeWhile (List.mem_reverse.mp hc)⟩,
      trimmed_trimBy p text⟩
    rw [List.append_assoc, ← dropWhile_eq_trimBy_append, List.takeWhile_append_dropWhile]
  · rintro ⟨⟨front, back, rfl, hfront, hback⟩, hcore⟩
    exact trimBy_append hfront hcore hback

/-- A text with no character of the class at all is left as it is. -/
theorem trimmed_of_none {p : Char → Bool} {text : List Char} (h : ∀ c ∈ text, p c = false) :
    Trimmed p text :=
  ⟨fun c hc => h c (List.mem_of_head? hc), fun c hc => h c (List.mem_of_getLast? hc)⟩

theorem Trims.subset {p : Char → Bool} {text core : List Char} (h : Trims p text core) :
    core ⊆ text := by
  obtain ⟨⟨front, back, rfl, -, -⟩, -⟩ := h
  exact fun c hc => List.mem_append_left back (List.mem_append_right front hc)

theorem Trimmed.trims {p : Char → Bool} {text : List Char} (h : Trimmed p text) : Trims p text text :=
  ⟨⟨[], [], by simp⟩, h⟩

theorem Trims.cons {p : Char → Bool} {x : Char} {text core : List Char} (hx : p x = true)
    (h : Trims p text core) : Trims p (x :: text) core := by
  obtain ⟨⟨front, back, rfl, hfront, hback⟩, hcore⟩ := h
  refine ⟨⟨x :: front, back, rfl, fun c hc => ?_, hback⟩, hcore⟩
  rcases List.mem_cons.mp hc with rfl | hc
  · exact hx
  · exact hfront c hc

end Blank
end FunctionMap
