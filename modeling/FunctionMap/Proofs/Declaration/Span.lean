import FunctionMap.Proofs.Declaration.Grammar

/-!
# How far a rule looks

A rule reads some characters of a text and looks at the first one behind them at most, to see that a
word ends there or that one is missing. So the same characters are read by the same rule before any
other text with the same first character; and before a comment, which ends a word as well as
anything does, and may stand where a word is missing.

* `SameStart rest rest'` -- the text `rest'` may stand in for `rest`;
* `Spanned R text rest` -- what the rule `R` reads of `text` before `rest`, it also reads before every
  text that may stand in for `rest`.

Every rule for headers and entries is spanned (`EnumHeader.spanned` and the like), so a text behind it
can be replaced from a `#` on (`Spanned.replace`).
-/

namespace FunctionMap
namespace Grammar

/-! ## 1. Texts that stand in for others -/

/-- The text starts with the same character, or with a comment. -/
def SameStart (rest rest' : List Char) : Prop := rest'.head? = rest.head? ∨ rest'.head? = some '#'

theorem SameStart.append {rest rest' : List Char} (h : SameStart rest rest') (read : List Char) :
    SameStart (read ++ rest) (read ++ rest') := by
  cases read with
  | nil => exact h
  | cons x read => exact Or.inl rfl

theorem sameStart_cons (x : Char) (rest rest' : List Char) : SameStart (x :: rest) (x :: rest') :=
  Or.inl rfl

/-- A text may be replaced from a `#` on. -/
theorem sameStart_hash (read back z : List Char) : SameStart (read ++ back) (read ++ '#' :: z) :=
  SameStart.append (Or.inr rfl) read

theorem SameStart.noBlank {rest rest' : List Char} (h : SameStart rest rest') (hrest : NoBlank rest) :
    NoBlank rest' := by
  intro c hc
  rcases h with h | h
  · exact hrest c (h ▸ hc)
  · rw [h] at hc
    cases hc
    rfl

/-- What the rule reads before `rest`, it reads before every text that may stand in for `rest`. -/
def Spanned (R : List Char → List Char → Prop) (text rest : List Char) : Prop :=
  ∃ read, text = read ++ rest ∧ ∀ rest', SameStart rest rest' → R (read ++ rest') rest'

section Spanned

variable {R S T : List Char → List Char → Prop} {text mid rest : List Char}

/-- Two rules in a row. -/
theorem Spanned.seq (h : Spanned R text mid) (h' : Spanned S mid rest)
    (hmk : ∀ text mid rest, R text mid → S mid rest → T text rest) : Spanned T text rest := by
  obtain ⟨read', rfl, hread'⟩ := h'
  obtain ⟨read, rfl, hread⟩ := h
  refine ⟨read ++ read', (List.append_assoc read read' rest).symm, fun rest' hrest => ?_⟩
  rw [List.append_assoc]
  exact hmk _ _ _ (hread _ (hrest.append read')) (hread' rest' hrest)

/-- **Behind what a rule reads, a text may be replaced from a `#` on.** -/
theorem Spanned.replace {back : List Char} (h : Spanned R (text ++ back) (rest ++ back))
    (z : List Char) : R (text ++ '#' :: z) (rest ++ '#' :: z) := by
  obtain ⟨read, htext, hread⟩ := h
  rw [← List.append_assoc] at htext
  rw [List.append_cancel_right htext, List.append_assoc]
  exact hread _ (sameStart_hash rest back z)

/-- Behind what a rule reads, a comment may be put at the end of a text. -/
theorem Spanned.append (h : Spanned R text rest) (z : List Char) :
    R (text ++ '#' :: z) (rest ++ '#' :: z) := by
  rw [← List.append_nil text, ← List.append_nil rest] at h
  exact h.replace z

end Spanned

/-! ## 2. Lexemes -/

theorem Blanks.spanned {text rest : List Char} (h : Blanks text rest) : Spanned Blanks text rest := by
  induction h with
  | none rest => exact ⟨[], rfl, fun rest' _ => .none rest'⟩
  | more c hc _ ih =>
    obtain ⟨read, rfl, hread⟩ := ih
    exact ⟨c :: read, rfl, fun rest' hrest => .more c hc (hread rest' hrest)⟩

theorem Word.spanned {text word rest : List Char} (h : Word text word rest) :
    Spanned (Word · word ·) text rest := by
  refine ⟨word, h.text_eq, fun rest' hrest => ⟨rfl, h.ne_nil, h.inside, fun c hc => ?_⟩⟩
  rcases hrest with hrest | hrest
  · exact h.maximal c (hrest ▸ hc)
  · rw [hrest] at hc
    cases hc
    rfl

/-- A word that is missing where a source ends or a comment starts may be missing at any comment. -/
theorem OptWord.spanned {text word rest : List Char} (h : OptWord text word rest) :
    Spanned (OptWord · word ·) text rest := by
  cases h with
  | word h =>
    obtain ⟨read, htext, hread⟩ := h.spanned
    exact ⟨read, htext, fun rest' hrest => .word (hread rest' hrest)⟩
  | atComment rest =>
    refine ⟨[], rfl, fun rest' hrest => ?_⟩
    obtain ⟨z, rfl⟩ := List.head?_eq_some_iff.mp (hrest.elim id id)
    exact .atComment z
  | atEnd =>
    refine ⟨[], rfl, fun rest' hrest => ?_⟩
    rcases hrest with hrest | hrest
    · rw [List.head?_eq_none_iff.mp hrest]
      exact .atEnd
    · obtain ⟨z, rfl⟩ := List.head?_eq_some_iff.mp hrest
      exact .atComment z

/-! ## 3. Headers and entries -/

section Rules

variable {text rest : List Char}

theorem Name.spanned {name : String} (h : Name text name rest) : Spanned (Name · name ·) text rest := by
  obtain ⟨hblanks, hword⟩ := h
  exact hblanks.spanned.seq hword.spanned fun _ _ _ hblanks hword => .mk hblanks hword

theorem Integer.spanned {k : Int32} (h : Integer text k rest) : Spanned (Integer · k ·) text rest := by
  obtain ⟨hblanks, hword, hspells⟩ := h
  exact hblanks.spanned.seq hword.spanned fun _ _ _ hblanks hword => .mk hblanks hword hspells

theorem EnumHeader.spanned {name elementType : String} (h : EnumHeader text name elementType rest) :
    Spanned (EnumHeader · name elementType ·) text rest := by
  obtain ⟨hname, htype⟩ := h
  obtain ⟨read, rfl, hread⟩ := hname.spanned.seq htype.spanned
    (T := fun text rest => EnumHeader ('m' :: 'a' :: 'p' :: text) name elementType rest)
    fun _ _ _ hname htype => .mk hname htype
  exact ⟨'m' :: 'a' :: 'p' :: read, rfl, hread⟩

theorem Value.spanned {value : EnumValue} (h : Value text value rest) :
    Spanned (Value · value ·) text rest := by
  obtain ⟨hword, hopens, hkey, hname⟩ := h
  exact hword.spanned.seq hname.spanned fun _ _ _ hword hname => .mk hword hopens hkey hname

theorem FunctionHeader.spanned {key : FunctionKey} {name : String}
    (h : FunctionHeader text key name rest) : Spanned (FunctionHeader · key name ·) text rest := by
  obtain ⟨hgroup, hcomma, htype, hbracket, hname⟩ := h
  obtain ⟨d, rfl, hname'⟩ := hname.spanned
  obtain ⟨c, rfl, hbracket'⟩ := hbracket.spanned
  obtain ⟨b, rfl, htype'⟩ := htype.spanned
  obtain ⟨a, rfl, hcomma'⟩ := hcomma.spanned
  obtain ⟨read, rfl, hgroup'⟩ := hgroup.spanned
  refine ⟨'[' :: (read ++ (a ++ ',' :: (b ++ (c ++ ']' :: d)))), by simp, fun rest' hrest => ?_⟩
  simp only [List.cons_append, List.append_assoc]
  exact .mk (hgroup' _ ((sameStart_cons ',' _ _).append a)) (hcomma' _ (sameStart_cons ',' _ _))
    (htype' _ ((sameStart_cons ']' _ _).append c)) (hbracket' _ (sameStart_cons ']' _ _))
    (hname' rest' hrest)

theorem ParameterEntry.spanned {parameter : Parameter} (h : ParameterEntry text parameter rest) :
    Spanned (ParameterEntry · parameter ·) text rest := by
  obtain ⟨hword, hopens, hbraces, hname⟩ := h
  exact hword.spanned.seq hname.spanned fun _ _ _ hword hname => .mk hword hopens hbraces hname

end Rules

end Grammar
end FunctionMap
