import FunctionMap.Proofs.Text.Blank
import FunctionMap.Proofs.Declaration.Derivation

/-!
# Well-formed tables

What can be said of a table without a source at hand, `Table.WellFormed`:

* no enumeration name and no function key occurs twice;
* no name and no type holds a character that ends a token, `IsPlain`;
* an enumeration without a name has no element type;
* no parameter type starts or ends with a brace.

Main statement: the table of every source is well-formed (`wellFormed_of_parse`). That nothing else
holds of all of them is shown in `Proofs/Declaration/Printer`.
-/

namespace FunctionMap

/-! ## 1. What is well-formed -/

/-- A name of which no character ends a token. It may be empty. -/
def IsPlain (name : String) : Prop := ∀ c ∈ name.toList, Symbol.isDelimiter c = false

structure Enumeration.WellFormed (e : Enumeration) : Prop where
  name : IsPlain e.name
  elementType : IsPlain e.elementType
  unnamed : e.name = "" → e.elementType = ""
  values : ∀ v ∈ e.values, IsPlain v.name

structure Parameter.WellFormed (p : Parameter) : Prop where
  typeName : IsPlain p.typeName
  unbraced : Blank.Trimmed Parser.isBrace p.typeName.toList
  name : IsPlain p.name

structure Function.WellFormed (f : Function) : Prop where
  name : IsPlain f.name
  parameters : ∀ p ∈ f.parameters, p.WellFormed

def Declaration.WellFormed : Declaration → Prop
  | .enumeration e => e.WellFormed
  | .function f => f.WellFormed

structure Table.WellFormed (t : Table) : Prop where
  distinct : t.Distinct
  enums : ∀ e ∈ t.enums, e.WellFormed
  functions : ∀ f ∈ t.functions, f.WellFormed

/-! ## 2. What a derivation declares -/

namespace Grammar

theorem OptWord.plain {text word rest : List Char} (h : OptWord text word rest) :
    ∀ c ∈ word, Symbol.isDelimiter c = false := by
  cases h with
  | word h => exact h.inside
  | atComment rest => exact fun c hc => absurd hc List.not_mem_nil
  | atEnd => exact fun c hc => absurd hc List.not_mem_nil

theorem Name.isPlain {text rest : List Char} {name : String} (h : Name text name rest) :
    IsPlain name := by
  obtain ⟨-, hword⟩ := h
  intro c hc
  rw [String.toList_ofList] at hc
  exact hword.plain c hc

/-- Where no blank and no word can stand: at the end of the source and at a comment. -/
def Bare (text : List Char) : Prop := text = [] ∨ ∃ z, text = '#' :: z

theorem Name.bare_of_empty {text rest : List Char} {name : String} (h : Name text name rest)
    (hname : name = "") : Bare rest := by
  obtain ⟨-, hword⟩ := h
  have hnil := String.ofList_eq_empty_iff.mp hname
  cases hword with
  | word h => exact absurd hnil h.ne_nil
  | atComment rest => exact Or.inr ⟨rest, rfl⟩
  | atEnd => exact Or.inl rfl

theorem Name.eq_empty_of_bare {text rest : List Char} {name : String} (h : Name text name rest)
    (hbare : Bare text) : name = "" := by
  obtain ⟨hblanks, hword⟩ := h
  have hnoBlank : NoBlank text := by
    rcases hbare with rfl | ⟨z, rfl⟩
    · exact noBlank_nil
    · exact noBlank_cons (by decide)
  rw [← hblanks.eq_of_noBlank hnoBlank] at hword
  rw [String.ofList_eq_empty_iff]
  cases hword with
  | word h =>
    obtain ⟨c, cs, -, rfl, hc⟩ := h.exists_cons
    rcases hbare with hnil | ⟨z, hz⟩
    · cases hnil
    · cases hz
      cases hc
  | atComment rest => rfl
  | atEnd => rfl

theorem EnumHeader.wellFormed {text rest : List Char} {name elementType : String}
    (h : EnumHeader text name elementType rest) :
    IsPlain name ∧ IsPlain elementType ∧ (name = "" → elementType = "") := by
  obtain ⟨hname, htype⟩ := h
  refine ⟨hname.isPlain, htype.isPlain, ?_⟩
  exact fun hempty => htype.eq_empty_of_bare (hname.bare_of_empty hempty)

theorem Value.isPlain {text rest : List Char} {value : EnumValue} (h : Value text value rest) :
    IsPlain value.name := by
  obtain ⟨-, -, -, hname⟩ := h
  exact hname.isPlain

theorem FunctionHeader.isPlain {text rest : List Char} {key : FunctionKey} {name : String}
    (h : FunctionHeader text key name rest) : IsPlain name := by
  obtain ⟨-, -, -, -, hname⟩ := h
  exact hname.isPlain

theorem ParameterEntry.wellFormed {text rest : List Char} {parameter : Parameter}
    (h : ParameterEntry text parameter rest) : parameter.WellFormed := by
  obtain ⟨hword, -, hbraces, hname⟩ := h
  exact ⟨fun c hc => hword.inside c (hbraces.subset hc), hbraces.trimmed, hname.isPlain⟩

/-- What holds of every item holds of all items in a row. -/
theorem Star.forall_mem {α : Type} {item : List Char → α → List Char → Prop} {P : α → Prop}
    (hitem : ∀ text x rest, item text x rest → P x) {text rest : List Char} {xs : List α}
    (h : Star item text xs rest) : ∀ x ∈ xs, P x := by
  induction h with
  | nil rest => exact fun x hx => absurd hx List.not_mem_nil
  | cons hx _ ih => exact List.forall_mem_cons.mpr ⟨hitem _ _ _ hx, ih⟩

theorem Spaced.item {α : Type} {item : List Char → α → List Char → Prop} {text rest : List Char}
    {x : α} (h : Spaced item text x rest) : ∃ mid, item text x mid := by
  obtain ⟨hx, -⟩ := h
  exact ⟨_, hx⟩

/-- **Every declaration of a derivation is well-formed.** -/
theorem Declares.wellFormed {text rest : List Char} {d : Declaration} (h : Declares text d rest) :
    d.WellFormed := by
  cases h with
  | enumeration hheader hgap hvalues =>
    obtain ⟨hname, htype, hunnamed⟩ := hheader.wellFormed
    refine ⟨hname, htype, hunnamed, hvalues.forall_mem fun _ value _ h => ?_⟩
    obtain ⟨_, hvalue⟩ := h.item
    exact hvalue.isPlain
  | function hheader hgap hparameters =>
    refine ⟨hheader.isPlain, hparameters.forall_mem fun _ parameter _ h => ?_⟩
    obtain ⟨_, hparameter⟩ := h.item
    exact hparameter.wellFormed

end Grammar

/-! ## 3. The table of a source -/

theorem Table.mem_enums_ofDeclarations {ds : List Declaration} {e : Enumeration}
    (h : e ∈ (ofDeclarations ds).enums) : .enumeration e ∈ ds := by
  obtain ⟨d, hd, he⟩ := List.mem_filterMap.mp h
  cases d with
  | enumeration e' =>
    cases he
    exact hd
  | function f => cases he

theorem Table.mem_functions_ofDeclarations {ds : List Declaration} {f : Function}
    (h : f ∈ (ofDeclarations ds).functions) : .function f ∈ ds := by
  obtain ⟨d, hd, hf⟩ := List.mem_filterMap.mp h
  cases d with
  | enumeration e => cases hf
  | function f' =>
    cases hf
    exact hd

/-- **The table of every source is well-formed.** -/
theorem wellFormed_of_parse {source : Bytes} {t : Table} (h : parse source = .ok t) :
    t.WellFormed := by
  obtain ⟨text, ds, -, hfile, hinsert⟩ := Parser.file_of_parse h
  obtain ⟨hdistinct, rfl⟩ := (Table.insertAll_eq_ok_iff Table.distinct_empty).mp hinsert
  obtain ⟨-, hds⟩ := hfile
  have hall : ∀ d ∈ ds, d.WellFormed := hds.forall_mem fun _ _ _ h => h.wellFormed
  refine ⟨hdistinct, fun e he => ?_, fun f hf => ?_⟩
  · exact hall _ (Table.mem_enums_ofDeclarations he)
  · exact hall _ (Table.mem_functions_ofDeclarations hf)

end FunctionMap
