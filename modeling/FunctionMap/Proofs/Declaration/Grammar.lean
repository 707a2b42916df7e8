import FunctionMap.Proofs.Declaration.Table
import FunctionMap.Proofs.Source.Lexeme
import FunctionMap.Proofs.Text.Blank
import FunctionMap.Proofs.Text.Numeral

/-!
# The grammar of a source

The declarations of a source, stated on what remains of it like its lexemes. Every rule says what
stands in a row, and none says where a list ends: an entry does not start with `m` or `[`, and a
declaration does.

    file        = gap declaration*
    declaration = enumeration | function
    enumeration = `map` name name gap (value gap)*
    value       = integer name
    function    = `[` integer `,` integer `]` name gap (parameter gap)*
    parameter   = word name

A name is an optional word behind blanks, an integer a word that spells one. The type of a parameter is
its word without the braces at the two ends. No reader is used here;
`Proofs/Declaration/Reader` shows that the readers of the parser read these rules, and
`Proofs/Declaration/Derivation` that a run of the parser is a derivation.
-/

namespace FunctionMap
namespace Grammar

open Numeral (Spells)

/-! ## 1. The rules -/

/-- A name behind blanks; it may be empty where a comment starts or the source ends. -/
inductive Name : List Char → String → List Char → Prop where
  | mk {text mid word rest : List Char} (hblanks : Blanks text mid) (hword : OptWord mid word rest) :
      Name text (String.ofList word) rest

/-- An integer of 32 bits behind blanks. -/
inductive Integer : List Char → Int32 → List Char → Prop where
  | mk {text mid word rest : List Char} {k : Int32} (hblanks : Blanks text mid)
      (hword : Word mid word rest) (hspells : Spells word k.toInt) : Integer text k rest

/-- A word that can be the first of an entry: it opens no declaration. -/
def OpensNothing (word : List Char) : Prop := ∀ c ∈ word.head?, c ≠ 'm' ∧ c ≠ '['

/-- `map name type`. -/
inductive EnumHeader : List Char → String → String → List Char → Prop where
  | mk {text mid rest : List Char} {name elementType : String} (hname : Name text name mid)
      (htype : Name mid elementType rest) :
      EnumHeader ('m' :: 'a' :: 'p' :: text) name elementType rest

/-- `key name`. -/
inductive Value : List Char → EnumValue → List Char → Prop where
  | mk {text word mid rest : List Char} {key : Int64} {name : String} (hword : Word text word mid)
      (hopens : OpensNothing word) (hkey : Spells word key.toInt) (hname : Name mid name rest) :
      Value text ⟨key, name⟩ rest

/-- `[group, type] name`. -/
inductive FunctionHeader : List Char → FunctionKey → String → List Char → Prop where
  | mk {text a b c d rest : List Char} {group typeId : Int32} {name : String}
      (hgroup : Integer text group a) (hcomma : Blanks a (',' :: b)) (htype : Integer b typeId c)
      (hbracket : Blanks c (']' :: d)) (hname : Name d name rest) :
      FunctionHeader ('[' :: text) ⟨group, typeId⟩ name rest

/-- `type name`, braces around the type dropped. -/
inductive ParameterEntry : List Char → Parameter → List Char → Prop where
  | mk {text word mid rest : List Char} {typeName name : String} (hword : Word text word mid)
      (hopens : OpensNothing word)
      (hbraces : Blank.Trims (fun c => c = '\x7b' || c = '\x7d') word typeName.toList)
      (hname : Name mid name rest) : ParameterEntry text ⟨typeName, name⟩ rest

/-- An item and the gap behind it. -/
inductive Spaced {α : Type} (item : List Char → α → List Char → Prop) :
    List Char → α → List Char → Prop where
  | mk {text mid rest : List Char} {x : α} (hx : item text x mid) (hgap : Gap mid rest) :
      Spaced item text x rest

/-- A header and the list it opens. -/
inductive Declares : List Char → Declaration → List Char → Prop where
  | enumeration {text a b rest : List Char} {name elementType : String} {values : List EnumValue}
      (hheader : EnumHeader text name elementType a) (hgap : Gap a b)
      (hvalues : Star (Spaced Value) b values rest) :
      Declares text (.enumeration ⟨name, elementType, values⟩) rest
  | function {text a b rest : List Char} {key : FunctionKey} {name : String}
      {parameters : List Parameter} (hheader : FunctionHeader text key name a) (hgap : Gap a b)
      (hparameters : Star (Spaced ParameterEntry) b parameters rest) :
      Declares text (.function ⟨key, name, parameters⟩) rest

/-- A text that declares `ds`, from its start to its end. -/
inductive File : List Char → List Declaration → Prop where
  | mk {text start : List Char} {ds : List Declaration} (hgap : Gap text start)
      (hdeclares : Star Declares start ds []) : File text ds

/-! ## 2. What remains is an end of the text -/

theorem Name.suffix {text rest : List Char} {name : String} (h : Name text name rest) :
    rest <:+ text := by
  obtain ⟨hblanks, hword⟩ := h
  exact hword.suffix.trans hblanks.suffix

theorem Integer.suffix {text rest : List Char} {k : Int32} (h : Integer text k rest) :
    rest <:+ text := by
  obtain ⟨hblanks, hword, -⟩ := h
  exact hword.suffix.trans hblanks.suffix

theorem EnumHeader.suffix {text rest : List Char} {name elementType : String}
    (h : EnumHeader text name elementType rest) : rest <:+ text := by
  obtain ⟨hname, htype⟩ := h
  exact (htype.suffix.trans hname.suffix).trans ⟨['m', 'a', 'p'], rfl⟩

theorem Value.suffix {text rest : List Char} {v : EnumValue} (h : Value text v rest) :
    rest <:+ text := by
  obtain ⟨hword, -, -, hname⟩ := h
  exact hname.suffix.trans hword.suffix

theorem FunctionHeader.suffix {text rest : List Char} {key : FunctionKey} {name : String}
    (h : FunctionHeader text key name rest) : rest <:+ text := by
  obtain ⟨hgroup, hcomma, htype, hbracket, hname⟩ := h
  have hd := hname.suffix.trans ((List.suffix_cons _ _).trans hbracket.suffix)
  have hb := (hd.trans htype.suffix).trans ((List.suffix_cons _ _).trans hcomma.suffix)
  exact (hb.trans hgroup.suffix).trans (List.suffix_cons _ _)

theorem ParameterEntry.suffix {text rest : List Char} {p : Parameter}
    (h : ParameterEntry text p rest) : rest <:+ text := by
  obtain ⟨hword, -, -, hname⟩ := h
  exact hname.suffix.trans hword.suffix

theorem Spaced.suffix {α : Type} {item : List Char → α → List Char → Prop}
    (hitem : ∀ text x rest, item text x rest → rest <:+ text) {text rest : List Char} {x : α}
    (h : Spaced item text x rest) : rest <:+ text := by
  obtain ⟨hx, hgap⟩ := h
  exact hgap.suffix.trans (hitem _ _ _ hx)

theorem suffix_of_values {text rest : List Char} {values : List EnumValue}
    (h : Star (Spaced Value) text values rest) : rest <:+ text :=
  h.suffix fun _ _ _ => Spaced.suffix fun _ _ _ => Value.suffix

theorem suffix_of_parameters {text rest : List Char} {parameters : List Parameter}
    (h : Star (Spaced ParameterEntry) text parameters rest) : rest <:+ text :=
  h.suffix fun _ _ _ => Spaced.suffix fun _ _ _ => ParameterEntry.suffix

theorem Declares.suffix {text rest : List Char} {d : Declaration} (h : Declares text d rest) :
    rest <:+ text := by
  cases h with
  | enumeration hheader hgap hvalues =>
    exact ((suffix_of_values hvalues).trans hgap.suffix).trans hheader.suffix
  | function hheader hgap hparameters =>
    exact ((suffix_of_parameters hparameters).trans hgap.suffix).trans hheader.suffix

/-! ## 3. Where an entry can start -/

theorem EnumHeader.ne_nil {text rest : List Char} {name elementType : String}
    (h : EnumHeader text name elementType rest) : text ≠ [] := by
  cases h
  exact List.cons_ne_nil _ _

theorem FunctionHeader.ne_nil {text rest : List Char} {key : FunctionKey} {name : String}
    (h : FunctionHeader text key name rest) : text ≠ [] := by
  cases h
  exact List.cons_ne_nil _ _

/-- The next entry of a list can start here: some character stands here that is no white space and
    opens nothing. -/
def EntryAt (text : List Char) : Prop :=
  ∃ c cs, text = c :: cs ∧ Symbol.isWhitespace c = false ∧ c ≠ '#' ∧ c ≠ 'm' ∧ c ≠ '['

theorem EntryAt.noBlank {text : List Char} (h : EntryAt text) : NoBlank text := by
  obtain ⟨c, cs, rfl, hc, -⟩ := h
  exact noBlank_cons hc

theorem EntryAt.ne_nil {text : List Char} (h : EntryAt text) : text ≠ [] := by
  obtain ⟨c, cs, rfl, -⟩ := h
  exact List.cons_ne_nil c cs

theorem Word.entryAt {text word rest : List Char} (h : Word text word rest)
    (hopens : OpensNothing word) : EntryAt text := by
  obtain ⟨c, cs, rfl, rfl, hc⟩ := h.exists_cons
  obtain ⟨hm, hbracket⟩ := hopens c rfl
  refine ⟨c, cs ++ rest, rfl, isWhitespace_of_isDelimiter hc, ?_, hm, hbracket⟩
  rintro rfl
  cases hc

theorem Value.entryAt {text rest : List Char} {value : EnumValue} (h : Value text value rest) :
    EntryAt text := by
  obtain ⟨hword, hopens, -, -⟩ := h
  exact hword.entryAt hopens

theorem ParameterEntry.entryAt {text rest : List Char} {parameter : Parameter}
    (h : ParameterEntry text parameter rest) : EntryAt text := by
  obtain ⟨hword, hopens, -, -⟩ := h
  exact hword.entryAt hopens

/-- Where an entry can start, an optional word is a word and opens nothing. -/
theorem EntryAt.word {text word rest : List Char} (he : EntryAt text)
    (h : OptWord text word rest) : Word text word rest ∧ OpensNothing word := by
  obtain ⟨x, xs, htext, -, hx, hm, hbracket⟩ := he
  cases h with
  | word h =>
    obtain ⟨c, cs, rfl, hcs, -⟩ := h.exists_cons
    cases htext.symm.trans hcs
    refine ⟨h, fun y hy => ?_⟩
    cases hy
    exact ⟨hm, hbracket⟩
  | atComment rest =>
    cases htext
    exact absurd rfl hx
  | atEnd => cases htext

end Grammar
end FunctionMap
