import FunctionMap.Proofs.Declaration.WellFormed

/-!
# Printing a table

Every declaration has a text that declares it: a line for its header and a line for each entry. A
field that is empty is written where nothing follows it on the line, as `#`: an empty comment, in
front of which the name may be missing. Every field has its blank in front, so that a line is read
whatever follows it.

Main statement: exactly the well-formed tables are printed to a source that gives them back, and no
other table has a source at all (`parse_print_iff_wellFormed`).
-/

namespace FunctionMap

/-! ## 1. The text of a table -/

/-- The last field of a line, and the end of the line. -/
def lastField (name : String) : List Char :=
  ' ' :: (if name = "" then ['#'] else name.toList) ++ ['\n']

namespace Enumeration

/-- `map name type`. Without a name there is no type to write either. -/
def headerChars (e : Enumeration) : List Char :=
  if e.name = "" then ['m', 'a', 'p'] ++ lastField ""
  else ['m', 'a', 'p', ' '] ++ e.name.toList ++ lastField e.elementType

end Enumeration

/-- `key name`. -/
def EnumValue.chars (v : EnumValue) : List Char := Numeral.write v.key.toInt ++ lastField v.name

/-- `type name`, with braces around the type. -/
def Parameter.chars (p : Parameter) : List Char :=
  '\x7b' :: p.typeName.toList ++ ['\x7d'] ++ lastField p.name

/-- The header of an enumeration and its values. -/
def Enumeration.chars (e : Enumeration) : List Char :=
  e.headerChars ++ e.values.flatMap EnumValue.chars

/-- The header of a function, `[group, type] name`, and its parameters. -/
def Function.chars (f : Function) : List Char :=
  f.key.chars ++ lastField f.name ++ f.parameters.flatMap Parameter.chars

/-- The text of a table: the enumerations, and then the functions. -/
def Table.chars (t : Table) : List Char :=
  t.enums.flatMap Enumeration.chars ++ t.functions.flatMap Function.chars

/-- A table as a source. -/
def Table.print (t : Table) : Bytes := Utf8.encode t.chars

/-! ## 2. What is written is read -/

namespace Grammar

open Numeral (Spells)

/-- Plain characters are a word in front of a character that ends it. -/
theorem word_append {word rest : List Char} {c : Char} (hne : word ≠ [])
    (hplain : ∀ c ∈ word, Symbol.isDelimiter c = false) (hc : Symbol.isDelimiter c = true) :
    Word (word ++ c :: rest) word (c :: rest) where
  text_eq := rfl
  ne_nil := hne
  inside := hplain
  maximal x hx := by
    cases hx
    exact hc

/-- A name behind a blank and in front of a character that ends it. -/
theorem name_append {name : String} (hname : name ≠ "") (h : IsPlain name) {c : Char}
    (hc : Symbol.isDelimiter c = true) (rest : List Char) :
    Name (' ' :: name.toList ++ c :: rest) name (c :: rest) := by
  have hne : name.toList ≠ [] := fun hnil => hname (String.toList_eq_nil_iff.mp hnil)
  have hword : Word (name.toList ++ c :: rest) name.toList (c :: rest) := word_append hne h hc
  have hread := Name.mk (.more ' ' (by decide) (.none _)) (.word hword)
  rwa [String.ofList_toList] at hread

/-- **The last field of a line is read as its name, whatever follows the line.** -/
theorem name_lastField {name : String} (h : IsPlain name) (rest : List Char) :
    ∃ mid, Name (lastField name ++ rest) name mid ∧ Gap mid rest := by
  unfold lastField
  by_cases hname : name = ""
  · subst hname
    refine ⟨'#' :: '\n' :: rest, ?_, (Gap.none rest).emptyLine⟩
    exact .mk (.more ' ' (by decide) (.none _)) (.atComment _)
  · refine ⟨'\n' :: rest, ?_, .blank '\n' (by decide) (.none rest)⟩
    rw [if_neg hname, List.append_assoc]
    exact name_append hname h (by decide) rest

theorem enumHeader_headerChars {e : Enumeration} (h : e.WellFormed) (rest : List Char) :
    ∃ mid, EnumHeader (e.headerChars ++ rest) e.name e.elementType mid ∧ Gap mid rest := by
  unfold Enumeration.headerChars
  by_cases hname : e.name = ""
  · rw [if_pos hname, hname, h.unnamed hname]
    have hfirst : Name (' ' :: '#' :: '\n' :: rest) "" ('#' :: '\n' :: rest) :=
      .mk (.more ' ' (by decide) (.none _)) (.atComment _)
    have hsecond : Name ('#' :: '\n' :: rest) "" ('#' :: '\n' :: rest) :=
      .mk (.none _) (.atComment _)
    exact ⟨'#' :: '\n' :: rest, .mk hfirst hsecond, (Gap.none rest).emptyLine⟩
  · obtain ⟨mid, htype, hgap⟩ := name_lastField h.elementType rest
    have hfirst := name_append hname h.name (c := ' ') (by decide)
    rw [if_neg hname, List.append_assoc, List.append_assoc]
    exact ⟨mid, .mk (hfirst _) htype, hgap⟩

/-! ## 3. Numbers -/

theorem isDelimiter_of_isDigit {c : Char} (h : c.isDigit = true) : Symbol.isDelimiter c = false := by
  cases hd : Symbol.isDelimiter c with
  | false => rfl
  | true =>
    simp only [Symbol.isDelimiter, Symbol.isWhitespace, Bool.or_eq_true, decide_eq_true_eq] at hd
    rcases hd with (((((rfl | rfl) | rfl) | rfl) | rfl) | rfl) | rfl <;> cases h

theorem plain_of_spells {word : List Char} {v : Int} (h : Spells word v) :
    ∀ c ∈ word, Symbol.isDelimiter c = false := by
  intro c hc
  rcases h.isDigit_or_sign.2 c hc with rfl | rfl | hdigit
  · rfl
  · rfl
  · exact isDelimiter_of_isDigit hdigit

theorem opensNothing_of_spells {word : List Char} {v : Int} (h : Spells word v) :
    OpensNothing word := by
  intro c hc
  constructor <;> rintro rfl <;>
    rcases h.isDigit_or_sign.2 _ (List.mem_of_mem_head? hc) with h | h | h <;> cases h

theorem word_write (v : Int) {c : Char} (hc : Symbol.isDelimiter c = true) (rest : List Char) :
    Word (Numeral.write v ++ c :: rest) (Numeral.write v) (c :: rest) :=
  word_append (Numeral.spells_write v).isDigit_or_sign.1
    (plain_of_spells (Numeral.spells_write v)) hc

theorem integer_write (k : Int32) {c : Char} (hc : Symbol.isDelimiter c = true) {text : List Char}
    (rest : List Char) (hblanks : Blanks text (Numeral.write k.toInt ++ c :: rest)) :
    Integer text k (c :: rest) :=
  .mk hblanks (word_write k.toInt hc rest) (Numeral.spells_write k.toInt)

/-! ## 4. Lines -/

theorem functionHeader_chars {f : Function} (h : f.WellFormed) (rest : List Char) :
    ∃ mid, FunctionHeader (f.key.chars ++ lastField f.name ++ rest) f.key f.name mid ∧
      Gap mid rest := by
  obtain ⟨mid, hname, hgap⟩ := name_lastField h.name rest
  refine ⟨mid, ?_, hgap⟩
  have hgroup := integer_write f.key.group (c := ',') (by decide) (' ' :: Numeral.write
    f.key.typeId.toInt ++ ']' :: (lastField f.name ++ rest)) (.none _)
  have htype := integer_write f.key.typeId (c := ']') (by decide) (lastField f.name ++ rest)
    (.more ' ' (by decide) (.none _))
  have hheader := FunctionHeader.mk hgroup (.none _) htype (.none _) hname
  simpa [FunctionKey.chars] using hheader

theorem value_chars {v : EnumValue} (h : IsPlain v.name) (rest : List Char) :
    Spaced Value (v.chars ++ rest) v rest := by
  obtain ⟨mid, hname, hgap⟩ := name_lastField h rest
  have hkey := Numeral.spells_write v.key.toInt
  have hword : Word (v.chars ++ rest) (Numeral.write v.key.toInt) (lastField v.name ++ rest) := by
    rw [EnumValue.chars, List.append_assoc]
    exact word_write v.key.toInt (by decide) _
  exact .mk (.mk hword (opensNothing_of_spells hkey) hkey hname) hgap

theorem parameter_chars {p : Parameter} (h : p.WellFormed) (rest : List Char) :
    Spaced ParameterEntry (p.chars ++ rest) p rest := by
  obtain ⟨mid, hname, hgap⟩ := name_lastField h.name rest
  have hplain : ∀ c ∈ '\x7b' :: p.typeName.toList ++ ['\x7d'], Symbol.isDelimiter c = false := by
    intro c hc
    rcases List.mem_append.mp hc with hc | hc
    · rcases List.mem_cons.mp hc with rfl | hc
      · decide
      · exact h.typeName c hc
    · rw [List.mem_singleton.mp hc]
      decide
  have hword : Word (p.chars ++ rest) ('\x7b' :: p.typeName.toList ++ ['\x7d'])
      (lastField p.name ++ rest) := by
    rw [Parameter.chars, List.append_assoc]
    exact word_append (List.cons_ne_nil _ _) hplain (by decide)
  have hopens : OpensNothing ('\x7b' :: p.typeName.toList ++ ['\x7d']) := by
    intro c hc
    cases hc
    decide
  have hbraces : Blank.Trims Parser.isBrace ('\x7b' :: p.typeName.toList ++ ['\x7d'])
      p.typeName.toList := Blank.trimBy_eq_iff.mp (Blank.trimBy_surrounded h.unbraced rfl rfl)
  exact .mk (.mk hword hopens hbraces hname) hgap

/-! ## 5. Tables -/

/-- Texts that are read as items one behind the other are read as all the items. -/
theorem star_flatMap {α β : Type} {item : List Char → β → List Char → Prop} {chars : α → List Char}
    {f : α → β} {as : List α} (h : ∀ a ∈ as, ∀ rest, item (chars a ++ rest) (f a) rest)
    (rest : List Char) : Star item (as.flatMap chars ++ rest) (as.map f) rest := by
  induction as with
  | nil => exact .nil rest
  | cons a as ih =>
    obtain ⟨ha, has⟩ := List.forall_mem_cons.mp h
    rw [List.flatMap_cons, List.append_assoc, List.map_cons]
    exact .cons (ha _) (ih has)

theorem declares_enum_chars {e : Enumeration} (h : e.WellFormed) (rest : List Char) :
    Declares (e.chars ++ rest) (.enumeration e) rest := by
  have hvalues := star_flatMap (f := id) (fun v hv rest => value_chars (h.values v hv) rest) rest
  rw [List.map_id] at hvalues
  obtain ⟨mid, hheader, hgap⟩ := enumHeader_headerChars h (e.values.flatMap EnumValue.chars ++ rest)
  rw [← List.append_assoc] at hheader
  exact .enumeration hheader hgap hvalues

theorem declares_function_chars {f : Function} (h : f.WellFormed) (rest : List Char) :
    Declares (f.chars ++ rest) (.function f) rest := by
  have hparameters :=
    star_flatMap (f := id) (fun p hp rest => parameter_chars (h.parameters p hp) rest) rest
  rw [List.map_id] at hparameters
  obtain ⟨mid, hheader, hgap⟩ :=
    functionHeader_chars h (f.parameters.flatMap Parameter.chars ++ rest)
  rw [← List.append_assoc] at hheader
  exact .function hheader hgap hparameters

/-- The declarations of a table, in the order in which they are printed. -/
def declarationsOf (t : Table) : List Declaration :=
  t.enums.map .enumeration ++ t.functions.map .function

theorem ofDeclarations_declarationsOf (t : Table) :
    Table.ofDeclarations (declarationsOf t) = t := by
  rw [declarationsOf, Table.ofDeclarations_append, Table.ofDeclarations_enums,
    Table.ofDeclarations_functions, Table.append_def, List.append_nil, List.nil_append]

/-- **A well-formed table is what its text declares.** -/
theorem file_chars {t : Table} (h : t.WellFormed) : File t.chars (declarationsOf t) := by
  refine .mk (.none _) ?_
  have henums := star_flatMap (fun e he rest => declares_enum_chars (h.enums e he) rest)
    (t.functions.flatMap Function.chars)
  have hfunctions := star_flatMap
    (fun f hf rest => declares_function_chars (h.functions f hf) rest) []
  rw [List.append_nil] at hfunctions
  exact henums.append hfunctions

end Grammar

/-! ## 6. Printing and parsing -/

theorem parse_print {t : Table} (h : t.WellFormed) : parse t.print = .ok t := by
  rw [Table.print, Parser.parse_of_file (Grammar.file_chars h),
    Table.insertAll_eq_ok_iff Table.distinct_empty, Table.empty_append,
    Grammar.ofDeclarations_declarationsOf]
  exact ⟨h.distinct, rfl⟩

example : Table.chars ⟨[⟨"K", "", [⟨7, ""⟩]⟩, ⟨"", "", []⟩], [⟨⟨1, 2⟩, "", [⟨"T", ""⟩]⟩]⟩
    = "map K #\n7 #\nmap #\n[1, 2] #\n\x7bT\x7d #\n".toList := by decide

/-- **The tables of sources are the well-formed ones, and each of them is the table of the source
    that it is printed to.** -/
theorem parse_print_iff_wellFormed (t : Table) :
    ((∃ source, parse source = .ok t) ↔ t.WellFormed) ∧ (parse t.print = .ok t ↔ t.WellFormed) := by
  refine ⟨⟨?_, fun h => ⟨t.print, parse_print h⟩⟩, wellFormed_of_parse, parse_print⟩
  intro h
  obtain ⟨source, h⟩ := h
  exact wellFormed_of_parse h

end FunctionMap
