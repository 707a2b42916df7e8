import FunctionMap.Proofs.Declaration.Key
import FunctionMap.Proofs.Declaration.Loaded
import FunctionMap.Proofs.Output.Formatter
import FunctionMap.Proofs.Yaml.Tag

/-!
# What the two documents show of a table

The documents show all names, keys and values in their order. What they do not show:

* the element types of the enumerations, which are not written;
* what stands behind the first NUL of a function's name or of a parameter's type, which are tags.

`Table.visible` is a table without these, and for tables whose function names and parameter types can
stand as tags the documents show exactly that (`documents_eq_iff`).

An entry ends where a line starts that is no part of it, and this line tells what it is: a value is
indented, a parameter has a dash, and an entry of a mapping starts with its key, `StartsKey`.

Main statement: `yaml_eq_iff_visible`, for the tables that sources are loaded as.
-/

namespace FunctionMap

/-! ## 1. What is visible -/

/-- A name as far as its tag shows it. -/
def Yaml.Tag.visible (name : String) : String := String.ofList (shown name.toList)

/-- An enumeration without its element type. -/
def Enumeration.untyped (e : Enumeration) : Enumeration := { e with elementType := "" }

/-- A parameter, its type as far as a tag shows it. -/
def Parameter.visible (p : Parameter) : Parameter :=
  { p with typeName := Yaml.Tag.visible p.typeName }

/-- A function, its name and the types of its parameters as far as tags show them. -/
def Function.visible (f : Function) : Function :=
  { f with name := Yaml.Tag.visible f.name, parameters := f.parameters.map Parameter.visible }

/-- Something holds of the names that are to be tags of a function. -/
structure Function.TagNames (P : List Char → Prop) (f : Function) : Prop where
  name : P f.name.toList
  types : ∀ p ∈ f.parameters, P p.typeName.toList

instance (P : List Char → Prop) [DecidablePred P] (f : Function) : Decidable (f.TagNames P) :=
  decidable_of_iff (P f.name.toList ∧ ∀ p ∈ f.parameters, P p.typeName.toList)
    ⟨fun h => ⟨h.1, h.2⟩, fun h => ⟨h.name, h.types⟩⟩

namespace Table

/-- A table without element types. -/
def untyped (t : Table) : Table := { t with enums := t.enums.map Enumeration.untyped }

/-- What is visible of a table. -/
def visible (t : Table) : Table :=
  ⟨t.enums.map Enumeration.untyped, t.functions.map Function.visible⟩

/-- Something holds of all names that are to be tags. -/
def TagNames (P : List Char → Prop) (t : Table) : Prop := ∀ f ∈ t.functions, f.TagNames P

instance (P : List Char → Prop) [DecidablePred P] (t : Table) : Decidable (t.TagNames P) :=
  inferInstanceAs (Decidable (∀ f ∈ t.functions, f.TagNames P))

/-- Only what stands behind a NUL is hidden in a tag. -/
theorem visible_eq_untyped {t : Table} (h : t.TagNames ('\x00' ∉ ·)) : t.visible = t.untyped := by
  have hname : ∀ name : String, '\x00' ∉ name.toList → Yaml.Tag.visible name = name := by
    intro name hnul
    rw [Yaml.Tag.visible, Yaml.Tag.shown_eq_self hnul, String.ofList_toList]
  have hfunction : ∀ f ∈ t.functions, f.visible = f := by
    intro f hf
    obtain ⟨hfname, htypes⟩ := h f hf
    have hparameters : f.parameters.map Parameter.visible = f.parameters.map id := by
      refine List.map_congr_left fun p hp => ?_
      rw [Parameter.visible, hname _ (htypes p hp)]
      rfl
    rw [Function.visible, hname _ hfname, hparameters, List.map_id]
  have hfunctions : t.functions.map Function.visible = t.functions.map id :=
    List.map_congr_left hfunction
  rw [visible, hfunctions, List.map_id]
  rfl

end Table

namespace Yaml

open Scalar (isGap Compact)

/-! ## 2. Keys of mappings -/

/-- A name without delimiters has neither a space nor a line feed. -/
theorem compact_of_isPlain {name : String} (h : IsPlain name) : Compact name.toList where
  noLineFeed hmem := absurd (h _ hmem) (by decide)
  noSpace _ hmem := absurd (h _ hmem) (by decide)

/-- The text of a function's key is quoted, for its bracket. -/
theorem style_ne_plain_chars (k : FunctionKey) : Scalar.style k.chars ≠ .plain := by
  intro hstyle
  obtain ⟨c, cs, hchars, hc⟩ := Scalar.exists_cons_of_plain hstyle
  cases hchars
  exact hc (by decide)

theorem compact_chars (k : FunctionKey) : Compact k.chars where
  noLineFeed hmem := by
    have hfigure : ∀ v : Int, '\n' ∉ Numeral.write v := fun v hv =>
      absurd (Numeral.isFigure_of_mem_write hv) (by decide)
    simp [FunctionKey.chars, hfigure] at hmem
  noSpace hstyle := absurd hstyle (style_ne_plain_chars k)

/-- The start of an entry whose key has no mark: a quote, or characters up to a colon in front of a
    gap. -/
def StartsKey (text : List Char) : Prop :=
  text.head? = some '\'' ∨ text.head? = some '"' ∨
    (text.takeWhile fun c => !isGap c).getLast? = some ':'

theorem startsKey_write (indent : Nat) {s r : List Char} (hs : Compact s)
    (hr : ∀ c ∈ r.head?, isGap c = true) : StartsKey (Scalar.write indent s ++ ':' :: r) := by
  rw [Scalar.write]
  cases hstyle : Scalar.style s with
  | plain =>
    have hrun : ∀ c ∈ s ++ [':'], (!isGap c) = true := hs.run hstyle (by simp [isGap])
    have hmaximal : ∀ c ∈ r.head?, (!isGap c) = false := fun c hc => by rw [hr c hc]; rfl
    refine Or.inr (Or.inr ?_)
    dsimp only
    rw [List.append_cons, takeWhile_of_maximal hrun hmaximal, List.getLast?_concat]
  | single => exact Or.inl rfl
  | double => exact Or.inr (Or.inl rfl)
  | literal => exact absurd hstyle hs.style_ne_literal

theorem mapping_cons {α : Type} (write : α → List Char) (x : α) (xs : List α) :
    mapping ((x :: xs).map write) = write x ++ xs.flatMap write := rfl

/-- **The entries of a mapping are legible up to a text that no entry starts**, if none starts with the
    braces of a mapping without entries. -/
theorem legible_mapping {α β : Type} {write : α → List Char} {view : α → β} {P : α → Prop}
    {F E : List Char → Prop} (h : Legible write view P F) (hnext : ∀ a r, P a → F (write a ++ r))
    (hend : ∀ r, E r → F r) (hne : ∀ a r s, P a → E s → write a ++ r ≠ s)
    (hbraces : ∀ a r s, P a → write a ++ r ≠ mapping [] ++ s) :
    Legible (fun xs => mapping (xs.map write)) (List.map view) (fun xs => ∀ x ∈ xs, P x) E := by
  refine .of_cons (fun x xs r s hx => ?_) ?_
  · rw [mapping_cons, List.append_assoc]
    exact hbraces x _ s (hx x List.mem_cons_self)
  · exact (h.flatMap hnext hend hne).comp (fun p : α × List α => p.1 :: p.2) fun _ hp => hp

/-! ## 3. Enumerations -/

theorem legible_valueEntry : Legible valueEntry id (fun v => IsPlain v.name) Any := by
  have hname := ((Scalar.legible_writeLine 4).comp (fun v : EnumValue => v.name.toList)
    (Q := fun v => IsPlain v.name) fun v hv => compact_of_isPlain hv).prepend [':', ' ']
  have hkey := (Numeral.legible_write.comp_any fun v : EnumValue => v.key.toInt).mono
    (Q := fun v => IsPlain v.name) (fun v _ => any v) fun _ hr => hr
  have hfollow : ∀ (v : EnumValue) (r : List Char), IsPlain v.name → Any r →
      ∀ c ∈ ((':' :: ' ' :: Scalar.writeLine 4 v.name.toList) ++ r).head?,
        Numeral.isFigure c = false := by
    intro v r _ _ c hc
    cases hc
    rfl
  refine (hkey.append hname hfollow).of_view fun v w hvw => ?_
  obtain ⟨hkey, hname⟩ := Prod.mk.inj hvw
  cases v
  cases w
  cases Int64.toInt_inj.mp hkey
  cases String.toList_inj.mp hname
  rfl

/-- A value starts with a figure, and is not taken for the braces of an enumeration without values. -/
theorem valueEntry_ne_brace (v : EnumValue) (r s : List Char) : valueEntry v ++ r ≠ '\x7b' :: s := by
  intro h
  unfold valueEntry at h
  cases hkey : Numeral.write v.key.toInt with
  | nil =>
    rw [hkey] at h
    cases h
  | cons c cs =>
    rw [hkey] at h
    cases h
    have hfigure : Numeral.isFigure '\x7b' = true :=
      Numeral.isFigure_of_mem_write (hkey ▸ List.mem_cons_self)
    exact absurd hfigure (by decide)

/-- **The values of an enumeration are legible in front of a line that is not indented.** -/
theorem legible_valueEntries (simpleKey : Bool) :
    Legible (valueEntries simpleKey) id (fun vs => ∀ v ∈ vs, IsPlain v.name)
      fun r => ∀ c ∈ r.head?, c ≠ ' ' := by
  have hrow := ((legible_valueEntry.prepend [' ', ' ']).flatMap
    (E := fun r => ∀ c ∈ r.head?, c ≠ ' ') (fun _ _ _ => any _) (fun _ _ => any _)
    (by
      rintro v r s - hs rfl
      exact hs ' ' rfl rfl)).of_map_id
  refine .of_cons (fun v vs r s _ h => ?_) ?_
  · -- braces follow the colon in its line, and a first value in that line has a figure there
    unfold valueEntries at h
    cases simpleKey with
    | true => cases h
    | false =>
      simp only [Bool.false_eq_true, if_false, List.cons_append, List.append_assoc,
        List.cons.injEq, true_and] at h
      exact valueEntry_ne_brace v _ _ h
  · have hfirst := legible_valueEntry.comp (fun p : EnumValue × List EnumValue => p.1)
      (Q := fun p => ∀ v ∈ p.1 :: p.2, IsPlain v.name) fun p hp => hp p.1 List.mem_cons_self
    have hrest := hrow.comp (fun p : EnumValue × List EnumValue => p.2)
      (Q := fun p => ∀ v ∈ p.1 :: p.2, IsPlain v.name)
      fun p hp v hv => hp v (List.mem_cons_of_mem p.1 hv)
    refine (((hfirst.append hrest fun _ _ _ _ => any _).prepend
      (if simpleKey then ['\n', ' ', ' '] else [' '])).of_view ?_).congr ?_
    · intro p q hpq
      obtain ⟨hfirst, hrest⟩ := Prod.mk.inj hpq
      show p.1 :: p.2 = q.1 :: q.2
      rw [show p.1 = q.1 from hfirst, show p.2 = q.2 from hrest]
    · intro p _
      simp [valueEntries]

theorem isGap_valueEntries (simpleKey : Bool) (vs : List EnumValue) (r : List Char) :
    ∀ c ∈ (valueEntries simpleKey vs ++ r).head?, isGap c = true := by
  intro c hc
  cases vs <;> cases simpleKey <;> cases hc <;> rfl

/-- An enumeration without its values, to the colon behind its key. -/
def enumKey (name : List Char) : List Char :=
  (if Scalar.isSimpleKey name then Scalar.write 2 name
    else '?' :: ' ' :: Scalar.writeLine 2 name) ++ [':']

theorem enumEntry_eq (e : Enumeration) :
    enumEntry e = enumKey e.name.toList
      ++ valueEntries (Scalar.isSimpleKey e.name.toList) e.values := by
  rw [enumEntry, enumKey, List.append_assoc, List.singleton_append]

/-- A key that has a mark does not start as one without. -/
theorem not_startsKey_marked (text : List Char) : ¬ StartsKey ('?' :: ' ' :: text) := by
  simp [StartsKey, isGap]

/-- **The key of an enumeration is legible in front of a gap.** -/
theorem legible_enumKey : Legible enumKey id Compact fun r => ∀ c ∈ r.head?, isGap c = true := by
  have hsimple := Scalar.legible_write 2 [':'] (by simp [isGap]) (by simp)
  have hmarked := ((Scalar.legible_writeLine 2).followed [':'] (G := Any)
    fun _ _ => any _).prepend ['?', ' ']
  intro a b ha hb r s hr hs h
  unfold enumKey at h
  -- a name has the mark or not, and where only one of the two has it the texts start differently
  split at h <;> split at h
  · exact hsimple ha hb hr hs h
  · refine absurd (startsKey_write 2 ha hr) ?_
    rw [List.append_cons, h]
    exact not_startsKey_marked _
  · refine absurd (startsKey_write 2 hb hs) ?_
    rw [List.append_cons, ← h]
    exact not_startsKey_marked _
  · exact hmarked ha hb (any _) (any _) (by simpa using h)

/-- **An enumeration shows everything but its element type**, in front of a line that is not
    indented. -/
theorem legible_enumEntry :
    Legible enumEntry Enumeration.untyped Enumeration.WellFormed fun r => ∀ c ∈ r.head?, c ≠ ' ' := by
  intro e e' he he' r r' hr hr' h
  rw [enumEntry_eq, enumEntry_eq, List.append_assoc, List.append_assoc] at h
  obtain ⟨hname, h⟩ := legible_enumKey (compact_of_isPlain he.name) (compact_of_isPlain he'.name)
    (isGap_valueEntries _ _ _) (isGap_valueEntries _ _ _) h
  have hname : e.name = e'.name := String.toList_inj.mp hname
  rw [hname] at h
  obtain ⟨hvalues, hrest⟩ := legible_valueEntries _ he.values he'.values hr hr' h
  have hvalues : e.values = e'.values := hvalues
  rw [Enumeration.untyped, Enumeration.untyped, hname, hvalues]
  exact ⟨rfl, hrest⟩

/-- The start of an entry, its key with a mark or without. -/
def StartsEntry (text : List Char) : Prop :=
  StartsKey text ∨ ∃ behind, text = '?' :: ' ' :: behind

theorem startsEntry_enumEntry {e : Enumeration} (he : e.WellFormed) (r : List Char) :
    StartsEntry (enumEntry e ++ r) := by
  rw [enumEntry_eq, enumKey]
  split
  · refine Or.inl ?_
    rw [List.append_assoc, List.append_assoc, List.singleton_append]
    exact startsKey_write 2 (compact_of_isPlain he.name) (isGap_valueEntries _ _ _)
  · exact Or.inr ⟨_, rfl⟩

/-- No entry starts as an indented line, as the separator or as a mapping without entries. -/
theorem not_startsEntry (text : List Char) :
    ¬ StartsEntry (' ' :: text) ∧ ¬ StartsEntry (separator ++ text) ∧
      ¬ StartsEntry (mapping [] ++ text) := by
  simp [StartsEntry, StartsKey, separator, mapping, isGap]

/-- **The document of the enumerations is legible in front of the separator.** -/
theorem legible_enumDocument :
    Legible enumDocument (fun t => t.enums.map Enumeration.untyped) Table.WellFormed
      fun r => ∃ text, r = separator ++ text := by
  have hmapping := legible_mapping (E := fun r => ∃ text, r = separator ++ text) legible_enumEntry
    ?_ ?_ ?_ ?_
  · exact hmapping.comp Table.enums fun t ht => ht.enums
  · -- an entry may stand behind an entry,
    intro e r he c hc heq
    cases hr : enumEntry e ++ r with
    | nil =>
      rw [hr] at hc
      cases hc
    | cons d ds =>
      rw [hr] at hc
      cases hc
      refine (not_startsEntry ds).1 ?_
      rw [← heq, ← hr]
      exact startsEntry_enumEntry he r
  · -- the separator may stand there,
    rintro r ⟨text, rfl⟩ c hc
    cases hc
    decide
  · -- and neither the separator nor the braces start an entry
    rintro e r s he ⟨text, rfl⟩ h
    exact (not_startsEntry text).2.1 (h ▸ startsEntry_enumEntry he r)
  · intro e r s he h
    exact (not_startsEntry s).2.2 (h ▸ startsEntry_enumEntry he r)

/-! ## 4. Functions -/

/-- A parameter with its type as a tag. -/
def taggedParameter (p : Parameter) : List Char :=
  '-' :: ' ' :: Tag.write p.typeName.toList ++ ' ' :: Scalar.writeLine 2 p.name.toList

/-- The parameters of a function, behind its tag. -/
def taggedParameters : List Parameter → List Char
  | [] => [' ', '[', ']', '\n']
  | ps => '\n' :: ps.flatMap taggedParameter

/-- A function with its name as a tag, and the types of its parameters. -/
def taggedFunction (f : Function) : List Char :=
  Scalar.write 2 f.key.chars ++ ':' :: ' ' :: Tag.write f.name.toList
    ++ taggedParameters f.parameters

theorem functionEntry_of_tagNames {f : Function} (h : f.TagNames Tag.Allowed) :
    functionEntry f = taggedFunction f := by
  have hparameters : f.parameters.flatMap parameterEntry = f.parameters.flatMap taggedParameter := by
    refine congrArg List.flatten (List.map_congr_left fun p hp => ?_)
    rw [parameterEntry, tagged, if_pos (h.types p hp), taggedParameter]
    simp
  rw [functionEntry, functionNode, taggedFunction, if_pos h.name]
  cases hps : f.parameters with
  | nil => simp [taggedParameters]
  | cons p ps =>
    rw [hps] at hparameters
    simp [taggedParameters, hparameters]

/-- Only what is visible of a function is written. -/
theorem taggedFunction_visible (f : Function) : taggedFunction f.visible = taggedFunction f := by
  have htag : ∀ name : String, Tag.write (Tag.visible name).toList = Tag.write name.toList := by
    intro name
    rw [Tag.visible, String.toList_ofList, Tag.write_shown]
  have hparameter : ∀ p : Parameter, taggedParameter p.visible = taggedParameter p := by
    intro p
    rw [taggedParameter, Parameter.visible, htag, taggedParameter]
  have hparameters : taggedParameters (f.parameters.map Parameter.visible)
      = taggedParameters f.parameters := by
    cases f.parameters with
    | nil => rfl
    | cons p ps => simp [taggedParameters, List.flatMap_map, hparameter]
  rw [taggedFunction, Function.visible, htag, hparameters, taggedFunction]

theorem legible_taggedParameter :
    Legible taggedParameter Parameter.visible (fun p => IsPlain p.name) Any := by
  have htype := ((Tag.legible_write.comp_any fun p : Parameter => p.typeName.toList).mono
    (Q := fun p => IsPlain p.name) (fun p _ => any p) fun _ hr => hr).prepend ['-', ' ']
  have hname := ((Scalar.legible_writeLine 2).comp (fun p : Parameter => p.name.toList)
    (Q := fun p => IsPlain p.name) fun p hp => compact_of_isPlain hp).prepend [' ']
  have hfollow : ∀ (p : Parameter) (r : List Char), IsPlain p.name → Any r →
      ∀ c ∈ (([' '] ++ Scalar.writeLine 2 p.name.toList) ++ r).head?, isGap c = true := by
    intro p r _ _ c hc
    cases hc
    rfl
  refine (htype.append hname hfollow).of_view fun p q hpq => ?_
  obtain ⟨htype, hname⟩ := Prod.mk.inj hpq
  rw [Parameter.visible, Parameter.visible, Tag.visible, Tag.visible, htype,
    String.toList_inj.mp hname]

theorem legible_taggedParameters :
    Legible taggedParameters (List.map Parameter.visible) (fun ps => ∀ p ∈ ps, IsPlain p.name)
      fun r => ∀ c ∈ r.head?, c ≠ '-' := by
  have hrow := legible_taggedParameter.flatMap (E := fun r => ∀ c ∈ r.head?, c ≠ '-')
    (fun _ _ _ => any _) (fun _ _ => any _)
    (by
      rintro p r s - hs rfl
      exact hs '-' rfl rfl)
  refine .of_cons (fun p ps r s _ h => by cases h) ?_
  have hparameters := (hrow.prepend ['\n']).comp (fun p : Parameter × List Parameter => p.1 :: p.2)
    (Q := fun p => ∀ x ∈ p.1 :: p.2, IsPlain x.name) fun _ hp => hp
  exact hparameters.congr fun p _ => rfl

theorem isGap_taggedParameters (ps : List Parameter) (r : List Char) :
    ∀ c ∈ (taggedParameters ps ++ r).head?, isGap c = true := by
  intro c hc
  cases ps <;> cases hc <;> rfl

/-- **A function shows all that is visible of it**, in front of a line that is no parameter. -/
theorem legible_taggedFunction :
    Legible taggedFunction Function.visible Function.WellFormed fun r => ∀ c ∈ r.head?, c ≠ '-' := by
  have hkey := (Scalar.legible_write 2 [':'] (by simp [isGap]) (by simp)).comp
    (fun f : Function => f.key.chars) (Q := Function.WellFormed) fun f _ => compact_chars f.key
  have hname := ((Tag.legible_write.comp_any fun f : Function => f.name.toList).mono
    (Q := Function.WellFormed) (fun f _ => any f) fun _ hr => hr).prepend [' ']
  have hparameters := legible_taggedParameters.comp Function.parameters
    (Q := Function.WellFormed) fun f hf p hp => (hf.parameters p hp).name
  have hbody := hname.append hparameters fun f r _ _ => isGap_taggedParameters f.parameters r
  refine ((hkey.append hbody fun f r _ _ c hc => by cases hc; rfl).of_view ?_).congr ?_
  · intro f g hfg
    obtain ⟨hkey, hfg⟩ := Prod.mk.inj hfg
    obtain ⟨hname, hparameters⟩ := Prod.mk.inj hfg
    have hkey : f.key = g.key := FunctionKey.legible_chars.view_eq (any _) (any _) (any _) hkey
    rw [Function.visible, Function.visible, Tag.visible, Tag.visible, hkey, hname, hparameters]
  · intro f _
    simp [taggedFunction]

/-- An entry of a function starts with a quote. -/
theorem quoted_taggedFunction (f : Function) (r : List Char) :
    (taggedFunction f ++ r).head? = some '\'' ∨ (taggedFunction f ++ r).head? = some '"' := by
  rw [taggedFunction, Scalar.write]
  cases hstyle : Scalar.style f.key.chars with
  | plain => exact absurd hstyle (style_ne_plain_chars f.key)
  | single => exact Or.inl rfl
  | double => exact Or.inr rfl
  | literal => exact absurd hstyle (compact_chars f.key).style_ne_literal

/-- The document of functions whose names and types are tags. -/
def taggedDocument (t : Table) : List Char := mapping (t.functions.map taggedFunction)

/-- **The document of the functions shows all that is visible of them.** -/
theorem legible_taggedDocument :
    Legible taggedDocument (fun t => t.functions.map Function.visible) Table.WellFormed (· = []) := by
  have hmapping := legible_mapping (E := (· = [])) legible_taggedFunction ?_ ?_ ?_ ?_
  · exact hmapping.comp Table.functions fun t ht => ht.functions
  · intro f r _ c hc
    rcases quoted_taggedFunction f r with h | h <;> rw [h] at hc <;> cases hc <;> decide
  · rintro r rfl c hc
    cases hc
  · rintro f r s _ rfl h
    rcases quoted_taggedFunction f r with hquote | hquote <;> rw [h] at hquote <;> cases hquote
  · intro f r s _ h
    rcases quoted_taggedFunction f r with hquote | hquote <;> rw [h] at hquote <;> cases hquote

/-! ## 5. Both -/

/-- Both documents of a table whose names can stand as tags. -/
def taggedDocuments (t : Table) : List Char := enumDocument t ++ separator ++ taggedDocument t

theorem documents_of_tagNames {t : Table} (h : t.TagNames Tag.Allowed) :
    documents t = taggedDocuments t := by
  have hfunctions : functionDocument t = taggedDocument t :=
    congrArg mapping (List.map_congr_left fun f hf => functionEntry_of_tagNames (h f hf))
  rw [documents, hfunctions, taggedDocuments]

theorem taggedDocuments_visible (t : Table) : taggedDocuments t.visible = taggedDocuments t := by
  have henums : enumDocument t.visible = enumDocument t := by
    rw [enumDocument, Table.visible, List.map_map]
    rfl
  have hfunctions : taggedDocument t.visible = taggedDocument t := by
    rw [taggedDocument, Table.visible, List.map_map]
    exact congrArg mapping (List.map_congr_left fun f _ => taggedFunction_visible f)
  rw [taggedDocuments, henums, hfunctions, taggedDocuments]

theorem legible_taggedDocuments :
    Legible taggedDocuments Table.visible Table.WellFormed (· = []) := by
  have henums := legible_enumDocument.followed separator (G := Any) fun r _ => ⟨r, rfl⟩
  refine (henums.append legible_taggedDocument fun _ _ _ _ => any _).of_view fun t u htu => ?_
  obtain ⟨henums, hfunctions⟩ := Prod.mk.inj htu
  rw [Table.visible, Table.visible, henums, hfunctions]

/-- **Two tables have the same documents exactly if the same is visible of them.** -/
theorem documents_eq_iff {t u : Table} (ht : t.WellFormed) (hu : u.WellFormed)
    (htags : t.TagNames Tag.Allowed) (hutags : u.TagNames Tag.Allowed) :
    documents t = documents u ↔ t.visible = u.visible := by
  rw [documents_of_tagNames htags, documents_of_tagNames hutags]
  constructor
  · exact legible_taggedDocuments.view_eq rfl ht hu
  · intro h
    rw [← taggedDocuments_visible t, h, taggedDocuments_visible]

end Yaml

/-- **The YAML format shows everything but element types, up to a NUL in a tag.** Of tables that
    sources are loaded as, whose function names and parameter types can stand as tags, it writes each
    one, and two of them alike exactly if the same is visible of them. Where no such name holds a NUL,
    that is everything but the element types. -/
theorem yaml_eq_iff_visible {source source' : Bytes} {t u : Table} (ht : load source = .ok t)
    (hu : load source' = .ok u) (htags : t.TagNames Yaml.Tag.Allowed)
    (hutags : u.TagNames Yaml.Tag.Allowed) :
    (∃ bytes, Registry.builtin.format t "yaml" = .ok bytes) ∧
      (Registry.builtin.format t "yaml" = Registry.builtin.format u "yaml" ↔
        t.visible = u.visible) ∧
      (t.TagNames ('\x00' ∉ ·) → u.TagNames ('\x00' ∉ ·) →
        (Registry.builtin.format t "yaml" = Registry.builtin.format u "yaml" ↔
          t.untyped = u.untyped)) := by
  have hiff : Registry.builtin.format t "yaml" = Registry.builtin.format u "yaml" ↔
      t.visible = u.visible := by
    rw [Registry.format_yaml, Registry.format_yaml,
      ← Yaml.documents_eq_iff (wellFormed_of_load ht) (wellFormed_of_load hu) htags hutags]
    exact ⟨fun h => Utf8.encode_injective (Except.ok.inj h), fun h => by rw [h]⟩
  refine ⟨⟨_, Registry.format_yaml t⟩, hiff, fun htnul hunul => ?_⟩
  rw [hiff, Table.visible_eq_untyped htnul, Table.visible_eq_untyped hunul]

/-- The element type `int` or `u8` makes no difference; the name `Dö[it` is seen behind its escapes. -/
theorem yaml_shows_escaped_name_without_element_type :
    let source := Utf8.encode "map kind int\n0 yes\n0 -\n[1, 2] dö[it kind - \x7ba:b\x7d n\n".toList
    let source' := Utf8.encode "map kind u8\n0 yes\n0 -\n[1, 2] dö[it kind - \x7ba:b\x7d n\n".toList
    let values : List EnumValue := [⟨0, "Yes"⟩, ⟨0, "-"⟩]
    let f : Function := ⟨⟨1, 2⟩, "Dö[it", [⟨"Kind", "-"⟩, ⟨"a:b", "N"⟩]⟩
    let t : Table := ⟨[⟨"Kind", "int", values⟩], [f]⟩
    let u : Table := ⟨[⟨"Kind", "u8", values⟩], [f]⟩
    load source = .ok t ∧ load source' = .ok u ∧ t ≠ u ∧ t.TagNames Yaml.Tag.Allowed ∧
      u.TagNames Yaml.Tag.Allowed ∧ t.TagNames ('\x00' ∉ ·) ∧ u.TagNames ('\x00' ∉ ·) ∧
      (∃ bytes, Registry.builtin.format t "yaml" = .ok bytes) ∧
      Registry.builtin.format t "yaml" = Registry.builtin.format u "yaml" ∧
      t.visible = u.visible ∧ t.untyped = u.untyped := by
  intro source source' values f t u
  have ht : load source = .ok t := eq_ok_of_toOption (by decide +kernel)
  have hu : load source' = .ok u := eq_ok_of_toOption (by decide +kernel)
  have htags : t.TagNames Yaml.Tag.Allowed := by decide
  have hutags : u.TagNames Yaml.Tag.Allowed := by decide
  have htnul : t.TagNames ('\x00' ∉ ·) := by decide
  have hunul : u.TagNames ('\x00' ∉ ·) := by decide
  obtain ⟨hwritten, hvisible, huntyped⟩ := yaml_eq_iff_visible ht hu htags hutags
  have huntyped := huntyped htnul hunul
  have hsame : t.untyped = u.untyped := rfl
  exact ⟨ht, hu, by decide, htags, hutags, htnul, hunul, hwritten, huntyped.mpr hsame,
    hvisible.mp (huntyped.mpr hsame), hsame⟩

/-- A function's name is not seen behind a NUL. -/
theorem yaml_hides_name_behind_nul :
    let source := Utf8.encode "[1, 2] A\x00b\n".toList
    let source' := Utf8.encode "[1, 2] A\x00c\n".toList
    let t : Table := ⟨[], [⟨⟨1, 2⟩, "A\x00b", []⟩]⟩
    let u : Table := ⟨[], [⟨⟨1, 2⟩, "A\x00c", []⟩]⟩
    load source = .ok t ∧ load source' = .ok u ∧ t.TagNames Yaml.Tag.Allowed ∧
      u.TagNames Yaml.Tag.Allowed ∧
      Registry.builtin.format t "yaml" = Registry.builtin.format u "yaml" ∧
      t.untyped ≠ u.untyped := by
  intro source source' t u
  have ht : load source = .ok t := eq_ok_of_toOption (by decide +kernel)
  have hu : load source' = .ok u := eq_ok_of_toOption (by decide +kernel)
  have hdocuments : Yaml.documents t = Yaml.documents u := by decide +kernel
  refine ⟨ht, hu, by decide, by decide, ?_, by decide⟩
  rw [Registry.format_yaml, Registry.format_yaml, hdocuments]

end FunctionMap
