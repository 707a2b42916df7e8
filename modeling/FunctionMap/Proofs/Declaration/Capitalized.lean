import FunctionMap.Declaration.Naming
import FunctionMap.Proofs.Declaration.Table
import FunctionMap.Proofs.Source.Cursor

/-!
# Capitalising names keeps type references

A parameter refers to an enumeration by its name, so capitalising the names of enumerations has to
take the types of parameters along, and those only that are such names as written. The new table is
`Table.renamed`: every declaration stays in its place. It is given exactly if no two enumerations
come to the same name (`capitalized_eq_ok_iff`).

`KeepsReference t t' p p'` says what becomes of one parameter. A type that names no enumeration stays
as it is; it may be the new name of one all the same. What names an enumeration is a matter of the
whole table, so the order of the declarations does not count (`renamed_perm`).

Main statement: `capitalized_keeps_references`.
-/

namespace FunctionMap
namespace Table

/-! ## 1. The new table -/

/-- The table under its new names. -/
def renamed (t : Table) : Table :=
  ⟨t.enums.map Enumeration.capitalized, t.functions.map t.capitalizeFunction⟩

theorem insertFunctions_eq_insertAll (t : Table) (fs : List Function) :
    t.insertFunctions fs = t.insertAll (fs.map .function) := by
  induction fs generalizing t with
  | nil => rfl
  | cons f fs ih =>
    rw [insertFunctions, List.map_cons, insertAll, insert]
    cases t.insertFunction f with
    | error e => rfl
    | ok r => exact ih r.1

theorem insertEnums_eq_insertAll (t : Table) (es : List Enumeration) :
    t.insertEnums es = t.insertAll (es.map .enumeration) := by
  induction es generalizing t with
  | nil => rfl
  | cons e es ih =>
    rw [insertEnums, List.map_cons, insertAll, insert]
    cases t.insertEnum e with
    | error e => rfl
    | ok r => exact ih r.1

/-- **Capitalising succeeds exactly if the keys of the new table are distinct.** -/
theorem capitalized_eq_ok_iff {t t' : Table} :
    t.capitalized = .ok t' ↔ t.renamed.Distinct ∧ t' = t.renamed := by
  have hinsert : t.capitalized = empty.insertAll
      ((t.functions.map t.capitalizeFunction).map .function
        ++ (t.enums.map Enumeration.capitalized).map .enumeration) := by
    rw [insertAll_append, capitalized, insertFunctions_eq_insertAll]
    refine congrArg (Except.bind _) ?_
    funext functionsOnly
    exact insertEnums_eq_insertAll _ _
  rw [hinsert, insertAll_eq_ok_iff distinct_empty, empty_append, ofDeclarations_append,
    ofDeclarations_functions, ofDeclarations_enums, append_def, List.nil_append, List.append_nil,
    renamed]

/-! ## 2. Names of enumerations -/

theorem enumNames_renamed (t : Table) : t.renamed.enumNames = t.enumNames.map capitalize := by
  simp only [enumNames, renamed, List.map_map]
  rfl

theorem functionKeys_renamed (t : Table) : t.renamed.functionKeys = t.functionKeys := by
  simp only [functionKeys, renamed, List.map_map]
  rfl

theorem capitalizeType_of_mem {t : Table} {typeName : String} (h : typeName ∈ t.enumNames) :
    t.capitalizeType typeName = capitalize typeName := if_pos (isEnum_iff.mpr h)

theorem capitalizeType_of_not_mem {t : Table} {typeName : String} (h : typeName ∉ t.enumNames) :
    t.capitalizeType typeName = typeName := if_neg fun hmem => h (isEnum_iff.mp hmem)

/-- A new type names an enumeration if the old one did, or is the new name of one by chance. -/
theorem capitalizeType_mem_iff (t : Table) (typeName : String) :
    t.capitalizeType typeName ∈ t.renamed.enumNames ↔
      typeName ∈ t.enumNames ∨ ∃ name ∈ t.enumNames, typeName = capitalize name := by
  rw [enumNames_renamed, List.mem_map]
  by_cases h : typeName ∈ t.enumNames
  · rw [capitalizeType_of_mem h]
    exact ⟨fun _ => Or.inl h, fun _ => ⟨typeName, h, rfl⟩⟩
  · rw [capitalizeType_of_not_mem h]
    constructor
    · rintro ⟨name, hname, rfl⟩
      exact Or.inr ⟨name, hname, rfl⟩
    · rintro (hmem | ⟨name, hname, rfl⟩)
      · exact absurd hmem h
      · exact ⟨name, hname, rfl⟩

/-- What becomes of a parameter: the parameter `p` of `t` is the parameter `p'` of `t'`. -/
structure KeepsReference (t t' : Table) (p p' : Parameter) : Prop where
  enumeration : ∀ (k : Nat) (e : Enumeration), t.enums[k]? = some e → e.name = p.typeName →
    p'.typeName = capitalize p.typeName ∧
      t'.enums[k]? = some ⟨p'.typeName, e.elementType, e.values.map EnumValue.capitalized⟩
  other : p.typeName ∉ t.enumNames → p'.typeName = p.typeName
  isEnum_iff : p'.typeName ∈ t'.enumNames ↔
    p.typeName ∈ t.enumNames ∨ ∃ name ∈ t.enumNames, p.typeName = capitalize name

theorem keepsReference_renamed (t : Table) (p : Parameter) :
    KeepsReference t t.renamed p (t.capitalizeParameter p) where
  enumeration k e he hname := by
    have hmem : p.typeName ∈ t.enumNames :=
      List.mem_map.mpr ⟨e, List.mem_of_getElem? he, hname⟩
    have htype : (t.capitalizeParameter p).typeName = capitalize p.typeName :=
      capitalizeType_of_mem hmem
    refine ⟨htype, ?_⟩
    rw [htype, ← hname, renamed, List.getElem?_map, he]
    rfl
  other h := capitalizeType_of_not_mem h
  isEnum_iff := capitalizeType_mem_iff t p.typeName

/-! ## 3. The order of the declarations -/

theorem capitalizeFunction_congr {t u : Table} (h : ∀ name, name ∈ t.enumNames ↔ name ∈ u.enumNames) :
    t.capitalizeFunction = u.capitalizeFunction := by
  have htype : ∀ typeName, t.capitalizeType typeName = u.capitalizeType typeName := by
    intro typeName
    by_cases hname : typeName ∈ t.enumNames
    · rw [capitalizeType_of_mem hname, capitalizeType_of_mem ((h typeName).mp hname)]
    · rw [capitalizeType_of_not_mem hname, capitalizeType_of_not_mem (mt (h typeName).mpr hname)]
  have hparameter : t.capitalizeParameter = u.capitalizeParameter := by
    funext p
    simp only [capitalizeParameter, htype]
  funext f
  simp only [capitalizeFunction, hparameter]

/-- **Declarations in another order are the same under their new names**, in that order. -/
theorem renamed_perm {t u : Table} (henums : t.enums.Perm u.enums)
    (hfunctions : t.functions.Perm u.functions) :
    t.renamed.enums.Perm u.renamed.enums ∧ t.renamed.functions.Perm u.renamed.functions := by
  have hnames : ∀ name, name ∈ t.enumNames ↔ name ∈ u.enumNames :=
    fun name => (henums.map (·.name)).mem_iff
  refine ⟨henums.map _, ?_⟩
  rw [renamed, renamed, capitalizeFunction_congr hnames]
  exact hfunctions.map _

theorem distinct_perm {t u : Table} (henums : t.enums.Perm u.enums)
    (hfunctions : t.functions.Perm u.functions) (h : t.Distinct) : u.Distinct := by
  have hnames : t.enumNames.Perm u.enumNames := henums.map _
  have hkeys : t.functionKeys.Perm u.functionKeys := hfunctions.map _
  exact ⟨hnames.nodup_iff.mp h.1, hkeys.nodup_iff.mp h.2⟩

/-- New names are only distinct if the old ones are. -/
theorem distinct_of_renamed {t : Table} (h : t.renamed.Distinct) : t.Distinct := by
  rw [Distinct, enumNames_renamed, functionKeys_renamed] at h
  have hnames : t.enumNames.Nodup :=
    List.Pairwise.of_map capitalize (fun _ _ hne heq => hne (congrArg capitalize heq)) h.1
  exact ⟨hnames, h.2⟩

/-- Declarations that give a table, and another with capitalised names, do so in any order; if they
    are only moved past those of the other kind, they give the same. -/
theorem capitalized_of_perm {t t' : Table} {ds ds' : List Declaration} (h : t.capitalized = .ok t')
    (ht : empty.insertAll ds = .ok t) (hds : ds.Perm ds') :
    ∃ u u', empty.insertAll ds' = .ok u ∧ u.capitalized = .ok u' ∧ t'.enums.Perm u'.enums ∧
      t'.functions.Perm u'.functions ∧ (ofDeclarations ds = ofDeclarations ds' → u' = t') := by
  obtain ⟨hdistinct, rfl⟩ := capitalized_eq_ok_iff.mp h
  obtain ⟨-, rfl⟩ := (insertAll_eq_ok_iff distinct_empty).mp ht
  rw [empty_append] at hdistinct h ⊢
  have henums : (ofDeclarations ds).enums.Perm (ofDeclarations ds').enums := hds.filterMap _
  have hfunctions : (ofDeclarations ds).functions.Perm (ofDeclarations ds').functions :=
    hds.filterMap _
  obtain ⟨henums', hfunctions'⟩ := renamed_perm henums hfunctions
  have hold : (ofDeclarations ds').Distinct :=
    distinct_perm henums hfunctions (distinct_of_renamed hdistinct)
  refine ⟨ofDeclarations ds', _, (insertAll_eq_ok_iff distinct_empty).mpr ⟨hold, rfl⟩,
    capitalized_eq_ok_iff.mpr ⟨distinct_perm henums' hfunctions' hdistinct, rfl⟩, henums',
    hfunctions', fun heq => by rw [heq]⟩

/-! ## 4. All references -/

/-- What becomes of a table: declarations and parameters keep their places, functions their keys,
    enumerations their element types and the keys of their values, and every type its reference,
    whatever the order of the declarations. -/
structure KeepsReferences (t t' : Table) : Prop where
  functions : (t'.functions.map fun f => (f.key, f.parameters.length))
    = t.functions.map fun f => (f.key, f.parameters.length)
  parameter : ∀ (i j : Nat) (f : Function) (p : Parameter), t.functions[i]? = some f →
    f.parameters[j]? = some p → ∃ f' p', t'.functions[i]? = some f' ∧
      f'.parameters[j]? = some p' ∧ KeepsReference t t' p p'
  enums : t'.enums.length = t.enums.length
  enumeration : ∀ (k : Nat) (e : Enumeration), t.enums[k]? = some e →
    t'.enums[k]? = some ⟨capitalize e.name, e.elementType, e.values.map EnumValue.capitalized⟩
  order : ∀ ds ds' : List Declaration, empty.insertAll ds = .ok t → ds.Perm ds' →
    ∃ u u', empty.insertAll ds' = .ok u ∧ u.capitalized = .ok u' ∧ t'.enums.Perm u'.enums ∧
      t'.functions.Perm u'.functions ∧ (ofDeclarations ds = ofDeclarations ds' → u' = t')

/-- **Capitalising names keeps every type reference, and changes nothing else about types.** A type
    that names an enumeration is capitalised, and is then the name of that enumeration, which has
    kept its place, its element type, and its values up to their names. A type that names none
    stays. A type of the new table names an enumeration exactly if it did in the old one, or is a
    capitalised name by chance. And an enumeration may stand before or behind its use. -/
theorem capitalized_keeps_references {t t' : Table} (h : t.capitalized = .ok t') :
    KeepsReferences t t' where
  functions := by
    obtain ⟨-, rfl⟩ := capitalized_eq_ok_iff.mp h
    simp [renamed, capitalizeFunction]
  parameter i j f p hf hp := by
    obtain ⟨-, rfl⟩ := capitalized_eq_ok_iff.mp h
    refine ⟨t.capitalizeFunction f, t.capitalizeParameter p, ?_, ?_, keepsReference_renamed t p⟩
    · rw [renamed, List.getElem?_map, hf]
      rfl
    · rw [capitalizeFunction, List.getElem?_map, hp]
      rfl
  enums := by
    obtain ⟨-, rfl⟩ := capitalized_eq_ok_iff.mp h
    exact List.length_map _
  enumeration k e he := by
    obtain ⟨-, rfl⟩ := capitalized_eq_ok_iff.mp h
    rw [renamed, List.getElem?_map, he]
    rfl
  order ds ds' ht hds := capitalized_of_perm h ht hds

/-- The parameter `k` still refers to the enumeration that is now `Kind`. -/
theorem capitalized_keeps_reference_to_kind :
    let t : Table := ⟨[⟨"kind", "int", [⟨0, "foo"⟩]⟩], [⟨⟨1, 2⟩, "f", [⟨"kind", "k"⟩]⟩]⟩
    let t' : Table := ⟨[⟨"Kind", "int", [⟨0, "Foo"⟩]⟩], [⟨⟨1, 2⟩, "F", [⟨"Kind", "K"⟩]⟩]⟩
    t.capitalized = .ok t' ∧ KeepsReferences t t' := by
  intro t t'
  have h : t.capitalized = .ok t' := eq_ok_of_toOption (by decide +kernel)
  exact ⟨h, capitalized_keeps_references h⟩

/-- The value of the enumeration does not stay as it is: `foo` becomes `Foo`. -/
theorem capitalized_renames_values :
    let source := Utf8.encode "map kind int\n0 foo\n[1, 2] f kind k\n".toList
    let e : Enumeration := ⟨"kind", "int", [⟨0, "foo"⟩]⟩
    let t : Table := ⟨[e], [⟨⟨1, 2⟩, "f", [⟨"kind", "k"⟩]⟩]⟩
    parse source = .ok t ∧ ∃ t' e', t.capitalized = .ok t' ∧ t'.enums[0]? = some e' ∧
      e'.name = capitalize e.name ∧ e'.elementType = e.elementType ∧ e'.values ≠ e.values := by
  intro source e t
  have hparse : parse source = .ok t := eq_ok_of_toOption (by decide +kernel)
  have h : t.capitalized
      = .ok ⟨[⟨"Kind", "int", [⟨0, "Foo"⟩]⟩], [⟨⟨1, 2⟩, "F", [⟨"Kind", "K"⟩]⟩]⟩ :=
    eq_ok_of_toOption (by decide +kernel)
  exact ⟨hparse, _, _, h, rfl, by decide +kernel, rfl, by decide +kernel⟩

end Table
end FunctionMap
