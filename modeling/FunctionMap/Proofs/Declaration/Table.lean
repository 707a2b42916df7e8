import FunctionMap.Declaration.Table

/-!
# The declaration table: what an operation does to its two lists

An insertion is refused exactly for a key that is already there, and adds one declaration behind
the others; an entry goes to the one declaration at an index. At the index of the declaration
inserted last this is the end of the list.

Declarations with all their entries can be inserted one after the other, `insertAll`. Main
statements: that succeeds exactly if no key occurs twice, with the declarations behind those of the
table (`insertAll_eq_ok_iff`), and otherwise it is refused for a key that the table and the
declarations share, if the keys on each side are distinct (`shared_of_insertAll_eq_error`).
-/

namespace FunctionMap
namespace Table

/-! ## 1. Looking up -/

theorem isEnum_iff {t : Table} {name : String} : t.isEnum name = true ↔ name ∈ t.enumNames := by
  simp [isEnum, enum?, enumNames, List.find?_isSome]

theorem isSome_function?_iff {t : Table} {key : FunctionKey} :
    (t.function? key).isSome = true ↔ key ∈ t.functionKeys := by
  simp [function?, functionKeys, List.find?_isSome]

/-! ## 2. Insertions -/

/-- The table with an enumeration behind its own. -/
def addEnum (t : Table) (e : Enumeration) : Table := { t with enums := t.enums ++ [e] }

/-- The table with a function behind its own. -/
def addFunction (t : Table) (f : Function) : Table := { t with functions := t.functions ++ [f] }

theorem insertEnum_of_mem {t : Table} {e : Enumeration} (h : e.name ∈ t.enumNames) :
    t.insertEnum e = .error (.duplicate .enumeration e.name) := by
  rw [insertEnum, if_pos (isEnum_iff.mpr h)]

theorem insertEnum_of_not_mem {t : Table} {e : Enumeration} (h : e.name ∉ t.enumNames) :
    t.insertEnum e = .ok (t.addEnum e, t.enums.length) := by
  rw [insertEnum, if_neg (fun hmem => h (isEnum_iff.mp hmem))]
  rfl

theorem insertFunction_of_mem {t : Table} {f : Function} (h : f.key ∈ t.functionKeys) :
    t.insertFunction f = .error (.duplicate .function f.key.text) := by
  rw [insertFunction, if_pos (isSome_function?_iff.mpr h)]

theorem insertFunction_of_not_mem {t : Table} {f : Function} (h : f.key ∉ t.functionKeys) :
    t.insertFunction f = .ok (t.addFunction f, t.functions.length) := by
  rw [insertFunction, if_neg (fun hmem => h (isSome_function?_iff.mp hmem))]
  rfl

/-! ## 3. Entries of the declaration inserted last -/

theorem modify_length_append {α : Type} (xs : List α) (x : α) (f : α → α) :
    (xs ++ [x]).modify xs.length f = xs ++ [f x] := by
  rw [List.modify_eq_take_cons_drop (by simp)]
  simp

theorem pushValue?_last (es : List Enumeration) (e : Enumeration) (fs : List Function)
    (value : EnumValue) : pushValue? ⟨es ++ [e], fs⟩ es.length value
      = some ⟨es ++ [{ e with values := e.values ++ [value] }], fs⟩ := by
  rw [pushValue?, if_pos (by simp)]
  simp only [modify_length_append]

theorem pushParameter?_last (es : List Enumeration) (fs : List Function) (f : Function)
    (parameter : Parameter) : pushParameter? ⟨es, fs ++ [f]⟩ fs.length parameter
      = some ⟨es, fs ++ [{ f with parameters := f.parameters ++ [parameter] }]⟩ := by
  rw [pushParameter?, if_pos (by simp)]
  simp only [modify_length_append]

/-- The table with values behind those of its last enumeration, if it has one. -/
def extendEnum (t : Table) (values : List EnumValue) : Table :=
  { t with
    enums := t.enums.modify (t.enums.length - 1) fun e => { e with values := e.values ++ values } }

/-- The table with parameters behind those of its last function, if it has one. -/
def extendFunction (t : Table) (parameters : List Parameter) : Table :=
  { t with
    functions := t.functions.modify (t.functions.length - 1) fun f =>
      { f with parameters := f.parameters ++ parameters } }

theorem extendEnum_last (es : List Enumeration) (e : Enumeration) (fs : List Function)
    (values : List EnumValue) : extendEnum ⟨es ++ [e], fs⟩ values
      = ⟨es ++ [{ e with values := e.values ++ values }], fs⟩ := by
  have hlast : (es ++ [e]).length - 1 = es.length := by simp
  rw [extendEnum]
  dsimp only
  rw [hlast, modify_length_append]

theorem extendFunction_last (es : List Enumeration) (fs : List Function) (f : Function)
    (parameters : List Parameter) : extendFunction ⟨es, fs ++ [f]⟩ parameters
      = ⟨es, fs ++ [{ f with parameters := f.parameters ++ parameters }]⟩ := by
  have hlast : (fs ++ [f]).length - 1 = fs.length := by simp
  rw [extendFunction]
  dsimp only
  rw [hlast, modify_length_append]

theorem extendEnum_nil (t : Table) : t.extendEnum [] = t := by
  simp only [extendEnum, List.append_nil]
  rw [show (fun e : Enumeration => e) = id from rfl, List.modify_id]

theorem extendFunction_nil (t : Table) : t.extendFunction [] = t := by
  simp only [extendFunction, List.append_nil]
  rw [show (fun f : Function => f) = id from rfl, List.modify_id]

end Table

/-! ## 4. Whole declarations -/

/-- A declaration with its entries. -/
inductive Declaration where
  | enumeration (e : Enumeration)
  | function (f : Function)
  deriving DecidableEq, Repr

/-- The enumeration that a declaration is, if it is one. -/
def Declaration.enum? : Declaration → Option Enumeration
  | .enumeration e => some e
  | .function _ => none

/-- The function that a declaration is, if it is one. -/
def Declaration.function? : Declaration → Option Function
  | .enumeration _ => none
  | .function f => some f

namespace Table

/-- The table of some declarations, each kind in its order. -/
def ofDeclarations (ds : List Declaration) : Table :=
  ⟨ds.filterMap Declaration.enum?, ds.filterMap Declaration.function?⟩

instance : Append Table := ⟨fun t u => ⟨t.enums ++ u.enums, t.functions ++ u.functions⟩⟩

/-- The table with a declaration behind its own. -/
def add (t : Table) : Declaration → Table
  | .enumeration e => t.addEnum e
  | .function f => t.addFunction f

/-- The key of a declaration is not in the table. -/
def IsNew (t : Table) : Declaration → Prop
  | .enumeration e => e.name ∉ t.enumNames
  | .function f => f.key ∉ t.functionKeys

/-- The error of a declaration whose key is in the table. -/
def duplicateOf : Declaration → SourceError
  | .enumeration e => .duplicate .enumeration e.name
  | .function f => .duplicate .function f.key.text

/-- Adds a declaration, if its key is new. -/
def insert (t : Table) : Declaration → Except SourceError Table
  | .enumeration e => (t.insertEnum e).map Prod.fst
  | .function f => (t.insertFunction f).map Prod.fst

/-- Adds declarations one after the other. -/
def insertAll (t : Table) : List Declaration → Except SourceError Table
  | [] => .ok t
  | d :: ds =>
    match t.insert d with
    | .error e => .error e
    | .ok t => t.insertAll ds

theorem append_def (t u : Table) : t ++ u = ⟨t.enums ++ u.enums, t.functions ++ u.functions⟩ := rfl

theorem enumNames_append (t u : Table) : (t ++ u).enumNames = t.enumNames ++ u.enumNames := by
  rw [append_def, enumNames, List.map_append]
  rfl

theorem functionKeys_append (t u : Table) :
    (t ++ u).functionKeys = t.functionKeys ++ u.functionKeys := by
  rw [append_def, functionKeys, List.map_append]
  rfl

theorem append_nil (t : Table) : t ++ ofDeclarations [] = t := by
  simp [append_def, ofDeclarations]

theorem empty_append (t : Table) : empty ++ t = t := rfl

theorem append_assoc (t u v : Table) : t ++ u ++ v = t ++ (u ++ v) := by
  simp only [append_def, List.append_assoc]

/-- The table with a declaration and nothing else. -/
def single (d : Declaration) : Table := empty.add d

theorem add_eq_append (t : Table) (d : Declaration) : t.add d = t ++ single d := by
  cases d <;> simp [append_def, single, add, addEnum, addFunction, empty]

theorem ofDeclarations_cons (d : Declaration) (ds : List Declaration) :
    ofDeclarations (d :: ds) = single d ++ ofDeclarations ds := by
  cases d <;> rfl

theorem ofDeclarations_append (ds ds' : List Declaration) :
    ofDeclarations (ds ++ ds') = ofDeclarations ds ++ ofDeclarations ds' := by
  simp only [ofDeclarations, List.filterMap_append, append_def]

theorem ofDeclarations_enums (es : List Enumeration) :
    ofDeclarations (es.map .enumeration) = ⟨es, []⟩ := by
  have hes : es.filterMap (Declaration.enum? ∘ .enumeration) = es := List.filterMap_some
  simp only [ofDeclarations, List.filterMap_map, hes]
  congr 1
  exact List.filterMap_eq_nil_iff.mpr fun _ _ => rfl

theorem ofDeclarations_functions (fs : List Function) :
    ofDeclarations (fs.map .function) = ⟨[], fs⟩ := by
  have hfs : fs.filterMap (Declaration.function? ∘ .function) = fs := List.filterMap_some
  simp only [ofDeclarations, List.filterMap_map, hfs]
  congr 1
  exact List.filterMap_eq_nil_iff.mpr fun _ _ => rfl

theorem insert_of_isNew {t : Table} {d : Declaration} (h : t.IsNew d) :
    t.insert d = .ok (t.add d) := by
  cases d with
  | enumeration e => rw [insert, insertEnum_of_not_mem h]; rfl
  | function f => rw [insert, insertFunction_of_not_mem h]; rfl

theorem insert_of_not_isNew {t : Table} {d : Declaration} (h : ¬ t.IsNew d) :
    t.insert d = .error (duplicateOf d) := by
  cases d with
  | enumeration e => rw [insert, insertEnum_of_mem (Classical.not_not.mp h)]; rfl
  | function f => rw [insert, insertFunction_of_mem (Classical.not_not.mp h)]; rfl

theorem insertAll_append (t : Table) (ds ds' : List Declaration) :
    t.insertAll (ds ++ ds') = (t.insertAll ds).bind (·.insertAll ds') := by
  induction ds generalizing t with
  | nil => rfl
  | cons d ds ih =>
    rw [List.cons_append, insertAll, insertAll]
    cases t.insert d with
    | error e => rfl
    | ok t' => exact ih t'

/-! ## 5. Distinct keys -/

/-- No enumeration name and no function key is in both tables. -/
def Apart (t u : Table) : Prop :=
  (∀ name ∈ t.enumNames, name ∉ u.enumNames) ∧ ∀ key ∈ t.functionKeys, key ∉ u.functionKeys

instance (t u : Table) : Decidable (t.Apart u) :=
  inferInstanceAs (Decidable ((∀ name ∈ t.enumNames, name ∉ u.enumNames) ∧
    ∀ key ∈ t.functionKeys, key ∉ u.functionKeys))

theorem nodup_append_iff {α : Type} {xs ys : List α} :
    (xs ++ ys).Nodup ↔ xs.Nodup ∧ ys.Nodup ∧ ∀ x ∈ xs, x ∉ ys := by
  rw [List.nodup_append]
  refine and_congr_right fun _ => and_congr_right fun _ => ?_
  constructor
  · intro h x hx hy
    exact h x hx x hy rfl
  · rintro h x hx y hy rfl
    exact h x hx hy

theorem distinct_append_iff {t u : Table} :
    (t ++ u).Distinct ↔ t.Distinct ∧ u.Distinct ∧ t.Apart u := by
  rw [Distinct, enumNames_append, functionKeys_append, nodup_append_iff, nodup_append_iff]
  constructor
  · intro h
    obtain ⟨⟨ht, hu, hname⟩, ht', hu', hkey⟩ := h
    exact ⟨⟨ht, ht'⟩, ⟨hu, hu'⟩, hname, hkey⟩
  · intro h
    obtain ⟨⟨ht, ht'⟩, ⟨hu, hu'⟩, hname, hkey⟩ := h
    exact ⟨⟨ht, hu, hname⟩, ht', hu', hkey⟩

theorem distinct_empty : empty.Distinct := ⟨List.nodup_nil, List.nodup_nil⟩

theorem distinct_single (d : Declaration) : (single d).Distinct := by
  cases d with
  | enumeration e => exact ⟨List.pairwise_singleton _ e.name, List.nodup_nil⟩
  | function f => exact ⟨List.nodup_nil, List.pairwise_singleton _ f.key⟩

theorem isNew_iff_apart {t : Table} {d : Declaration} : t.IsNew d ↔ t.Apart (single d) := by
  cases d with
  | enumeration e =>
    constructor
    · intro h
      refine ⟨fun name hname hsingle => ?_, fun key _ hkey => nomatch hkey⟩
      rw [List.mem_singleton.mp hsingle] at hname
      exact h hname
    · intro h hmem
      exact h.1 e.name hmem (List.mem_singleton_self e.name)
  | function f =>
    constructor
    · intro h
      refine ⟨fun name _ hname => (nomatch hname), fun key hkey hsingle => ?_⟩
      rw [List.mem_singleton.mp hsingle] at hkey
      exact h hkey
    · intro h hmem
      exact h.2 f.key hmem (List.mem_singleton_self f.key)

/-- A declaration is new to a table with distinct keys if they are still distinct with it. -/
theorem isNew_iff_distinct_add {t : Table} (ht : t.Distinct) {d : Declaration} :
    t.IsNew d ↔ (t.add d).Distinct := by
  rw [isNew_iff_apart, add_eq_append, distinct_append_iff]
  exact ⟨fun h => ⟨ht, distinct_single d, h⟩, fun h => h.2.2⟩

/-- **Declarations are inserted exactly if no key occurs twice, and then stand behind those of the
    table.** -/
theorem insertAll_eq_ok_iff {t t' : Table} {ds : List Declaration} (ht : t.Distinct) :
    t.insertAll ds = .ok t' ↔
      (t ++ ofDeclarations ds).Distinct ∧ t' = t ++ ofDeclarations ds := by
  induction ds generalizing t with
  | nil =>
    rw [insertAll, append_nil]
    constructor
    · intro h
      cases h
      exact ⟨ht, rfl⟩
    · intro h
      obtain ⟨-, rfl⟩ := h
      rfl
  | cons d ds ih =>
    rw [insertAll, ofDeclarations_cons, ← append_assoc, ← add_eq_append]
    by_cases hd : t.IsNew d
    · rw [insert_of_isNew hd]
      exact ih ((isNew_iff_distinct_add ht).mp hd)
    · rw [insert_of_not_isNew hd]
      constructor
      · intro h
        cases h
      · intro h
        obtain ⟨h, -⟩ := h
        exact absurd ((isNew_iff_distinct_add ht).mpr (distinct_append_iff.mp h).1) hd

/-- **Insertions are refused at the first declaration whose key is not new.** -/
theorem insertAll_eq_error {t : Table} {ds : List Declaration} {e : SourceError}
    (h : t.insertAll ds = .error e) :
    ∃ ds₁ d ds₂ t₁, ds = ds₁ ++ d :: ds₂ ∧ t.insertAll ds₁ = .ok t₁ ∧ ¬ t₁.IsNew d ∧
      e = duplicateOf d := by
  induction ds generalizing t with
  | nil => cases h
  | cons d ds ih =>
    rw [insertAll] at h
    by_cases hd : t.IsNew d
    · rw [insert_of_isNew hd] at h
      obtain ⟨ds₁, d', ds₂, t₁, rfl, ht₁, hnew, he⟩ := ih h
      refine ⟨d :: ds₁, d', ds₂, t₁, rfl, ?_, hnew, he⟩
      rw [insertAll, insert_of_isNew hd]
      exact ht₁
    · rw [insert_of_not_isNew hd] at h
      cases h
      exact ⟨[], d, ds, t, rfl, rfl, hd, rfl⟩

/-- The error of a key that is in both tables. -/
inductive Shared (t u : Table) : SourceError → Prop where
  | enumeration (name : String) (ht : name ∈ t.enumNames) (hu : name ∈ u.enumNames) :
      Shared t u (.duplicate .enumeration name)
  | function (key : FunctionKey) (ht : key ∈ t.functionKeys) (hu : key ∈ u.functionKeys) :
      Shared t u (.duplicate .function key.text)

theorem shared_of_not_isNew {t : Table} {d : Declaration} (h : ¬ t.IsNew d) (u : Table) :
    Shared t (single d ++ u) (duplicateOf d) := by
  cases d with
  | enumeration e =>
    refine .enumeration e.name (Classical.not_not.mp h) ?_
    rw [enumNames_append]
    exact List.mem_append_left _ (List.mem_singleton_self e.name)
  | function f =>
    refine .function f.key (Classical.not_not.mp h) ?_
    rw [functionKeys_append]
    exact List.mem_append_left _ (List.mem_singleton_self f.key)

/-- A key shared with the rest of some distinct declarations is not that of the first. -/
theorem Shared.of_add {t u : Table} {d : Declaration} {e : SourceError} (h : Shared (t.add d) u e)
    (hapart : (single d).Apart u) : Shared t (single d ++ u) e := by
  rw [add_eq_append] at h
  cases h with
  | enumeration name ht hu =>
    rw [enumNames_append] at ht
    refine .enumeration name ((List.mem_append.mp ht).resolve_right ?_) ?_
    · exact fun hd => hapart.1 name hd hu
    · rw [enumNames_append]
      exact List.mem_append_right _ hu
  | function key ht hu =>
    rw [functionKeys_append] at ht
    refine .function key ((List.mem_append.mp ht).resolve_right ?_) ?_
    · exact fun hd => hapart.2 key hd hu
    · rw [functionKeys_append]
      exact List.mem_append_right _ hu

/-- **Declarations with distinct keys are refused for a key that the table has already.** -/
theorem shared_of_insertAll_eq_error {t : Table} {ds : List Declaration} {e : SourceError}
    (hds : (ofDeclarations ds).Distinct) (h : t.insertAll ds = .error e) :
    Shared t (ofDeclarations ds) e := by
  induction ds generalizing t with
  | nil => cases h
  | cons d ds ih =>
    rw [ofDeclarations_cons] at hds ⊢
    obtain ⟨-, hrest, hapart⟩ := distinct_append_iff.mp hds
    rw [insertAll] at h
    by_cases hd : t.IsNew d
    · rw [insert_of_isNew hd] at h
      exact (ih hrest h).of_add hapart
    · rw [insert_of_not_isNew hd] at h
      cases h
      exact shared_of_not_isNew hd _

end Table
end FunctionMap
