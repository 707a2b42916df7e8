import FunctionMap.Proofs.Declaration.Capitalized

/-!
# Capitalising names loses no declaration

The new table is built by insertions under the new names, and an insertion can be refused. Names that
become one are the only cause: the keys of functions stay as they are, and the functions are all in
before the first enumeration.

* `SameDeclarations t t'` -- every declaration of `t` stands in its place in `t'`, under its new name;
* `FirstCollision names j` -- the name at `j` is the first one that becomes the same as one before it.

Main statement: `capitalized_loses_nothing`.
-/

namespace FunctionMap
namespace Table

/-! ## 1. The first refused insertion -/

/-- Enumerations are refused at the first one whose name is taken: by the table, or by one of the
    enumerations before it. -/
theorem insertEnums_eq_error {t : Table} (ht : t.Distinct) {es : List Enumeration} {e : SourceError}
    (h : t.insertEnums es = .error e) :
    ∃ es₁ x es₂, es = es₁ ++ x :: es₂ ∧ (t.enumNames ++ es₁.map (·.name)).Nodup ∧
      x.name ∈ t.enumNames ++ es₁.map (·.name) ∧ e = .duplicate .enumeration x.name := by
  rw [insertEnums_eq_insertAll] at h
  obtain ⟨ds₁, d, ds₂, t₁, hsplit, ht₁, hnew, rfl⟩ := insertAll_eq_error h
  obtain ⟨es₁, es', rfl, rfl, htail⟩ := List.map_eq_append_iff.mp hsplit
  obtain ⟨x, es₂, rfl, rfl, -⟩ := List.map_eq_cons_iff.mp htail
  obtain ⟨hdistinct, rfl⟩ := (insertAll_eq_ok_iff ht).mp ht₁
  have hnames : (t ++ ofDeclarations (es₁.map .enumeration)).enumNames
      = t.enumNames ++ es₁.map (·.name) := by
    rw [ofDeclarations_enums, enumNames_append]
    rfl
  refine ⟨es₁, x, es₂, rfl, ?_, ?_, rfl⟩
  · rw [← hnames]
    exact hdistinct.1
  · rw [← hnames]
    exact Classical.not_not.mp hnew

/-! ## 2. Names that become one -/

/-- The names at two places become the same name. -/
def Collides (names : List String) (i j : Nat) : Prop :=
  ∃ m n, names[i]? = some m ∧ names[j]? = some n ∧ capitalize m = capitalize n

/-- The name at `j` is the first one that becomes the same as one before it. -/
structure FirstCollision (names : List String) (j : Nat) : Prop where
  collides : ∃ i < j, Collides names i j
  least : ∀ k < j, ∀ i < k, ¬ Collides names i k

theorem nodup_map_capitalize_iff {names : List String} :
    (names.map capitalize).Nodup ↔ ∀ j, ∀ i < j, ¬ Collides names i j := by
  rw [List.Nodup, List.pairwise_map, List.pairwise_iff_getElem]
  constructor
  · rintro h j i hij ⟨m, n, hm, hn, heq⟩
    obtain ⟨hi, rfl⟩ := List.getElem?_eq_some_iff.mp hm
    obtain ⟨hj, rfl⟩ := List.getElem?_eq_some_iff.mp hn
    exact h i j hi hj hij heq
  · intro h i j hi hj hij heq
    exact h j i hij ⟨_, _, List.getElem?_eq_getElem hi, List.getElem?_eq_getElem hj, heq⟩

/-- A name behind names that stay apart, and that becomes the same as one of them, is the first. -/
theorem firstCollision_append {front behind : List String} {name : String}
    (hfront : (front.map capitalize).Nodup) (hname : capitalize name ∈ front.map capitalize) :
    FirstCollision (front ++ name :: behind) front.length where
  collides := by
    obtain ⟨m, hm, heq⟩ := List.mem_map.mp hname
    obtain ⟨i, hi, rfl⟩ := List.getElem_of_mem hm
    refine ⟨i, hi, front[i], name, ?_, ?_, heq⟩
    · rw [List.getElem?_append_left hi, List.getElem?_eq_getElem hi]
    · simp
  least := by
    rintro k hk i hik ⟨m, n, hm, hn, heq⟩
    rw [List.getElem?_append_left (Nat.lt_trans hik hk)] at hm
    rw [List.getElem?_append_left hk] at hn
    exact nodup_map_capitalize_iff.mp hfront k i hik ⟨m, n, hm, hn, heq⟩

/-- Names that differ stay apart exactly if none becomes the same as another. -/
theorem nodup_map_capitalize_iff_injective {names : List String} (hnames : names.Nodup) :
    (names.map capitalize).Nodup ↔
      ∀ m ∈ names, ∀ n ∈ names, capitalize m = capitalize n → m = n := by
  constructor
  · intro h m hm n hn heq
    obtain ⟨i, hi, rfl⟩ := List.getElem_of_mem hm
    obtain ⟨j, hj, rfl⟩ := List.getElem_of_mem hn
    rw [nodup_map_capitalize_iff] at h
    rcases Nat.lt_trichotomy i j with hij | rfl | hji
    · exact absurd ⟨_, _, List.getElem?_eq_getElem hi, List.getElem?_eq_getElem hj, heq⟩ (h j i hij)
    · rfl
    · exact absurd ⟨_, _, List.getElem?_eq_getElem hj, List.getElem?_eq_getElem hi, heq.symm⟩
        (h i j hji)
  · intro h
    refine List.pairwise_map.mpr (hnames.imp_of_mem ?_)
    exact fun hm hn hne heq => hne (h _ hm _ hn heq)

/-! ## 3. What the new table holds -/

/-- What becomes of a table: as many declarations as before, each in its place and under its new
    name, with its key or element type, and with its entries in their order under new names. -/
structure SameDeclarations (t t' : Table) : Prop where
  enums : t'.enums.length = t.enums.length
  functions : t'.functions.length = t.functions.length
  enumeration : ∀ (i : Nat) (e : Enumeration), t.enums[i]? = some e → ∃ e', t'.enums[i]? = some e' ∧
    e'.name = capitalize e.name ∧ e'.elementType = e.elementType ∧
      e'.values = e.values.map fun v => ⟨v.key, capitalize v.name⟩
  function : ∀ (i : Nat) (f : Function), t.functions[i]? = some f → ∃ f',
    t'.functions[i]? = some f' ∧ f'.key = f.key ∧ f'.name = capitalize f.name ∧
      f'.parameters.map (·.name) = f.parameters.map fun p => capitalize p.name

theorem sameDeclarations_renamed (t : Table) : t.SameDeclarations t.renamed where
  enums := List.length_map _
  functions := List.length_map _
  enumeration i e he := by
    refine ⟨e.capitalized, ?_, rfl, rfl, rfl⟩
    rw [renamed, List.getElem?_map, he]
    rfl
  function i f hf := by
    refine ⟨t.capitalizeFunction f, ?_, rfl, rfl, ?_⟩
    · rw [renamed, List.getElem?_map, hf]
      rfl
    · rw [capitalizeFunction, List.map_map]
      rfl

/-- Functions keep their keys, so they are never refused: what remains is to insert the enumerations. -/
theorem capitalized_eq_insertEnums {t : Table} (ht : t.functionKeys.Nodup) :
    t.capitalized = insertEnums ⟨[], t.renamed.functions⟩ t.renamed.enums := by
  have hkeys : (ofDeclarations (t.renamed.functions.map .function)).Distinct := by
    rw [ofDeclarations_functions]
    refine ⟨List.nodup_nil, ?_⟩
    have hkeys := functionKeys_renamed t
    rw [functionKeys] at hkeys
    rwa [functionKeys, hkeys]
  have hfunctions : empty.insertFunctions t.renamed.functions
      = .ok ⟨[], t.renamed.functions⟩ := by
    rw [insertFunctions_eq_insertAll, insertAll_eq_ok_iff distinct_empty, empty_append]
    exact ⟨hkeys, (ofDeclarations_functions _).symm⟩
  rw [capitalized, show t.functions.map t.capitalizeFunction = t.renamed.functions from rfl,
    hfunctions]
  rfl

/-- A collision is all that can go wrong, and the first one is told. -/
theorem firstCollision_of_capitalized_eq_error {t : Table} (ht : t.Distinct) {e : SourceError}
    (h : t.capitalized = .error e) :
    ∃ j n, FirstCollision t.enumNames j ∧ t.enumNames[j]? = some n ∧
      e = .duplicate .enumeration (capitalize n) := by
  have hfunctions : Distinct ⟨[], t.renamed.functions⟩ := by
    refine ⟨List.nodup_nil, ?_⟩
    rw [show functionKeys ⟨[], t.renamed.functions⟩ = t.renamed.functionKeys from rfl,
      functionKeys_renamed]
    exact ht.2
  rw [capitalized_eq_insertEnums ht.2] at h
  obtain ⟨es₁, x, es₂, hsplit, hnodup, hmem, rfl⟩ := insertEnums_eq_error hfunctions h
  obtain ⟨front, es', henums, rfl, htail⟩ := List.map_eq_append_iff.mp hsplit
  obtain ⟨e, behind, rfl, rfl, -⟩ := List.map_eq_cons_iff.mp htail
  have hnames : t.enumNames = front.map (·.name) ++ e.name :: behind.map (·.name) := by
    rw [enumNames, henums, List.map_append, List.map_cons]
  have hfront : (front.map Enumeration.capitalized).map (·.name)
      = (front.map (·.name)).map capitalize := by
    simp only [List.map_map]
    rfl
  rw [show enumNames ⟨[], t.renamed.functions⟩ = [] from rfl, List.nil_append, hfront]
    at hnodup hmem
  refine ⟨(front.map (·.name)).length, e.name, ?_, ?_, rfl⟩
  · rw [hnames]
    exact firstCollision_append hnodup hmem
  · rw [hnames]
    simp

/-- **Capitalising names neither loses nor adds, merges or moves a declaration, and fails exactly if
    two enumeration names become one.** Then the error names what the first such name becomes. -/
theorem capitalized_loses_nothing {t : Table} (ht : t.Distinct) :
    ((∃ t', t.capitalized = .ok t') ↔
      ∀ m ∈ t.enumNames, ∀ n ∈ t.enumNames, capitalize m = capitalize n → m = n) ∧
    (∀ t', t.capitalized = .ok t' → t.SameDeclarations t') ∧
    ∀ e, t.capitalized = .error e → ∃ j n, FirstCollision t.enumNames j ∧
      t.enumNames[j]? = some n ∧ e = .duplicate .enumeration (capitalize n) := by
  have hdistinct : t.renamed.Distinct ↔ (t.enumNames.map capitalize).Nodup := by
    rw [Distinct, enumNames_renamed, functionKeys_renamed]
    exact and_iff_left ht.2
  refine ⟨?_, ?_, fun e h => firstCollision_of_capitalized_eq_error ht h⟩
  · rw [← nodup_map_capitalize_iff_injective ht.1, ← hdistinct]
    constructor
    · rintro ⟨t', h⟩
      exact (capitalized_eq_ok_iff.mp h).1
    · intro h
      exact ⟨t.renamed, capitalized_eq_ok_iff.mpr ⟨h, rfl⟩⟩
  · intro t' h
    obtain ⟨-, rfl⟩ := capitalized_eq_ok_iff.mp h
    exact sameDeclarations_renamed t

/-- Of `a`, `b`, `B`, `A` the third is the first that collides, and what it becomes is told. -/
theorem capitalized_tells_first_collision :
    let t : Table := ⟨[⟨"a", "int", []⟩, ⟨"b", "int", []⟩, ⟨"B", "u8", []⟩, ⟨"A", "u8", []⟩], []⟩
    t.Distinct ∧ t.capitalized = .error (.duplicate .enumeration "B") ∧
      ∃ j n, FirstCollision t.enumNames j ∧ t.enumNames[j]? = some n ∧ capitalize n = "B" := by
  intro t
  have ht : t.Distinct := ⟨by decide, by decide⟩
  have herror : t.capitalized = .error (.duplicate .enumeration "B") :=
    eq_error_of_error? (by decide +kernel)
  obtain ⟨j, n, hfirst, hn, heq⟩ := (capitalized_loses_nothing ht).2.2 _ herror
  refine ⟨ht, herror, j, n, hfirst, hn, ?_⟩
  injection heq with _ hkey
  exact hkey.symm

end Table
end FunctionMap
