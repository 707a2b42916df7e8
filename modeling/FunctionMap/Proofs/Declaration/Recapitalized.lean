import FunctionMap.Proofs.Declaration.Loaded

/-!
# Capitalising names once is enough

The second time, types are looked up among other names than the first time: a type that names no
enumeration as written may be the new name of one. It does not change all the same, for the names it
is looked up among are capitalised already (`capitalizeType_renamed`). And the new names are as distinct
as they were, so no insertion is refused.

Main statement: `capitalized_idempotent`.
-/

namespace FunctionMap

/-! ## 1. Names -/

theorem capitalize_capitalize (name : String) :
    capitalize (capitalize name) = capitalize name := by
  rw [← String.toList_inj, toList_capitalize, toList_capitalize]
  cases name.toList with
  | nil => rfl
  | cons c cs =>
    dsimp only
    rw [UpperCase.upper_upper]

theorem length_capitalize (name : String) : (capitalize name).length = name.length := by
  rw [← String.length_toList, ← String.length_toList, toList_capitalize]
  cases name.toList <;> rfl

/-- Only the first character of a name changes. -/
theorem tail_capitalize (name : String) : (capitalize name).toList.tail = name.toList.tail := by
  rw [toList_capitalize]
  cases name.toList <;> rfl

namespace Table

/-! ## 2. Tables -/

theorem capitalize_of_mem_renamed {t : Table} {name : String} (h : name ∈ t.renamed.enumNames) :
    capitalize name = name := by
  rw [enumNames_renamed] at h
  obtain ⟨old, -, rfl⟩ := List.mem_map.mp h
  exact capitalize_capitalize old

/-- **Under the new names no type changes**, whether it names an enumeration or not. -/
theorem capitalizeType_renamed (t : Table) (typeName : String) :
    t.renamed.capitalizeType typeName = typeName := by
  by_cases h : typeName ∈ t.renamed.enumNames
  · rw [capitalizeType_of_mem h, capitalize_of_mem_renamed h]
  · exact capitalizeType_of_not_mem h

theorem capitalizeParameter_renamed (t : Table) (p : Parameter) :
    t.renamed.capitalizeParameter (t.capitalizeParameter p) = t.capitalizeParameter p := by
  rw [capitalizeParameter, capitalizeType_renamed, capitalizeParameter, capitalize_capitalize]

theorem capitalizeFunction_renamed (t : Table) (f : Function) :
    t.renamed.capitalizeFunction (t.capitalizeFunction f) = t.capitalizeFunction f := by
  have hparameters : (f.parameters.map t.capitalizeParameter).map t.renamed.capitalizeParameter
      = f.parameters.map t.capitalizeParameter := by
    rw [List.map_map]
    exact List.map_congr_left fun p _ => capitalizeParameter_renamed t p
  rw [capitalizeFunction, capitalizeFunction, capitalize_capitalize, hparameters]

theorem capitalized_capitalized (e : Enumeration) : e.capitalized.capitalized = e.capitalized := by
  have hvalues : (e.values.map EnumValue.capitalized).map EnumValue.capitalized
      = e.values.map EnumValue.capitalized := by
    rw [List.map_map]
    refine List.map_congr_left fun v _ => ?_
    rw [Function.comp_apply, EnumValue.capitalized, EnumValue.capitalized, capitalize_capitalize]
  rw [Enumeration.capitalized, Enumeration.capitalized, capitalize_capitalize, hvalues]

theorem renamed_renamed (t : Table) : t.renamed.renamed = t.renamed := by
  have henums : t.renamed.enums.map Enumeration.capitalized = t.renamed.enums := by
    rw [renamed, List.map_map]
    exact List.map_congr_left fun e _ => capitalized_capitalized e
  have hfunctions : t.renamed.functions.map t.renamed.capitalizeFunction = t.renamed.functions := by
    show (t.functions.map t.capitalizeFunction).map t.renamed.capitalizeFunction
      = t.functions.map t.capitalizeFunction
    rw [List.map_map]
    exact List.map_congr_left fun f _ => capitalizeFunction_renamed t f
  rw [renamed, henums, hfunctions]

/-- **Capitalising the names of a table a second time succeeds and changes nothing**; a type that is
    the new name of an enumeration by chance stays as it is both times. Of a name, only the first
    character changes, to another one that is its own upper case. -/
theorem capitalized_idempotent :
    (∀ t t' : Table, t.capitalized = .ok t' → t'.capitalized = .ok t' ∧
      ∀ (i j : Nat) (f : Function) (p : Parameter), t.functions[i]? = some f →
        f.parameters[j]? = some p → p.typeName ∉ t.enumNames → p.typeName ∈ t'.enumNames →
        ∃ f' p', t'.functions[i]? = some f' ∧ f'.parameters[j]? = some p' ∧
          p'.typeName = p.typeName) ∧
    ∀ name : String, capitalize (capitalize name) = capitalize name ∧
      (capitalize name).length = name.length ∧
      (capitalize name).toList.tail = name.toList.tail := by
  refine ⟨fun t t' h => ?_, fun name =>
    ⟨capitalize_capitalize name, length_capitalize name, tail_capitalize name⟩⟩
  obtain ⟨hdistinct, rfl⟩ := capitalized_eq_ok_iff.mp h
  refine ⟨capitalized_eq_ok_iff.mpr ?_, fun i j f p hf hp hnot _ => ?_⟩
  · rw [renamed_renamed]
    exact ⟨hdistinct, rfl⟩
  · refine ⟨t.capitalizeFunction f, t.capitalizeParameter p, ?_, ?_, capitalizeType_of_not_mem hnot⟩
    · rw [renamed, List.getElem?_map, hf]
      rfl
    · rw [capitalizeFunction, List.getElem?_map, hp]
      rfl

/-- The type `Kind` of the parameter `b` is not the enumeration `kind` as written, and stays. -/
theorem capitalized_twice_keeps_chance_name :
    let t : Table := ⟨[⟨"kind", "int", [⟨0, "éa"⟩]⟩],
      [⟨⟨1, 2⟩, "ßf", [⟨"kind", "a"⟩, ⟨"Kind", "b"⟩]⟩]⟩
    let t' : Table := ⟨[⟨"Kind", "int", [⟨0, "Éa"⟩]⟩],
      [⟨⟨1, 2⟩, "ßf", [⟨"Kind", "A"⟩, ⟨"Kind", "B"⟩]⟩]⟩
    t.capitalized = .ok t' ∧ t'.capitalized = .ok t' ∧ "Kind" ∉ t.enumNames ∧
      "Kind" ∈ t'.enumNames ∧ ∃ f' p', t'.functions[0]? = some f' ∧ f'.parameters[1]? = some p' ∧
        p'.typeName = "Kind" := by
  intro t t'
  have h : t.capitalized = .ok t' := eq_ok_of_toOption (by decide +kernel)
  have hnot : "Kind" ∉ t.enumNames := by decide
  have hmem : "Kind" ∈ t'.enumNames := by decide
  obtain ⟨htwice, hstays⟩ := capitalized_idempotent.1 t t' h
  exact ⟨h, htwice, hnot, hmem, hstays 0 1 _ ⟨"Kind", "b"⟩ rfl rfl hnot hmem⟩

end Table
end FunctionMap
