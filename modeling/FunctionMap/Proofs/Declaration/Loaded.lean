import FunctionMap.Proofs.Declaration.Capitalized
import FunctionMap.Proofs.Declaration.WellFormed
import FunctionMap.Proofs.Text.UpperCase

/-!
# Capitalising names keeps a table well-formed

The characters that matter for a well-formed name, delimiters and braces, are no capitals. So a
capitalised name is as plain as it was before, and a type that had no brace at its ends gets none.

Main statement: the table that a source is loaded as is well-formed (`wellFormed_of_load`).
-/

namespace FunctionMap

/-! ## 1. Names -/

open UpperCase (upper IsCapital upper_eq_or_isCapital)

/-- Capitalising keeps out what is no capital. -/
theorem upper_of_not_capital {p : Char → Bool} (hp : ∀ c, p c = true → ¬ IsCapital c.toNat)
    {c : Char} (hc : p c = false) : p (upper c) = false := by
  rcases upper_eq_or_isCapital c with hsame | hcapital
  · rw [hsame, hc]
  · exact Bool.eq_false_iff.mpr fun h => hp _ h hcapital

theorem isDelimiter_upper {c : Char} (h : Symbol.isDelimiter c = false) :
    Symbol.isDelimiter (upper c) = false := by
  refine upper_of_not_capital (fun d hd => ?_) h
  simp only [Symbol.isDelimiter, Symbol.isWhitespace, Bool.or_eq_true, decide_eq_true_eq] at hd
  unfold IsCapital
  rcases hd with ((((((rfl | rfl) | rfl) | rfl) | rfl) | rfl) | rfl) <;> decide

theorem isBrace_upper {c : Char} (h : Parser.isBrace c = false) :
    Parser.isBrace (upper c) = false := by
  refine upper_of_not_capital (fun d hd => ?_) h
  simp only [Parser.isBrace, Bool.or_eq_true, decide_eq_true_eq] at hd
  unfold IsCapital
  rcases hd with rfl | rfl <;> decide

theorem toList_capitalize (name : String) :
    (capitalize name).toList = match name.toList with
      | [] => []
      | c :: cs => upper c :: cs := by
  unfold capitalize
  cases name.toList with
  | nil => rfl
  | cons c cs => exact String.toList_ofList

theorem IsPlain.capitalize {name : String} (h : IsPlain name) : IsPlain (capitalize name) := by
  intro c hc
  rw [toList_capitalize] at hc
  split at hc
  · exact absurd hc List.not_mem_nil
  · rename_i d ds hname
    rw [IsPlain, hname] at h
    obtain ⟨hd, hds⟩ := List.forall_mem_cons.mp h
    rcases List.mem_cons.mp hc with rfl | hc
    · exact isDelimiter_upper hd
    · exact hds c hc

theorem unbraced_capitalize {name : String} (h : Blank.Trimmed Parser.isBrace name.toList) :
    Blank.Trimmed Parser.isBrace (capitalize name).toList := by
  obtain ⟨hhead, hlast⟩ := h
  rw [toList_capitalize]
  split
  · exact ⟨by simp, by simp⟩
  · rename_i c cs hname
    rw [hname] at hhead hlast
    have hc := isBrace_upper (hhead c rfl)
    refine ⟨fun d hd => ?_, fun d hd => ?_⟩
    · cases hd
      exact hc
    · cases cs with
      | nil =>
        cases hd
        exact hc
      | cons e es => exact hlast d hd

theorem capitalize_eq_empty_iff {name : String} : capitalize name = "" ↔ name = "" := by
  rw [← String.toList_inj, toList_capitalize, ← String.toList_inj]
  split <;> rename_i h <;> simp [h]

/-! ## 2. Tables -/

namespace Table

theorem capitalizeType_wellFormed (t : Table) {typeName : String} (hplain : IsPlain typeName)
    (hunbraced : Blank.Trimmed Parser.isBrace typeName.toList) :
    IsPlain (t.capitalizeType typeName) ∧
      Blank.Trimmed Parser.isBrace (t.capitalizeType typeName).toList := by
  unfold capitalizeType
  split
  · exact ⟨hplain.capitalize, unbraced_capitalize hunbraced⟩
  · exact ⟨hplain, hunbraced⟩

theorem WellFormed.renamed {t : Table} (h : t.WellFormed) (hdistinct : t.renamed.Distinct) :
    t.renamed.WellFormed where
  distinct := hdistinct
  enums := by
    intro e' he'
    obtain ⟨e, he, rfl⟩ := List.mem_map.mp he'
    obtain ⟨hname, htype, hunnamed, hvalues⟩ := h.enums e he
    refine ⟨hname.capitalize, htype, fun hempty => ?_, fun v' hv' => ?_⟩
    · exact hunnamed (capitalize_eq_empty_iff.mp hempty)
    · obtain ⟨v, hv, rfl⟩ := List.mem_map.mp hv'
      exact (hvalues v hv).capitalize
  functions := by
    intro f' hf'
    obtain ⟨f, hf, rfl⟩ := List.mem_map.mp hf'
    obtain ⟨hname, hparameters⟩ := h.functions f hf
    refine ⟨hname.capitalize, fun p' hp' => ?_⟩
    obtain ⟨p, hp, rfl⟩ := List.mem_map.mp hp'
    obtain ⟨htype, hunbraced, hname⟩ := hparameters p hp
    obtain ⟨htype, hunbraced⟩ := capitalizeType_wellFormed t htype hunbraced
    exact ⟨htype, hunbraced, hname.capitalize⟩

end Table

/-- **The table that a source is loaded as is well-formed.** -/
theorem wellFormed_of_load {source : Bytes} {t : Table} (h : load source = .ok t) :
    t.WellFormed := by
  unfold load at h
  cases hparse : parse source with
  | error e =>
    rw [hparse] at h
    cases h
  | ok u =>
    rw [hparse] at h
    obtain ⟨hdistinct, rfl⟩ := Table.capitalized_eq_ok_iff.mp h
    exact (wellFormed_of_parse hparse).renamed hdistinct

end FunctionMap
