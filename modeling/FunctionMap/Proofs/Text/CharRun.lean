/-!
# Runs of characters of a class

The longest run of characters of a class at the start of a text, and what stands behind it. A run is
as long as possible if no character of the class follows it.
-/

namespace FunctionMap

section CharRun

variable {p : Char → Bool} {run rest : List Char}

/-- No character of the class stands behind the longest run of them. -/
theorem head?_dropWhile (text : List Char) : ∀ c ∈ (text.dropWhile p).head?, p c = false := by
  intro c hc
  have h := List.head?_dropWhile_not p text
  rw [Option.mem_def.mp hc] at h
  simpa using h

theorem mem_takeWhile {text : List Char} {c : Char} (h : c ∈ text.takeWhile p) : p c = true :=
  List.all_eq_true.mp List.all_takeWhile c h

theorem dropWhile_eq_self (hrest : ∀ c ∈ rest.head?, p c = false) : rest.dropWhile p = rest := by
  cases rest with
  | nil => rfl
  | cons c rest => exact List.dropWhile_cons_of_neg (by rw [hrest c rfl]; decide)

theorem takeWhile_eq_nil (hrest : ∀ c ∈ rest.head?, p c = false) : rest.takeWhile p = [] := by
  cases rest with
  | nil => rfl
  | cons c rest => exact List.takeWhile_cons_of_neg (by rw [hrest c rfl]; decide)

theorem dropWhile_of_maximal (hrun : ∀ c ∈ run, p c = true)
    (hrest : ∀ c ∈ rest.head?, p c = false) : (run ++ rest).dropWhile p = rest := by
  rw [List.dropWhile_append_of_pos hrun, dropWhile_eq_self hrest]

theorem takeWhile_of_maximal (hrun : ∀ c ∈ run, p c = true)
    (hrest : ∀ c ∈ rest.head?, p c = false) : (run ++ rest).takeWhile p = run := by
  rw [List.takeWhile_append_of_pos hrun, takeWhile_eq_nil hrest, List.append_nil]

theorem takeWhile_eq_self (hrun : ∀ c ∈ run, p c = true) : run.takeWhile p = run := by
  have h : (run ++ []).takeWhile p = run := takeWhile_of_maximal hrun (by simp)
  rwa [List.append_nil] at h

end CharRun
end FunctionMap
