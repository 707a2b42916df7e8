import FunctionMap.Yaml.Scalar
import FunctionMap.Proofs.Text.Legible

/-!
# Strings between quotes can be made out

A string between double quotes ends at the first quote without a backslash, and every character in it
is read back from its escape (`unescape_escape`). A string between single quotes ends at the first
quote that is not doubled, and the indentation behind its breaks is no part of it.

Main statements: `legible_double` and `legible_single`.
-/

namespace FunctionMap
namespace Yaml
namespace Scalar

/-! ## 1. Hexadecimal digits -/

theorem digitsFrom?_append (base v : Nat) (xs ys : List Char) :
    digitsFrom? base v (xs ++ ys) = (digitsFrom? base v xs).bind (digitsFrom? base · ys) := by
  induction xs generalizing v with
  | nil => rfl
  | cons x xs ih =>
    rw [List.cons_append, digitsFrom?, digitsFrom?]
    cases digitValue? x with
    | none => rfl
    | some d =>
      dsimp only
      split
      · exact ih _
      · rfl

theorem digitValue?_hexDigit : ∀ n < 16, digitValue? (hexDigit n) = some n := by decide

theorem length_hex (width n : Nat) : (hex width n).length = width := by
  induction width generalizing n with
  | zero => rfl
  | succ width ih => rw [hex, List.length_append, ih, List.length_singleton]

/-- What holds of every digit holds of the characters of a number. -/
theorem forall_mem_hex {P : Char → Prop} (h : ∀ k < 16, P (hexDigit k)) (width n : Nat) :
    ∀ c ∈ hex width n, P c := by
  induction width generalizing n with
  | zero => exact fun c hc => absurd hc List.not_mem_nil
  | succ width ih =>
    intro c hc
    rcases List.mem_append.mp hc with hc | hc
    · exact ih _ c hc
    · rw [List.mem_singleton.mp hc]
      exact h _ (Nat.mod_lt n (by decide))

theorem digitsFrom?_hex {width n : Nat} (h : n < Nat.pow 16 width) :
    digitsFrom? 16 0 (hex width n) = some n := by
  induction width generalizing n with
  | zero =>
    rw [Nat.lt_one_iff.mp h]
    rfl
  | succ width ih =>
    have hpow : Nat.pow 16 (width + 1) = 16 * Nat.pow 16 width := Nat.pow_succ'
    have hfront : n / 16 < Nat.pow 16 width := Nat.div_lt_of_lt_mul (hpow ▸ h)
    have hlast : n % 16 < 16 := Nat.mod_lt n (by decide)
    rw [hex, digitsFrom?_append, ih hfront, Option.bind_some, digitsFrom?,
      digitValue?_hexDigit _ hlast]
    dsimp only
    rw [if_pos hlast, Nat.div_add_mod' n 16]
    rfl

theorem digits?_hex {width n : Nat} (hwidth : 0 < width) (h : n < Nat.pow 16 width) :
    digits? 16 (hex width n) = some n := by
  have hne : hex width n ≠ [] := by
    intro hnil
    have hlength := length_hex width n
    rw [hnil] at hlength
    exact absurd hlength.symm (Nat.ne_of_gt hwidth)
  obtain ⟨c, cs, hcons⟩ := List.exists_cons_of_ne_nil hne
  rw [← digitsFrom?_hex h, hcons]
  rfl

/-! ## 2. Double quotes -/

/-- How many digits stand behind a letter that announces digits. -/
def width? (letter : Char) : Option Nat :=
  if letter = 'x' then some 2
  else if letter = 'u' then some 4
  else if letter = 'U' then some 8
  else none

/-- The characters that are written as a backslash and a letter, with their letters. -/
def letters : List (Char × Char) :=
  [('\\', '\\'), ('"', '"'), ('\n', 'n'), ('\x00', '0'), ('\x07', 'a'), ('\x08', 'b'), ('\t', 't'),
   ('\x0B', 'v'), ('\x0C', 'f'), ('\r', 'r'), ('\x1B', 'e'), ('\u0085', 'N'), ('\u2028', 'L'),
   ('\u2029', 'P')]

/-- The character of a letter. -/
def named? (letter : Char) : Option Char := (letters.find? (·.2 = letter)).map (·.1)

/-- The first character between double quotes, and what is behind its text. -/
def unescape : List Char → Option (Char × List Char)
  | '\\' :: letter :: rest =>
    match width? letter with
    | some width =>
      (digits? 16 (rest.take width)).map fun n => (Char.ofNat n, rest.drop width)
    | none => (named? letter).map fun c => (c, rest)
  | c :: rest => some (c, rest)
  | [] => none

theorem unescape_digits {letter c : Char} {width : Nat} (hletter : width? letter = some width)
    (hwidth : 0 < width) (hc : c.toNat < Nat.pow 16 width) (rest : List Char) :
    unescape ('\\' :: letter :: hex width c.toNat ++ rest) = some (c, rest) := by
  have hlength := length_hex width c.toNat
  rw [List.cons_append, List.cons_append, unescape, hletter]
  dsimp only
  rw [List.take_left' hlength, List.drop_left' hlength, digits?_hex hwidth hc, Option.map_some,
    Char.ofNat_toNat]

theorem escape_of_mem : ∀ p ∈ letters, escape p.1 = ['\\', p.2] ∧ width? p.2 = none ∧
    named? p.2 = some p.1 := by
  decide

theorem escape_of_not_mem {c : Char} (h : ∀ p ∈ letters, c ≠ p.1) :
    escape c = if isPrintable c && !isBreak c then [c]
      else if c.toNat ≤ 0xFF then '\\' :: 'x' :: hex 2 c.toNat
      else if c.toNat ≤ 0xFFFF then '\\' :: 'u' :: hex 4 c.toNat
      else '\\' :: 'U' :: hex 8 c.toNat := by
  simp only [letters, List.forall_mem_cons] at h
  obtain ⟨h₁, h₂, h₃, h₄, h₅, h₆, h₇, h₈, h₉, h₁₀, h₁₁, h₁₂, h₁₃, h₁₄, -⟩ := h
  simp only [escape, h₁, h₂, h₃, h₄, h₅, h₆, h₇, h₈, h₉, h₁₀, h₁₁, h₁₂, h₁₃, h₁₄, if_false]

theorem unescape_escape (c : Char) (rest : List Char) :
    unescape (escape c ++ rest) = some (c, rest) := by
  by_cases hletter : ∃ p ∈ letters, c = p.1
  · obtain ⟨p, hp, rfl⟩ := hletter
    obtain ⟨hescape, hwidth, hnamed⟩ := escape_of_mem p hp
    rw [hescape, List.cons_append, List.cons_append, List.nil_append, unescape, hwidth, hnamed]
    rfl
  · have hletter : ∀ p ∈ letters, c ≠ p.1 := fun p hp hc => hletter ⟨p, hp, hc⟩
    rw [escape_of_not_mem hletter]
    split
    · rw [List.singleton_append, unescape]
      exact fun _ _ hc => absurd hc (hletter ('\\', '\\') List.mem_cons_self)
    split
    · rename_i hc
      exact unescape_digits rfl (by decide) (Nat.lt_of_le_of_lt hc (by decide)) rest
    split
    · rename_i hc
      exact unescape_digits rfl (by decide) (Nat.lt_of_le_of_lt hc (by decide)) rest
    · have hc : c.toNat < Nat.pow 16 8 := c.val.toNat_lt
      exact unescape_digits rfl (by decide) hc rest

/-- **A double-quoted scalar is legible in front of anything.** -/
theorem legible_double :
    Legible (fun s : List Char => '"' :: s.flatMap escape ++ ['"']) id Any Any :=
  .quoted unescape_escape (fun _ => rfl) fun _ _ h => by cases h

/-! ## 3. Single quotes -/

/-- What stands in front of a character or the last quote, behind a break or not. -/
def lead (indent : Nat) (afterBreak : Bool) : List Char :=
  if afterBreak then indentation indent else []

/-- A character between single quotes that is no break. -/
def doubled (c : Char) : List Char := if c = '\'' then ['\'', '\''] else [c]

theorem writeSingle_of_break {c : Char} (hc : isBreak c = true) (indent : Nat) (afterBreak : Bool)
    (cs : List Char) :
    writeSingle indent afterBreak (c :: cs) = c :: writeSingle indent true cs := by
  rw [writeSingle, if_pos hc]

theorem writeSingle_of_not_break {c : Char} (hc : isBreak c = false) (indent : Nat)
    (afterBreak : Bool) (cs : List Char) :
    writeSingle indent afterBreak (c :: cs)
      = lead indent afterBreak ++ (doubled c ++ writeSingle indent false cs) := by
  rw [writeSingle, if_neg (by rw [hc]; decide), List.append_assoc]
  rfl

/-- Behind the lead stands no break. -/
theorem lead_ne_break {c d : Char} (hc : isBreak c = true) (hd : isBreak d = false) (indent : Nat)
    (afterBreak : Bool) (r s : List Char) : c :: r ≠ lead indent afterBreak ++ d :: s := by
  have hne : c ≠ d := by
    rintro rfl
    rw [hc] at hd
    cases hd
  have hspace : c ≠ ' ' := by
    rintro rfl
    cases hc
  intro h
  cases afterBreak with
  | false =>
    injection h with h
    exact hne h
  | true =>
    cases indent with
    | zero =>
      injection h with h
      exact hne h
    | succ n =>
      injection h with h
      exact hspace h

/-- A quote stands for the end exactly if no other one follows it. -/
theorem quote_ne_doubled {r : List Char} (hr : ∀ c ∈ r.head?, c ≠ '\'') (c : Char) (s : List Char) :
    '\'' :: r ≠ doubled c ++ s := by
  intro h
  by_cases hc : c = '\''
  · rw [doubled, if_pos hc] at h
    injection h with _ h
    rw [h] at hr
    exact hr '\'' rfl rfl
  · rw [doubled, if_neg hc] at h
    injection h with h
    exact hc h.symm

theorem exists_doubled_append (c : Char) (s : List Char) :
    ∃ t, doubled c ++ s = c :: t := by
  by_cases hc : c = '\''
  · subst hc
    exact ⟨'\'' :: s, rfl⟩
  · exact ⟨s, by rw [doubled, if_neg hc]; rfl⟩

theorem doubled_append_inj {c d : Char} {r s : List Char} (h : doubled c ++ r = doubled d ++ s) :
    c = d ∧ r = s := by
  have hcd : c = d := by
    obtain ⟨t, ht⟩ := exists_doubled_append c r
    obtain ⟨u, hu⟩ := exists_doubled_append d s
    rw [ht, hu] at h
    exact (List.cons.inj h).1
  subst hcd
  exact ⟨rfl, List.append_cancel_left h⟩

/-- The end of a string is not a character of it. -/
theorem writeSingle_nil_ne_cons (indent : Nat) (afterBreak : Bool) {r : List Char}
    (hr : ∀ c ∈ r.head?, c ≠ '\'') (c : Char) (cs s : List Char) :
    writeSingle indent afterBreak [] ++ '\'' :: r ≠ writeSingle indent afterBreak (c :: cs) ++ s := by
  rw [writeSingle]
  cases hc : isBreak c with
  | true =>
    rw [writeSingle_of_break hc]
    exact (lead_ne_break hc (by decide) indent afterBreak _ _).symm
  | false =>
    rw [writeSingle_of_not_break hc, List.append_assoc, List.append_assoc]
    exact fun h => quote_ne_doubled hr c _ (List.append_cancel_left h)

/-- A break is not a character that is none. -/
theorem writeSingle_break_ne {c d : Char} (hc : isBreak c = true) (hd : isBreak d = false)
    (indent : Nat) (afterBreak : Bool) (cs ds r s : List Char) :
    writeSingle indent afterBreak (c :: cs) ++ r ≠ writeSingle indent afterBreak (d :: ds) ++ s := by
  rw [writeSingle_of_break hc, writeSingle_of_not_break hd, List.append_assoc, List.append_assoc]
  obtain ⟨t, ht⟩ := exists_doubled_append d (writeSingle indent false ds ++ s)
  rw [ht]
  exact lead_ne_break hc hd indent afterBreak _ _

/-- Strings between single quotes end at the first quote that is not doubled; the spaces behind a
    break are as many as the indentation has. -/
theorem writeSingle_append_inj (indent : Nat) {r s : List Char} (hr : ∀ c ∈ r.head?, c ≠ '\'')
    (hs : ∀ c ∈ s.head?, c ≠ '\'') {afterBreak : Bool} {a b : List Char}
    (h : writeSingle indent afterBreak a ++ '\'' :: r
      = writeSingle indent afterBreak b ++ '\'' :: s) : a = b ∧ r = s := by
  induction a generalizing b afterBreak with
  | nil =>
    cases b with
    | nil => exact ⟨rfl, (List.cons.inj (List.append_cancel_left h)).2⟩
    | cons d b => exact absurd h (writeSingle_nil_ne_cons indent afterBreak hr d b _)
  | cons c a ih =>
    cases b with
    | nil => exact absurd h.symm (writeSingle_nil_ne_cons indent afterBreak hs c a _)
    | cons d b =>
      cases hc : isBreak c with
      | true =>
        cases hd : isBreak d with
        | true =>
          rw [writeSingle_of_break hc, writeSingle_of_break hd] at h
          obtain ⟨rfl, hrest⟩ := List.cons.inj h
          obtain ⟨rfl, hrs⟩ := ih hrest
          exact ⟨rfl, hrs⟩
        | false => exact absurd h (writeSingle_break_ne hc hd indent afterBreak _ _ _ _)
      | false =>
        cases hd : isBreak d with
        | true => exact absurd h.symm (writeSingle_break_ne hd hc indent afterBreak _ _ _ _)
        | false =>
          rw [writeSingle_of_not_break hc, writeSingle_of_not_break hd] at h
          simp only [List.append_assoc] at h
          obtain ⟨rfl, hrest⟩ := doubled_append_inj (List.append_cancel_left h)
          obtain ⟨rfl, hrs⟩ := ih hrest
          exact ⟨rfl, hrs⟩

theorem legible_single (indent : Nat) :
    Legible (fun s => '\'' :: writeSingle indent false s ++ ['\'']) id Any
      fun r => ∀ c ∈ r.head?, c ≠ '\'' := by
  intro a b _ _ r s hr hs h
  simp only [List.cons_append, List.append_assoc, List.nil_append, List.cons.injEq, true_and] at h
  exact writeSingle_append_inj indent hr hs h

end Scalar
end Yaml
end FunctionMap
