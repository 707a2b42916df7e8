import FunctionMap.Text.Numeral

/-!
# Digits and decimal fractions

Digits of any base up to sixteen, and numbers `coefficient · 10 ^ exponent` as they are spelt with a
point and an exponent. Numbers are compared exactly; what double precision makes of them is in
`Binary64`.
-/

namespace FunctionMap

/-! ## 1. Digits -/

/-- The value of a digit, in any base up to sixteen. -/
def digitValue? (c : Char) : Option Nat :=
  if '0' ≤ c ∧ c ≤ '9' then some (c.toNat - '0'.toNat)
  else if 'a' ≤ c ∧ c ≤ 'f' then some (c.toNat - 'a'.toNat + 10)
  else if 'A' ≤ c ∧ c ≤ 'F' then some (c.toNat - 'A'.toNat + 10)
  else none

/-- The value of the digits that follow the value `v`. -/
def digitsFrom? (base v : Nat) : List Char → Option Nat
  | [] => some v
  | c :: cs =>
    match digitValue? c with
    | some d => if d < base then digitsFrom? base (v * base + d) cs else none
    | none => none

/-- The value of one or more digits. -/
def digits? (base : Nat) : List Char → Option Nat
  | [] => none
  | cs => digitsFrom? base 0 cs

/-! ## 2. Decimal fractions -/

/-- The number `coefficient · 10 ^ exponent`. -/
structure Decimal where
  coefficient : Nat
  exponent : Int
  deriving DecidableEq, Repr

namespace Decimal

/-- The exponent behind an `e`, or zero where the text ends. -/
def exponent? : List Char → Option Int
  | [] => some 0
  | c :: cs =>
    if c = 'e' ∨ c = 'E' then
      match cs with
      | '-' :: ds => (digits? 10 ds).map fun n => -(n : Int)
      | '+' :: ds => (digits? 10 ds).map fun n => (n : Int)
      | ds => (digits? 10 ds).map fun n => (n : Int)
    else none

/-- The number that a text without a sign spells: digits with at most one point among them, then an
    exponent. -/
def ofText? (s : List Char) : Option Decimal :=
  let whole := s.takeWhile Char.isDigit
  let behind := s.dropWhile Char.isDigit
  let fraction := match behind with
    | '.' :: r => r.takeWhile Char.isDigit
    | _ => []
  let rest := match behind with
    | '.' :: r => r.dropWhile Char.isDigit
    | r => r
  match digits? 10 (whole ++ fraction), exponent? rest with
  | some n, some e => some ⟨n, e - fraction.length⟩
  | _, _ => none

/-- The number of digits before the point, negative where zeros follow the point. A number of order
    `k` lies below `10 ^ k`, and zero apart not below `10 ^ (k - 1)`. -/
def order (d : Decimal) : Int := (Numeral.writeNat d.coefficient).length + d.exponent

/-- Whether a number is less than another one. -/
def less (a b : Decimal) : Bool :=
  a.coefficient * Nat.pow 10 (a.exponent - b.exponent).toNat
    < b.coefficient * Nat.pow 10 (b.exponent - a.exponent).toNat

/-- How often the step `10 ^ exponent` goes into a number. -/
def steps (d : Decimal) (exponent : Int) : Nat :=
  d.coefficient * Nat.pow 10 (d.exponent - exponent).toNat
    / Nat.pow 10 (exponent - d.exponent).toNat

/-- The text of a number without an exponent: behind the point stand only digits that are needed. -/
def text (d : Decimal) : List Char :=
  let digits := Numeral.writeNat d.coefficient
  if d.coefficient = 0 then digits
  else if 0 ≤ d.exponent then digits ++ List.replicate d.exponent.toNat '0'
  else
    let places := (-d.exponent).toNat
    let padded := List.replicate (places + 1 - digits.length) '0' ++ digits
    let fraction := (padded.drop (padded.length - places)).reverse.dropWhile (· = '0')
    padded.take (padded.length - places)
      ++ if fraction = [] then [] else '.' :: fraction.reverse

end Decimal
end FunctionMap
