import FunctionMap.Text.Decimal

/-!
# Numbers of double precision

A number of double precision is `significand · 2 ^ exponent`, with 53 bits for the significand and a
bounded exponent. This file holds

* the reader (`nearest?`), which takes the closest such number, of two that are equally close the
  one with the even significand;
* the writer (`shortest`), the fewest decimal digits that the reader takes for this number, of those
  the closest, and of two that are equally close the greater one.

All of it is exact arithmetic on natural numbers.
-/

namespace FunctionMap

/-- The number `significand · 2 ^ exponent`. -/
structure Binary64 where
  significand : Nat
  exponent : Int
  deriving DecidableEq, Repr

namespace Binary64

/-! ## 1. The format -/

/-- The number of bits behind the first one of a significand. -/
def fractionBits : Nat := 52

/-- The least significand of full length. -/
def leastFull : Nat := Nat.pow 2 fractionBits

/-- The exponent of the finest numbers, and so the least one. -/
def leastExponent : Int := -1074

/-- The exponent of the coarsest finite numbers. -/
def greatestExponent : Int := 971

/-- Zero. -/
def zero : Binary64 := ⟨0, leastExponent⟩

/-- Whether a number is zero. -/
def isZero (x : Binary64) : Bool := x.significand = 0

/-! ## 2. Reading -/

/-- The greatest `e` with `2 ^ e ≤ num / den`, both of which are positive. -/
def floorLog2 (num den : Nat) : Int :=
  let e : Int := (num.log2 : Int) - den.log2
  if num * Nat.pow 2 (-e).toNat < den * Nat.pow 2 e.toNat then e - 1 else e

/-- The integer closest to `num / den`; a half goes to the even one of its neighbours. -/
def roundQuotient (num den : Nat) : Nat :=
  let below := num / den
  let twice := 2 * (num % den)
  if twice < den ∨ (twice = den ∧ below % 2 = 0) then below else below + 1

/-- The number closest to a quotient of positive numbers, or none where it is not finite. -/
def ofRatio? (num den : Nat) : Option Binary64 :=
  let e := max (floorLog2 num den - fractionBits) leastExponent
  let m := roundQuotient (num * Nat.pow 2 (-e).toNat) (den * Nat.pow 2 e.toNat)
  let x : Binary64 := if m = 2 * leastFull then ⟨leastFull, e + 1⟩ else ⟨m, e⟩
  if x.exponent ≤ greatestExponent then some x else none

/-- The greatest order of a decimal fraction that can be finite. -/
def greatestOrder : Int := 309

/-- The least order of a decimal fraction that is not closest to zero. -/
def leastOrder : Int := -323

/-- The number closest to a decimal fraction, or none where it is not finite. -/
def nearest? (d : Decimal) : Option Binary64 :=
  if d.coefficient = 0 ∨ d.order < leastOrder then some zero
  else if greatestOrder < d.order then none
  else ofRatio? (d.coefficient * Nat.pow 10 d.exponent.toNat) (Nat.pow 10 (-d.exponent).toNat)

/-! ## 3. Writing -/

/-- The number `n · 2 ^ e` as a decimal fraction. -/
def scaled (n : Nat) (e : Int) : Decimal :=
  if 0 ≤ e then ⟨n * Nat.pow 2 e.toNat, 0⟩ else ⟨n * Nat.pow 5 (-e).toNat, e⟩

/-- The value of a number. -/
def value (x : Binary64) : Decimal := scaled x.significand x.exponent

/-- Half way to the number below, which is closer below the least significand of full length. -/
def lowEnd (x : Binary64) : Decimal :=
  scaled (4 * x.significand - if x.significand = leastFull then 1 else 2) (x.exponent - 2)

/-- Half way to the number above. -/
def highEnd (x : Binary64) : Decimal := scaled (4 * x.significand + 2) (x.exponent - 2)

/-- Whether a decimal fraction is read as a number: it lies between the two ends, and the ends
    belong to the number with the even significand. -/
def claims (x : Binary64) (d : Decimal) : Bool :=
  if x.significand % 2 = 0 then !d.less x.lowEnd && !x.highEnd.less d
  else x.lowEnd.less d && d.less x.highEnd

/-- Of the multiples of `10 ^ exponent` that are read as a number the closest one, if there is any:
    it is one of the two neighbours of the value. -/
def onGrid? (x : Binary64) (exponent : Int) : Option Decimal :=
  let n := x.value.steps exponent
  let below : Decimal := ⟨n, exponent⟩
  let above : Decimal := ⟨n + 1, exponent⟩
  let twice : Decimal := { x.value with coefficient := 2 * x.value.coefficient }
  if x.claims below && (twice.less ⟨2 * n + 1, exponent⟩ || !x.claims above) then some below
  else if x.claims above then some above
  else none

/-- The number of digits that tell every number from all others. -/
def digitLimit : Nat := 17

/-- The decimal fraction with the fewest digits that is read as a number. -/
def shortest (x : Binary64) : Decimal :=
  let order := x.value.order
  ((List.range digitLimit).findSome? fun i => x.onGrid? (order - (i + 1 : Nat))).getD x.value

/-- A number without an exponent, with the fewest digits that are read as it. -/
def text (x : Binary64) : List Char := if x.isZero then ['0'] else x.shortest.text

end Binary64
end FunctionMap
