import FunctionMap.Text.Binary64

/-!
# Plain scalars that are no strings

A YAML reader takes an unquoted scalar for null, a truth value or a number where it looks like one,
so a string with such a text has to be quoted. This file tells these texts:

* `isNull`, `isTruth` -- the spellings of null and of the truth values;
* `isInteger` -- decimal, or `0x`, `0o`, `0b`, within 128 bits;
* `isFloat` -- infinities, not-a-number, and decimal fractions that are finite in double precision;
* `hasLeadingZero` -- digits after a zero, which are a string but read as a number elsewhere.
-/

namespace FunctionMap
namespace Yaml

/-! ## 1. Words -/

/-- The spellings of null, the empty one included. -/
def isNull (s : List Char) : Bool :=
  s == [] || s == "~".toList || s == "null".toList || s == "Null".toList || s == "NULL".toList

/-- The spellings of the truth values. -/
def isTruth (s : List Char) : Bool :=
  s == "true".toList || s == "True".toList || s == "TRUE".toList
    || s == "false".toList || s == "False".toList || s == "FALSE".toList

/-! ## 2. Signs and leading zeros -/

/-- A text without one leading sign of a kind. -/
def dropSign (signs : List Char) : List Char → List Char
  | [] => []
  | c :: cs => if c ∈ signs then cs else c :: cs

/-- Digits after a leading zero, with or without a sign. -/
def hasLeadingZero (s : List Char) : Bool :=
  match dropSign ['-', '+'] s with
  | '0' :: d :: ds => (d :: ds).all Char.isDigit
  | _ => false

/-! ## 3. Integers -/

/-- The base that a marker announces, and the digits behind the marker. -/
def radix? : List Char → Option (Nat × List Char)
  | '0' :: 'x' :: ds => some (16, ds)
  | '0' :: 'o' :: ds => some (8, ds)
  | '0' :: 'b' :: ds => some (2, ds)
  | _ => none

/-- The magnitude of an integer, the sign taken off. -/
def magnitude? (s : List Char) : Option Nat :=
  match radix? s with
  | some (base, ds) => digits? base ds
  | none => if hasLeadingZero s then none else digits? 10 s

/-- Integers that fit 128 bits, unsigned or with a minus sign. -/
def isInteger : List Char → Bool
  | '-' :: s => (magnitude? s).any (· ≤ Nat.pow 2 127)
  | '+' :: s => (magnitude? s).any (· < Nat.pow 2 128)
  | s => (magnitude? s).any (· < Nat.pow 2 128)

/-! ## 4. Fractions -/

/-- The spellings of infinity, the sign taken off. -/
def isInfinity (s : List Char) : Bool :=
  s == ".inf".toList || s == ".Inf".toList || s == ".INF".toList

/-- The spellings of not-a-number. -/
def isNotANumber (s : List Char) : Bool :=
  s == ".nan".toList || s == ".NaN".toList || s == ".NAN".toList

/-- Infinities, not-a-number and finite decimal numbers. -/
def isFloat (s : List Char) : Bool :=
  let unsigned := dropSign ['-', '+'] s
  isNotANumber s || isInfinity unsigned
    || ((Decimal.ofText? unsigned).bind Binary64.nearest?).isSome

/-! ## 5. All of them -/

/-- Whether a plain scalar would be read as something else than the string it stands for. -/
def readsAsOther (s : List Char) : Bool :=
  isNull s || isTruth s || isInteger s || hasLeadingZero s || isFloat s

end Yaml
end FunctionMap
