/-!
# Integers as decimal text

An integer token is an optional sign and one or more ASCII digits, and its value must fit the
signed integers of 32 or 64 bits. This file holds

* the reader (`read`), which takes one digit at a time and never leaves the range without saying so;
* the reasons for which a text is no integer (`Fault`), in the words that a message uses;
* the writer (`write`), the shortest decimal text of an integer.

Two faults can stand in one text. The first one from the left counts: a number that leaves the
range before the first character that is no digit is out of range, not malformed.
-/

namespace FunctionMap
namespace Numeral

/-! ## 1. Widths -/

/-- The sizes of integers that a source can hold. -/
inductive Width where
  | bits32 | bits64
  deriving DecidableEq, Repr

/-- The least integer of a width. -/
def Width.least : Width → Int
  | .bits32 => -2147483648
  | .bits64 => -9223372036854775808

/-- The greatest integer of a width. -/
def Width.greatest : Width → Int
  | .bits32 => 2147483647
  | .bits64 => 9223372036854775807

/-- The integers that a width can hold. -/
def Width.Holds (w : Width) (v : Int) : Prop := w.least ≤ v ∧ v ≤ w.greatest

instance (w : Width) (v : Int) : Decidable (w.Holds v) :=
  inferInstanceAs (Decidable (_ ∧ _))

/-! ## 2. Reading -/

/-- Why a text is no integer of a width. -/
inductive Fault where
  | empty | invalidDigit | tooLarge | tooSmall
  deriving DecidableEq, Repr

/-- The wording of a fault. -/
def Fault.message : Fault → String
  | .empty => "cannot parse integer from empty string"
  | .invalidDigit => "invalid digit found in string"
  | .tooLarge => "number too large to fit in target type"
  | .tooSmall => "number too small to fit in target type"

/-- The value of an ASCII digit. -/
def digit? (c : Char) : Option Nat :=
  if c.isDigit then some (c.toNat - '0'.toNat) else none

/-- The sign before the digits of a number. -/
inductive Sign where
  | plus | minus
  deriving DecidableEq, Repr

/-- The value `v` with one more digit behind it: away from zero, on the side of the sign. -/
def Sign.extend (s : Sign) (v : Int) (d : Nat) : Int :=
  match s with
  | .plus => v * 10 + d
  | .minus => v * 10 - d

/-- The fault of a number that leaves the range on the side of its sign. -/
def Sign.overflow : Sign → Fault
  | .plus => .tooLarge
  | .minus => .tooSmall

/-- Reads the digits that follow the value `v`. -/
def readDigits (w : Width) (s : Sign) (v : Int) : List Char → Except Fault Int
  | [] => .ok v
  | c :: cs =>
    match digit? c with
    | none => .error .invalidDigit
    | some d => if w.Holds (s.extend v d) then readDigits w s (s.extend v d) cs else .error s.overflow

/-- Reads the digits of a number: there is at least one. -/
def readUnsigned (w : Width) (s : Sign) : List Char → Except Fault Int
  | [] => .error .invalidDigit
  | c :: cs => readDigits w s 0 (c :: cs)

/-- Reads an integer of width `w` from the whole of a text. -/
def read (w : Width) : List Char → Except Fault Int
  | [] => .error .empty
  | '+' :: cs => readUnsigned w .plus cs
  | '-' :: cs => readUnsigned w .minus cs
  | c :: cs => readDigits w .plus 0 (c :: cs)

/-- Reads an integer of width `w` as a value of a type that has one for each of them. -/
def readAs {α : Type} (w : Width) (ofInt : Int → α) (text : List Char) : Except Fault α :=
  (read w text).map ofInt

/-- Reads a signed integer of 32 bits. -/
abbrev readInt32 (text : List Char) : Except Fault Int32 := readAs .bits32 Int32.ofInt text

/-! ## 3. Writing -/

/-- The decimal text of a natural number, without leading zeros. -/
def writeNat (n : Nat) : List Char := Nat.toDigits 10 n

/-- The decimal text of an integer: a minus sign where there is one, never a plus sign. -/
def write (v : Int) : List Char :=
  if v < 0 then '-' :: writeNat v.natAbs else writeNat v.natAbs

end Numeral
end FunctionMap
