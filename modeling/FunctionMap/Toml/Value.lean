import FunctionMap.Text.Binary64
import FunctionMap.Toml.Time

/-!
# TOML values

The values of a TOML file: scalars, arrays and tables. A number with a fraction or an exponent has
double precision.
-/

namespace FunctionMap
namespace Toml

/-! ## 1. Numbers with a fraction -/

/-- A number of double precision, an infinity, or not-a-number, whose sign does not count. -/
inductive Real where
  | finite (negative : Bool) (magnitude : Binary64)
  | infinity (negative : Bool)
  | notANumber
  deriving DecidableEq, Repr

namespace Real

/-- The text of a number; it never has an exponent. -/
def text : Real → String
  | .finite negative x => String.ofList ((if negative then ['-'] else []) ++ x.text)
  | .infinity negative => if negative then "-inf" else "inf"
  | .notANumber => "NaN"

/-- The text of a number that is told from an integer by a point. -/
def pointedText (x : Real) : String :=
  match x with
  | .finite _ _ => if '.' ∈ x.text.toList then x.text else x.text ++ ".0"
  | _ => x.text

/-- Whether a number is zero. -/
def isZero : Real → Bool
  | .finite _ x => x.isZero
  | _ => false

end Real

/-! ## 2. Values -/

/-- A value without parts. -/
inductive Scalar where
  | string (s : String)
  | integer (n : Int)
  | real (x : Real)
  | boolean (b : Bool)
  | time (t : Time)
  deriving DecidableEq, Repr

/-- A value of a TOML file. -/
inductive Value where
  | scalar (s : Scalar)
  | array (elements : List Value)
  | table (entries : List (String × Value))
  deriving Repr

end Toml
end FunctionMap
