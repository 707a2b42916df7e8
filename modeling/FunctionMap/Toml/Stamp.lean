import FunctionMap.Toml.Value

/-!
# Tables that stand for points in time

A table whose first key is a reserved one stands for the point in time that the string under this
key spells. What other keys such a table has does not count, but the string has to spell a point in
time.
-/

namespace FunctionMap
namespace Toml

/-- The key that makes a table stand for a point in time. -/
def reservedKey : String := "$__toml_private_datetime"

/-- The point in time that a value spells, which has to be a string. -/
def Value.spelt? : Value → Option Time
  | .scalar (.string s) => Time.ofText? s.toList
  | _ => none

mutual

/-- A value in which every table that stands for a point in time has become one. -/
def Value.stamped? : Value → Option Value
  | .scalar s => some (.scalar s)
  | .array elements => (stampedElements? elements).map .array
  | .table [] => some (.table [])
  | .table ((key, value) :: rest) =>
    if key = reservedKey then value.spelt?.map fun t => .scalar (.time t)
    else do return .table ((key, ← value.stamped?) :: (← stampedEntries? rest))

/-- Some values in which every table that stands for a point in time has become one. -/
def stampedElements? : List Value → Option (List Value)
  | [] => some []
  | value :: rest => do return (← value.stamped?) :: (← stampedElements? rest)

/-- The entries of a table that is none of these, in which every one of them has become a point in
    time. -/
def stampedEntries? : List (String × Value) → Option (List (String × Value))
  | [] => some []
  | (key, value) :: rest => do return (key, ← value.stamped?) :: (← stampedEntries? rest)

end

end Toml
end FunctionMap
