/-!
# Classes of characters

A class of characters is given by the runs of their code points, in order.
-/

namespace FunctionMap

/-- The first and last code points of runs, each run behind the one before. -/
abbrev CharClass := List (Nat × Nat)

namespace CharClass

/-- Whether a code point lies in one of some runs. -/
def covers : CharClass → Nat → Bool
  | [], _ => false
  | (first, last) :: rest, n => first ≤ n && (n ≤ last || covers rest n)

/-- Whether a character belongs to a class. -/
def has (k : CharClass) (c : Char) : Bool := k.covers c.toNat

end CharClass
end FunctionMap
