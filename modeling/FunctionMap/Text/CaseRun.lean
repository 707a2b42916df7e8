/-!
# Runs of characters with another case

The other case of a letter is mostly a fixed distance away from it, for all letters of an alphabet or
for every second one. A table of letters with another case is a list of such runs.
-/

namespace FunctionMap

/-- Every `step`-th character from `first` to `last` has its other case `shift` away. -/
structure CaseRun where
  first : Nat
  last : Nat
  step : Nat
  shift : Int
  deriving DecidableEq, Repr

namespace CaseRun

/-- Whether a run speaks of the code point `n`. -/
def covers (r : CaseRun) (n : Nat) : Bool :=
  r.first ≤ n && n ≤ r.last && (n - r.first) % r.step == 0

/-- The code point that a run gives to the code point `n`. -/
def image (r : CaseRun) (n : Nat) : Nat := (n + r.shift).toNat

/-- The other case of a character by the first run that speaks of it, and the character itself where
    there is none. -/
def convert (runs : List CaseRun) (c : Char) : Char :=
  match runs.find? (·.covers c.toNat) with
  | some r => Char.ofNat (r.image c.toNat)
  | none => c

end CaseRun
end FunctionMap
