import FunctionMap.Text.Numeral

/-!
# Paths of keys

A path leads from the root of a tree of settings to a setting: keys with points before them, the
first one aside, and the numbers of elements in brackets.
-/

namespace FunctionMap
namespace Settings

/-- A step of a path: into a table by a key, or into a list by the number of an element. A negative
    number counts from the end of the list. -/
inductive Step where
  | key (name : String)
  | index (i : Int)
  deriving DecidableEq, Repr

/-- The steps from the root of a tree. -/
abbrev KeyPath := List Step

namespace KeyPath

/-- The characters of a key. -/
def isKeyChar (c : Char) : Bool := c.isAlphanum || c = '_' || c = '-' || c = ' '

/-- The white space around a number. -/
def isSpace (c : Char) : Bool := c = ' ' || c = '\t'

/-- Reads the number of an element and the bracket behind it. -/
def index? (s : List Char) : Option (Int × List Char) :=
  let s := s.dropWhile isSpace
  let sign := s.takeWhile (· = '-')
  let digits := (s.drop sign.length).takeWhile Char.isDigit
  let behind := s.drop (sign ++ digits).length
  match Numeral.read .bits64 (sign ++ digits), behind.dropWhile isSpace with
  | .ok i, ']' :: r => some (i, r)
  | _, _ => none

/-- The steps of a text that starts with a point or a bracket. -/
def steps? : Nat → List Char → Option KeyPath
  | _, [] => some []
  | fuel + 1, '.' :: r =>
    match r.takeWhile isKeyChar with
    | [] => none
    | name => (steps? fuel (r.dropWhile isKeyChar)).map (.key (String.ofList name) :: ·)
  | fuel + 1, '[' :: r => do
    let (i, r) ← index? r
    return .index i :: (← steps? fuel r)
  | _, _ => none

/-- The path that a text is: a key comes first. -/
def ofText? (text : String) : Option KeyPath :=
  steps? (text.toList.length + 1) ('.' :: text.toList)

end KeyPath
end Settings
end FunctionMap
