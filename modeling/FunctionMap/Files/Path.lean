import FunctionMap.Source.Excerpt

/-!
# Paths

A path is a text of parts with slashes between them. The name of a path is its last part, slashes
and single points behind it aside; two points are no name. The extension of a name is what follows
its last point, unless that point comes first.
-/

namespace FunctionMap
namespace Path

/-! ## 1. Parts -/

/-- The parts of a path, empty ones included. -/
def parts (path : String) : List (List Char) := Excerpt.segments '/' path.toList

/-- Whether a path starts at the root of all files. -/
def isAbsolute (path : String) : Bool := path.toList.head? = some '/'

/-- A path without the slashes and single points at its end, read from behind. -/
def dropEnd : List Char → List Char
  | [] => []
  | '/' :: r => dropEnd r
  | '.' :: '/' :: r => dropEnd r
  | r => r

/-- What stands before the name of a path, and the name, if there is one. -/
def splitName? (path : List Char) : Option (List Char × List Char) :=
  let backwards := dropEnd path.reverse
  let name := (backwards.takeWhile (· ≠ '/')).reverse
  if name = [] ∨ name = ['.'] ∨ name = ['.', '.'] then none
  else some ((backwards.dropWhile (· ≠ '/')).reverse, name)

/-- What stands before the last point of a name, and behind it, if the name has an extension. -/
def splitExtension? (name : List Char) : Option (List Char × List Char) :=
  match name.reverse.dropWhile (· ≠ '.') with
  | [] | ['.'] => none
  | _ :: before => some (before.reverse, (name.reverse.takeWhile (· ≠ '.')).reverse)

/-- A name without its extension. -/
def stem (name : List Char) : List Char :=
  match splitExtension? name with
  | some (before, _) => before
  | none => name

/-! ## 2. Extensions -/

/-- A path whose name ends in an extension instead of its own; an empty one is none. A path without a
    name stays as it is. -/
def setExtension (path : List Char) (extension : String) : List Char :=
  match splitName? path with
  | none => path
  | some (before, name) =>
    before ++ stem name ++ if extension.toList = [] then [] else '.' :: extension.toList

/-- A path with another extension: as many characters are cut off its end as its extension has, then
    the other one is set. Only a name of two points and an extension ends up without a name by that. -/
def withExtension (path extension : String) : String :=
  let chars := path.toList
  match (splitName? chars).bind fun (_, name) => splitExtension? name with
  | none => String.ofList (setExtension chars extension)
  | some (_, old) => String.ofList (setExtension (chars.take (chars.length - old.length)) extension)

/-- A path with one more extension. -/
def addExtension (path extension : String) : String :=
  match splitName? path.toList with
  | none => path
  | some (before, name) => String.ofList (before ++ name ++ '.' :: extension.toList)

/-- Parts with slashes between them. -/
def join : List (List Char) → List Char
  | [] => []
  | [part] => part
  | part :: rest => part ++ '/' :: join rest

/-- A path without empty parts and single points. -/
def simplified (path : String) : String :=
  String.ofList ((if isAbsolute path then ['/'] else [])
    ++ join ((parts path).filter fun part => part ≠ [] ∧ part ≠ ['.']))

end Path
end FunctionMap
