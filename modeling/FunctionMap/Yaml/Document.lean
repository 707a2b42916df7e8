import FunctionMap.Declaration.Table
import FunctionMap.Yaml.Scalar
import FunctionMap.Yaml.Tag

/-!
# The two documents

The first document maps the name of every enumeration to its values, the second the key of every
function to its parameters:

* a value is an entry `key: name`, and keys that repeat are repeated;
* a function's name and a parameter's type are tags, on the sequence and on the parameter's name.

A line `---` stands between the documents.
-/

namespace FunctionMap
namespace Yaml

/-! ## 1. Enumerations -/

/-- A value, to the end of its line. -/
def valueEntry (v : EnumValue) : List Char :=
  Numeral.write v.key.toInt ++ ':' :: ' ' :: Scalar.writeLine 4 v.name.toList

/-- The values of an enumeration behind the colon of its key. The first one stands in that line
    where the key has a mark of its own, and in a new line otherwise. -/
def valueEntries (simpleKey : Bool) : List EnumValue → List Char
  | [] => [' ', '\x7b', '\x7d', '\n']
  | v :: vs =>
    (if simpleKey then ['\n', ' ', ' '] else [' ']) ++ valueEntry v
      ++ vs.flatMap fun v => ' ' :: ' ' :: valueEntry v

/-- An enumeration, to the end of its last line. -/
def enumEntry (e : Enumeration) : List Char :=
  let name := e.name.toList
  let simple := Scalar.isSimpleKey name
  (if simple then Scalar.write 2 name else '?' :: ' ' :: Scalar.writeLine 2 name)
    ++ ':' :: valueEntries simple e.values

/-- A mapping of some entries; one without entries is written as a pair of braces. -/
def mapping (entries : List (List Char)) : List Char :=
  match entries with
  | [] => ['\x7b', '\x7d', '\n']
  | _ => entries.flatten

/-- The document of the enumerations. -/
def enumDocument (t : Table) : List Char := mapping (t.enums.map enumEntry)

/-! ## 2. Functions -/

/-- A tag and a space, for a name that can stand as a tag. -/
def tagged (name : List Char) : List Char :=
  if Tag.Allowed name then Tag.write name ++ [' '] else []

/-- A parameter, to the end of its line. -/
def parameterEntry (p : Parameter) : List Char :=
  '-' :: ' ' :: tagged p.typeName.toList ++ Scalar.writeLine 2 p.name.toList

/-- What stands behind the colon of a function's key. -/
def functionNode (f : Function) : List Char :=
  let tag := if Tag.Allowed f.name.toList then ' ' :: Tag.write f.name.toList else []
  match f.parameters with
  | [] => tag ++ [' ', '[', ']', '\n']
  | ps => tag ++ '\n' :: ps.flatMap parameterEntry

/-- A function, to the end of its last line. -/
def functionEntry (f : Function) : List Char :=
  Scalar.write 2 f.key.chars ++ ':' :: functionNode f

/-- The document of the functions. -/
def functionDocument (t : Table) : List Char := mapping (t.functions.map functionEntry)

/-! ## 3. Both -/

/-- The line between the documents. -/
def separator : List Char := ['-', '-', '-', '\n']

/-- Both documents of a table. -/
def documents (t : Table) : List Char := enumDocument t ++ separator ++ functionDocument t

end Yaml
end FunctionMap
