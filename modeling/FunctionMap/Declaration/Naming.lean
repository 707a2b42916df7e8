import FunctionMap.Text.UpperCase
import FunctionMap.Declaration.Parser

/-!
# Capitalised names

After reading, every declared name starts with an upper-case letter where it has one: the names of
functions, parameters, enumerations and values. A parameter type changes exactly where it is the
name of an enumeration as written, so that it still names that enumeration; other types are left
alone.

Enumeration names are keys, so the enumerations are inserted afresh under their new names. Two names
that become one are refused, as a duplicate in a source is.
-/

namespace FunctionMap

/-- A name with its first character in upper case. -/
def capitalize (name : String) : String :=
  match name.toList with
  | [] => ""
  | c :: cs => String.ofList (UpperCase.upper c :: cs)

/-- A value under its capitalised name. -/
def EnumValue.capitalized (v : EnumValue) : EnumValue := { v with name := capitalize v.name }

/-- An enumeration under its capitalised name, with capitalised values. -/
def Enumeration.capitalized (e : Enumeration) : Enumeration :=
  { e with name := capitalize e.name, values := e.values.map EnumValue.capitalized }

namespace Table

/-- A parameter type, capitalised where it names an enumeration of the table. -/
def capitalizeType (t : Table) (typeName : String) : String :=
  if t.isEnum typeName then capitalize typeName else typeName

/-- A parameter under its capitalised name, its type still naming the same enumeration. -/
def capitalizeParameter (t : Table) (p : Parameter) : Parameter :=
  ⟨t.capitalizeType p.typeName, capitalize p.name⟩

/-- A function under its capitalised name, with capitalised parameters. -/
def capitalizeFunction (t : Table) (f : Function) : Function :=
  { f with name := capitalize f.name, parameters := f.parameters.map t.capitalizeParameter }

/-- The table with some functions inserted behind its own. -/
def insertFunctions (t : Table) : List Function → Except SourceError Table
  | [] => .ok t
  | f :: fs => do
    let (t, _) ← t.insertFunction f
    t.insertFunctions fs

/-- The table with some enumerations inserted behind its own. -/
def insertEnums (t : Table) : List Enumeration → Except SourceError Table
  | [] => .ok t
  | e :: es => do
    let (t, _) ← t.insertEnum e
    t.insertEnums es

/-- The table with all names capitalised. It fails where two enumeration names become one. -/
def capitalized (t : Table) : Except SourceError Table := do
  let functionsOnly ← Table.empty.insertFunctions (t.functions.map t.capitalizeFunction)
  functionsOnly.insertEnums (t.enums.map Enumeration.capitalized)

end Table

/-- The table that a source declares, with all names capitalised. -/
def load (source : Bytes) : Except SourceError Table := do
  (← parse source).capitalized

end FunctionMap
