import FunctionMap.Declaration.Key
import FunctionMap.Source.Error

/-!
# The declaration table

A table holds enumerations, known by their names, and functions, known by their keys, each in the
order of declaration. It only grows: an insertion under a key that is already there is refused, and
entries are appended to the declaration at an index.
-/

namespace FunctionMap

/-- One value of an enumeration. -/
structure EnumValue where
  key : Int64
  name : String
  deriving DecidableEq, Repr

/-- A declared enumeration; its value keys may repeat. -/
structure Enumeration where
  name : String
  elementType : String
  values : List EnumValue
  deriving DecidableEq, Repr

/-- One parameter of a function. -/
structure Parameter where
  typeName : String
  name : String
  deriving DecidableEq, Repr

/-- A declared function. -/
structure Function where
  key : FunctionKey
  name : String
  parameters : List Parameter
  deriving DecidableEq, Repr

/-- All declarations of a source, in the order of declaration. -/
structure Table where
  enums : List Enumeration
  functions : List Function
  deriving DecidableEq, Repr

namespace Table

/-- The table without declarations. -/
def empty : Table := ⟨[], []⟩

/-- Whether a table has no declaration. -/
def isEmpty (t : Table) : Bool := t.enums.isEmpty && t.functions.isEmpty

/-- The names of the enumerations. -/
def enumNames (t : Table) : List String := t.enums.map (·.name)

/-- The keys of the functions. -/
def functionKeys (t : Table) : List FunctionKey := t.functions.map (·.key)

/-- No enumeration name and no function key occurs twice. -/
def Distinct (t : Table) : Prop := t.enumNames.Nodup ∧ t.functionKeys.Nodup

/-! ## 1. Looking up -/

/-- The enumeration of a name. -/
def enum? (t : Table) (name : String) : Option Enumeration := t.enums.find? (·.name = name)

/-- The function of a key. -/
def function? (t : Table) (key : FunctionKey) : Option Function := t.functions.find? (·.key = key)

/-- Whether a name is the name of an enumeration. -/
def isEnum (t : Table) (name : String) : Bool := (t.enum? name).isSome

/-! ## 2. Growing -/

/-- Adds an enumeration, if its name is new, and tells its index. -/
def insertEnum (t : Table) (e : Enumeration) : Except SourceError (Table × Nat) :=
  if t.isEnum e.name then .error (.duplicate .enumeration e.name)
  else .ok ({ t with enums := t.enums ++ [e] }, t.enums.length)

/-- Adds a function, if its key is new, and tells its index. -/
def insertFunction (t : Table) (f : Function) : Except SourceError (Table × Nat) :=
  if (t.function? f.key).isSome then .error (.duplicate .function f.key.text)
  else .ok ({ t with functions := t.functions ++ [f] }, t.functions.length)

/-- Appends a value to the enumeration at an index, if there is one. -/
def pushValue? (t : Table) (index : Nat) (value : EnumValue) : Option Table :=
  if index < t.enums.length then
    some { t with enums := t.enums.modify index fun e => { e with values := e.values ++ [value] } }
  else none

/-- Appends a parameter to the function at an index, if there is one. -/
def pushParameter? (t : Table) (index : Nat) (parameter : Parameter) : Option Table :=
  if index < t.functions.length then
    some { t with
      functions := t.functions.modify index fun f =>
        { f with parameters := f.parameters ++ [parameter] } }
  else none

end Table
end FunctionMap
