import FunctionMap.Declaration.Table
import FunctionMap.Json.Text

/-!
# The JSON dump of a table

The dump shows the table as it is: enumerations by name with their element type and values,
functions by key with their name and parameters, each in the order of declaration.
-/

namespace FunctionMap
namespace Json

/-- A value of an enumeration. -/
def value (v : EnumValue) : List Char :=
  object 4 [member "key".toList (Numeral.write v.key.toInt), member "name".toList (string v.name.toList)]

/-- A member for an enumeration. -/
def enumMember (e : Enumeration) : List Char :=
  member e.name.toList <|
    object 2
      [member "element_type".toList (string e.elementType.toList),
       member "values".toList (array 3 (e.values.map value))]

/-- A parameter of a function. -/
def parameter (p : Parameter) : List Char :=
  object 4
    [member "type_name".toList (string p.typeName.toList),
     member "name".toList (string p.name.toList)]

/-- A member for a function. -/
def functionMember (f : Function) : List Char :=
  member f.key.chars <|
    object 2
      [member "name".toList (string f.name.toList),
       member "parameters".toList (array 3 (f.parameters.map parameter))]

/-- The dump of a table, without a final line feed. -/
def dump (t : Table) : List Char :=
  object 0
    [member "enums".toList (object 1 (t.enums.map enumMember)),
     member "functions".toList (object 1 (t.functions.map functionMember))]

end Json
end FunctionMap
