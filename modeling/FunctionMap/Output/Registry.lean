import FunctionMap.Output.Formatter

/-!
# The registry of formats

A registry holds formatters by name, at most one for a name, in the order of the bytes of their
names. A formatter takes the place of one that has its name.
-/

namespace FunctionMap

/-- The bytes of a name, by which names are ordered. -/
def Formatter.order (f : Formatter) : Bytes := Utf8.encode f.name.toList

/-- Formatters in the order of their names. -/
structure Registry where
  formatters : List Formatter

namespace Registry

/-- The registry without formats. -/
def empty : Registry := ⟨[]⟩

/-- Puts a formatter in its place among ordered ones. -/
def place (f : Formatter) : List Formatter → List Formatter
  | [] => [f]
  | g :: rest =>
    if f.name = g.name then f :: rest
    else if f.order < g.order then f :: g :: rest
    else g :: place f rest

/-- Adds a formatter, in place of one that has its name. -/
def register (r : Registry) (f : Formatter) : Registry := ⟨place f r.formatters⟩

/-- The formatter of a name. -/
def get? (r : Registry) (name : String) : Option Formatter := r.formatters.find? (·.name = name)

/-- Whether a name has a formatter. -/
def has (r : Registry) (name : String) : Bool := (r.get? name).isSome

/-- The names that have a formatter, in the order of their bytes. -/
def names (r : Registry) : List String := r.formatters.map (·.name)

/-- The registry of the built-in formats. -/
def builtin : Registry := (empty.register .yaml).register .json

/-- Writes a table to a sink in the format of a name. -/
def write (r : Registry) (t : Table) (name : String) (s : Sink) : Except FormatError Unit × Sink :=
  match r.get? name with
  | none => (.error (.notFound name), s)
  | some f => (f.output t).write s

/-- The bytes of a table in the format of a name. -/
def format (r : Registry) (t : Table) (name : String) : Except FormatError Bytes :=
  match r.write t name .buffer with
  | (.ok (), s) => .ok s.content
  | (.error e, _) => .error e

/-- The text of a table in the format of a name; bytes that belong to no character are shown as
    U+FFFD. -/
def serialize (r : Registry) (t : Table) (name : String) : Except FormatError String :=
  (r.format t name).map fun bytes => String.ofList (Utf8.decodeLossy bytes)

end Registry
end FunctionMap
