import FunctionMap.Text.Quoted
import FunctionMap.Declaration.Parser

/-!
# The log

A run says what it does in events of five levels, each from one part of the program. What of it is
told is up to a `Filter`.
-/

namespace FunctionMap
namespace Log

/-! ## 1. Levels and parts -/

/-- The weight of an event, the heaviest first. -/
inductive Level where
  | error | warn | info | debug | trace
  deriving DecidableEq, Repr

/-- The place of a level, from one on. -/
def Level.rank : Level → Nat
  | .error => 1
  | .warn => 2
  | .info => 3
  | .debug => 4
  | .trace => 5

/-- The name of a level in a log line. -/
def Level.name : Level → String
  | .error => "ERROR"
  | .warn => "WARN"
  | .info => "INFO"
  | .debug => "DEBUG"
  | .trace => "TRACE"

/-- The parts of the program that say something. -/
inductive Part where
  | program | parsing | naming | pipeline
  deriving DecidableEq, Repr

/-- The name of a part, by which filters call it. -/
def Part.name : Part → String
  | .program => "mfm"
  | .parsing => "mfm_parser::mfm::parsing"
  | .naming => "mfm_parser::mfm::naming"
  | .pipeline => "mfm_parser::mfm::pipeline"

/-! ## 2. Events -/

/-- What a run says about itself. -/
structure Event where
  part : Part
  level : Level
  message : String
  fields : List (String × String)
  deriving DecidableEq, Repr

/-- The names of the fields of an event; its message is one of them. -/
def Event.fieldNames (e : Event) : List String := "message" :: e.fields.map (·.1)

/-- The line of an event. -/
def Event.line (e : Event) : String :=
  e.level.name ++ " " ++ e.message ++ String.join (e.fields.map fun (k, v) => " " ++ k ++ "=" ++ v)

/-- The text of a count. -/
def countText (n : Nat) : String := String.ofList (Numeral.writeNat n)

/-- The fields that show the size of a table. -/
def sizeFields (t : Table) : List (String × String) :=
  [("enums", countText t.enums.length), ("functions", countText t.functions.length)]

/-- A batch begins. -/
def startingBatch (format : String) (inputs : Nat) : Event :=
  ⟨.program, .debug, "starting batch",
    [("format", Quoted.quote format), ("inputs", countText inputs)]⟩

/-- A conversion begins. -/
def converting (input output : String) : Event :=
  ⟨.program, .debug, "converting", [("input", input), ("output", output)]⟩

/-- A header was read. -/
def header : Parser.Header → Event
  | .enumeration name elementType =>
    ⟨.parsing, .trace, "enumeration",
      [("name", Quoted.quote name), ("element_type", Quoted.quote elementType)]⟩
  | .function key name =>
    ⟨.parsing, .trace, "function", [("key", key.text), ("name", Quoted.quote name)]⟩

/-- A source was read. -/
def parsed (t : Table) : Event := ⟨.parsing, .debug, "parsed declaration table", sizeFields t⟩

/-- Names were capitalised. -/
def capitalized (t : Table) : Event :=
  ⟨.naming, .debug, "formatted declaration names", sizeFields t⟩

/-- An output was put together. -/
def converted (format : String) (bytes : Nat) : Event :=
  ⟨.pipeline, .debug, "converted declaration table",
    [("format", format), ("bytes", countText bytes)]⟩

/-- An output was written. -/
def wrote (output : String) : Event := ⟨.program, .info, "wrote", [("output", output)]⟩

/-- A conversion failed. -/
def failed (input : String) : Event := ⟨.program, .error, "conversion failed", [("input", input)]⟩

end Log
end FunctionMap
