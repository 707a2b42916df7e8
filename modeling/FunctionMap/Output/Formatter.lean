import FunctionMap.Declaration.Table
import FunctionMap.Output.Sink
import FunctionMap.Yaml.Document
import FunctionMap.Json.Dump

/-!
# Formatters

A formatter writes a table in parts, in order. Each part names the error that its refusal by the
sink is, and after the last one the formatter may fail on its own account.
-/

namespace FunctionMap

/-! ## 1. Errors -/

/-- Why a table was not written in a format. -/
inductive FormatError where
  /-- No formatter has this name. -/
  | notFound (name : String)
  /-- A YAML document was refused. -/
  | yaml (cause : String)
  /-- A JSON text was refused. -/
  | json (cause : String)
  /-- Other bytes were refused, or the formatter failed. -/
  | io (cause : String)
  deriving DecidableEq, Repr

/-- The wording of an error. -/
def FormatError.message : FormatError → String
  | .notFound name => "Format '" ++ name ++ "' not found"
  | .yaml cause => "YAML serialization error: " ++ cause
  | .json cause => "JSON serialization error: " ++ cause
  | .io cause => "IO error: " ++ cause

/-! ## 2. Outputs -/

/-- Bytes that are written at once, and the error that their refusal is. -/
structure Part where
  bytes : Bytes
  refused : String → FormatError

/-- What a formatter makes of a table: parts, and an error of its own behind them, if any. -/
structure Output where
  parts : List Part
  failure? : Option FormatError

/-- Writes parts to a sink, up to the first one that it refuses. -/
def writeParts : List Part → Sink → Except FormatError Unit × Sink
  | [], s => (.ok (), s)
  | p :: ps, s =>
    match s.write p.bytes with
    | .ok s' => writeParts ps s'
    | .error cause => (.error (p.refused cause), s)

/-- Writes an output to a sink. -/
def Output.write (o : Output) (s : Sink) : Except FormatError Unit × Sink :=
  match writeParts o.parts s, o.failure? with
  | (.ok (), s'), some e => (.error e, s')
  | result, _ => result

/-! ## 3. Formatters -/

/-- A named way to write tables. -/
structure Formatter where
  name : String
  description : String
  output : Table → Output

namespace Formatter

/-- The two YAML documents and the line between them. -/
def yaml : Formatter where
  name := "yaml"
  description := "Enumerations and tagged function sequences as two YAML documents"
  output t :=
    ⟨[⟨Utf8.encode (Yaml.enumDocument t), .yaml⟩,
      ⟨Utf8.encode Yaml.separator, .io⟩,
      ⟨Utf8.encode (Yaml.functionDocument t), .yaml⟩], none⟩

/-- The JSON dump and a line feed. -/
def json : Formatter where
  name := "json"
  description := "Pretty-printed JSON dump of the declaration table"
  output t := ⟨[⟨Utf8.encode (Json.dump t), .json⟩, ⟨[lineFeed], .io⟩], none⟩

end Formatter
end FunctionMap
