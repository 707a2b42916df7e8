import FunctionMap.Declaration.Naming
import FunctionMap.Output.Registry

/-!
# Conversion

A conversion reads a source, capitalises its names and writes the table in a format. The output is
put together first and handed to the sink in one piece, so a conversion that fails has written
nothing. A format that does not exist is reported before the source is looked at.
-/

namespace FunctionMap

/-- Why a conversion failed. -/
inductive ConversionError where
  /-- The source declares no table. -/
  | source (e : SourceError)
  /-- The table was not written in the format. -/
  | format (e : FormatError)
  /-- The sink refused the output. -/
  | io (cause : String)
  deriving DecidableEq, Repr

namespace ConversionError

/-- The wording of an error. -/
def message : ConversionError → String
  | .source e => e.message
  | .format e => e.message
  | .io cause => "IO error: " ++ cause

/-- The diagnosis of an error; one of the source shows the lines it points at. -/
def diagnosis (e : ConversionError) (source : Bytes) : String :=
  match e with
  | .source e => e.diagnosis source
  | e => "Error: " ++ e.message ++ "\n"

end ConversionError

/-- A choice of format among the formats of a registry. -/
structure Converter where
  registry : Registry
  format : String

namespace Converter

/-- The format that is used when none is asked for. -/
def defaultFormat : String := "yaml"

/-- The converter for one of the built-in formats. -/
def ofFormat (format : String) : Converter := ⟨.builtin, format⟩

/-- The converter that is used when no format is asked for. -/
def standard : Converter := ofFormat defaultFormat

/-- The output for a source, put together. -/
def output (c : Converter) (source : Bytes) : Except ConversionError Bytes :=
  if c.registry.has c.format then
    match load source with
    | .error e => .error (.source e)
    | .ok t => (c.registry.format t c.format).mapError .format
  else .error (.format (.notFound c.format))

/-- Converts a source and hands the output to a receiver of any kind. What it does with bytes, its
    answer and what it is afterwards, is up to the receiver. -/
def deliver {ρ : Type} (c : Converter) (source : Bytes)
    (accept : ρ → Bytes → Except String Unit × ρ) (r : ρ) : Except ConversionError Unit × ρ :=
  match c.output source with
  | .error e => (.error e, r)
  | .ok bytes =>
    match accept r bytes with
    | (.ok (), r') => (.ok (), r')
    | (.error cause, r') => (.error (.io cause), r')

/-- Converts a source and hands the output to a sink. -/
def convert (c : Converter) (source : Bytes) (s : Sink) : Except ConversionError Unit × Sink :=
  c.deliver source Sink.accept s

end Converter
end FunctionMap
