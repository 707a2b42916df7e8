import FunctionMap.Output.Registry
import FunctionMap.Proofs.Text.ValidPrefix

/-!
# What the built-in formats write

A formatter on a buffer leaves all its parts there, one behind the other. For the two built-in formats
this is the text of the format as UTF-8 (`format_json`, `format_yaml`).
-/

namespace FunctionMap

/-! ## 1. A buffer takes everything -/

/-- The buffer that has taken some chunks. -/
def Sink.bufferOf (chunks : List Bytes) : Sink := { Sink.buffer with chunks }

theorem writeParts_bufferOf (ps : List Part) (chunks : List Bytes) :
    writeParts ps (.bufferOf chunks) = (.ok (), .bufferOf (chunks ++ ps.map Part.bytes)) := by
  induction ps generalizing chunks with
  | nil => simp [writeParts]
  | cons p ps ih =>
    rw [writeParts, show (Sink.bufferOf chunks).write p.bytes = .ok (.bufferOf (chunks ++ [p.bytes]))
      from rfl]
    dsimp only
    rw [ih, List.map_cons, List.append_assoc, List.singleton_append]

/-- **An output leaves all its parts in a buffer**, also where the formatter fails behind them. -/
theorem Output.write_buffer (o : Output) :
    o.write .buffer
      = ((o.failure?.map Except.error).getD (.ok ()), .bufferOf (o.parts.map Part.bytes)) := by
  rw [Output.write, show Sink.buffer = .bufferOf [] from rfl, writeParts_bufferOf]
  cases o.failure? <;> rfl

/-! ## 2. The built-in formats -/

namespace Registry

/-- The bytes of an output whose formatter does not fail are its parts in a row. -/
theorem format_of_get? {r : Registry} {name : String} {f : Formatter} (hf : r.get? name = some f)
    (t : Table) (hok : (f.output t).failure? = none) :
    r.format t name = .ok ((f.output t).parts.map Part.bytes).flatten := by
  rw [format, write, hf]
  dsimp only
  rw [Output.write_buffer, hok]
  rfl

theorem format_json (t : Table) :
    builtin.format t "json" = .ok (Utf8.encode (Json.dump t ++ ['\n'])) := by
  rw [format_of_get? (f := .json) rfl t rfl, Utf8.encode_append]
  rfl

theorem format_yaml (t : Table) :
    builtin.format t "yaml" = .ok (Utf8.encode (Yaml.documents t)) := by
  rw [format_of_get? (f := .yaml) rfl t rfl, Yaml.documents, Utf8.encode_append, Utf8.encode_append]
  simp [Formatter.yaml]

end Registry
end FunctionMap
