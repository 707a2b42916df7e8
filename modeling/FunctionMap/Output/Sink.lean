import FunctionMap.Text.Utf8

/-!
# Sinks

A sink takes chunks of bytes. It accepts a chunk whole or refuses it whole, and a refused chunk
leaves it as it was.
-/

namespace FunctionMap

/-- A receiver of bytes: the chunks that it has accepted, and its answer to a further chunk, which is
    the cause of a refusal or nothing. -/
structure Sink where
  chunks : List Bytes
  refusal? : Bytes → Bytes → Option String

namespace Sink

/-- The bytes that a sink holds. -/
def content (s : Sink) : Bytes := s.chunks.flatten

/-- A sink that holds some bytes and accepts every chunk. -/
def unbounded (initial : Bytes) : Sink := ⟨[initial], fun _ _ => none⟩

/-- A sink that holds some bytes and refuses, for a cause, whatever would make it longer than
    `limit`. -/
def bounded (initial : Bytes) (limit : Nat) (cause : String) : Sink :=
  ⟨[initial], fun content chunk =>
    if limit < content.length + chunk.length then some cause else none⟩

/-- The empty sink that accepts every chunk. -/
def buffer : Sink := ⟨[], fun _ _ => none⟩

/-- Offers a chunk to a sink. -/
def write (s : Sink) (chunk : Bytes) : Except String Sink :=
  match s.refusal? s.content chunk with
  | some cause => .error cause
  | none => .ok { s with chunks := s.chunks ++ [chunk] }

/-- Offers a chunk to a sink, and tells its answer and what it is afterwards. -/
def accept (s : Sink) (chunk : Bytes) : Except String Unit × Sink :=
  match s.write chunk with
  | .ok s' => (.ok (), s')
  | .error cause => (.error cause, s)

end Sink
end FunctionMap
