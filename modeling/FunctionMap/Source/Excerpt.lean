import FunctionMap.Text.Utf8
import FunctionMap.Text.Numeral

/-!
# Excerpts

The lines around a line of a source, numbered and with a mark at that line. Bytes that belong to no
character are shown as U+FFFD.
-/

namespace FunctionMap
namespace Excerpt

/-! ## 1. The lines of a text -/

/-- Puts a symbol in front of the first of some segments. -/
def consFirst {α : Type} (x : α) : List (List α) → List (List α)
  | [] => [[x]]
  | segment :: rest => (x :: segment) :: rest

/-- The segments between the separators of a list: one more than there are separators. -/
def segments {α : Type} [DecidableEq α] (separator : α) : List α → List (List α)
  | [] => [[]]
  | x :: xs =>
    if x = separator then [] :: segments separator xs else consFirst x (segments separator xs)

/-- A line without the carriage return that stands right before its line feed. -/
def dropReturn (line : List Char) : List Char :=
  if line.getLast? = some '\r' then line.dropLast else line

/-- The lines among the segments of a text: a line feed takes one carriage return with it, and what
    follows the last line feed is a line unless it is empty. -/
def ofSegments : List (List Char) → List (List Char)
  | [] => []
  | [last] => if last = [] then [] else [last]
  | line :: rest => dropReturn line :: ofSegments rest

/-- The lines of a text. -/
def lines (text : List Char) : List (List Char) := ofSegments (segments '\n' text)

/-! ## 2. The excerpt -/

/-- The number of lines shown before and after the marked one. -/
def reach : Nat := 2

/-- A text, moved right to fill `width` characters. -/
def alignRight (width : Nat) (text : List Char) : List Char :=
  List.replicate (width - text.length) ' ' ++ text

/-- One line of an excerpt: the mark, the number from one on, the text. -/
def row (marked index : Nat) (line : List Char) : List Char :=
  (if index = marked then ['>', '>'] else [' ', ' ']) ++ ' ' ::
    alignRight 3 (Numeral.writeNat (index + 1)) ++ [' ', '|', ' '] ++ line ++ ['\n']

/-- The numbered lines that an excerpt around `marked` shows: `reach` lines before the marked one and
    `reach` lines after it, as far as there are any. -/
def window (marked : Nat) (lines : List (List Char)) : List (List Char × Nat) :=
  (lines.zipIdx.take (min (marked + reach + 1) lines.length)).drop (marked - reach)

/-- The lines of a source around the line `marked`, counted from zero. -/
def around (source : Bytes) (marked : Nat) : String :=
  String.ofList ((window marked (lines (Utf8.decodeLossy source))).flatMap fun (line, index) =>
    row marked index line)

end Excerpt
end FunctionMap
