import FunctionMap.Text.Utf8
import FunctionMap.Text.Numeral

/-!
# Lines and columns

A position counts lines and the bytes of a line from zero; its text counts both from one. Only LF
starts a line. `LineIndex` holds the offsets at which the lines of a source start, and finds the
line of an offset by halving.
-/

namespace FunctionMap

/-- A place in a source: a line and a byte of that line, both counted from zero. -/
structure Position where
  line : Nat
  column : Nat
  deriving DecidableEq, Repr

/-- The text of a position, `line:column`, both counted from one. -/
def Position.text (p : Position) : String :=
  String.ofList (Numeral.writeNat (p.line + 1) ++ ':' :: Numeral.writeNat (p.column + 1))

/-- The line feed, the only byte that starts a line. -/
def lineFeed : UInt8 := 0x0A

/-- The offsets behind the line feeds of a byte string that stands at `offset`. -/
def lineStartsFrom (offset : Nat) : Bytes → List Nat
  | [] => []
  | b :: bs =>
    if b = lineFeed then (offset + 1) :: lineStartsFrom (offset + 1) bs
    else lineStartsFrom (offset + 1) bs

/-- What a search for a number in an increasing list finds: the index at which it stands, or the index
    at which it would have to be put in. -/
inductive Found where
  | here (index : Nat)
  | missing (slot : Nat)
  deriving DecidableEq, Repr

/-- The offsets at which the lines of a source start, in increasing order; the first is zero. -/
structure LineIndex where
  starts : Array Nat
  deriving DecidableEq, Repr

namespace LineIndex

/-- The lines of a source. -/
def ofBytes (source : Bytes) : LineIndex := ⟨(0 :: lineStartsFrom 0 source).toArray⟩

/-- The number of lines: a source that ends in a line feed has an empty last line. -/
def lineCount (index : LineIndex) : Nat := index.starts.size

/-- The last of `count` lines from `base` on that starts at or before `offset`, or `base` itself. -/
def narrow (index : LineIndex) (offset base count : Nat) : Nat :=
  if count ≤ 1 then base
  else
    let half := count / 2
    match index.starts[base + half]? with
    | some start =>
      if start ≤ offset then index.narrow offset (base + half) (count - half)
      else index.narrow offset base half
    | none => index.narrow offset base half
termination_by count
decreasing_by all_goals omega

/-- Where an offset stands among the starts of the lines, found by halving. -/
def search (index : LineIndex) (offset : Nat) : Found :=
  let line := index.narrow offset 0 index.lineCount
  match index.starts[line]? with
  | none => .missing line
  | some start =>
    if start = offset then .here line
    else if start < offset then .missing (line + 1)
    else .missing line

/-- The line of an offset: the one that starts there, or the one in front of the place where a line
    that starts there would have to be put in. Offsets past the end belong to the last line. -/
def lineOf (index : LineIndex) (offset : Nat) : Nat :=
  match index.search offset with
  | .here line => line
  | .missing slot => slot - 1

/-- The offset at which a line starts. -/
def startOf (index : LineIndex) (line : Nat) : Nat := index.starts[line]?.getD 0

/-- The position of an offset. -/
def position (index : LineIndex) (offset : Nat) : Position :=
  ⟨index.lineOf offset, offset - index.startOf (index.lineOf offset)⟩

end LineIndex

/-- The position of an offset in a source. -/
def Position.ofOffset (source : Bytes) (offset : Nat) : Position :=
  (LineIndex.ofBytes source).position offset

end FunctionMap
