import FunctionMap.Toml.Scanner
import FunctionMap.Toml.Stamp
import FunctionMap.Toml.Tree

/-!
# TOML files

A file is a sequence of lines: headers, keys with their values, blank lines and comments. `parse`
gives the table of a file, and nothing where the file is malformed.
-/

namespace FunctionMap
namespace Toml

/-! ## 1. Values -/

/-- The characters of a scalar without quotes. -/
def isBare (c : Char) : Bool :=
  c.isAlphanum || c = '_' || c = '-' || c = '+' || c = '.' || c = ':'

/-- Reads a scalar without quotes. A date and a time of day may have a space between them. -/
def bare (s : List Char) : Option (Scalar × List Char) :=
  let word := s.takeWhile isBare
  let rest := s.dropWhile isBare
  let long := match rest with
    | ' ' :: r => (Time.ofText? (word ++ ' ' :: r.takeWhile isBare)).map (·, r.dropWhile isBare)
    | _ => none
  match long with
  | some (t, r) => some (.time t, r)
  | none =>
    match boolean? word, integer? word, real? word, Time.ofText? word with
    | some b, _, _, _ => some (.boolean b, rest)
    | _, some n, _, _ => some (.integer n, rest)
    | _, _, some x, _ => some (.real x, rest)
    | _, _, _, some t => some (.time t, rest)
    | none, none, none, none => none

mutual

/-- Reads a value that holds arrays and tables in braces up to the depth `room`. -/
def value : Nat → Nat → Reading Value
  | 0, _, _ => none
  | fuel + 1, room, s =>
    match string? s with
    | some reading => reading.map fun (text, r) => (.scalar (.string text), r)
    | none =>
      match room, s with
      | 0, '[' :: _ | 0, '\x7b' :: _ => none
      | room + 1, '[' :: r =>
        (elements fuel room (skipBlankLines r)).map fun (vs, r) => (.array vs, r)
      | room + 1, '\x7b' :: r =>
        match skipSpace r with
        | '\x7d' :: r => some (.table [], r)
        | r => (members fuel room [] r).map fun (entries, r) => (.table (entriesValues entries), r)
      | _, s => (bare s).map fun (v, r) => (.scalar v, r)

/-- Reads the remainder of an array: values with commas between them, over any number of lines, and
    perhaps one comma more. -/
def elements : Nat → Nat → Reading (List Value)
  | 0, _, _ => none
  | _ + 1, _, ']' :: r => some ([], r)
  | fuel + 1, room, s => do
    let (v, r) ← value fuel room s
    match skipBlankLines r with
    | ']' :: r => return ([v], r)
    | ',' :: r =>
      let (vs, r) ← elements fuel room (skipBlankLines r)
      return (v :: vs, r)
    | _ => none

/-- Reads the remainder of a table in braces behind the entries at hand. -/
def members : Nat → Nat → Entries → Reading Entries
  | 0, _, _, _ => none
  | fuel + 1, room, entries, s => do
    let (path, r) ← key s
    let '=' :: r := r | none
    let (v, r) ← value fuel room (skipSpace r)
    let entries ← entries.addDotted v path
    match skipSpace r with
    | '\x7d' :: r => return (entries, r)
    | ',' :: r => members fuel room entries r
    | _ => none

end

/-! ## 2. Lines -/

/-- The tables read so far, and the path of the header that the next keys belong to. -/
structure Progress where
  root : Entries
  path : List String

/-- Reads the brackets and the key of a header, and tells whether it names an array. -/
def header : Reading (Bool × List String)
  | '[' :: '[' :: r => do
    let (path, r) ← key r
    let ']' :: ']' :: r := r | none
    return ((true, path), r)
  | '[' :: r => do
    let (path, r) ← key r
    let ']' :: r := r | none
    return ((false, path), r)
  | _ => none

/-- What a header does to the tables read so far. -/
def Progress.enter (p : Progress) (isArray : Bool) (path : List String) : Option Progress := do
  let last ← path.getLast?
  let root ← p.root.within (if isArray then Entries.openElement last else Entries.openTable last)
    path.dropLast
  return ⟨root, path⟩

/-- Reads what a line holds besides white space and a comment. -/
def statement (p : Progress) (s : List Char) : Option (Progress × List Char) :=
  match s with
  | '[' :: _ => do
    let ((isArray, path), r) ← header s
    return (← p.enter isArray path, r)
  | _ => do
    let (path, r) ← key s
    let '=' :: r := r | none
    let (v, r) ← value (r.length + 1) (depthLimit - 1) (skipSpace r)
    return ({ p with root := ← p.root.within (Entries.addDotted v path) p.path }, r)

/-- Reads the lines of a file. -/
def linesFrom : Nat → Progress → List Char → Option Entries
  | 0, _, _ => none
  | fuel + 1, p, s =>
    match skipBlankLines s with
    | [] => some p.root
    | s => do
      let (p, r) ← statement p s
      match skipComment r with
      | [] => some p.root
      | r => linesFrom fuel p (← lineEnd? r)

/-- A text without the mark of its byte order. -/
def dropMark : List Char → List Char
  | '\uFEFF' :: r => r
  | s => s

/-- The entries of a file, if it is well-formed. It stands for no point in time itself. -/
def parse (file : List Char) : Option (List (String × Value)) := do
  let text := dropMark file
  let root ← linesFrom (text.length + 1) ⟨[], []⟩ text
  match ← (Value.table (entriesValues root)).stamped? with
  | .table entries => return entries
  | _ => none

end Toml
end FunctionMap
