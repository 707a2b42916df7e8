import FunctionMap.Text.Utf8
import FunctionMap.Yaml.Resolution

/-!
# Scalars

A string is written in the plainest style that reads back as that string:

* plain -- the characters themselves, on one line;
* single-quoted -- with every quote doubled; a break inside is followed by the indentation;
* double-quoted -- with escapes, for whatever cannot be shown;
* literal -- a block of indented lines, for strings with a line feed.

`Scalar.style` chooses by a few facts about the string, and `Scalar.write` writes it. Lines are never
folded.
-/

namespace FunctionMap
namespace Yaml
namespace Scalar

/-! ## 1. Characters -/

/-- The characters that break a line. -/
def isBreak (c : Char) : Bool :=
  c = '\n' || c = '\r' || c = '\u0085' || c = '\u2028' || c = '\u2029'

/-- White space inside a line. -/
def isBlank (c : Char) : Bool := c = ' ' || c = '\t'

/-- What separates a mark from what it marks: white space, a break or NUL. -/
def isSeparator (c : Char) : Bool := isBlank c || isBreak c || c = '\x00'

/-- The characters that are written as they are. -/
def isPrintable (c : Char) : Bool :=
  c = '\n' || (' ' ≤ c && c ≤ '~')
    || ('\u00A0' ≤ c && c ≠ '\uFEFF' && c ≠ '\uFFFE' && c ≠ '\uFFFF')

/-! ## 2. Facts about a string -/

/-- Whether a character of the first class stands right before one of the second. -/
def adjacent (p q : Char → Bool) : List Char → Bool
  | a :: b :: rest => (p a && q b) || adjacent p q (b :: rest)
  | _ => false

/-- Whether a space is followed by a break. -/
def spaceBreak (s : List Char) : Bool := adjacent (· = ' ') isBreak s

/-- Whether a break is followed by a space. -/
def breakSpace (s : List Char) : Bool := adjacent isBreak (· = ' ') s

/-- Whether a character is not printable. -/
def special (s : List Char) : Bool := s.any (!isPrintable ·)

/-- Whether a separator or the end follows. -/
def separated (rest : List Char) : Bool := rest.head?.all isSeparator

/-- The characters that never start a plain scalar. -/
def indicators : List Char :=
  ['#', ',', '[', ']', '\x7b', '\x7d', '&', '*', '!', '|', '>', '\'', '"', '%', '@', '\x60']

/-- The first character marks something: a collection, an anchor, a tag, a quote, an entry. -/
def marksFirst : List Char → Bool
  | [] => false
  | c :: rest => c ∈ indicators || (c ∈ ['-', '?', ':'] && separated rest)

/-- A later character marks something: a colon before a separator, a number sign behind one. -/
def marksLater : List Char → Bool
  | a :: b :: rest =>
    (b = ':' && separated rest) || (b = '#' && isSeparator a) || marksLater (b :: rest)
  | _ => false

/-- The markers that part documents. -/
def startsAsMarker (s : List Char) : Bool :=
  ['-', '-', '-'].isPrefixOf s || ['.', '.', '.'].isPrefixOf s

/-- Whether a string would be taken for something else than a scalar. -/
def indicates (s : List Char) : Bool := startsAsMarker s || marksFirst s || marksLater s

/-- Whether a space or a break stands at an end. -/
def padded (s : List Char) : Bool :=
  let edge : Char → Bool := fun c => c = ' ' || isBreak c
  s.head?.any edge || s.getLast?.any edge

/-! ## 3. Styles -/

/-- The ways to write a scalar. -/
inductive Style where
  | plain | single | double | literal
  deriving DecidableEq, Repr

/-- Strings that can stand between quotes without escapes. -/
def singleAllowed (s : List Char) : Bool := !special s && !spaceBreak s && !breakSpace s

/-- Strings that can stand without quotes. -/
def plainAllowed (s : List Char) : Bool :=
  singleAllowed s && !padded s && !s.any isBreak && !indicates s

/-- Strings that can stand as a block of lines. -/
def literalAllowed (s : List Char) : Bool :=
  !special s && !spaceBreak s && s.getLast? ≠ some ' '

/-- The style of a string: the plainest one that reads back as that string. -/
def style (s : List Char) : Style :=
  if '\n' ∈ s then
    if literalAllowed s then .literal else .double
  else if !readsAsOther s && plainAllowed s then .plain
  else if singleAllowed s then .single
  else .double

/-! ## 4. Writing -/

/-- The spaces before a line. -/
def indentation (n : Nat) : List Char := List.replicate n ' '

/-- The inside of a single-quoted scalar, after a break or not. -/
def writeSingle (indent : Nat) (afterBreak : Bool) : List Char → List Char
  | [] => if afterBreak then indentation indent else []
  | c :: cs =>
    if isBreak c then c :: writeSingle indent true cs
    else
      (if afterBreak then indentation indent else [])
        ++ (if c = '\'' then ['\'', '\''] else [c]) ++ writeSingle indent false cs

/-- One upper-case hexadecimal digit. -/
def hexDigit (n : Nat) : Char := (Nat.digitChar n).toUpper

/-- A number in `width` hexadecimal digits. -/
def hex : Nat → Nat → List Char
  | 0, _ => []
  | width + 1, n => hex width (n / 16) ++ [hexDigit (n % 16)]

/-- A character between double quotes: quotes, backslashes, breaks and what is not printable have an
    escape. -/
def escape (c : Char) : List Char :=
  if c = '\\' then ['\\', '\\']
  else if c = '"' then ['\\', '"']
  else if isPrintable c && !isBreak c then [c]
  else if c = '\n' then ['\\', 'n']
  else if c = '\x00' then ['\\', '0']
  else if c = '\x07' then ['\\', 'a']
  else if c = '\x08' then ['\\', 'b']
  else if c = '\t' then ['\\', 't']
  else if c = '\x0B' then ['\\', 'v']
  else if c = '\x0C' then ['\\', 'f']
  else if c = '\r' then ['\\', 'r']
  else if c = '\x1B' then ['\\', 'e']
  else if c = '\u0085' then ['\\', 'N']
  else if c = '\u2028' then ['\\', 'L']
  else if c = '\u2029' then ['\\', 'P']
  else if c.toNat ≤ 0xFF then '\\' :: 'x' :: hex 2 c.toNat
  else if c.toNat ≤ 0xFFFF then '\\' :: 'u' :: hex 4 c.toNat
  else '\\' :: 'U' :: hex 8 c.toNat

/-- The lines of a literal scalar; breaks stay as they are and empty lines are not indented. -/
def writeLines (indent : Nat) (afterBreak : Bool) : List Char → List Char
  | [] => []
  | c :: cs =>
    if isBreak c then c :: writeLines indent true cs
    else (if afterBreak then indentation indent else []) ++ c :: writeLines indent false cs

/-- Whether the last two characters of a string are breaks, or its only one is. -/
def endsOpen (s : List Char) : Bool :=
  match s.reverse with
  | [c] => isBreak c
  | c :: d :: _ => isBreak c && isBreak d
  | [] => false

/-- Whether the last character of a string is a break. -/
def endsInBreak (s : List Char) : Bool := s.getLast?.any isBreak

/-- What stands behind the bar of a literal scalar: the indentation, where the first line does not
    show it, and what becomes of the breaks at the end. -/
def literalHints (s : List Char) : List Char :=
  (if s.head?.any (fun c => c = ' ' || isBreak c) then ['2'] else [])
    ++ (if !endsInBreak s then ['-'] else if endsOpen s then ['+'] else [])

/-- A string as a scalar; the lines it goes over are indented by `indent`. -/
def write (indent : Nat) (s : List Char) : List Char :=
  match style s with
  | .plain => s
  | .single => '\'' :: writeSingle indent false s ++ ['\'']
  | .double => '"' :: s.flatMap escape ++ ['"']
  | .literal => '|' :: literalHints s ++ '\n' :: writeLines indent true s

/-- A string as a scalar that ends its line. A literal scalar that ends in a break has ended its line
    already. -/
def writeLine (indent : Nat) (s : List Char) : List Char :=
  if style s = .literal ∧ endsInBreak s then write indent s else write indent s ++ ['\n']

/-- The length in bytes up to which a key needs no mark. -/
def simpleKeyLimit : Nat := 128

/-- Whether a string can be a key without a mark: on one line and not too long. -/
def isSimpleKey (s : List Char) : Bool := !s.any isBreak && Utf8.size s ≤ simpleKeyLimit

end Scalar
end Yaml
end FunctionMap
