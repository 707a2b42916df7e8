import FunctionMap.Text.Numeral
import FunctionMap.Toml.Value

/-!
# The parts of a TOML line

Readers for white space, comments, line ends, keys, strings and bare scalars. A reader takes what it
reads from the front of a text and hands on the remainder; a text that does not start with what is
due has no reading.
-/

namespace FunctionMap
namespace Toml

/-- Reads from the front of a text and hands on the remainder. -/
abbrev Reading (α : Type) := List Char → Option (α × List Char)

/-! ## 1. Space -/

/-- White space inside a line. -/
def isSpace (c : Char) : Bool := c = ' ' || c = '\t'

/-- A text without white space in front. -/
def skipSpace (s : List Char) : List Char := s.dropWhile isSpace

/-- The characters that a comment and a string on one line can hold. -/
def isLineChar (c : Char) : Bool := c = '\t' || (' ' ≤ c && c ≠ '\x7F')

/-- A text without white space and a comment in front. -/
def skipComment (s : List Char) : List Char :=
  match skipSpace s with
  | '#' :: r => r.dropWhile isLineChar
  | r => r

/-- Reads the end of a line: a line feed, with or without a carriage return before it. -/
def lineEnd? : List Char → Option (List Char)
  | '\n' :: r => some r
  | '\r' :: '\n' :: r => some r
  | _ => none

/-- A text without the white space, comments and line ends in front. -/
def skipLines : Nat → List Char → List Char
  | 0, s => s
  | fuel + 1, s =>
    match lineEnd? (skipComment s) with
    | some r => skipLines fuel r
    | none => skipComment s

/-- A text without the blank lines and comments in front. -/
def skipBlankLines (s : List Char) : List Char := skipLines s.length s

/-! ## 2. Strings -/

/-- Reads exactly `count` hexadecimal digits, behind the value `v`. -/
def hexDigits : Nat → Nat → Reading Nat
  | 0, v, s => some (v, s)
  | _ + 1, _, [] => none
  | count + 1, v, c :: cs =>
    match digitValue? c with
    | some d => hexDigits count (v * 16 + d) cs
    | none => none

/-- The character of a code point, which is no surrogate. -/
def character? (n : Nat) : Option Char := if n.isValidChar then some (Char.ofNat n) else none

/-- Reads the character behind a backslash. -/
def escape : Reading Char
  | 'b' :: r => some ('\x08', r)
  | 't' :: r => some ('\t', r)
  | 'n' :: r => some ('\n', r)
  | 'f' :: r => some ('\x0C', r)
  | 'r' :: r => some ('\r', r)
  | '"' :: r => some ('"', r)
  | '\\' :: r => some ('\\', r)
  | 'u' :: r => do
    let (n, r) ← hexDigits 4 0 r
    return (← character? n, r)
  | 'U' :: r => do
    let (n, r) ← hexDigits 8 0 r
    return (← character? n, r)
  | _ => none

/-- Reads the remainder of a string between double quotes on one line, behind `read` in reverse. -/
def basicTail : Nat → List Char → Reading String
  | 0, _, _ => none
  | _ + 1, read, '"' :: r => some (String.ofList read.reverse, r)
  | fuel + 1, read, '\\' :: r => do
    let (c, r) ← escape r
    basicTail fuel (c :: read) r
  | fuel + 1, read, c :: r => if isLineChar c then basicTail fuel (c :: read) r else none
  | _ + 1, _, [] => none

/-- Reads the remainder of a string between single quotes on one line. -/
def literalTail (s : List Char) : Option (String × List Char) :=
  let inside := s.takeWhile (fun c => isLineChar c && c ≠ '\'')
  match s.dropWhile (fun c => isLineChar c && c ≠ '\'') with
  | '\'' :: r => some (String.ofList inside, r)
  | _ => none

/-- The quotes at the front of a text that belong to a string over several lines: up to two before
    the three that end it. The result tells how many, if the string ends here. -/
def closing? (quote : Char) (s : List Char) : Option Nat :=
  let run := (s.takeWhile (· = quote)).length
  if run < 3 then none else some (min run 5 - 3)

/-- A backslash at the end of a line takes with it the white space up to the next character. -/
def continuation? (s : List Char) : Option (List Char) :=
  (lineEnd? (skipSpace s)).map fun r =>
    r.dropWhile fun c => c = ' ' || c = '\t' || c = '\n' || c = '\r'

/-- Reads the remainder of a string over several lines, behind `read` in reverse. -/
def multilineTail (quote : Char) : Nat → List Char → Reading String
  | 0, _, _ => none
  | fuel + 1, read, s =>
    match closing? quote s with
    | some extra =>
      some (String.ofList (read.reverse ++ List.replicate extra quote), s.drop (extra + 3))
    | none =>
      match s with
      | [] => none
      | c :: r =>
        match lineEnd? s with
        | some r => multilineTail quote fuel ('\n' :: read) r
        | none =>
          if quote = '"' ∧ c = '\\' then
            match continuation? r with
            | some r => multilineTail quote fuel read r
            | none =>
              match escape r with
              | some (c, r) => multilineTail quote fuel (c :: read) r
              | none => none
          else if isLineChar c then multilineTail quote fuel (c :: read) r
          else none

/-- Reads a string over several lines, behind its three quotes: a line end right there is no part of
    it. -/
def multiline (quote : Char) (s : List Char) : Option (String × List Char) :=
  multilineTail quote (s.length + 1) [] ((lineEnd? s).getD s)

/-- Reads a string on one line, or `none` where no quote stands. -/
def quoted? : List Char → Option (Option (String × List Char))
  | '"' :: r => some (basicTail (r.length + 1) [] r)
  | '\'' :: r => some (literalTail r)
  | _ => none

/-- Reads a string of any kind, or `none` where no quote stands. -/
def string? : List Char → Option (Option (String × List Char))
  | '"' :: '"' :: '"' :: r => some (multiline '"' r)
  | '\'' :: '\'' :: '\'' :: r => some (multiline '\'' r)
  | s => quoted? s

/-! ## 3. Keys -/

/-- The characters of a key without quotes. -/
def isKeyChar (c : Char) : Bool := c.isAlphanum || c = '_' || c = '-'

/-- Reads one part of a key. -/
def simpleKey (s : List Char) : Option (String × List Char) :=
  match quoted? s with
  | some reading => reading
  | none =>
    match s.takeWhile isKeyChar with
    | [] => none
    | key => some (String.ofList key, s.dropWhile isKeyChar)

/-- Reads a key of one or more parts with points between them, and the white space behind it. -/
def dottedKey : Nat → Reading (List String)
  | 0, _ => none
  | fuel + 1, s => do
    let (key, r) ← simpleKey (skipSpace s)
    match skipSpace r with
    | '.' :: r => do
      let (keys, r) ← dottedKey fuel r
      return (key :: keys, r)
    | r => return ([key], r)

/-- The number of parts that no key has, and the depth that no arrays and tables in braces have. -/
def depthLimit : Nat := 80

/-- Reads a key, which has fewer parts than the limit. -/
def key (s : List Char) : Option (List String × List Char) := do
  let (keys, r) ← dottedKey (s.length + 1) s
  if keys.length < depthLimit then return (keys, r) else none

/-! ## 4. Bare scalars -/

/-- A text without the underscores between two of its digits; there may be no other ones. -/
def dropUnderscores (isDigit : Char → Bool) : List Char → Option (List Char)
  | a :: '_' :: b :: r =>
    if isDigit a && isDigit b then (dropUnderscores isDigit (b :: r)).map (a :: ·) else none
  | c :: r => if c = '_' then none else (dropUnderscores isDigit r).map (c :: ·)
  | [] => some []

/-- Whether a text is digits without a leading zero. -/
def isPlainNumber : List Char → Bool
  | ['0'] => true
  | c :: cs => '1' ≤ c && c ≤ '9' && cs.all Char.isDigit
  | [] => false

/-- Splits a sign off a text; a minus sign counts. -/
def splitSign : List Char → Bool × List Char
  | '-' :: r => (true, r)
  | '+' :: r => (false, r)
  | r => (false, r)

/-- The greatest integer that a number may have. -/
def greatestInteger : Nat := 9223372036854775807

/-- An integer: decimal with a sign, or hexadecimal, octal or binary without one. -/
def integer? (s : List Char) : Option Int :=
  let based (base : Nat) (digits : List Char) : Option Int := do
    let n ← digits? base (← dropUnderscores (fun c => (digitValue? c).any (· < base)) digits)
    if n ≤ greatestInteger then some n else none
  match s with
  | '0' :: 'x' :: r => based 16 r
  | '0' :: 'o' :: r => based 8 r
  | '0' :: 'b' :: r => based 2 r
  | _ => do
    let (negative, r) := splitSign s
    let r ← dropUnderscores Char.isDigit r
    if isPlainNumber r then
      let n ← digits? 10 r
      if negative then if n ≤ greatestInteger + 1 then some (-n) else none
      else if n ≤ greatestInteger then some n else none
    else none

/-- Whether digits stand on both sides of the point of a number, and a plain number before it. -/
def isFraction (s : List Char) : Bool :=
  let whole := s.takeWhile Char.isDigit
  isPlainNumber whole &&
    match s.dropWhile Char.isDigit with
    | '.' :: c :: _ => c.isDigit
    | 'e' :: _ | 'E' :: _ => true
    | _ => false

/-- A number with a fraction or an exponent, infinity or not-a-number. Beyond double precision there
    is no positive number, and negative ones are infinite. -/
def real? (s : List Char) : Option Real :=
  let (negative, r) := splitSign s
  if r = "inf".toList then some (.infinity negative)
  else if r = "nan".toList then some .notANumber
  else do
    let r ← dropUnderscores Char.isDigit r
    if isFraction r then
      match Binary64.nearest? (← Decimal.ofText? r) with
      | some x => some (.finite negative x)
      | none => if negative then some (.infinity true) else none
    else none

/-- A truth value. -/
def boolean? (s : List Char) : Option Bool :=
  if s = "true".toList then some true
  else if s = "false".toList then some false
  else none

end Toml
end FunctionMap
