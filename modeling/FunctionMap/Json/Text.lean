/-!
# JSON text

Strings with their escapes, and collections laid out over lines with two spaces for each level.
-/

namespace FunctionMap
namespace Json

/-- One lower-case hexadecimal digit. -/
def hexDigit (n : Nat) : Char := Nat.digitChar n

/-- A character inside a string. Quotes, backslashes and control characters are escaped, with a
    letter where there is one; everything else is written as it is. -/
def escape (c : Char) : List Char :=
  if c = '"' then ['\\', '"']
  else if c = '\\' then ['\\', '\\']
  else if c = '\x08' then ['\\', 'b']
  else if c = '\x0C' then ['\\', 'f']
  else if c = '\n' then ['\\', 'n']
  else if c = '\r' then ['\\', 'r']
  else if c = '\t' then ['\\', 't']
  else if c.toNat < 0x20 then
    ['\\', 'u', '0', '0', hexDigit (c.toNat / 16), hexDigit (c.toNat % 16)]
  else [c]

/-- A string. -/
def string (s : List Char) : List Char := '"' :: s.flatMap escape ++ ['"']

/-- The start of a line at a level. -/
def indentation (level : Nat) : List Char := List.replicate (2 * level) ' '

/-- Items, each in a line of its own at a level, with commas between them. -/
def items (level : Nat) : List (List Char) → List Char
  | [] => []
  | [item] => indentation level ++ item ++ ['\n']
  | item :: rest => indentation level ++ item ++ ',' :: '\n' :: items level rest

/-- Items between brackets. The collection starts in a line at `level`; an empty one is only its
    brackets. -/
def collection (left right : Char) (level : Nat) (contents : List (List Char)) : List Char :=
  match contents with
  | [] => [left, right]
  | _ => left :: '\n' :: items (level + 1) contents ++ indentation level ++ [right]

/-- A member of an object. -/
def member (name value : List Char) : List Char := string name ++ ':' :: ' ' :: value

/-- An object of some members. -/
def object (level : Nat) (members : List (List Char)) : List Char :=
  collection '\x7b' '\x7d' level members

/-- An array of some elements. -/
def array (level : Nat) (elements : List (List Char)) : List Char :=
  collection '[' ']' level elements

end Json
end FunctionMap
