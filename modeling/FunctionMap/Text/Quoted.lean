import FunctionMap.Text.Hidden

/-!
# Quoted texts

A text between double quotes, as messages and log lines show it: quotes, backslashes and line breaks
with a backslash, characters without a visible form of their own by their number.
-/

namespace FunctionMap
namespace Quoted

/-- A character between quotes. -/
def escape (c : Char) : List Char :=
  if c = '"' then ['\\', '"']
  else if c = '\\' then ['\\', '\\']
  else if c = '\n' then ['\\', 'n']
  else if c = '\r' then ['\\', 'r']
  else if c = '\t' then ['\\', 't']
  else if c = '\x00' then ['\\', '0']
  else if !Hidden.isHidden c then [c]
  else '\\' :: 'u' :: '\x7b' :: Nat.toDigits 16 c.toNat ++ ['\x7d']

/-- A text between quotes. -/
def quote (text : String) : String :=
  String.ofList ('"' :: text.toList.flatMap escape ++ ['"'])

end Quoted
end FunctionMap
