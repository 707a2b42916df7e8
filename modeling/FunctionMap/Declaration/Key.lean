import FunctionMap.Text.Blank
import FunctionMap.Text.Numeral

/-!
# Function keys

A function is known by a pair of numbers, its group and its type. The text of a key is
`[group, type]`; `FunctionKey.ofText` reads that text back and allows white space around the whole
and around both numbers.
-/

namespace FunctionMap

/-- The pair of numbers that a function is known by. -/
structure FunctionKey where
  group : Int32
  typeId : Int32
  deriving DecidableEq, Repr

namespace FunctionKey

/-- The characters of a key's text. -/
def chars (k : FunctionKey) : List Char :=
  '[' :: Numeral.write k.group.toInt ++ ',' :: ' ' :: Numeral.write k.typeId.toInt ++ [']']

/-- The text of a key, `[group, type]`. -/
def text (k : FunctionKey) : String := String.ofList k.chars

/-- A text that is not the text of a key. -/
structure Malformed where
  text : String
  deriving DecidableEq, Repr

/-- The wording of the error of a text that is no key. -/
def Malformed.message (e : Malformed) : String :=
  "Invalid function key '" ++ e.text ++ "', expected '[group, type]'"

/-- What stands between a leading `[` and a final `]`. -/
def between? : List Char → Option (List Char)
  | '[' :: rest => if rest.getLast? = some ']' then some rest.dropLast else none
  | _ => none

/-- The parts of a text before and behind its first comma. -/
def splitAtComma? (text : List Char) : Option (List Char × List Char) :=
  match text.dropWhile (· ≠ ',') with
  | [] => none
  | _ :: behind => some (text.takeWhile (· ≠ ','), behind)

/-- The key that a text spells, if it spells one. -/
def ofChars? (text : List Char) : Option FunctionKey := do
  let inner ← between? (Blank.trim text)
  let (group, typeId) ← splitAtComma? inner
  let group ← (Numeral.readInt32 (Blank.trim group)).toOption
  let typeId ← (Numeral.readInt32 (Blank.trim typeId)).toOption
  return ⟨group, typeId⟩

/-- Reads a key from its text. -/
def ofText (text : String) : Except Malformed FunctionKey :=
  match ofChars? text.toList with
  | some k => .ok k
  | none => .error ⟨text⟩

end FunctionKey
end FunctionMap
