import FunctionMap.Text.Numeral
import FunctionMap.Source.Position
import FunctionMap.Source.Excerpt

/-!
# What can be wrong with a source

The causes for which a source gives no table, the wording of each, and the diagnosis that shows a
cause in the text where it has a place there.
-/

namespace FunctionMap

/-- The two kinds of declarations that have a key. -/
inductive DeclarationKind where
  | enumeration | function
  deriving DecidableEq, Repr

/-- The name of a kind of declarations. -/
def DeclarationKind.name : DeclarationKind → String
  | .enumeration => "enumeration"
  | .function => "function"

/-- Why a source gives no table. Offsets count bytes. -/
inductive SourceError where
  /-- A character that cannot stand where it stands. -/
  | unexpectedCharacter (character : Char) (offset : Nat)
  /-- The source ends where something is due. -/
  | unexpectedEnd (expected : String) (offset : Nat)
  /-- A token that is no integer of the width that is due. -/
  | notAnInteger (token : String) (offset : Nat) (fault : Numeral.Fault)
  /-- A key that is declared twice. -/
  | duplicate (kind : DeclarationKind) (key : String)
  /-- An entry without a declaration to belong to: no source leads here. -/
  | strayEntry (what : String)
  /-- A byte that belongs to no character. -/
  | notUtf8 (offset : Nat)
  deriving DecidableEq, Repr

namespace SourceError

/-- The wording of an error. -/
def message : SourceError → String
  | .unexpectedCharacter character offset =>
    "Unexpected character '" ++ character.toString ++ "' at offset " ++ offsetText offset
  | .unexpectedEnd expected offset =>
    "Unexpected end of input at offset " ++ offsetText offset ++ ", expected " ++ expected
  | .notAnInteger token offset fault =>
    "Invalid integer '" ++ token ++ "' at offset " ++ offsetText offset ++ ": " ++ fault.message
  | .duplicate kind key => "Duplicate " ++ kind.name ++ " '" ++ key ++ "'"
  | .strayEntry what => "Parser invariant violated: " ++ what
  | .notUtf8 offset =>
    "Input is not valid UTF-8 (first invalid byte at offset " ++ offsetText offset ++ ")"
where
  /-- An offset in decimal digits. -/
  offsetText (offset : Nat) : String := String.ofList (Numeral.writeNat offset)

/-- The offset that an error points at, if it has one. -/
def offset? : SourceError → Option Nat
  | .unexpectedCharacter _ offset | .unexpectedEnd _ offset | .notAnInteger _ offset _
  | .notUtf8 offset => some offset
  | .duplicate _ _ | .strayEntry _ => none

/-- The diagnosis of an error in a source: its position and the lines around it, if it has an
    offset, and the wording alone otherwise. -/
def diagnosis (e : SourceError) (source : Bytes) : String :=
  match e.offset? with
  | none => "Error: " ++ e.message ++ "\n"
  | some offset =>
    let position := Position.ofOffset source offset
    "Error at " ++ position.text ++ ": " ++ e.message ++ "\n\n"
      ++ Excerpt.around source position.line

end SourceError
end FunctionMap
