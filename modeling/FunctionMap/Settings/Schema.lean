import FunctionMap.Text.LowerCase
import FunctionMap.Text.Numeral
import FunctionMap.Text.Quoted
import FunctionMap.Settings.Tree

/-!
# What the settings are

Four settings in two sections, read from a tree. A text may also be given as a number or a truth
value, and a truth value as a number or one of some words. Other keys are ignored; a setting that is
missing or of another kind is an error.
-/

namespace FunctionMap

/-- How sources are converted and where outputs go. -/
structure ConvertSettings where
  /-- The name of the output format. -/
  format : String
  /-- The extension of outputs that are written beside their sources. -/
  outputExtension : String
  /-- Whether a batch goes on after a conversion that failed. -/
  continueOnError : Bool
  deriving DecidableEq, Repr

/-- What is logged. -/
structure LoggingSettings where
  /-- The filter of the log when the command line does not ask for one. -/
  level : String
  deriving DecidableEq, Repr

/-- All settings. -/
structure Settings where
  convert : ConvertSettings
  logging : LoggingSettings
  deriving DecidableEq, Repr

namespace Settings

/-! ## 1. Errors -/

/-- Why there are no settings. -/
inductive Error where
  /-- A file is not well-formed. -/
  | malformedFile (file : String)
  /-- An override names no path of keys. -/
  | malformedPath (path : String)
  /-- A setting has a value of another kind. -/
  | wrongKind (found expected place : String) (file? : Option String)
  /-- A section is not a table, or one of its settings is missing. -/
  | section (text : String)
  /-- A file that has to be there is not, or cannot be read. -/
  | unreadable (cause : String)
  deriving DecidableEq, Repr

/-- The wording of an error. -/
def Error.message : Error → String
  | .malformedFile file => "malformed TOML in " ++ file
  | .malformedPath path => "malformed path of keys " ++ Quoted.quote path
  | .wrongKind found expected place file? =>
    "invalid type: " ++ found ++ ", expected " ++ expected ++ " for key \x60" ++ place ++ "\x60"
      ++ match file? with
        | some file => " in " ++ file
        | none => ""
  | .section text => text
  | .unreadable cause => cause

/-! ## 2. Scalars as settings -/

/-- The text of an integer. -/
def integerText (n : Int) : String := String.ofList (Numeral.write n)

/-- The text of a truth value. -/
def truthText (b : Bool) : String := if b then "true" else "false"

/-- A scalar as a text. -/
def scalarText : Toml.Scalar → String
  | .string s => s
  | .integer n => integerText n
  | .real x => x.text
  | .boolean b => truthText b
  | .time t => t.text

/-- What a message says of a scalar that is not of the kind that is due. -/
def describeScalar : Toml.Scalar → String
  | .integer n => "integer \x60" ++ integerText n ++ "\x60"
  | .real x => "floating point \x60" ++ x.pointedText ++ "\x60"
  | .boolean b => "boolean \x60" ++ truthText b ++ "\x60"
  | s => "string " ++ Quoted.quote (scalarText s)

/-- The truth value that a word in lower case stands for. -/
def truthOfWord? (word : String) : Option Bool :=
  if word ∈ ["1", "true", "on", "yes"] then some true
  else if word ∈ ["0", "false", "off", "no"] then some false
  else none

/-- A scalar as a truth value, or what a message says of it. -/
def truth : Toml.Scalar → Except String Bool
  | .boolean b => .ok b
  | .integer n => .ok (n ≠ 0)
  | .real x => .ok !x.isZero
  | s =>
    let word := LowerCase.ofText (scalarText s)
    match truthOfWord? word with
    | some b => .ok b
    | none => .error ("string " ++ Quoted.quote word)

/-! ## 3. Reading a tree -/

/-- What a message says of a node that is not of the kind that is due. -/
def describe : Node → String
  | .nothing => "unit value"
  | .scalar _ s => describeScalar s
  | .list _ _ => "sequence"
  | .table _ _ => "map"

/-- The text of a setting, whose place messages show. -/
def textOf (place : String) : Node → Except Error String
  | .scalar _ s => .ok (scalarText s)
  | node => .error (.wrongKind (describe node) "a string" place node.file?)

/-- The truth value of a setting, whose place messages show. -/
def truthOf (place : String) : Node → Except Error Bool
  | .scalar file? s => (truth s).mapError (.wrongKind · "a boolean" place file?)
  | node => .error (.wrongKind (describe node) "a boolean" place node.file?)

/-- The text of a number. -/
def numberText (n : Nat) : String := String.ofList (Numeral.writeNat n)

/-- A section of the settings: its key, and the name and number of its settings in messages. -/
structure Section where
  key : String
  name : String
  size : String
  deriving DecidableEq, Repr

namespace Section

/-- The section on conversions. -/
def convert : Section := ⟨"convert", "ConvertConfig", "3 elements"⟩

/-- The section on the log. -/
def logging : Section := ⟨"logging", "LoggingConfig", "1 element"⟩

/-- The setting of a list, by its number. -/
def element {α : Type} (s : Section) (read : String → Node → Except Error α) (elements : List Node)
    (i : Nat) : Except Error α :=
  match elements[i]? with
  | some node => read (s.key ++ "[" ++ numberText i ++ "]") node
  | none =>
    .error (.section ("invalid length " ++ numberText i ++ ", expected struct " ++ s.name
      ++ " with " ++ s.size))

/-- The setting of a table, by its name, if it is there. -/
def field? {α : Type} (s : Section) (read : String → Node → Except Error α) (node : Node)
    (name : String) : Except Error (Option α) :=
  (node.child? name).mapM (read (s.key ++ "." ++ name))

/-- The error of a section that is neither a list nor a table. -/
def mismatch (s : Section) (node : Node) : Error :=
  .section ("invalid type: " ++ describe node ++ ", expected struct " ++ s.name)

end Section

/-- What has to be there. -/
def present {α : Type} (name : String) : Option α → Except Error α
  | some a => .ok a
  | none => .error (.section ("missing field \x60" ++ name ++ "\x60"))

/-- The settings of the section on conversions. A list gives them in order. -/
def convertOf : Node → Except Error ConvertSettings
  | .list _ ns => do
    return ⟨← Section.convert.element textOf ns 0, ← Section.convert.element textOf ns 1,
      ← Section.convert.element truthOf ns 2⟩
  | .table file? es => do
    let format? ← Section.convert.field? textOf (.table file? es) "format"
    let extension? ← Section.convert.field? textOf (.table file? es) "output_extension"
    let continue? ← Section.convert.field? truthOf (.table file? es) "continue_on_error"
    return ⟨← present "format" format?, ← present "output_extension" extension?,
      ← present "continue_on_error" continue?⟩
  | node => .error (Section.convert.mismatch node)

/-- The settings of the section on the log. A list gives them in order. -/
def loggingOf : Node → Except Error LoggingSettings
  | .list _ ns => do return ⟨← Section.logging.element textOf ns 0⟩
  | .table file? es => do
    return ⟨← present "level" (← Section.logging.field? textOf (.table file? es) "level")⟩
  | node => .error (Section.logging.mismatch node)

/-- The settings of a tree. -/
def ofNode (root : Node) : Except Error Settings := do
  return ⟨← convertOf (← present "convert" (root.child? "convert")),
    ← loggingOf (← present "logging" (root.child? "logging"))⟩

end Settings
end FunctionMap
