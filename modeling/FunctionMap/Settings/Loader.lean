import FunctionMap.Files.Access
import FunctionMap.Files.Path
import FunctionMap.Settings.Schema
import FunctionMap.Toml.File

/-!
# Layers of settings

A loader holds the layers that settings come from: files, laid over the built-in settings in order,
and overrides, laid over all files in order. Nothing is read before the settings are built.

A file that has to be there is looked for under its path, then with the extension `toml` added.
-/

namespace FunctionMap
namespace Settings

/-! ## 1. The built-in settings -/

/-- The settings that hold where no layer sets them. -/
def builtin : Settings where
  convert := { format := "yaml", outputExtension := "yaml", continueOnError := true }
  logging := { level := "warn" }

/-- A tree of some settings, from no file. -/
def toNode (s : Settings) : Node :=
  .table none
    [("convert", .table none
      [("format", .scalar none (.string s.convert.format)),
       ("output_extension", .scalar none (.string s.convert.outputExtension)),
       ("continue_on_error", .scalar none (.boolean s.convert.continueOnError))]),
     ("logging", .table none [("level", .scalar none (.string s.logging.level))])]

/-! ## 2. Loaders -/

/-- A file of settings. -/
structure FileLayer where
  path : String
  required : Bool
  deriving DecidableEq, Repr

/-- A value that wins over all files. -/
structure Override where
  path : KeyPath
  value : Toml.Scalar
  deriving Repr

/-- The layers over the built-in settings, in the order in which they were added. -/
structure Loader where
  files : List FileLayer
  overrides : List Override
  deriving Repr

/-- The file that is used when none is asked for. -/
def localFile : String := "mfm.toml"

namespace Loader

/-- The loader of the built-in settings alone. -/
def start : Loader := ⟨[], []⟩

/-- Adds a file that has to be there. -/
def withFile (l : Loader) (path : String) : Loader :=
  { l with files := l.files ++ [⟨path, true⟩] }

/-- Adds a file that may be missing. -/
def withOptionalFile (l : Loader) (path : String) : Loader :=
  { l with files := l.files ++ [⟨path, false⟩] }

/-- Adds the file that is asked for, which has to be there, or the local file, which may be
    missing. -/
def withUserFile (l : Loader) : Option String → Loader
  | some path => l.withFile path
  | none => l.withOptionalFile localFile

/-- Sets the value at a path of keys over all files. -/
def withOverride (l : Loader) (path : String) (value : Toml.Scalar) : Except Error Loader :=
  match KeyPath.ofText? path with
  | some steps => .ok { l with overrides := l.overrides ++ [⟨steps, value⟩] }
  | none => .error (.malformedPath path)

/-- Sets the format over all files, if one is asked for. -/
def withFormat (l : Loader) : Option String → Loader
  | some format =>
    { l with overrides := l.overrides ++ [⟨[.key "convert", .key "format"], .string format⟩] }
  | none => l

/-! ## 3. Building -/

/-- What a file of settings turned out to be. -/
inductive Found where
  /-- It is missing and need not be there. -/
  | missing
  /-- Its name, as messages show it, and its text. -/
  | text (file : String) (text : List Char)

/-- The path under which a file of settings is found, if it is. -/
def resolve {m : Type → Type} [Monad m] (files : FileAccess m) (path : String) :
    m (Option String) := do
  if ← files.isFile path then return some path
  let longer := Path.addExtension path "toml"
  if ← files.isFile longer then return some longer
  return none

/-- The text of a file of settings, or the cause for which it cannot be read. -/
def textOfFile {m : Type → Type} [Monad m] (files : FileAccess m) (path : String) :
    m (Except String Found) := do
  match ← resolve files path with
  | none => return .error ("configuration file \"" ++ path ++ "\" not found")
  | some found =>
    match ← files.read found with
    | .error e => return .error e.message
    | .ok bytes =>
      match Utf8.decode bytes with
      | .error _ => return .error "stream did not contain valid UTF-8"
      | .ok text => return .ok (.text (Path.simplified found) text)

/-- Lays the entries of a file over a tree. A key of the file that is a path leads to where the path
    leads. -/
def overlay (root : Node) (file : String) : List (String × Toml.Value) → Node
  | [] => root
  | (key, value) :: rest =>
    let steps := (KeyPath.ofText? key).getD [.key key]
    overlay ((Node.ofValue (some file) value).mergeAt steps root) file rest

/-- Lays a file that was found over a tree. -/
def overlayFound (root : Node) : Found → Except Error Node
  | .missing => .ok root
  | .text file text =>
    match Toml.parse text with
    | some entries => .ok (overlay root file entries)
    | none => .error (.malformedFile file)

/-- Lays files over a tree. -/
def overlayFiles {m : Type → Type} [Monad m] (files : FileAccess m) (root : Node) :
    List FileLayer → m (Except Error Node)
  | [] => return .ok root
  | layer :: rest => do
    let found : Except Error Found :=
      match ← textOfFile files layer.path with
      | .ok found => .ok found
      | .error cause => if layer.required then .error (.unreadable cause) else .ok .missing
    match found.bind (overlayFound root) with
    | .error e => return .error e
    | .ok root => overlayFiles files root rest

/-- Lays overrides over a tree. -/
def overlayOverrides (root : Node) : List Override → Node
  | [] => root
  | o :: rest => overlayOverrides ((Node.scalar none o.value).mergeAt o.path root) rest

/-- The settings of all layers. -/
def build {m : Type → Type} [Monad m] (l : Loader) (files : FileAccess m) :
    m (Except Error Settings) := do
  match ← overlayFiles files builtin.toNode l.files with
  | .error e => return .error e
  | .ok root => return ofNode (overlayOverrides root l.overrides)

end Loader
end Settings
end FunctionMap
