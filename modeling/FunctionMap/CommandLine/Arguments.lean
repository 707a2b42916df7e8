import FunctionMap.Batch.Job

/-!
# Command-line arguments

Arguments are read from left to right: switches with one dash and a letter or two dashes and a name,
values behind the switches that take one, and inputs. After a bare pair of dashes everything is an
input.

A value is looked at when the next switch or the end shows that it is complete, so the first fault in
this order is the one that is reported. A switch that does not exist is reported at once.
-/

namespace FunctionMap
namespace CommandLine

/-! ## 1. Switches -/

/-- The switches. -/
inductive Switch where
  | output | format | config | verbose | listFormats | help | version
  deriving DecidableEq, Repr

namespace Switch

/-- The switch of a name behind two dashes. -/
def ofName? : String → Option Switch
  | "output" => some .output
  | "format" => some .format
  | "config" => some .config
  | "verbose" => some .verbose
  | "list-formats" => some .listFormats
  | "help" => some .help
  | "version" => some .version
  | _ => none

/-- The switch of a letter behind one dash. -/
def ofLetter? : Char → Option Switch
  | 'o' => some .output
  | 'f' => some .format
  | 'c' => some .config
  | 'v' => some .verbose
  | 'h' => some .help
  | 'V' => some .version
  | _ => none

/-- Whether a switch takes a value. -/
def takesValue : Switch → Bool
  | .output | .format | .config => true
  | .verbose | .listFormats | .help | .version => false

/-- The way a message names a switch. -/
def label : Switch → String
  | .output => "--output <output>"
  | .format => "--format <format>"
  | .config => "--config <config>"
  | .verbose => "--verbose..."
  | .listFormats => "--list-formats"
  | .help => "--help"
  | .version => "--version"

end Switch

/-! ## 2. Faults -/

/-- What is wrong with some arguments. -/
inductive UsageError where
  | unexpected (argument : String)
  | valueRequired (label : String)
  | repeated (label : String)
  | valueNotTaken (value label : String)
  | inputRequired
  | pairing (e : Job.PairingError)
  deriving DecidableEq, Repr

/-- The first line of the message of an error. -/
def UsageError.message : UsageError → String
  | .unexpected argument => "unexpected argument '" ++ argument ++ "' found"
  | .valueRequired label => "a value is required for '" ++ label ++ "' but none was supplied"
  | .repeated label => "the argument '" ++ label ++ "' cannot be used multiple times"
  | .valueNotTaken value label =>
    "unexpected value '" ++ value ++ "' for '" ++ label ++ "' found; no more were expected"
  | .inputRequired => "the following required arguments were not provided:"
  | .pairing e => e.message

/-- What ends the reading of arguments early. -/
inductive Stop where
  | help | version
  /-- There is nothing to do: the help text takes the place of an error. -/
  | nothingAsked
  | error (e : UsageError)
  deriving DecidableEq, Repr

/-! ## 3. Reading -/

/-- The values that are not complete yet. -/
inductive Pending where
  | none
  | inputs (paths : List String)
  | value (s : Switch) (value? : Option String)
  deriving DecidableEq, Repr

/-- What the arguments ask for. -/
structure Request where
  operands : List Operand
  format? : Option String
  config? : Option String
  verbosity : Nat
  listFormats : Bool
  deriving DecidableEq, Repr

/-- The request without arguments. -/
def Request.empty : Request := ⟨[], none, none, 0, false⟩

/-- The way a message names the inputs. -/
def inputLabel : String := "[input]..."

/-- Adds the value of a switch to a request. Paths are not empty, and all but outputs come once. -/
def Request.withValue (r : Request) (s : Switch) (value : String) : Except UsageError Request :=
  match s with
  | .output =>
    if value = "" then .error (.valueRequired s.label)
    else .ok { r with operands := r.operands ++ [.output value] }
  | .format =>
    if r.format?.isSome then .error (.repeated s.label) else .ok { r with format? := some value }
  | .config =>
    if r.config?.isSome then .error (.repeated s.label)
    else if value = "" then .error (.valueRequired s.label)
    else .ok { r with config? := some value }
  | _ => .ok r

/-- The arguments read so far. -/
structure Progress where
  request : Request
  pending : Pending
  deriving DecidableEq, Repr

namespace Progress

/-- Completes the values at hand. -/
def settle (p : Progress) : Except UsageError Request :=
  match p.pending with
  | .none => .ok p.request
  | .inputs paths =>
    if "" ∈ paths then .error (.valueRequired inputLabel)
    else .ok { p.request with operands := p.request.operands ++ paths.map .input }
  | .value s (some value) => p.request.withValue s value
  | .value s none => .error (.valueRequired s.label)

/-- Takes an argument that is an input. -/
def takeInput (p : Progress) (path : String) : Except Stop Progress :=
  match p.pending with
  | .inputs paths => .ok { p with pending := .inputs (paths ++ [path]) }
  | _ => do
    let request ← p.settle.mapError .error
    return ⟨request, .inputs [path]⟩

/-- Takes an argument that is no switch: the value that the last switch waits for, or an input. -/
def takeWord (p : Progress) (word : String) : Except Stop Progress :=
  match p.pending with
  | .value s none => .ok { p with pending := .value s (some word) }
  | _ => p.takeInput word

/-- Takes a switch without a value. -/
def takeFlag (p : Progress) (s : Switch) : Except Stop Progress := do
  let request ← p.settle.mapError .error
  match s with
  | .verbose => return ⟨{ request with verbosity := request.verbosity + 1 }, .none⟩
  | .listFormats =>
    if request.listFormats then throw (.error (.repeated s.label))
    return ⟨{ request with listFormats := true }, .none⟩
  | .help => throw .help
  | .version => throw .version
  | _ => return ⟨request, .none⟩

/-- Takes a switch with its value, or one that waits for its value. -/
def takeOption (p : Progress) (s : Switch) (value? : Option String) : Except Stop Progress := do
  let request ← p.settle.mapError .error
  match value? with
  | none => return ⟨request, .value s none⟩
  | some value => return ⟨← (request.withValue s value).mapError .error, .none⟩

/-- Takes what stands behind two dashes: a name, and behind an equals sign a value. -/
def takeLong (p : Progress) (text : List Char) : Except Stop Progress :=
  let name := String.ofList (text.takeWhile (· ≠ '='))
  let value? := match text.dropWhile (· ≠ '=') with
    | [] => none
    | _ :: value => some (String.ofList value)
  match Switch.ofName? name with
  | none => .error (.error (.unexpected ("--" ++ name)))
  | some s =>
    if s.takesValue then p.takeOption s value?
    else
      match value? with
      | some value => .error (.error (.valueNotTaken value s.label))
      | none => p.takeFlag s

/-- Takes what stands behind one dash: letters, and behind one that takes a value the value. -/
def takeShort (p : Progress) : List Char → Except Stop Progress
  | [] => .ok p
  | c :: rest =>
    match Switch.ofLetter? c with
    | none => .error (.error (.unexpected (String.ofList ['-', c])))
    | some s =>
      if s.takesValue then
        match rest with
        | [] => p.takeOption s none
        | '=' :: value => p.takeOption s (some (String.ofList value))
        | value => p.takeOption s (some (String.ofList value))
      else do (← p.takeFlag s).takeShort rest

/-- Takes one argument. -/
def take (p : Progress) (argument : String) : Except Stop Progress :=
  match argument.toList with
  | '-' :: '-' :: text => p.takeLong text
  | '-' :: c :: text => p.takeShort (c :: text)
  | _ => p.takeWord argument

end Progress

/-- Reads arguments that are all inputs. -/
def readInputs (p : Progress) : List String → Except Stop Progress
  | [] => .ok p
  | path :: rest => do readInputs (← p.takeInput path) rest

/-- Reads arguments. -/
def readFrom (p : Progress) : List String → Except Stop Progress
  | [] => .ok p
  | argument :: rest =>
    if argument = "--" then readInputs p rest else do readFrom (← p.take argument) rest

/-- Reads a command line. Inputs are required unless the formats are to be listed. -/
def read (arguments : List String) : Except Stop Request := do
  let request ← (← readFrom ⟨.empty, .none⟩ arguments).settle.mapError .error
  if request = .empty then throw .nothingAsked
  if (Job.inputs request.operands).isEmpty && !request.listFormats then
    throw (.error .inputRequired)
  return request

end CommandLine
end FunctionMap
