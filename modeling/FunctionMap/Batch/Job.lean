/-!
# Jobs

A job is an input and, if one is asked for, the path of its output. On a command line an output
belongs to the input closest before it. Every input has its job, in order; an output without an input
before it, or a second one behind an input, is an error.
-/

namespace FunctionMap

/-- A path on a command line. -/
inductive Operand where
  | input (path : String)
  | output (path : String)
  deriving DecidableEq, Repr

/-- One conversion: an input, and the path of its output if one is asked for. -/
structure Job where
  input : String
  output? : Option String
  deriving DecidableEq, Repr

namespace Job

/-- Why operands do not make jobs. -/
inductive PairingError where
  /-- An output has no input before it. -/
  | orphan (output : String)
  /-- An input has two outputs. -/
  | twoOutputs (input : String)
  deriving DecidableEq, Repr

/-- The wording of an error. -/
def PairingError.message : PairingError → String
  | .orphan output => "--output '" ++ output ++ "' is not preceded by an input"
  | .twoOutputs input => "input '" ++ input ++ "' has more than one --output"

/-- The jobs of some operands that follow the job `last`. -/
def pairAfter (last : Job) : List Operand → Except PairingError (List Job)
  | [] => .ok [last]
  | .input path :: rest => (pairAfter ⟨path, none⟩ rest).map (last :: ·)
  | .output path :: rest =>
    match last.output? with
    | none => pairAfter { last with output? := some path } rest
    | some _ => .error (.twoOutputs last.input)

/-- The jobs of a command line. -/
def pair : List Operand → Except PairingError (List Job)
  | [] => .ok []
  | .input path :: rest => pairAfter ⟨path, none⟩ rest
  | .output path :: _ => .error (.orphan path)

/-- The inputs among some operands. -/
def inputs : List Operand → List String
  | [] => []
  | .input path :: rest => path :: inputs rest
  | .output _ :: rest => inputs rest

end Job
end FunctionMap
