import FunctionMap.CommandLine.Program

/-!
# Running on a machine

The outer layer: the files of the machine, the arguments and the standard streams.
-/

namespace FunctionMap

/-- The cause for which the machine refused a file. -/
def FileError.ofMachine : IO.Error → FileError
  | .noFileOrDirectory _ _ _ => .notFound
  | .inappropriateType _ 21 _ => .isDirectory
  | .inappropriateType _ 20 _ => .notADirectory
  | e => .other e.toString

/-- The files of the machine. -/
def machineFiles : FileAccess IO where
  isFile path := do
    match ← (IO.FS.readBinFile path).toBaseIO with
    | .ok _ => return true
    | .error _ => return false
  read path := do
    match ← (IO.FS.readBinFile path).toBaseIO with
    | .ok bytes => return .ok bytes.toList
    | .error e => return .error (.ofMachine e)
  write path content := do
    match ← (IO.FS.writeBinFile path ⟨content.toArray⟩).toBaseIO with
    | .ok () => return .ok ()
    | .error e => return .error (.ofMachine e)

/-- Prints what a run told its user. -/
def printNotice : Notice → IO Unit
  | .event e => IO.eprintln e.line
  | .message text => IO.eprintln text

end FunctionMap

/-- Runs the program with the arguments of the command line. -/
def main (arguments : List String) : IO UInt32 := do
  let outcome ← FunctionMap.CommandLine.run FunctionMap.machineFiles arguments
  IO.print outcome.output
  outcome.notices.forM FunctionMap.printNotice
  return outcome.status.toUInt32
