import FunctionMap.Conversion
import FunctionMap.Batch.Job
import FunctionMap.Batch.Log
import FunctionMap.Files.Access
import FunctionMap.Files.Path
import FunctionMap.Settings.Schema

/-!
# Batches

A batch does its jobs in order, each on the files as the jobs before it left them. A job that fails
changes no file; the batch goes on after it where the settings say so. The batch succeeds when every
job does.
-/

namespace FunctionMap

/-- What a run tells its user: an event for the log, or a message. -/
inductive Notice where
  | event (e : Log.Event)
  | message (text : String)
  deriving DecidableEq, Repr

namespace Batch

/-! ## 1. One job -/

/-- The path of the output of a job: beside the input unless another one is asked for. -/
def outputPath (extension : String) (job : Job) : String :=
  job.output?.getD (Path.withExtension job.input extension)

/-- What a conversion says about itself, as far as it comes. -/
def conversionEvents (c : Converter) (source : Bytes) : List Log.Event :=
  (headers source).map Log.header ++
    match parse source with
    | .error _ => []
    | .ok t => Log.parsed t ::
      match t.capitalized with
      | .error _ => []
      | .ok t => Log.capitalized t ::
        match c.registry.format t c.format with
        | .error _ => []
        | .ok bytes => [Log.converted c.format bytes.length]

/-- Converts a file into another, and tells what it did and, if it failed, the message. -/
def convertFile {m : Type → Type} [Monad m] (files : FileAccess m) (c : Converter)
    (input output : String) : m (List Log.Event × Except String Unit) := do
  match ← files.read input with
  | .error e => return ([], .error ("Error reading file: " ++ e.message))
  | .ok source =>
    let events := conversionEvents c source
    match c.output source with
    | .error e => return (events, .error (e.diagnosis source))
    | .ok bytes =>
      match ← files.write output bytes with
      | .ok () => return (events, .ok ())
      | .error e => return (events, .error ("Error writing '" ++ output ++ "': " ++ e.message))

/-! ## 2. All jobs -/

/-- How a batch ended: whether every job was done, and what there is to tell. -/
structure Report where
  succeeded : Bool
  notices : List Notice
  deriving DecidableEq, Repr

/-- Does some jobs in order. -/
def runJobs {m : Type → Type} [Monad m] (files : FileAccess m) (c : Converter)
    (settings : ConvertSettings) : List Job → m Report
  | [] => return ⟨true, []⟩
  | job :: rest => do
    let output := outputPath settings.outputExtension job
    let (events, result) ← convertFile files c job.input output
    let told := Notice.event (Log.converting job.input output) :: events.map Notice.event
    match result with
    | .ok () =>
      let report ← runJobs files c settings rest
      return { report with notices := told ++ Notice.event (Log.wrote output) :: report.notices }
    | .error message =>
      let told := told ++ [.event (Log.failed job.input), .message (job.input ++ ": " ++ message)]
      if settings.continueOnError then
        let report ← runJobs files c settings rest
        return ⟨false, told ++ report.notices⟩
      else return ⟨false, told⟩

/-- Does the jobs of a batch, if its format exists. -/
def run {m : Type → Type} [Monad m] (files : FileAccess m) (settings : ConvertSettings)
    (jobs : List Job) : m Report := do
  let c := Converter.ofFormat settings.format
  if c.registry.has c.format then
    let report ← runJobs files c settings jobs
    let start := Notice.event (Log.startingBatch c.format jobs.length)
    return { report with notices := start :: report.notices }
  else
    return ⟨false,
      [.message (FormatError.notFound c.format).message,
       .message ("Available formats: " ++ String.intercalate ", " c.registry.names)]⟩

end Batch
end FunctionMap
