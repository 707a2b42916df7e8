import FunctionMap.Batch.Filter
import FunctionMap.Batch.Run
import FunctionMap.CommandLine.Arguments
import FunctionMap.Settings.Loader

/-!
# The program

The arguments decide what is done: the help text, the version or the list of formats is printed, or
the settings are put together and a batch is run. Faults of the command line end with the status 2,
faults of the settings and of the batch with 1.
-/

namespace FunctionMap
namespace CommandLine

/-- What a run leaves: its status, its output and what it told its user. -/
structure Outcome where
  status : Nat
  output : String
  notices : List Notice
  deriving DecidableEq, Repr

/-- The help text. -/
def helpText : String :=
  "Convert MFM declaration files to YAML\n\n" ++
  "Usage: mfm [OPTIONS] [input]...\n\n" ++
  "Arguments:\n" ++
  "  [input]...  Path to an MFM file (repeatable)\n\n" ++
  "Options:\n" ++
  "  -o, --output <output>  Output path for the input preceding this flag\n" ++
  "  -f, --format <format>  Output format (default: convert.format from configuration)\n" ++
  "  -c, --config <config>  Configuration file layered over the built-in defaults\n" ++
  "  -v, --verbose...       Increase log verbosity (-v info, -vv debug, -vvv trace)\n" ++
  "      --list-formats     List available output formats\n" ++
  "  -h, --help             Print help\n" ++
  "  -V, --version          Print version\n"

/-- The name and number of the program. -/
def versionText : String := "mfm 0.1.0\n"

/-- The list of the formats of a registry. -/
def formatList (r : Registry) : String :=
  "Available formats:\n\n" ++ String.join (r.formatters.map fun f =>
    "  " ++ f.name ++ "\n    " ++ f.description ++ "\n\n")

/-- The text of a message without the line feed at its end. -/
def withoutLineFeed (text : String) : String :=
  String.ofList (if text.toList.getLast? = some '\n' then text.toList.dropLast else text.toList)

/-- The outcome of arguments that ask for no batch. -/
def Stop.outcome : Stop → Outcome
  | .help => ⟨0, helpText, []⟩
  | .version => ⟨0, versionText, []⟩
  | .nothingAsked => ⟨2, "", [.message (withoutLineFeed helpText)]⟩
  | .error e => ⟨2, "", [.message ("error: " ++ e.message)]⟩

/-- The layers of settings that a request asks for. -/
def Request.loader (r : Request) : Settings.Loader :=
  (Settings.Loader.start.withUserFile r.config?).withFormat r.format?

/-- Whether a filter lets a notice through; messages always pass. -/
def admits (filter : Log.Filter) : Notice → Bool
  | .event e => filter.admits e
  | .message _ => true

/-- Runs the batch that a request asks for. -/
def runBatch {m : Type → Type} [Monad m] (files : FileAccess m) (r : Request) : m Outcome := do
  match ← r.loader.build files with
  | .error e => return ⟨1, "", [.message ("Configuration error: " ++ e.message)]⟩
  | .ok settings =>
    match Job.pair r.operands with
    | .error e => return (Stop.error (.pairing e)).outcome
    | .ok jobs =>
      let report ← Batch.run files settings.convert jobs
      let filter := Log.Filter.ofVerbosity r.verbosity settings.logging.level
      return ⟨if report.succeeded then 0 else 1, "", report.notices.filter (admits filter)⟩

/-- Runs the program with some arguments. -/
def run {m : Type → Type} [Monad m] (files : FileAccess m) (arguments : List String) :
    m Outcome := do
  match read arguments with
  | .error stop => return stop.outcome
  | .ok request =>
    if request.listFormats then return ⟨0, formatList .builtin, []⟩
    else runBatch files request

end CommandLine
end FunctionMap
