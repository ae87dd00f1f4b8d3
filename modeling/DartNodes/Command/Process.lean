import DartNodes.Command.Invocation
import DartNodes.Command.Log
import DartNodes.Run

/-! The program as a process: what it prints and how it exits. Both streams are taken to accept all that is
printed, and what a process says that cannot print its code is told apart (`Ending.unprinted`). Errors are told
with their causes in the form of the reports of anyhow. -/
namespace DartNodes.Command

/-- What a process leaves besides files. -/
structure Ending where
  exit : Nat
  /-- The log, which is the first part of standard error. -/
  log : List LogEntry := []
  /-- The rest of standard error. -/
  stderr : Text := []
  stdout : Text := []
deriving DecidableEq, Repr

/-- A message with a lead before its first line and the rest of its lines indented. -/
def indented (lead indent message : Text) : Text :=
  lead ++ List.intercalate ('\n' :: indent) (message.pieces '\n')

/-- The numbered messages of an error and its causes. -/
def numbered (n : Nat) : List Text → List Text
  | [] => []
  | message :: rest =>
    indented ("    " ++ Text.ofNat n ++ ": ") "       " message :: numbered (n + 1) rest

/-- The lines that tell an error: alone, or numbered with its causes. -/
def chainLines (error : GenerateError) : List Text :=
  match error.causes with
  | [] => [indented "    " "    " error.message]
  | causes => numbered 0 (error.message :: causes)

/-- An error, above the lines that tell what caused it. -/
def errorText (message : Text) (causes : List Text) : Text :=
  "Error: " ++ message ++ "\n\nCaused by:\n" ++ Text.unlines causes

/-- What standard error says about a failed run. -/
def failureText (schemaPath : Text) (error : GenerateError) : Text :=
  errorText ("generation from '" ++ schemaPath ++ "' failed") (chainLines error)

/-- What standard error says about code that was written to a file. -/
def writtenText (path : Text) (report : Report) : Text :=
  "wrote " ++ Text.ofNat report.classes ++ " classes (" ++ Text.ofNat report.fields ++
    " fields) to " ++ path ++ "\n"

/-- The end of a process whose code standard output does not take. -/
def Ending.unprinted (ending : Ending) (fault : Fault) : Ending :=
  { ending with
    exit := 1
    stderr := errorText "failed to write to stdout" [indented "    " "    " fault.message] }

/-- The words of the parser of the arguments: its help, and what it says about misused arguments. -/
structure Wording where
  help : Text
  misuse : UsageError → Text

def versionText : Text := "nodegen 0.1.0\n"

/-- The end of a process that runs nothing. -/
def Halt.ending (wording : Wording) : Halt → Ending
  | usage error => { exit := 2, stderr := wording.misuse error }
  | help => { exit := 0, stdout := wording.help }
  | version => { exit := 0, stdout := versionText }

/-- The part of the log that is shown. -/
def Invocation.log (invocation : Invocation) (asked? : Option Threshold) (events : List Event) :
    List LogEntry :=
  (.configuration invocation.config :: events.map .event).filter fun entry =>
    (asked?.getD (.ofVerbose invocation.verbose)).shows entry.level

/-- The end of a process whose run ended as given. -/
def Invocation.ending (invocation : Invocation) (asked? : Option Threshold)
    (result : Traced GenerateError Report) : Ending :=
  let log := invocation.log asked? result.events
  match result.outcome with
  | .error error => { exit := 1, log, stderr := failureText invocation.config.schema error }
  | .ok report =>
    match report.output? with
    | none => { exit := 0, log, stdout := report.code }
    | some path => { exit := 0, log, stderr := writtenText path report }

/-- A process on a store, and the store after it. -/
def execute (wording : Wording) (arguments : List Text) (asked? : Option Threshold) (store : Store) :
    Ending × Store :=
  match Invocation.ofArguments arguments with
  | .error halt => (halt.ending wording, store)
  | .ok invocation =>
    let (result, after) := run store invocation.config
    (invocation.ending asked? result, after)

end DartNodes.Command
