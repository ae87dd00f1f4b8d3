import DartNodes.Command.Process

/-! The program on the files of the system. -/
namespace DartNodes

/-- The fault of an error number, which some calls give with its sign turned. -/
def Fault.ofNumber (number : UInt32) (description : String) : Fault :=
  match min number (0 - number) with
  | 2 => .notFound
  | 20 => .notADirectory
  | 21 => .isADirectory
  | n => .other (description.capitalize.toList ++ " (os error " ++ Text.ofNat n.toNat ++ ")")

/-- The fault that a failed call of the system tells of. -/
def Fault.ofError : IO.Error → Fault
  | .noFileOrDirectory _ n d | .interrupted _ n d => .ofNumber n d
  | .alreadyExists _ n d | .invalidArgument _ n d | .permissionDenied _ n d => .ofNumber n d
  | .resourceExhausted _ n d | .inappropriateType _ n d | .noSuchThing _ n d => .ofNumber n d
  | .otherError n d | .resourceBusy n d | .resourceVanished n d => .ofNumber n d
  | .unsupportedOperation n d | .hardwareFault n d | .unsatisfiedConstraints n d => .ofNumber n d
  | .illegalOperation n d | .protocolError n d | .timeExpired n d => .ofNumber n d
  | error => .other error.toString.toList

def readFile (path : Text) : IO (Except Fault Text) := do
  match ← (IO.FS.readBinFile (String.ofList path)).toBaseIO with
  | .error error => return .error (.ofError error)
  | .ok bytes => return Fault.decode bytes

def writeFile (path code : Text) : IO (Except GenerateError Unit) := do
  let written ← (IO.FS.withFile (String.ofList path) .write fun file => do
    file.write code.toBytes
    -- A fault of the disk may show no earlier than here.
    file.flush).toBaseIO
  return written.mapError fun error => .write path (.ofError error)

/-- Writes the code of a prepared run where the run wants it. -/
def savePrepared (prepared : Traced GenerateError Report) : IO (Except GenerateError Unit) := do
  match prepared.outcome with
  | .ok { output? := some path, code := code, .. } => writeFile path code
  | _ => return .ok ()

/-- The files that a run of a configuration reads. -/
def readFiles (config : Config) : IO (List (Text × Except Fault Text)) := do
  let schemaText ← readFile config.schema
  match config.baseToRead? schemaText with
  | none => return [(config.schema, schemaText)]
  | some path => return [(config.schema, schemaText), (path, ← readFile path)]

namespace Command

/-- The usage line stands for the words of the parser of the arguments. -/
def wording : Wording where
  help := "Usage: nodegen [OPTIONS] --schema <SCHEMA>\n"
  misuse _ := "Usage: nodegen [OPTIONS] --schema <SCHEMA>\n"

/-- Prints what a process says. The fault is one of standard output. -/
def Ending.print (ending : Ending) : IO (Except Fault Unit) := do
  let log := ending.log.map fun entry => entry.level.name ++ ' ' :: entry.message
  IO.eprint (String.ofList (Text.unlines log ++ ending.stderr))
  let printed ← (do IO.print (String.ofList ending.stdout); (← IO.getStdout).flush : IO Unit).toBaseIO
  return printed.mapError .ofError

/-- The process of a run that was asked for. -/
def Invocation.execute (invocation : Invocation) (asked? : Option Threshold) : IO Ending := do
  let found ← readFiles invocation.config
  let prepared := prepare (fun path => (found.lookup path).getD (.error .notFound)) invocation.config
  let ending := invocation.ending asked? (conclude prepared (← savePrepared prepared))
  match ← ending.print with
  | .ok _ => return ending
  | .error fault =>
    IO.eprint (String.ofList (ending.unprinted fault).stderr)
    return ending.unprinted fault

end Command
end DartNodes

open DartNodes Command in
def main (arguments : List String) : IO UInt32 := do
  match Invocation.ofArguments (arguments.map String.toList) with
  | .error halt =>
    let _ ← (halt.ending wording).print
    return (halt.ending wording).exit.toUInt32
  | .ok invocation =>
    let asked? := (← IO.getEnv "RUST_LOG").bind fun name => Threshold.ofName? name.toList
    return (← invocation.execute asked?).exit.toUInt32
