import DartNodes.Command.Reader
import DartNodes.Config

/-! What the arguments of the command line ask for. -/
namespace DartNodes.Command

/-- A run that was asked for. -/
structure Invocation where
  config : Config
  verbose : Bool
deriving DecidableEq, Repr

/-- The names that the arguments give; the field of the tag and what tags start with are fixed. -/
def Reading.target (r : Reading) : Target :=
  let names : Target := {}
  { names with
    baseClass := (r.value? .baseClass).getD names.baseClass
    interface := (r.value? .interface).getD names.interface
    enumName := (r.value? .enumName).getD names.enumName
    dispatcher := (r.value? .dispatcher).getD names.dispatcher
    imports? := if r.valuesOf .importLine = [] then none else some (r.valuesOf .importLine) }

/-- The run that the arguments ask for. That the schema is missing is seen last. -/
def Invocation.ofReading (r : Reading) : Except Halt Invocation :=
  match r.value? .schema with
  | none => .error (.usage .missingSchema)
  | some schema => .ok {
      verbose := r.verbose
      config := {
        schema := schema
        base? := r.value? .base
        output? := r.value? .out
        strategy := ((r.value? .strategy).bind Strategy.ofName?).getD .typed
        marker := (r.value? .marker).getD defaultMarker
        target := r.target } }

/-- The run that some arguments, without the name of the program, ask for. -/
def Invocation.ofArguments (arguments : List Text) : Except Halt Invocation := do
  ofReading (← ({} : Reading).onArguments arguments)

end DartNodes.Command
