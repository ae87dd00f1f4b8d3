import DartNodes.Config
import DartNodes.Generate
import DartNodes.Store.Basic

/-! Runs: read the files of a configuration, generate, and write the code once. -/
namespace DartNodes

/-- What a run has done. -/
structure Report where
  classes : Nat
  fields : Nat
  output? : Option Text
  code : Text
deriving DecidableEq, Repr

/-- The size of the code in UTF-8. -/
def Report.bytes (report : Report) : Nat := report.code.byteCount

/-- The text of an input file. -/
def readInput (read : Text → Except Fault Text) (path : Text) : Traced GenerateError Text :=
  Traced.ofExcept ((read path).mapError (.read path))

/-- The source of the base class, if the strategy needs it. -/
def readBase (read : Text → Except Fault Text) (config : Config) :
    Traced GenerateError (Option Text) :=
  if config.strategy.needsBase then
    match config.base? with
    | none => Traced.fail .missingBase
    | some path => some <$> readInput read path
  else pure none

/-- The path of the base class, if it is read once the text of the schema was, or could not be. A schema that
is refused ends the run before. -/
def Config.baseToRead? (config : Config) (schemaText : Except Fault Text) : Option Text :=
  match schemaText with
  | .error _ => none
  | .ok text =>
    match (Schema.load text).outcome with
    | .error _ => none
    | .ok _ => if config.strategy.needsBase then config.base? else none

/-- All that a run does before it writes. -/
def prepare (read : Text → Except Fault Text) (config : Config) : Traced GenerateError Report := do
  Traced.report [.runStarted config.schema config.strategy]
  let schema ← Schema.load (← readInput read config.schema)
  let base? ← readBase read config
  let code ← schema.render base? config.strategy config.target config.marker
  return ⟨schema.kinds.length, schema.fieldCount, config.output?, code⟩

/-- A prepared run once its code was saved, or could not be. -/
def conclude (prepared : Traced GenerateError Report) (saved : Except GenerateError Unit) :
    Traced GenerateError Report := do
  let report ← prepared
  Traced.ofExcept saved
  Traced.report [.runFinished report.classes report.fields report.bytes]
  return report

/-- Writes the code where the report wants it. A write that fails may leave part of the code there. -/
def Report.save (report : Report) (store : Store) : Except GenerateError Unit × Store :=
  match report.output? with
  | none => (.ok (), store)
  | some path =>
    let (written, after) := store.write path report.code.toBytes
    (written.mapError (.write path), after)

/-- A run on a store, and the store as the run leaves it, also if the run fails. -/
def run (store : Store) (config : Config) : Traced GenerateError Report × Store :=
  let prepared := prepare store.readText config
  match prepared.outcome with
  | .error _ => (prepared, store)
  | .ok report =>
    let (saved, after) := report.save store
    (conclude prepared saved, after)

end DartNodes
