import DartNodes.Accessor.Scan
import DartNodes.Output.Target

/-! What a run is to do. -/
namespace DartNodes

structure Config where
  /-- The path of the schema. -/
  schema : Text
  /-- The path of the source of the base class. -/
  base? : Option Text := none
  /-- Where the code is written to. -/
  output? : Option Text := none
  strategy : Strategy := .typed
  marker : Text := defaultMarker
  target : Target := {}
deriving DecidableEq, Repr

end DartNodes
