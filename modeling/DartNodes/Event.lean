import DartNodes.Schema.Basic
import DartNodes.Strategy

/-! The events that a generation reports while it goes on. -/
namespace DartNodes

/-- How much an event matters. -/
inductive Level where
  | error
  | warn
  | info
  | debug
  | trace
deriving DecidableEq, Repr

/-- The place of a level, counted from the most severe. -/
def Level.rank : Level → Nat
  | error => 0
  | warn => 1
  | info => 2
  | debug => 3
  | trace => 4

def Level.name : Level → Text
  | error => "ERROR"
  | warn => "WARN"
  | info => "INFO"
  | debug => "DEBUG"
  | trace => "TRACE"

inductive Event where
  /-- A record of the schema was read. -/
  | kindParsed (kind : Kind)
  /-- No line of the base source is the marker, shown without blanks around it. -/
  | markerMissing (marker : Text)
  | typeRecovered (field type : Text)
  /-- The base class declares nothing, although the schema has fields. -/
  | noAccessors (marker : Text)
  | typesRecovered (count : Nat)
  | fieldEmitted (className field type : Text) (strategy : Strategy)
  | runStarted (schemaPath : Text) (strategy : Strategy)
  | runFinished (classes fields bytes : Nat)
deriving DecidableEq, Repr

namespace Event

def level : Event → Level
  | noAccessors _ => .warn
  | runStarted .. | runFinished .. => .info
  | kindParsed _ | markerMissing _ | typeRecovered .. | typesRecovered _ | fieldEmitted .. => .debug

def message : Event → Text
  | kindParsed _ => "parsed node kind"
  | markerMissing _ => "base class marker not found"
  | typeRecovered .. => "recovered field type"
  | noAccessors _ => "base class declares no accessors"
  | typesRecovered _ => "recovered base class field types"
  | fieldEmitted .. => "emitting field"
  | runStarted .. => "generating node classes"
  | runFinished .. => "generation finished"

end Event
end DartNodes
