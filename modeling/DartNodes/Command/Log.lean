import DartNodes.Config
import DartNodes.Event

/-! The log of the program. -/
namespace DartNodes.Command

inductive LogEntry where
  /-- The configuration, before the run. -/
  | configuration (config : Config)
  | event (event : Event)
deriving DecidableEq, Repr

namespace LogEntry

def level : LogEntry → Level
  | configuration _ => .debug
  | event e => e.level

def message : LogEntry → Text
  | configuration _ => "resolved configuration"
  | event e => e.message

end LogEntry

/-- The least severe level that the log shows. -/
inductive Threshold where
  | off
  | upTo (level : Level)
deriving DecidableEq, Repr

namespace Threshold

def all : List Threshold :=
  [off, upTo .error, upTo .warn, upTo .info, upTo .debug, upTo .trace]

def name : Threshold → Text
  | off => "off"
  | upTo .error => "error"
  | upTo .warn => "warn"
  | upTo .info => "info"
  | upTo .debug => "debug"
  | upTo .trace => "trace"

def ofName? (name : Text) : Option Threshold := all.find? (·.name = name)

@[simp] theorem ofName?_name (t : Threshold) : ofName? t.name = some t := by
  rcases t with _ | l
  · decide
  · cases l <;> decide

def shows : Threshold → Level → Bool
  | off, _ => false
  | upTo limit, level => level.rank ≤ limit.rank

/-- The threshold that holds when none is asked for. -/
def ofVerbose (verbose : Bool) : Threshold := if verbose then upTo .debug else upTo .warn

end Threshold
end DartNodes.Command
