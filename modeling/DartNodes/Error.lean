import DartNodes.Schema.Error
import DartNodes.Store.Fault

/-! What can end a generation. -/
namespace DartNodes

inductive GenerateError where
  | parse (error : ParseError)
  | schema (error : SchemaError)
  /-- Typed fields without a base class to take the types from. -/
  | missingBase
  | missingMarker (marker : Text)
  | unresolvedField (field className : Text) (line : Nat)
  | read (path : Text) (fault : Fault)
  | write (path : Text) (fault : Fault)
deriving DecidableEq, Repr

namespace GenerateError

def message : GenerateError → Text
  | parse error => "schema parse error: " ++ error.message
  | schema error => "schema error: " ++ error.message
  | missingBase => "typed generation requires the base node class source"
  | missingMarker marker => "base class marker '" ++ marker ++ "' not found in base source"
  | unresolvedField field className line =>
    "field '" ++ field ++ "' of '" ++ className ++ "' (schema line " ++ Text.ofNat line ++
      ") is not declared on the base class"
  | read path fault => "failed to read '" ++ path ++ "': " ++ fault.message
  | write path fault => "failed to write '" ++ path ++ "': " ++ fault.message

/-- The messages of the errors behind an error, outermost first. -/
def causes : GenerateError → List Text
  | parse error => [error.message]
  | schema error => error.message :: error.causes
  | read _ fault | write _ fault => [fault.message]
  | missingBase | missingMarker _ | unresolvedField .. => []

end GenerateError
end DartNodes
