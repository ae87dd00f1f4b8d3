import DartNodes.Text.Basic

/-! What can be wrong with the text of a schema, and with a schema. -/
namespace DartNodes

/-- The side of the first `=` of a field that is empty. -/
inductive FieldFault where
  | missingName
  | missingDefault
deriving DecidableEq, Repr

def FieldFault.message : FieldFault → Text
  | missingName => "missing field name before '='"
  | missingDefault => "missing default value after '='"

inductive ParseError where
  /-- A record of a single word. -/
  | malformedLine (line : Nat) (found : Text)
  | invalidField (line column : Nat) (word : Text) (fault : FieldFault)
deriving DecidableEq, Repr

def ParseError.message : ParseError → Text
  | malformedLine line found =>
    "line " ++ Text.ofNat line ++ ": expected '<tag> <ClassName> [fields...]', found '" ++ found ++ "'"
  | invalidField line column word fault =>
    "line " ++ Text.ofNat line ++ ", column " ++ Text.ofNat column ++ ": invalid field '" ++ word ++
      "': " ++ fault.message

inductive SchemaError where
  | parse (error : ParseError)
  | duplicateTag (tag : Text) (firstLine line : Nat)
  | duplicateClass (className : Text) (firstLine line : Nat)
deriving DecidableEq, Repr

namespace SchemaError

private def duplicate (what name : Text) (firstLine line : Nat) : Text :=
  "duplicate " ++ what ++ " '" ++ name ++ "' on line " ++ Text.ofNat line ++
    " (first declared on line " ++ Text.ofNat firstLine ++ ")"

def message : SchemaError → Text
  | parse error => "parse error: " ++ error.message
  | duplicateTag tag firstLine line => duplicate "type tag" tag firstLine line
  | duplicateClass className firstLine line => duplicate "class name" className firstLine line

/-- The messages of the errors behind an error, outermost first. -/
def causes : SchemaError → List Text
  | parse error => [error.message]
  | duplicateTag .. => []
  | duplicateClass .. => []

end SchemaError

end DartNodes
