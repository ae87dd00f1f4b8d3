import DartNodes.Schema.Reader

/-! Writing schemas: each kind stands on the line that it names, with empty lines in between. -/
namespace DartNodes

def Field.print (field : Field) : Text :=
  match field.initial? with
  | none => field.name
  | some initial => field.name ++ '=' :: initial

def Kind.print (kind : Kind) : Text :=
  kind.tag ++ ' ' :: kind.className ++ kind.fields.flatMap fun field => ' ' :: field.print

namespace Schema

/-- The lines from `number` on, down to the last of the kinds. -/
def recordLines (number : Nat) : List Kind → List Text
  | [] => []
  | kind :: rest =>
    List.replicate (kind.line - number) [] ++ kind.print :: recordLines (kind.line + 1) rest

def print (schema : Schema) : Text :=
  Text.unlines (schema.header :: recordLines 2 schema.kinds)

end Schema
end DartNodes
