import DartNodes.Accessor.Table
import DartNodes.Error
import DartNodes.Output.NodeClass
import DartNodes.Traced

/-! Giving types to the fields of a schema. -/
namespace DartNodes

/-- Where the types of fields come from. -/
inductive Typing where
  | typed (table : Table)
  | untyped

namespace Typing

def strategy : Typing → Strategy
  | typed _ => .typed
  | untyped => .untyped

/-- The type of the fields of a name. -/
def typeOf? : Typing → Text → Option Text
  | typed table, name => table.get? name
  | untyped, _ => some "var"

/-- The type of a field of a kind. -/
def resolve (typing : Typing) (kind : Kind) (field : Field) : Except GenerateError Text :=
  match typing.typeOf? field.name with
  | some type => .ok type
  | none => .error (.unresolvedField field.name kind.className kind.line)

def declare (typing : Typing) (kind : Kind) (field : Field) : Traced GenerateError Declaration := do
  let type ← Traced.ofExcept (typing.resolve kind field)
  Traced.report [.fieldEmitted kind.className field.name type typing.strategy]
  return ⟨type, field.name, field.initial?⟩

/-- The class of a kind. -/
def nodeClass (typing : Typing) (kind : Kind) : Traced GenerateError NodeClass := do
  return ⟨kind.className, kind.tag, ← kind.fields.mapM (typing.declare kind)⟩

/-- The classes of some kinds, in the same order. -/
def classes (typing : Typing) (kinds : List Kind) : Traced GenerateError (List NodeClass) :=
  kinds.mapM typing.nodeClass

end Typing
end DartNodes
