import DartNodes.Text.Basic

/-! Schemas: ordered lists of node kinds, each with a type tag, a class and the fields it declares. -/
namespace DartNodes

structure Field where
  name : Text
  /-- The expression that the field starts with, verbatim. -/
  initial? : Option Text
deriving DecidableEq, Repr

structure Kind where
  tag : Text
  className : Text
  fields : List Field
  /-- The line of the schema that declares the kind. -/
  line : Nat
deriving DecidableEq, Repr

structure Schema where
  header : Text
  kinds : List Kind
deriving DecidableEq, Repr

/-- What the members of the tag enumeration start with, unless told otherwise. -/
def defaultTagPrefix : Text := "AST_"

namespace Kind

def addField (kind : Kind) (field : Field) : Kind := { kind with fields := kind.fields ++ [field] }

@[simp] theorem fields_addField (kind : Kind) (field : Field) :
    (kind.addField field).fields = kind.fields ++ [field] := rfl

/-- The member of the tag enumeration that stands for the kind. -/
def enumMember (kind : Kind) (tagPrefix : Text) : Text := tagPrefix ++ kind.tag

end Kind

namespace Schema

/-- The schema without kinds. -/
def empty (header : Text) : Schema := ⟨header, []⟩

def addKind (schema : Schema) (kind : Kind) : Schema := { schema with kinds := schema.kinds ++ [kind] }

@[simp] theorem kinds_addKind (schema : Schema) (kind : Kind) :
    (schema.addKind kind).kinds = schema.kinds ++ [kind] := rfl

/-- The first kind with the tag. -/
def find? (schema : Schema) (tag : Text) : Option Kind := schema.kinds.find? (·.tag = tag)

/-- The number of fields of all kinds together. -/
def fieldCount (schema : Schema) : Nat := (schema.kinds.flatMap (·.fields)).length

@[simp] theorem fieldCount_empty (header : Text) : fieldCount (empty header) = 0 := rfl

@[simp] theorem fieldCount_addKind (schema : Schema) (kind : Kind) :
    (schema.addKind kind).fieldCount = schema.fieldCount + kind.fields.length := by
  simp [fieldCount]

/-- The schema with one more field at the end of the kind at `index`, if there is such a kind. -/
def addField (schema : Schema) (index : Nat) (field : Field) : Schema :=
  { schema with kinds := schema.kinds.modify index (·.addField field) }

end Schema
end DartNodes
