import DartNodes.Accessor.Scan
import DartNodes.Output.File
import DartNodes.Schema.Distinct
import DartNodes.Typing

/-! Generating code from the texts of a schema and of a base class. -/
namespace DartNodes

namespace Schema

/-- The schema that a text spells, refused if a tag or a class name is used twice. -/
def load (text : Text) : Traced GenerateError Schema := do
  let schema ← (parse text).mapError .parse
  (Traced.ofExcept schema.validate).mapError .schema
  return schema

/-- The file that a schema stands for. -/
def toFile (schema : Schema) (typing : Typing) : Traced GenerateError OutputFile := do
  return ⟨typing.strategy, schema.kinds, ← typing.classes schema.kinds⟩

end Schema

/-- The types for a schema with `fieldCount` fields. Only the typed strategy looks at the source of
the base class. -/
def Typing.ofBase (strategy : Strategy) (base? : Option Text) (marker : Text) (fieldCount : Nat) :
    Traced GenerateError Typing :=
  match strategy, base? with
  | .untyped, _ => pure .untyped
  | .typed, none => Traced.fail .missingBase
  | .typed, some source => do
    let table ← (Table.recover source marker).mapError fun e => .missingMarker e.marker
    if table.size = 0 ∧ 0 < fieldCount then
      Traced.report [.noAccessors marker]
    Traced.report [.typesRecovered table.size]
    return .typed table

/-- The code for a schema. -/
def Schema.render (schema : Schema) (base? : Option Text) (strategy : Strategy) (target : Target)
    (marker : Text) : Traced GenerateError Text := do
  let typing ← Typing.ofBase strategy base? marker schema.fieldCount
  return (← schema.toFile typing).code target

/-- The code for the schema that a text spells. -/
def generate (base? : Option Text) (schemaText : Text) (strategy : Strategy) (target : Target)
    (marker : Text) : Traced GenerateError Text := do
  (← Schema.load schemaText).render base? strategy target marker

end DartNodes
