import DartNodes.Schema.Reader

/-! Tags and class names name one kind each. -/
namespace DartNodes.Schema

/-- The first kind of `rest`, from the left, whose tag or else whose class name was already used, by
an earlier one of `rest` or by one of `seen`. -/
def firstRepeat (seen : List Kind) : List Kind → Option SchemaError
  | [] => none
  | kind :: rest =>
    match seen.find? (·.tag = kind.tag), seen.find? (·.className = kind.className) with
    | some first, _ => some (.duplicateTag kind.tag first.line kind.line)
    | none, some first => some (.duplicateClass kind.className first.line kind.line)
    | none, none => firstRepeat (seen ++ [kind]) rest

@[simp] theorem firstRepeat_nil (seen : List Kind) : firstRepeat seen [] = none := rfl

/-- Refuses a schema that uses a tag or a class name twice. -/
def validate (schema : Schema) : Except SchemaError Unit :=
  match firstRepeat [] schema.kinds with
  | some error => .error error
  | none => .ok ()

/-- The schema that a text spells, if no tag and no class name is used twice in it. -/
def parseDistinct (text : Text) : Traced SchemaError Schema := do
  let schema ← (parse text).mapError .parse
  Traced.ofExcept schema.validate
  return schema

end DartNodes.Schema
