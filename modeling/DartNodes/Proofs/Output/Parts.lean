import DartNodes.Proofs.Accessor.Table
import DartNodes.Proofs.Output.Layout

/-! Generated code as a sequence of parts. The types of fields stand at the heads of their declarations
and nowhere else. -/
namespace DartNodes

namespace Layout

/-- A part of the code of some kinds: text without types of fields, or the declaration of a field. -/
inductive Part where
  | fixed (text : Text)
  | declared (kind : Kind) (field : Field)

/-- A declaration, with the type at its head. -/
def declaration (type : Text) (field : Field) : Text :=
  match field.initial? with
  | none => type ++ ' ' :: field.name ++ ";"
  | some initial => type ++ ' ' :: field.name ++ " = " ++ initial ++ ";"

namespace Part

/-- The field that a part declares. -/
def field? : Part → Option (Kind × Field)
  | fixed _ => none
  | declared kind field => some (kind, field)

/-- The text of a part. -/
def code (typeOf : Text → Text) : Part → Text
  | fixed text => text
  | declared _ field => declaration (typeOf field.name) field

end Part

/-- The text of some parts. -/
def fill (typeOf : Text → Text) (parts : List Part) : Text := parts.flatMap (Part.code typeOf)

/-- The lines that the declaration of a field stands on. -/
def fieldParts (kind : Kind) (field : Field) : List Part :=
  [.fixed "\n  @override\n  ", .declared kind field, .fixed "\n"]

def classParts (target : Target) (kind : Kind) : List Part :=
  .fixed (Text.unlines (headLines target kind)) :: kind.fields.flatMap (fieldParts kind) ++
    [.fixed "\x7d\n\n"]

/-- The parts of the file of some kinds, behind the imports. -/
def parts (target : Target) (kinds : List Kind) : List Part :=
  kinds.flatMap (classParts target) ++ [.fixed (Text.unlines (dispatcherLines target kinds))]

/-- The import lines and the empty line behind them. -/
def preamble (target : Target) (strategy : Strategy) : Text :=
  Text.unlines (target.importLines strategy ++ [[]])

@[simp] lemma fill_nil (typeOf : Text → Text) : fill typeOf [] = [] := rfl

@[simp] lemma fill_cons (typeOf : Text → Text) (part : Part) (rest : List Part) :
    fill typeOf (part :: rest) = part.code typeOf ++ fill typeOf rest := List.flatMap_cons

@[simp] lemma fill_append (typeOf : Text → Text) (front back : List Part) :
    fill typeOf (front ++ back) = fill typeOf front ++ fill typeOf back := List.flatMap_append

lemma fill_flatMap {α : Type} (typeOf : Text → Text) (f : α → List Part) (xs : List α) :
    fill typeOf (xs.flatMap f) = xs.flatMap fun x => fill typeOf (f x) := List.flatMap_assoc

lemma filterMap_classParts (target : Target) (kind : Kind) :
    (classParts target kind).filterMap Part.field? = kind.fields.map (kind, ·) := by
  have hfield : ∀ field, (fieldParts kind field).filterMap Part.field? = [(kind, field)] := fun _ => rfl
  rw [classParts, List.filterMap_append, List.filterMap_cons, List.filterMap_flatMap]
  simp [Part.field?, hfield, ← List.map_eq_flatMap]

/-- The declarations are those of the fields of the kinds, in the same order. -/
theorem filterMap_parts (target : Target) (kinds : List Kind) :
    (parts target kinds).filterMap Part.field? = Kind.allFields kinds := by
  rw [parts, List.filterMap_append, List.filterMap_flatMap]
  simp only [filterMap_classParts]
  exact List.append_nil _

variable (target : Target) (typeOf : Text → Text)

lemma fill_fieldParts (kind : Kind) (field : Field) :
    fill typeOf (fieldParts kind field) = Text.unlines (fieldLines typeOf field) := by
  rcases field with ⟨name, _ | initial⟩ <;>
    simp [fieldParts, Part.code, declaration, fieldLines, fieldLine]

lemma fill_classParts (kind : Kind) :
    fill typeOf (classParts target kind) = Text.unlines (classLines target typeOf kind) := by
  simp only [classParts, classLines, fill_append, fill_cons, fill_flatMap, fill_fieldParts,
    Text.unlines_append, Text.unlines_flatMap]
  rfl

/-- The text of a file is that of its parts, behind the imports. -/
theorem code_file (strategy : Strategy) (kinds : List Kind) :
    OutputFile.code target ⟨strategy, kinds, kinds.map (Typing.classOf typeOf)⟩ =
      preamble target strategy ++ fill typeOf (parts target kinds) := by
  rw [OutputFile.code, lines_file, fileLines]
  simp only [Text.unlines_append, Text.unlines_flatMap, parts, fill_append, fill_flatMap,
    fill_classParts, preamble, List.append_assoc]
  simp [Part.code]

end Layout

/-- A schema whose fields have types is rendered with these types. -/
lemma Schema.outcome_render_of_typeOf {schema : Schema} {base? : Option Text} {strategy : Strategy}
    {marker : Text} {typing : Typing} {typeOf : Text → Text} (target : Target)
    (htyping : (Typing.ofBase strategy base? marker schema.fieldCount).outcome = .ok typing)
    (h : ∀ p ∈ Kind.allFields schema.kinds, typing.typeOf? p.2.name = some (typeOf p.2.name)) :
    (schema.render base? strategy target marker).outcome =
      .ok (Layout.preamble target strategy ++ Layout.fill typeOf (Layout.parts target schema.kinds)) := by
  obtain ⟨rfl, -⟩ := Typing.typeOf?_of_ofBase htyping
  rw [outcome_render, htyping, ← Layout.code_file]
  exact Outcome.map_eq_ok.mpr ⟨_, Typing.outcome_classes_of_typeOf typing h, rfl⟩

/-- Untyped code is made of the schema alone. -/
theorem outcome_generate_untyped {base? : Option Text} {text : Text} {target : Target}
    {marker code : Text} :
    (generate base? text .untyped target marker).outcome = .ok code ↔
      ∃ schema, (Schema.parse text).outcome = .ok schema ∧ Schema.Distinct schema.kinds ∧
        code = Layout.preamble target .untyped ++
          Layout.fill (fun _ => "var") (Layout.parts target schema.kinds) := by
  have hrender : ∀ schema : Schema, (schema.render base? .untyped target marker).outcome =
      .ok (Layout.preamble target .untyped ++
        Layout.fill (fun _ => "var") (Layout.parts target schema.kinds)) :=
    fun schema => schema.outcome_render_of_typeOf target rfl fun _ _ => rfl
  simp only [generate, Traced.outcome_bind, Outcome.bind_eq_ok, Schema.load_eq_ok, hrender,
    Except.ok.injEq, and_assoc, @eq_comm _ _ code]

/-- The types of the fields are those in the table that is recovered from the base class. -/
lemma Typing.exists_table_of_ofBase {base? : Option Text} {marker : Text} {count : Nat} {typing : Typing}
    (h : (ofBase .typed base? marker count).outcome = .ok typing) :
    ∃ source table, base? = some source ∧ (Table.recover source marker).outcome = .ok table ∧
      ∀ name, declaredType? .typed base? marker name = table.get? name := by
  obtain ⟨source, rest, rfl, hrest⟩ := exists_ofBase_eq_ok.mp ⟨typing, h⟩ rfl
  refine ⟨source, Table.ofLines rest, rfl, Table.outcome_recover_of_behind hrest, ?_⟩
  intro name
  rw [declaredType?_of_behind hrest, Table.get?_ofLines]

/-- Where typed code is generated, so is untyped code from the same texts. Behind the imports, both are
made of the same parts, of which those that are declarations declare the fields of the schema in order:
at their heads stand the types that the base class has for the names of the fields, or `var`. -/
theorem generate_typed_parts {base? : Option Text} {text : Text} {target : Target} {marker code : Text}
    (h : (generate base? text .typed target marker).outcome = .ok code) :
    ∃ source table schema typeOf, base? = some source ∧
      (Table.recover source marker).outcome = .ok table ∧ (Schema.parse text).outcome = .ok schema ∧
      (∀ p ∈ Kind.allFields schema.kinds, table.get? p.2.name = some (typeOf p.2.name)) ∧
      (Layout.parts target schema.kinds).filterMap Layout.Part.field? = Kind.allFields schema.kinds ∧
      (Kind.allFields schema.kinds).length = schema.fieldCount ∧
      code = Layout.preamble target .typed ++ Layout.fill typeOf (Layout.parts target schema.kinds) ∧
      (generate base? text .untyped target marker).outcome =
        .ok (Layout.preamble target .untyped ++
          Layout.fill (fun _ => "var") (Layout.parts target schema.kinds)) ∧
      (target.imports?.isSome → Layout.preamble target .typed = Layout.preamble target .untyped) := by
  rw [generate, Traced.outcome_bind] at h
  obtain ⟨schema, hload, hrender⟩ := Outcome.bind_eq_ok.mp h
  obtain ⟨hparse, hdistinct⟩ := Schema.load_eq_ok.mp hload
  obtain ⟨typeOf, hdeclared, hcode⟩ := Schema.exists_typeOf_of_render hrender
  rw [Schema.outcome_render] at hrender
  obtain ⟨typing, htyping, -⟩ := Outcome.bind_eq_ok.mp hrender
  obtain ⟨source, table, hsource, hrecover, hget⟩ := Typing.exists_table_of_ofBase htyping
  refine ⟨source, table, schema, typeOf, hsource, hrecover, hparse, ?_,
    Layout.filterMap_parts target schema.kinds, ?_, ?_, ?_, ?_⟩
  · intro p hp
    rw [← hget]
    exact hdeclared p hp
  · simp [Kind.allFields, Schema.fieldCount]
  · rw [hcode, Layout.code_file]
  · exact outcome_generate_untyped.mpr ⟨schema, hparse, hdistinct, rfl⟩
  · intro himports
    obtain ⟨lines, hlines⟩ := Option.isSome_iff_exists.mp himports
    simp only [Layout.preamble, Target.importLines, hlines]

theorem generate_typed_parts_leaf : ∃ code table schema typeOf,
    (generate (some "m\nList<A> get n;\n") "h\nLEAF Leaf n=0\n" .typed {} "m").outcome = .ok code ∧
      (Table.recover "m\nList<A> get n;\n" "m").outcome = .ok table ∧
      (Schema.parse "h\nLEAF Leaf n=0\n").outcome = .ok schema ∧
      (∀ p ∈ Kind.allFields schema.kinds, table.get? p.2.name = some (typeOf p.2.name)) ∧
      code = Layout.preamble {} .typed ++ Layout.fill typeOf (Layout.parts {} schema.kinds) ∧
      (generate (some "m\nList<A> get n;\n") "h\nLEAF Leaf n=0\n" .untyped {} "m").outcome =
        .ok (Layout.preamble {} .untyped ++ Layout.fill (fun _ => "var") (Layout.parts {} schema.kinds)) := by
  have hcode : (generate (some "m\nList<A> get n;\n") "h\nLEAF Leaf n=0\n" .typed {} "m").outcome =
      .ok (Text.unlines (Layout.fileLines {} (fun _ => "List<A>") .typed
        [⟨"LEAF", "Leaf", [⟨"n", some "0".toList⟩], 2⟩])) := by
    decide +kernel
  obtain ⟨source, table, schema, typeOf, hsource, hrecover, hparse, hget, -, -, htyped, huntyped, -⟩ :=
    generate_typed_parts hcode
  cases hsource
  exact ⟨_, table, schema, typeOf, hcode, hrecover, hparse, hget, htyped, huntyped⟩

end DartNodes
