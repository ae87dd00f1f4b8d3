import DartNodes.Proofs.Generation
import DartNodes.Proofs.Schema.Reading

/-! The lines of generated code, written out from the schema and the types of its fields. Nothing that
is read from a text can break one of them. -/
namespace DartNodes

/-- No name and no import line of a target breaks a line. -/
structure Target.Unbroken (target : Target) : Prop where
  baseClass : '\n' ∉ target.baseClass
  interface : '\n' ∉ target.interface
  enumName : '\n' ∉ target.enumName
  tagField : '\n' ∉ target.tagField
  dispatcher : '\n' ∉ target.dispatcher
  tagPrefix : '\n' ∉ target.tagPrefix
  imports : ∀ lines, target.imports? = some lines → ∀ line ∈ lines, '\n' ∉ line

/-- The import lines of a file: those of the target, or else those of the strategy. -/
def Target.importLines (target : Target) (strategy : Strategy) : List Text :=
  match target.imports? with
  | some lines => lines
  | none => strategy.defaultImports

namespace Layout

def fieldLine (typeOf : Text → Text) (field : Field) : Text :=
  match field.initial? with
  | none => "  " ++ typeOf field.name ++ ' ' :: field.name ++ ";"
  | some initial => "  " ++ typeOf field.name ++ ' ' :: field.name ++ " = " ++ initial ++ ";"

def fieldLines (typeOf : Text → Text) (field : Field) : List Text :=
  [[], "  @override", fieldLine typeOf field]

/-- The member of the tag enumeration that stands for a kind. -/
def constant (target : Target) (kind : Kind) : Text :=
  target.enumName ++ "." ++ target.tagPrefix ++ kind.tag

def headLines (target : Target) (kind : Kind) : List Text :=
  ["class " ++ kind.className ++ " extends " ++ target.baseClass ++ " \x7b",
    "  @override",
    "  " ++ target.enumName ++ ' ' :: target.tagField ++ " = " ++ constant target kind ++ ";"]

def classLines (target : Target) (typeOf : Text → Text) (kind : Kind) : List Text :=
  headLines target kind ++ kind.fields.flatMap (fieldLines typeOf) ++ (["\x7d", ""] : List Text)

def branchLine (target : Target) (kind : Kind) : Text :=
  "  if (" ++ target.tagField ++ " == " ++ constant target kind ++ ") return " ++ kind.className ++
    "();"

def dispatcherLines (target : Target) (kinds : List Kind) : List Text :=
  (target.interface ++ ' ' :: target.dispatcher ++ '(' :: target.enumName ++ ' ' ::
      target.tagField ++ ") \x7b") ::
    kinds.map (branchLine target) ++ ["  return " ++ target.baseClass ++ "();", "\x7d"]

/-- The lines of a whole file. -/
def fileLines (target : Target) (typeOf : Text → Text) (strategy : Strategy) (kinds : List Kind) :
    List Text :=
  target.importLines strategy ++ [[]] ++ kinds.flatMap (classLines target typeOf) ++
    dispatcherLines target kinds

variable (target : Target) (typeOf : Text → Text)

lemma enumConstant_eq (kind : Kind) : target.enumConstant kind.tag = constant target kind := by
  simp [Target.enumConstant, constant]

lemma lines_declaration (field : Field) :
    Declaration.lines ⟨typeOf field.name, field.name, field.initial?⟩ = fieldLines typeOf field := by
  rcases field with ⟨name, _ | initial⟩ <;> simp [Declaration.lines, Declaration.rest, fieldLines, fieldLine]

lemma lines_classOf (kind : Kind) :
    (Typing.classOf typeOf kind).lines target = classLines target typeOf kind := by
  simp only [Typing.classOf, NodeClass.lines, classLines, List.flatMap_map, lines_declaration]
  simp only [NodeClass.headLines, headLines, enumConstant_eq]
  rfl

example : classLines {} (fun _ => "int") ⟨"LEAF", "Leaf", [⟨"n", some "0".toList⟩], 2⟩ =
    (["class Leaf extends ASTNode \x7b", "  @override", "  ASTType type = ASTType.AST_LEAF;", "",
      "  @override", "  int n = 0;", "\x7d", ""] : List Text) := by decide

lemma lines_ofKinds (kinds : List Kind) :
    (Dispatcher.ofKinds target kinds).lines target = dispatcherLines target kinds := by
  have hbranch : ∀ kind : Kind,
      Dispatcher.branchLine target (target.enumConstant kind.tag, kind.className) =
        branchLine target kind := by
    intro kind
    unfold Dispatcher.branchLine branchLine
    rw [enumConstant_eq]
  simp only [Dispatcher.lines, Dispatcher.ofKinds, dispatcherLines, List.map_map, Function.comp_def,
    hbranch]
  rfl

/-- The file of some kinds and their classes has these lines. -/
theorem lines_file (strategy : Strategy) (kinds : List Kind) :
    OutputFile.lines target ⟨strategy, kinds, kinds.map (Typing.classOf typeOf)⟩ =
      fileLines target typeOf strategy kinds := by
  have himports : target.imports?.getD strategy.defaultImports = target.importLines strategy := by
    rw [Target.importLines]
    cases target.imports? <;> rfl
  simp only [OutputFile.lines, Target.preambleLines, himports, List.flatMap_map, lines_classOf,
    lines_ofKinds, fileLines]

lemma length_classLines (kind : Kind) :
    (classLines target typeOf kind).length = 5 + 3 * kind.fields.length := by
  rw [← lines_classOf, NodeClass.length_lines, Typing.classOf, List.length_map]

theorem length_fileLines (strategy : Strategy) (kinds : List Kind) :
    (fileLines target typeOf strategy kinds).length =
      (target.importLines strategy).length + 4 + 6 * kinds.length +
        3 * (kinds.flatMap (·.fields)).length := by
  have hclasses : (kinds.flatMap (classLines target typeOf)).length =
      5 * kinds.length + 3 * (kinds.flatMap (·.fields)).length := by
    induction kinds with
    | nil => rfl
    | cons kind rest ih =>
      rw [List.flatMap_cons, List.length_append, ih, length_classLines, List.length_cons,
        List.flatMap_cons, List.length_append]
      omega
  simp only [fileLines, dispatcherLines, List.length_append, hclasses, List.length_cons,
    List.length_nil, List.length_map]
  omega

section Unbroken

variable {target} {typeOf}

lemma notMem_of_isWord {word : Text} (h : Text.IsWord word) : '\n' ∉ word := h.notMem (by decide)

lemma notMem_constant (htarget : target.Unbroken) {kind : Kind} (hkind : kind.WellFormed) :
    '\n' ∉ constant target kind := by
  simp [constant, htarget.enumName, htarget.tagPrefix, notMem_of_isWord hkind.tag_isWord]

lemma notMem_fieldLine {field : Field} (hfield : field.WellFormed) (htype : '\n' ∉ typeOf field.name) :
    '\n' ∉ fieldLine typeOf field := by
  have hname := notMem_of_isWord hfield.name_isWord
  rcases field with ⟨name, _ | initial⟩
  · simp [fieldLine, htype, hname]
  · have hinitial := notMem_of_isWord (hfield.initial_isWord initial rfl)
    simp [fieldLine, htype, hname, hinitial]

lemma notMem_of_mem_classLines (htarget : target.Unbroken) {kind : Kind} (hkind : kind.WellFormed)
    (htype : ∀ field ∈ kind.fields, '\n' ∉ typeOf field.name) {line : Text}
    (h : line ∈ classLines target typeOf kind) : '\n' ∉ line := by
  have hclass := notMem_of_isWord hkind.className_isWord
  have hconstant := notMem_constant htarget hkind
  simp only [classLines, headLines, fieldLines, List.mem_append, List.mem_flatMap, List.mem_cons,
    List.not_mem_nil, or_false] at h
  rcases h with ((rfl | rfl | rfl) | ⟨field, hfield, rfl | rfl | rfl⟩) | rfl | rfl
  · simp [hclass, htarget.baseClass]
  · decide
  · simp [htarget.enumName, htarget.tagField, hconstant]
  · decide
  · decide
  · exact notMem_fieldLine (hkind.fields_wellFormed field hfield) (htype field hfield)
  · decide
  · decide

lemma notMem_of_mem_dispatcherLines (htarget : target.Unbroken) {kinds : List Kind}
    (hkinds : ∀ kind ∈ kinds, kind.WellFormed) {line : Text}
    (h : line ∈ dispatcherLines target kinds) : '\n' ∉ line := by
  simp only [dispatcherLines, List.cons_append, List.mem_append, List.mem_map, List.mem_cons,
    List.not_mem_nil, or_false] at h
  rcases h with rfl | ⟨kind, hkind, rfl⟩ | rfl | rfl
  · simp [htarget.interface, htarget.dispatcher, htarget.enumName, htarget.tagField]
  · have hclass := notMem_of_isWord (hkinds kind hkind).className_isWord
    have hconstant := notMem_constant htarget (hkinds kind hkind)
    unfold branchLine
    simp [htarget.tagField, hclass, hconstant]
  · simp [htarget.baseClass]
  · decide

lemma notMem_of_mem_importLines (htarget : target.Unbroken) {strategy : Strategy} {line : Text}
    (h : line ∈ target.importLines strategy) : '\n' ∉ line := by
  unfold Target.importLines at h
  split at h
  · rename_i lines hlines
    exact htarget.imports lines hlines line h
  · have hdefault : ∀ l ∈ strategy.defaultImports, '\n' ∉ l := by
      cases strategy <;> decide
    exact hdefault line h

/-- No line of a file is broken by what was read into it. -/
theorem notMem_of_mem_fileLines (htarget : target.Unbroken) {strategy : Strategy} {kinds : List Kind}
    (hkinds : ∀ kind ∈ kinds, kind.WellFormed)
    (htype : ∀ kind ∈ kinds, ∀ field ∈ kind.fields, '\n' ∉ typeOf field.name) {line : Text}
    (h : line ∈ fileLines target typeOf strategy kinds) : '\n' ∉ line := by
  simp only [fileLines, List.mem_append, List.mem_singleton, List.mem_flatMap] at h
  rcases h with ((h | rfl) | ⟨kind, hkind, h⟩) | h
  · exact notMem_of_mem_importLines htarget h
  · exact List.not_mem_nil
  · exact notMem_of_mem_classLines htarget (hkinds kind hkind) (htype kind hkind) h
  · exact notMem_of_mem_dispatcherLines htarget hkinds h

end Unbroken
end Layout

/-- Generated code has exactly the lines that its schema asks for, and every field in it has the type
that the base class declares last. -/
theorem generate_layout {base? : Option Text} {text : Text} {strategy : Strategy} {target : Target}
    {marker code : Text} (htarget : target.Unbroken)
    (h : (generate base? text strategy target marker).outcome = .ok code) :
    ∃ schema typeOf, (Schema.parse text).outcome = .ok schema ∧
      (∀ kind ∈ schema.kinds, ∀ field ∈ kind.fields,
        Typing.HasType base? marker field.name strategy (typeOf field.name)) ∧
      code.getLast? = some '\n' ∧
      Text.pieces '\n' code = Layout.fileLines target typeOf strategy schema.kinds ++ [[]] ∧
      code.count '\n' = (target.importLines strategy).length + 4 + 6 * schema.kinds.length +
        3 * schema.fieldCount := by
  rw [generate, Traced.outcome_bind] at h
  obtain ⟨schema, hload, hrender⟩ := Outcome.bind_eq_ok.mp h
  obtain ⟨hparse, -⟩ := Schema.load_eq_ok.mp hload
  obtain ⟨typeOf, hdeclared, rfl⟩ := Schema.exists_typeOf_of_render hrender
  have htype : ∀ kind ∈ schema.kinds, ∀ field ∈ kind.fields,
      Typing.HasType base? marker field.name strategy (typeOf field.name) :=
    fun kind hkind field hfield => Typing.hasType_of_declaredType?
      (hdeclared (kind, field) (Kind.mem_allFields.mpr ⟨hkind, hfield⟩))
  have hlines : ∀ line ∈ Layout.fileLines target typeOf strategy schema.kinds, '\n' ∉ line :=
    fun line hline => Layout.notMem_of_mem_fileLines htarget
      (Schema.wellFormed_of_parse hparse).kinds_wellFormed
      (fun kind hkind field hfield => (htype kind hkind field hfield).notMem) hline
  refine ⟨schema, typeOf, hparse, htype, ?_⟩
  rw [OutputFile.code, Layout.lines_file]
  refine ⟨Text.getLast?_unlines ?_, Text.pieces_unlines hlines, ?_⟩
  · simp [Layout.fileLines, Layout.dispatcherLines]
  · rw [Text.count_unlines hlines, Layout.length_fileLines, Schema.fieldCount]

theorem generate_layout_leaf : ∃ code schema typeOf,
    (generate (some "m\nA get n;\nB get n;\n") "h\nLEAF Leaf n=0\n" .typed {} "m").outcome = .ok code ∧
      (Schema.parse "h\nLEAF Leaf n=0\n").outcome = .ok schema ∧
      (∀ kind ∈ schema.kinds, ∀ field ∈ kind.fields,
        Typing.HasType (some "m\nA get n;\nB get n;\n") "m" field.name .typed (typeOf field.name)) ∧
      Text.pieces '\n' code = Layout.fileLines {} typeOf .typed schema.kinds ++ [[]] ∧
      code.count '\n' = 16 := by
  have htarget : Target.Unbroken {} :=
    ⟨by decide, by decide, by decide, by decide, by decide, by decide, by simp⟩
  have hcode : (generate (some "m\nA get n;\nB get n;\n") "h\nLEAF Leaf n=0\n" .typed {} "m").outcome =
      .ok (Text.unlines (Layout.fileLines {} (fun _ => "B") .typed
        [⟨"LEAF", "Leaf", [⟨"n", some "0".toList⟩], 2⟩])) := by
    decide +kernel
  obtain ⟨schema, typeOf, hparse, htype, -, hlines, -⟩ := generate_layout htarget hcode
  exact ⟨_, schema, typeOf, hcode, hparse, htype, hlines, by decide +kernel⟩

end DartNodes
