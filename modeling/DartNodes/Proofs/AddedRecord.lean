import DartNodes.Proofs.Accessor.Table
import DartNodes.Proofs.Output.Layout
import DartNodes.Proofs.Precedence
import DartNodes.Proofs.Schema.Insertion

/-! A record more in a schema is a class more and a branch more in the code, and changes nothing else. -/
namespace DartNodes

open Accessor (Behind Declares)

namespace Kind

lemma forall_allFields {kinds : List Kind} {P : Text → Prop} :
    (∀ p ∈ allFields kinds, P p.2.name) ↔ ∀ kind ∈ kinds, ∀ field ∈ kind.fields, P field.name := by
  simp only [Prod.forall, mem_allFields, and_imp]
  exact forall_congr' fun kind => forall_comm

lemma forall_allFields_insert {before after : List Kind} {kind : Kind} {P : Text → Prop} :
    (∀ p ∈ allFields (before ++ kind :: after.map below), P p.2.name) ↔
      (∀ field ∈ kind.fields, P field.name) ∧ ∀ p ∈ allFields (before ++ after), P p.2.name := by
  simp only [forall_allFields, List.forall_mem_append, List.forall_mem_cons, List.forall_mem_map]
  exact and_left_comm

end Kind

namespace Layout

variable (target : Target) (typeOf : Text → Text)

/-- The lines above the class that comes behind those of some kinds. -/
def linesAbove (strategy : Strategy) (before : List Kind) : List Text :=
  target.importLines strategy ++ [[]] ++ before.flatMap (classLines target typeOf)

/-- The lines between a class and the branch of its kind, which come behind those of some kinds and in
front of those of others. -/
def linesBetween (before after : List Kind) : List Text :=
  after.flatMap (classLines target typeOf) ++ Dispatcher.headLine target :: before.map (branchLine target)

/-- The lines below the branch that comes in front of those of some kinds. -/
def linesBelow (after : List Kind) : List Text :=
  after.map (branchLine target) ++ ["  return " ++ target.baseClass ++ "();", "\x7d"]

lemma fileLines_append (strategy : Strategy) (before after : List Kind) :
    fileLines target typeOf strategy (before ++ after) = linesAbove target typeOf strategy before ++
      linesBetween target typeOf before after ++ linesBelow target after := by
  simp [fileLines, linesAbove, linesBetween, linesBelow, dispatcherLines, Dispatcher.headLine]

/-- The lines of one more kind are those of its class and that of its branch. -/
theorem fileLines_insert (strategy : Strategy) (before after : List Kind) (kind : Kind) :
    fileLines target typeOf strategy (before ++ kind :: after.map Kind.below) =
      linesAbove target typeOf strategy before ++ classLines target typeOf kind ++
        linesBetween target typeOf before after ++ [branchLine target kind] ++
          linesBelow target after := by
  have hclass : ∀ k : Kind, classLines target typeOf k.below = classLines target typeOf k := fun _ => rfl
  have hbranch : branchLine target ∘ Kind.below = branchLine target := rfl
  simp [fileLines, linesAbove, linesBetween, linesBelow, dispatcherLines, Dispatcher.headLine,
    List.flatMap_map, hclass, hbranch]

end Layout

section Generate

variable {base? : Option Text} {text other : Text} {strategy : Strategy} {target : Target} {marker code : Text}

/-- Code is written out from the schema and the types of its fields. -/
lemma exists_typeOf_of_generate {schema : Schema}
    (h : (generate base? text strategy target marker).outcome = .ok code)
    (hparse : (Schema.parse text).outcome = .ok schema) : ∃ typeOf : Text → Text,
      (∀ p ∈ Kind.allFields schema.kinds,
        Typing.declaredType? strategy base? marker p.2.name = some (typeOf p.2.name)) ∧
      code = Text.unlines (Layout.fileLines target typeOf strategy schema.kinds) := by
  rw [generate, Traced.outcome_bind] at h
  obtain ⟨found, hload, hrender⟩ := Outcome.bind_eq_ok.mp h
  obtain ⟨hfound, -⟩ := Schema.load_eq_ok.mp hload
  obtain rfl := Except.ok.inj (hfound.symm.trans hparse)
  obtain ⟨typeOf, htype, rfl⟩ := Schema.exists_typeOf_of_render hrender
  refine ⟨typeOf, htype, ?_⟩
  rw [OutputFile.code, Layout.lines_file]

/-- Only the types of the fields matter for the lines of the code. -/
lemma Layout.fileLines_congr {kinds : List Kind} {typeOf otherTypes : Text → Text}
    (h : ∀ p ∈ Kind.allFields kinds, typeOf p.2.name = otherTypes p.2.name) :
    fileLines target typeOf strategy kinds = fileLines target otherTypes strategy kinds := by
  have hclasses : kinds.map (Typing.classOf typeOf) = kinds.map (Typing.classOf otherTypes) := by
    apply List.map_congr_left
    intro kind hkind
    rw [Typing.classOf, Typing.classOf]
    congr 1
    apply List.map_congr_left
    intro field hfield
    rw [h _ (Kind.mem_allFields.mpr ⟨hkind, hfield⟩)]
  rw [← lines_file, ← lines_file, hclasses]

/-- The table of the base class, where types are needed, has all the fields of a kind. -/
def Kind.Typable (base? : Option Text) (strategy : Strategy) (marker : Text) (kind : Kind) : Prop :=
  strategy = .typed → ∃ source table, base? = some source ∧
    (Table.recover source marker).outcome = .ok table ∧
      ∀ field ∈ kind.fields, table.contains field.name = true

lemma Kind.typable_iff {kind : Kind} {source : Text} {rest : List Text} (htyped : strategy = .typed)
    (h : Behind source marker rest) :
    kind.Typable (some source) strategy marker ↔ ∀ field ∈ kind.fields, Declares rest field.name := by
  rw [Typable, htyped]
  simp [Table.outcome_recover_of_behind h, Table.contains_ofLines]

/-- A text with one more record generates code exactly if the names of the new kind are new, too, and its
fields have types. -/
theorem exists_generate_added {before after : List Kind} {header line : Text} {number : Nat}
    (h : ∃ code, (generate base? text strategy target marker).outcome = .ok code)
    (hparse : (Schema.parse text).outcome = .ok ⟨header, before ++ after⟩)
    (hother : ∀ found, (Schema.parse other).outcome = .ok found ↔ ∃ kind : Kind,
      kind.DeclaredBy (line, number) ∧ found = ⟨header, before ++ kind :: after.map Kind.below⟩) :
    (∃ new, (generate base? other strategy target marker).outcome = .ok new) ↔ ∃ kind : Kind,
      kind.DeclaredBy (line, number) ∧ Schema.Unseen (before ++ after) kind ∧
        kind.Typable base? strategy marker := by
  obtain ⟨schema, hschema, hdistinct, htyped⟩ := exists_generate_eq_ok.mp h
  obtain rfl := Except.ok.inj (hschema.symm.trans hparse)
  have hfields : ∀ kind : Kind, kind.Typable base? strategy marker ↔
      (strategy = .typed → ∃ source rest, base? = some source ∧ Behind source marker rest ∧
        ∀ p ∈ Kind.allFields (before ++ kind :: after.map Kind.below), Declares rest p.2.name) := by
    intro kind
    cases strategy with
    | untyped => exact ⟨nofun, nofun⟩
    | typed =>
      obtain ⟨source, rest, rfl, hrest, hold⟩ := htyped rfl
      rw [Kind.typable_iff rfl hrest]
      constructor
      · intro hkind _
        exact ⟨source, rest, rfl, hrest, Kind.forall_allFields_insert.mpr ⟨hkind, hold⟩⟩
      · intro htypes field hfield
        obtain ⟨_, others, ⟨⟩, hothers, hall⟩ := htypes rfl
        have hdeclares := (Kind.forall_allFields_insert.mp hall).1 field hfield
        rwa [← Typing.isSome_declaredType? rfl hothers, Typing.isSome_declaredType? rfl hrest] at hdeclares
  simp only [exists_generate_eq_ok, hother, hfields]
  constructor
  · rintro ⟨_, ⟨kind, hkind, rfl⟩, hnew, htypes⟩
    exact ⟨kind, hkind, (Schema.distinct_insert.mp hnew).1, htypes⟩
  · rintro ⟨kind, hkind, hnew, htypes⟩
    exact ⟨_, ⟨kind, hkind, rfl⟩, Schema.distinct_insert.mpr ⟨hnew, hdistinct⟩, htypes⟩

/-- Of a text from which code is generated, and the same text with one more line that is not blank, the second
generates code exactly if the line is a record whose tag and class name are new and whose fields have types.
Its code is that of the first, with the class of the new kind behind the classes of the kinds above the line,
and the branch of the new kind behind their branches. -/
theorem generate_added {header line : Text} {front back : List Text}
    (hlines : text.lines = header :: (front ++ back))
    (hother : other.lines = header :: (front ++ line :: back)) (hline : ¬ line.Blank)
    (h : (generate base? text strategy target marker).outcome = .ok code) : ∃ before after,
      (Schema.parse text).outcome = .ok ⟨header.trim, before ++ after⟩ ∧
      (∀ kind ∈ before, kind.line < 2 + front.length) ∧
      (∀ kind ∈ after, 2 + front.length ≤ kind.line) ∧
      ((∃ new, (generate base? other strategy target marker).outcome = .ok new) ↔
        Kind.IsRecord line ∧ ∀ kind : Kind, kind.DeclaredBy (line, 2 + front.length) →
          kind.tag ∉ (before ++ after).map Kind.tag ∧
          kind.className ∉ (before ++ after).map Kind.className ∧
          kind.Typable base? strategy marker) ∧
      ∀ new, (generate base? other strategy target marker).outcome = .ok new → ∃ kind typeOf,
        kind.DeclaredBy (line, 2 + front.length) ∧
        (Schema.parse other).outcome = .ok ⟨header.trim, before ++ kind :: after.map Kind.below⟩ ∧
        (∀ p ∈ Kind.allFields (before ++ kind :: after.map Kind.below),
          Typing.HasType base? marker p.2.name strategy (typeOf p.2.name)) ∧
        code = Text.unlines (Layout.linesAbove target typeOf strategy before) ++
          Text.unlines (Layout.linesBetween target typeOf before after) ++
            Text.unlines (Layout.linesBelow target after) ∧
        new = Text.unlines (Layout.linesAbove target typeOf strategy before) ++
          Text.unlines (Layout.classLines target typeOf kind) ++
            Text.unlines (Layout.linesBetween target typeOf before after) ++
              Text.unlines [Layout.branchLine target kind] ++
                Text.unlines (Layout.linesBelow target after) := by
  obtain ⟨schema, hload⟩ := exists_generate_eq_ok.mp ⟨code, h⟩
  obtain ⟨before, after, rfl, habove, hbelow, hfound⟩ :=
    Schema.parse_insert hlines hother hline hload.1
  have hparse := hload.1
  refine ⟨before, after, hparse, habove, hbelow, ?_, ?_⟩
  · rw [exists_generate_added ⟨code, h⟩ hparse hfound, ← Kind.exists_declaredBy hline]
    constructor
    · rintro ⟨kind, hkind, hnew, htypable⟩
      refine ⟨⟨kind, hkind⟩, ?_⟩
      intro found hfound
      obtain rfl := hfound.unique hkind
      exact ⟨hnew.1, hnew.2, htypable⟩
    · rintro ⟨⟨kind, hkind⟩, hall⟩
      obtain ⟨htag, hclass, htypable⟩ := hall kind hkind
      exact ⟨kind, hkind, ⟨htag, hclass⟩, htypable⟩
  · intro new hnew
    obtain ⟨found, hnewParse, -⟩ := exists_generate_eq_ok.mp ⟨new, hnew⟩
    obtain ⟨kind, hkind, rfl⟩ := (hfound found).mp hnewParse
    obtain ⟨types, htypes, rfl⟩ := exists_typeOf_of_generate h hparse
    obtain ⟨typeOf, htype, rfl⟩ := exists_typeOf_of_generate hnew hnewParse
    have hold := (Kind.forall_allFields_insert
      (P := fun name => Typing.declaredType? strategy base? marker name = some (typeOf name))).mp htype
    have hagree : ∀ p ∈ Kind.allFields (before ++ after), types p.2.name = typeOf p.2.name := by
      intro p hp
      exact Option.some.inj ((htypes p hp).symm.trans (hold.2 p hp))
    refine ⟨kind, typeOf, hkind, hnewParse, ?_, ?_, ?_⟩
    · intro p hp
      exact Typing.hasType_of_declaredType? (htype p hp)
    · rw [Layout.fileLines_congr hagree, Layout.fileLines_append, Text.unlines_append, Text.unlines_append]
    · rw [Layout.fileLines_insert]
      simp only [Text.unlines_append]

theorem generate_added_between : ∃ old new before after kind typeOf,
    (generate (some "m\nT get n;\n") "h\nA X n=0\nB Y\n" .typed {} "m").outcome = .ok old ∧
      (generate (some "m\nT get n;\n") "h\nA X n=0\nC Z n\nB Y\n" .typed {} "m").outcome = .ok new ∧
      (Schema.parse "h\nA X n=0\nB Y\n").outcome = .ok ⟨"h", before ++ after⟩ ∧
      Kind.IsRecord "C Z n" ∧ Kind.DeclaredBy kind ("C Z n", 3) ∧
      old = Text.unlines (Layout.linesAbove {} typeOf .typed before) ++
        Text.unlines (Layout.linesBetween {} typeOf before after) ++
          Text.unlines (Layout.linesBelow {} after) ∧
      new = Text.unlines (Layout.linesAbove {} typeOf .typed before) ++
        Text.unlines (Layout.classLines {} typeOf kind) ++
          Text.unlines (Layout.linesBetween {} typeOf before after) ++
            Text.unlines [Layout.branchLine {} kind] ++ Text.unlines (Layout.linesBelow {} after) := by
  have hold : (generate (some "m\nT get n;\n") "h\nA X n=0\nB Y\n" .typed {} "m").outcome =
      .ok (Text.unlines (Layout.fileLines {} (fun _ => "T") .typed
        [⟨"A", "X", [⟨"n", some "0".toList⟩], 2⟩, ⟨"B", "Y", [], 3⟩])) := by
    decide +kernel
  have hnew : (generate (some "m\nT get n;\n") "h\nA X n=0\nC Z n\nB Y\n" .typed {} "m").outcome =
      .ok (Text.unlines (Layout.fileLines {} (fun _ => "T") .typed
        [⟨"A", "X", [⟨"n", some "0".toList⟩], 2⟩, ⟨"C", "Z", [⟨"n", none⟩], 3⟩, ⟨"B", "Y", [], 4⟩])) := by
    decide +kernel
  let front : List Text := ["A X n=0"]
  let back : List Text := ["B Y"]
  have hlines : Text.lines "h\nA X n=0\nB Y\n" = "h".toList :: (front ++ back) := by decide
  have hother : Text.lines "h\nA X n=0\nC Z n\nB Y\n" = "h".toList :: (front ++ "C Z n".toList :: back) := by
    decide
  have hline : ¬ Text.Blank "C Z n" := fun h => absurd (h 'C' (by decide)) (by decide)
  obtain ⟨before, after, hparse, -, -, hsucceeds, hcode⟩ := generate_added hlines hother hline hold
  obtain ⟨kind, typeOf, hkind, -, -, hbefore, hafter⟩ := hcode _ hnew
  exact ⟨_, _, before, after, kind, typeOf, hold, hnew, hparse, (hsucceeds.mp ⟨_, hnew⟩).1, hkind,
    hbefore, hafter⟩

end Generate
end DartNodes
