import DartNodes.Proofs.Accessor.Table
import DartNodes.Proofs.Generation

/-! Of the base class, typed code depends on nothing but the types of the names that the schema uses. -/
namespace DartNodes

open Accessor (Behind declared? lastType?)

/-- The schema that a text spells has a field of the name. -/
def Schema.Uses (text name : Text) : Prop :=
  ∃ schema, (parse text).outcome = .ok schema ∧ ∃ p ∈ Kind.allFields schema.kinds, p.2.name = name

namespace Accessor

/-- Lines that declare the same types for the names that are used. Two accessors of distinct names that
follow each other may change places, and accessors of other names may come in anywhere. -/
inductive Rearranged (Used : Text → Prop) : List Text → List Text → Prop
  | refl {lines} : Rearranged Used lines lines
  | swapped {front line next back a b} (declares : declared? line = some a)
      (nextDeclares : declared? next = some b) (distinct : a.name ≠ b.name) :
      Rearranged Used (front ++ line :: next :: back) (front ++ next :: line :: back)
  | added {front line back a} (declares : declared? line = some a) (unused : ¬ Used a.name) :
      Rearranged Used (front ++ back) (front ++ line :: back)
  | trans {lines middle others} (first : Rearranged Used lines middle)
      (second : Rearranged Used middle others) : Rearranged Used lines others

/-- The last types of used names stay as they are. -/
theorem Rearranged.lastType?_eq {Used : Text → Prop} {lines others : List Text}
    (h : Rearranged Used lines others) {name : Text} (hname : Used name) :
    lastType? (lines.filterMap declared?) name = lastType? (others.filterMap declared?) name := by
  induction h with
  | refl => rfl
  | @swapped front line next back a b declares nextDeclares distinct =>
    simp only [List.filterMap_append, lastType?_append, lastType?_filterMap_cons, declares, nextDeclares,
      Option.bind_some]
    by_cases ha : name = a.name
    · have hb : name ≠ b.name := ha ▸ distinct
      simp only [if_neg hb, Option.or_none]
    · simp only [if_neg ha, Option.or_none]
  | @added front line back a declares unused =>
    have ha : name ≠ a.name := fun h => unused (h ▸ hname)
    simp only [List.filterMap_append, lastType?_append, lastType?_filterMap_cons, declares,
      Option.bind_some, if_neg ha, Option.or_none]
  | trans _ _ first second => exact first.trans second

end Accessor

namespace Typing

lemma outcome_ofBase_of_recover {source marker : Text} {table : Table}
    (h : (Table.recover source marker).outcome = .ok table) (count : Nat) :
    (ofBase .typed (some source) marker count).outcome = .ok (.typed table) := by
  rw [outcome_ofBase]
  rw [Table.outcome_recover] at h
  cases hlist : Accessor.list? source marker with
  | none =>
    rw [hlist] at h
    cases h
  | some accessors =>
    rw [hlist] at h
    cases h
    simp only [hlist]

variable {typing other : Typing}

/-- Fields whose names have the same types are declared in the same way. -/
theorem outcome_classes_congr {kinds : List Kind}
    (h : ∀ p ∈ Kind.allFields kinds, typing.typeOf? p.2.name = other.typeOf? p.2.name) :
    (typing.classes kinds).outcome = (other.classes kinds).outcome := by
  rw [classes, classes, Outcome.outcome_mapM, Outcome.outcome_mapM]
  apply Outcome.mapM_congr
  intro kind hkind
  have hfields : ∀ field ∈ kind.fields, typing.resolve kind field = other.resolve kind field := by
    intro field hfield
    rw [resolve, resolve, h (kind, field) (Kind.mem_allFields.mpr ⟨hkind, hfield⟩)]
  rw [outcome_nodeClass, outcome_nodeClass]
  congr 1
  apply Outcome.mapM_congr
  intro field hfield
  rw [hfields field hfield]

end Typing

/-- Tables that agree on the fields of a schema make the same code of it, or miss the same field. -/
lemma Schema.outcome_render_congr {schema : Schema} {source other marker otherMarker : Text}
    {table otherTable : Table} (h : (Table.recover source marker).outcome = .ok table)
    (hother : (Table.recover other otherMarker).outcome = .ok otherTable)
    (hsame : ∀ p ∈ Kind.allFields schema.kinds, table.get? p.2.name = otherTable.get? p.2.name)
    (target : Target) :
    (schema.render (some source) .typed target marker).outcome =
      (schema.render (some other) .typed target otherMarker).outcome := by
  rw [outcome_render, outcome_render, Typing.outcome_ofBase_of_recover h,
    Typing.outcome_ofBase_of_recover hother]
  have hclasses : ((Typing.typed table).classes schema.kinds).outcome =
      ((Typing.typed otherTable).classes schema.kinds).outcome := Typing.outcome_classes_congr hsame
  simp only [bind, Except.bind, hclasses, Typing.strategy]

/-- Tables that agree on the names that a text uses lead to the same code of it, or to the same error. -/
lemma outcome_generate_of_uses {text source other marker otherMarker : Text} {table otherTable : Table}
    (h : (Table.recover source marker).outcome = .ok table)
    (hother : (Table.recover other otherMarker).outcome = .ok otherTable)
    (hused : ∀ name, Schema.Uses text name → table.get? name = otherTable.get? name) (target : Target) :
    (generate (some source) text .typed target marker).outcome =
      (generate (some other) text .typed target otherMarker).outcome := by
  rw [generate, generate, Traced.outcome_bind, Traced.outcome_bind]
  cases hload : (Schema.load text).outcome with
  | error e => rfl
  | ok schema =>
    obtain ⟨hparse, -⟩ := Schema.load_eq_ok.mp hload
    refine Schema.outcome_render_congr h hother ?_ target
    intro p hp
    exact hused p.2.name ⟨schema, hparse, p, hp, rfl⟩

/-- Two base classes that give the same types to the names that the schema uses, whatever else they hold and
whatever their markers are, lead to the same code or to the same error. So neither does it matter in which
order names are declared, nor what other names are, nor what stands before the marker line. -/
theorem generate_typed_used (text : Text) (target : Target) :
    (∀ source marker table other otherMarker otherTable,
      (Table.recover source marker).outcome = .ok table →
      (Table.recover other otherMarker).outcome = .ok otherTable →
      (∀ name, Schema.Uses text name → table.get? name = otherTable.get? name) →
      (generate (some source) text .typed target marker).outcome =
        (generate (some other) text .typed target otherMarker).outcome) ∧
    ∀ source other marker rest others, Behind source marker rest → Behind other marker others →
      Accessor.Rearranged (Schema.Uses text) rest others →
      (generate (some source) text .typed target marker).outcome =
        (generate (some other) text .typed target marker).outcome := by
  constructor
  · intro source marker table other otherMarker otherTable h hother hused
    exact outcome_generate_of_uses h hother hused target
  · intro source other marker rest others h hother hrearranged
    apply outcome_generate_of_uses (Table.outcome_recover_of_behind h) (Table.outcome_recover_of_behind hother)
    intro name hname
    rw [Table.ofLines, Table.ofLines, Table.get?_ofPairs, Table.get?_ofPairs]
    exact hrearranged.lastType?_eq hname

theorem generate_typed_used_moved :
    Behind "import q;\nm\nT get n;\nU get k;\n" "m" ["T get n;", "U get k;"] ∧
      Behind "m\nV get z;\nU get k;\nT get n;\n" "m" ["V get z;", "U get k;", "T get n;"] ∧
      Accessor.Rearranged (Schema.Uses "h\nA X n=0\n") ["T get n;", "U get k;"]
        ["V get z;", "U get k;", "T get n;"] ∧
      (generate (some "import q;\nm\nT get n;\nU get k;\n") "h\nA X n=0\n" .typed {} "m").outcome =
        (generate (some "m\nV get z;\nU get k;\nT get n;\n") "h\nA X n=0\n" .typed {} "m").outcome := by
  have hparse : (Schema.parse "h\nA X n=0\n").outcome =
      .ok ⟨"h", [⟨"A", "X", [⟨"n", some "0".toList⟩], 2⟩]⟩ := by
    decide +kernel
  have hunused : ¬ Schema.Uses "h\nA X n=0\n" "z" := by
    rintro ⟨schema, hschema, p, hp, hname⟩
    rw [hparse] at hschema
    cases hschema
    obtain rfl := List.mem_singleton.mp hp
    exact absurd hname (by decide)
  have hbehind : Behind "import q;\nm\nT get n;\nU get k;\n" "m" ["T get n;", "U get k;"] :=
    ⟨["import q;"], "m", by decide, rfl, by decide⟩
  have hother : Behind "m\nV get z;\nU get k;\nT get n;\n" "m" ["V get z;", "U get k;", "T get n;"] :=
    ⟨[], "m", by decide, rfl, by decide⟩
  have hn : declared? "T get n;" = some ⟨"n", "T"⟩ := by decide
  have hk : declared? "U get k;" = some ⟨"k", "U"⟩ := by decide
  have hz : declared? "V get z;" = some ⟨"z", "V"⟩ := by decide
  have hrearranged : Accessor.Rearranged (Schema.Uses "h\nA X n=0\n") ["T get n;", "U get k;"]
      ["V get z;", "U get k;", "T get n;"] :=
    .trans (@Accessor.Rearranged.swapped _ [] _ _ _ _ _ hn hk (by decide))
      (@Accessor.Rearranged.added _ [] _ _ _ hz hunused)
  exact ⟨hbehind, hother, hrearranged,
    (generate_typed_used _ {}).2 _ _ _ _ _ hbehind hother hrearranged⟩

end DartNodes
