import DartNodes.Proofs.Generation
import DartNodes.Proofs.Schema.Respaced

/-! Where the words of a schema stand does not matter: texts whose records have the same words generate
the same code, or are refused for the same reason. -/
namespace DartNodes

open Outcome (Alike)
open Schema (SameContent)

/-- Errors of the same kind that tell of the same texts, perhaps in other places of the schema. -/
inductive GenerateError.Agrees : GenerateError → GenerateError → Prop
  | parse {error other} (agree : error.Agrees other) : Agrees (.parse error) (.parse other)
  | schema {error other} (agree : error.Agrees other) : Agrees (.schema error) (.schema other)
  | missingBase : Agrees .missingBase .missingBase
  | missingMarker {marker} : Agrees (.missingMarker marker) (.missingMarker marker)
  | unresolvedField {field className line otherLine} :
      Agrees (.unresolvedField field className line) (.unresolvedField field className otherLine)
  | read {path fault} : Agrees (.read path fault) (.read path fault)
  | write {path fault} : Agrees (.write path fault) (.write path fault)

namespace Typing

variable (typing : Typing)

lemma alike_resolve {kind other : Kind} (h : kind.className = other.className) (field : Field) :
    Alike GenerateError.Agrees Eq (typing.resolve kind field) (typing.resolve other field) := by
  unfold resolve
  cases typing.typeOf? field.name with
  | some type => exact .ok rfl
  | none =>
    rw [h]
    exact .error .unresolvedField

lemma alike_nodeClass {kind other : Kind} (h : kind.content = other.content) :
    Alike GenerateError.Agrees Eq (typing.nodeClass kind).outcome (typing.nodeClass other).outcome := by
  have htag : kind.tag = other.tag := congrArg (·.1) h
  have hclass : kind.className = other.className := congrArg (·.2.1) h
  have hfields : kind.fields = other.fields := congrArg (·.2.2) h
  have hdeclare : ∀ v w : Field, v = w → Alike GenerateError.Agrees Eq
      ((fun type => Declaration.mk type v.name v.initial?) <$> typing.resolve kind v)
      ((fun type => Declaration.mk type w.name w.initial?) <$> typing.resolve other w) := by
    intro v w hvw
    subst hvw
    exact (typing.alike_resolve hclass v).map fun _ _ htype => htype ▸ rfl
  have hsame : List.Forall₂ Eq kind.fields other.fields := by
    rw [hfields, List.forall₂_eq_eq_eq]
  rw [outcome_nodeClass, outcome_nodeClass, htag, hclass]
  apply (Alike.mapM hdeclare hsame).map
  intro declarations others hequal
  rw [List.forall₂_eq_eq_eq] at hequal
  rw [hequal]

/-- Kinds of the same content have the same classes, or the same field without a type. -/
theorem alike_classes {kinds others : List Kind} (h : SameContent kinds others) :
    Alike GenerateError.Agrees Eq (typing.classes kinds).outcome (typing.classes others).outcome := by
  rw [classes, classes, Outcome.outcome_mapM, Outcome.outcome_mapM, ← List.forall₂_eq_eq_eq]
  exact Alike.mapM (fun _ _ hcontent => typing.alike_nodeClass hcontent) (forall₂_of_map_eq h)

/-- The types come from the base class, however many fields there are. -/
lemma alike_ofBase (strategy : Strategy) (base? : Option Text) (marker : Text) (count otherCount : Nat) :
    Alike GenerateError.Agrees Eq (ofBase strategy base? marker count).outcome
      (ofBase strategy base? marker otherCount).outcome := by
  have hcount : (ofBase strategy base? marker otherCount).outcome =
      (ofBase strategy base? marker count).outcome := by
    rw [outcome_ofBase, outcome_ofBase]
  rw [hcount]
  cases hbase : (ofBase strategy base? marker count).outcome with
  | ok typing => exact .ok rfl
  | error e =>
    obtain ⟨-, ⟨-, rfl⟩ | ⟨_, -, -, rfl⟩⟩ := ofBase_eq_error.mp hbase
    · exact .error .missingBase
    · exact .error .missingMarker

end Typing

namespace Schema

/-- The code does not tell on which lines the kinds are declared. -/
lemma SameContent.code_eq (target : Target) (strategy : Strategy) {kinds others : List Kind}
    (h : SameContent kinds others) (classes : List NodeClass) :
    OutputFile.code target ⟨strategy, kinds, classes⟩ =
      OutputFile.code target ⟨strategy, others, classes⟩ := by
  simp only [OutputFile.code, OutputFile.lines, Dispatcher.ofKinds_congr target h]

theorem SameContent.alike_render {schema other : Schema} (h : SameContent schema.kinds other.kinds)
    (base? : Option Text) (strategy : Strategy) (target : Target) (marker : Text) :
    Alike GenerateError.Agrees Eq (schema.render base? strategy target marker).outcome
      (other.render base? strategy target marker).outcome := by
  rw [outcome_render, outcome_render]
  refine (Typing.alike_ofBase strategy base? marker schema.fieldCount other.fieldCount).bind ?_
  intro typing otherTyping hequal
  subst hequal
  apply (typing.alike_classes h).map
  intro classes otherClasses hclasses
  rw [hclasses, h.code_eq]

/-- Loading texts whose records have the same words ends alike. -/
theorem alike_load {text other : Text}
    (h : (records text).map Text.tokens = (records other).map Text.tokens) :
    Alike GenerateError.Agrees (fun schema otherSchema => SameContent schema.kinds otherSchema.kinds)
      (load text).outcome (load other).outcome := by
  simp only [load, Traced.outcome_bind, Traced.outcome_mapError, Traced.outcome_ofExcept,
    Traced.outcome_pure]
  refine ((alike_parse h).mapError fun _ _ agree => .parse agree).bind ?_
  intro schema otherSchema hkinds
  refine (hkinds.alike_validate.mapError fun _ _ agree => .schema agree).bind ?_
  intro _ _ _
  exact .ok hkinds

end Schema

/-- Texts whose lines with words, behind the header, have the same words generate the same code, or both
generate none, with errors that differ at most in the lines and columns that they tell. -/
theorem generate_respaced {text other : Text}
    (h : (Schema.records text).map Text.tokens = (Schema.records other).map Text.tokens)
    (base? : Option Text) (strategy : Strategy) (target : Target) (marker : Text) :
    Alike GenerateError.Agrees Eq (generate base? text strategy target marker).outcome
      (generate base? other strategy target marker).outcome := by
  rw [generate, generate, Traced.outcome_bind, Traced.outcome_bind]
  refine (Schema.alike_load h).bind ?_
  intro schema otherSchema hkinds
  exact hkinds.alike_render base? strategy target marker

theorem generate_respaced_blank_lines :
    (Schema.records "h\nA X\nB Y v=").map Text.tokens =
        (Schema.records "\r\n\n\tA  X \r\n \nB\tY   v=\n").map Text.tokens ∧
      Alike GenerateError.Agrees Eq (generate none "h\nA X\nB Y v=" .untyped {} "m").outcome
        (generate none "\r\n\n\tA  X \r\n \nB\tY   v=\n" .untyped {} "m").outcome :=
  have h : (Schema.records "h\nA X\nB Y v=").map Text.tokens =
      (Schema.records "\r\n\n\tA  X \r\n \nB\tY   v=\n").map Text.tokens := by decide +kernel
  ⟨h, generate_respaced h none .untyped {} "m"⟩

end DartNodes
