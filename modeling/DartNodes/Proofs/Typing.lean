import DartNodes.Proofs.Outcome
import DartNodes.Typing

/-! The classes of some kinds come out exactly if every field has a type, and otherwise the first field
without one is told. -/
namespace DartNodes

/-- The fields of some kinds, each with its kind, in the order in which they are declared. -/
def Kind.allFields (kinds : List Kind) : List (Kind × Field) :=
  kinds.flatMap fun kind => kind.fields.map (kind, ·)

lemma Kind.mem_allFields {kinds : List Kind} {kind : Kind} {field : Field} :
    (kind, field) ∈ allFields kinds ↔ kind ∈ kinds ∧ field ∈ kind.fields := by
  simp [allFields]

namespace Typing

variable (typing : Typing)

/-- The class of a kind whose fields have the given types. -/
def classOf (typeOf : Text → Text) (kind : Kind) : NodeClass :=
  ⟨kind.className, kind.tag, kind.fields.map fun field => ⟨typeOf field.name, field.name, field.initial?⟩⟩

lemma resolve_eq_ok {kind : Kind} {field : Field} {type : Text} :
    typing.resolve kind field = .ok type ↔ typing.typeOf? field.name = some type := by
  unfold resolve
  cases typing.typeOf? field.name <;> simp

lemma resolve_eq_error {kind : Kind} {field : Field} {e : GenerateError} :
    typing.resolve kind field = .error e ↔
      typing.typeOf? field.name = none ∧ e = .unresolvedField field.name kind.className kind.line := by
  unfold resolve
  cases typing.typeOf? field.name <;> simp [eq_comm]

lemma outcome_declare (kind : Kind) (field : Field) :
    (typing.declare kind field).outcome =
      (fun type => Declaration.mk type field.name field.initial?) <$> typing.resolve kind field := by
  unfold declare
  cases h : typing.resolve kind field <;> rfl

lemma outcome_nodeClass (kind : Kind) :
    (typing.nodeClass kind).outcome = (fun fields => NodeClass.mk kind.className kind.tag fields) <$>
      kind.fields.mapM fun field =>
        (fun type => Declaration.mk type field.name field.initial?) <$> typing.resolve kind field := by
  simp only [nodeClass, bind_pure_comp, Outcome.outcome_map, Outcome.outcome_mapM, outcome_declare]

lemma outcome_nodeClass_eq_error {kind : Kind} {e : GenerateError} :
    (typing.nodeClass kind).outcome = .error e ↔
      kind.fields.mapM (typing.resolve kind) = .error e := by
  rw [outcome_nodeClass, Outcome.map_eq_error, Outcome.mapM_eq_error, Outcome.mapM_eq_error]
  simp only [Outcome.map_eq_error, Outcome.exists_map_eq_ok]

/-- The classes fail as giving types to all fields, one after the other, does. -/
lemma outcome_classes_eq_error_iff_mapM {kinds : List Kind} {e : GenerateError} :
    (typing.classes kinds).outcome = .error e ↔
      (Kind.allFields kinds).mapM (fun p => typing.resolve p.1 p.2) = .error e := by
  rw [classes, Outcome.outcome_mapM]
  induction kinds with
  | nil => simp [Kind.allFields, pure, Except.pure]
  | cons kind rest ih =>
    have hclass : ∀ e, (typing.nodeClass kind).outcome = .error e ↔
        kind.fields.mapM (typing.resolve kind) = .error e :=
      fun _ => outcome_nodeClass_eq_error typing
    have hok := Outcome.exists_ok_iff hclass
    rw [Outcome.mapM_cons_eq_error, hclass e, Kind.allFields, List.flatMap_cons, List.mapM_append,
      List.mapM_map, Outcome.bind_eq_error]
    simp only [bind_pure_comp, Outcome.map_eq_error, exists_and_right]
    exact or_congr Iff.rfl (and_congr hok ih)

/-- The first field without a type is told. -/
theorem outcome_classes_eq_error {kinds : List Kind} {e : GenerateError} :
    (typing.classes kinds).outcome = .error e ↔ ∃ before kind field after,
      Kind.allFields kinds = before ++ (kind, field) :: after ∧
        (∀ p ∈ before, (typing.typeOf? p.2.name).isSome) ∧ typing.typeOf? field.name = none ∧
          e = .unresolvedField field.name kind.className kind.line := by
  rw [outcome_classes_eq_error_iff_mapM, Outcome.mapM_eq_error]
  simp only [resolve_eq_ok, resolve_eq_error, Option.isSome_iff_exists, Prod.exists]

theorem exists_outcome_classes_eq_ok {kinds : List Kind} :
    (∃ classes, (typing.classes kinds).outcome = .ok classes) ↔
      ∀ p ∈ Kind.allFields kinds, (typing.typeOf? p.2.name).isSome := by
  rw [Outcome.exists_ok_iff fun _ => outcome_classes_eq_error_iff_mapM typing,
    Outcome.exists_mapM_eq_ok]
  simp only [resolve_eq_ok, Option.isSome_iff_exists]

/-- Fields that have types are declared with them. -/
theorem outcome_classes_of_typeOf {kinds : List Kind} {typeOf : Text → Text}
    (h : ∀ p ∈ Kind.allFields kinds, typing.typeOf? p.2.name = some (typeOf p.2.name)) :
    (typing.classes kinds).outcome = .ok (kinds.map (classOf typeOf)) := by
  rw [classes, Outcome.outcome_mapM, Outcome.mapM_eq_ok, List.forall₂_map_right_iff,
    List.forall₂_same]
  intro kind hkind
  rw [outcome_nodeClass, Outcome.map_eq_ok]
  refine ⟨_, ?_, rfl⟩
  rw [Outcome.mapM_eq_ok, List.forall₂_map_right_iff, List.forall₂_same]
  intro field hfield
  have hmem : (kind, field) ∈ Kind.allFields kinds := Kind.mem_allFields.mpr ⟨hkind, hfield⟩
  rw [Outcome.map_eq_ok]
  exact ⟨typeOf field.name, (resolve_eq_ok typing).mpr (h _ hmem), rfl⟩

end Typing
end DartNodes
