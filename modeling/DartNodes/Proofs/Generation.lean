import DartNodes.Generate
import DartNodes.Proofs.Accessor.Behind
import DartNodes.Proofs.Schema.Distinct
import DartNodes.Proofs.Text.Lines
import DartNodes.Proofs.Typing

/-! How the stages of a generation end: loading the schema, finding the types, and putting the code
together. -/
namespace DartNodes

open Accessor (Behind Declares declared? lastType?)

namespace Schema

theorem load_eq_ok {text : Text} {schema : Schema} :
    (load text).outcome = .ok schema ↔
      (parse text).outcome = .ok schema ∧ Distinct schema.kinds := by
  simp only [load, Traced.outcome_bind, Traced.outcome_mapError, Traced.outcome_ofExcept,
    Traced.outcome_pure, Outcome.bind_eq_ok, Outcome.mapError_eq_ok, Except.ok.injEq]
  constructor
  · rintro ⟨found, hparse, ⟨⟩, hvalid, rfl⟩
    exact ⟨hparse, validate_eq_ok.mp hvalid⟩
  · rintro ⟨hparse, hdistinct⟩
    exact ⟨schema, hparse, (), validate_eq_ok.mpr hdistinct, rfl⟩

theorem load_eq_error {text : Text} {e : GenerateError} :
    (load text).outcome = .error e ↔
      (∃ inner, (parse text).outcome = .error inner ∧ e = .parse inner) ∨
      ∃ schema inner, (parse text).outcome = .ok schema ∧ schema.validate = .error inner ∧
        e = .schema inner := by
  simp only [load, Traced.outcome_bind, Traced.outcome_mapError, Traced.outcome_ofExcept,
    Traced.outcome_pure, Outcome.bind_eq_error, Outcome.mapError_eq_ok, Outcome.mapError_eq_error]
  constructor
  · rintro (⟨inner, hparse, rfl⟩ | ⟨schema, hparse, ⟨inner, hvalid, rfl⟩ | ⟨⟨⟩, -, h⟩⟩)
    · exact .inl ⟨inner, hparse, rfl⟩
    · exact .inr ⟨schema, inner, hparse, hvalid, rfl⟩
    · cases h
  · rintro (⟨inner, hparse, rfl⟩ | ⟨schema, inner, hparse, hvalid, rfl⟩)
    · exact .inl ⟨inner, hparse, rfl⟩
    · exact .inr ⟨schema, hparse, .inl ⟨inner, hvalid, rfl⟩⟩

end Schema

namespace Typing

/-- Without the types that are reported on the way. -/
theorem outcome_ofBase (strategy : Strategy) (base? : Option Text) (marker : Text) (count : Nat) :
    (ofBase strategy base? marker count).outcome =
      match strategy, base? with
      | .untyped, _ => .ok .untyped
      | .typed, none => .error .missingBase
      | .typed, some source =>
        match Accessor.list? source marker with
        | none => .error (.missingMarker marker)
        | some accessors => .ok (.typed (Table.ofPairs (accessors.map fun a => (a.name, a.type)))) := by
  rcases strategy with _ | _
  · rcases base? with _ | source
    · rfl
    · rw [ofBase, Traced.outcome_bind, Traced.outcome_mapError, Table.outcome_recover]
      cases hlist : Accessor.list? source marker with
      | none => simp only [hlist]; rfl
      | some accessors =>
        simp only [hlist, Except.mapError]
        change Traced.outcome (if _ then _ else _) = _
        split <;> rfl
  · rfl

/-- The type of the fields of a name: `var`, or the type of the last accessor of that name behind the
marker line of the base class. -/
def declaredType? (strategy : Strategy) (base? : Option Text) (marker name : Text) : Option Text :=
  match strategy with
  | .untyped => some "var"
  | .typed => do lastType? (← Accessor.list? (← base?) marker) name

/-- The type of the fields of a name: `var`, or what the last line that declares the name has for it,
of the lines behind the marker line of the base class. -/
inductive HasType (base? : Option Text) (marker name : Text) : Strategy → Text → Prop
  | untyped : HasType base? marker name .untyped "var"
  | typed {source rest before line after type} (given : base? = some source)
      (found : Behind source marker rest) (split : rest = before ++ line :: after)
      (declares : declared? line = some ⟨name, type⟩) (last : ¬ Declares after name) :
      HasType base? marker name .typed type

lemma declaredType?_of_behind {source marker : Text} {rest : List Text}
    (h : Behind source marker rest) (name : Text) :
    declaredType? .typed (some source) marker name =
      lastType? (rest.filterMap declared?) name := by
  rw [declaredType?, Option.bind_eq_bind, Option.bind_some, Accessor.list?_of_behind h]
  rfl

theorem hasType_of_declaredType? {strategy : Strategy} {base? : Option Text} {marker name type : Text}
    (h : declaredType? strategy base? marker name = some type) :
    HasType base? marker name strategy type := by
  rcases strategy with _ | _
  · rcases base? with _ | source
    · cases h
    · rcases Accessor.behind_or_forall_ne source marker with ⟨rest, hrest⟩ | hnone
      · rw [declaredType?_of_behind hrest] at h
        obtain ⟨before, line, after, hsplit, hline, hafter⟩ := Accessor.exists_last_of_lastType? h
        exact .typed rfl hrest hsplit hline hafter
      · rw [declaredType?, Option.bind_eq_bind, Option.bind_some,
          Accessor.list?_of_forall_ne hnone] at h
        cases h
  · cases h
    exact .untyped

/-- Types are parts of lines. -/
theorem HasType.notMem {strategy : Strategy} {base? : Option Text} {marker name type : Text}
    (h : HasType base? marker name strategy type) : '\n' ∉ type := by
  cases h with
  | untyped => decide
  | @typed source rest before line after type given found split declares last =>
    obtain ⟨front, mark, hlines, -⟩ := found
    have hline : line ∈ source.lines := by simp [hlines, split]
    intro hm
    exact Text.notMem_of_mem_lines hline (Accessor.mem_of_declared? declares hm)

theorem typeOf?_of_ofBase {strategy : Strategy} {base? : Option Text} {marker : Text} {count : Nat}
    {typing : Typing} (h : (ofBase strategy base? marker count).outcome = .ok typing) :
    typing.strategy = strategy ∧
      ∀ name, typing.typeOf? name = declaredType? strategy base? marker name := by
  rw [outcome_ofBase] at h
  rcases strategy with _ | _
  · rcases base? with _ | source
    · cases h
    · simp only [declaredType?, Option.bind_eq_bind, Option.bind_some]
      cases hlist : Accessor.list? source marker with
      | none => simp [hlist] at h
      | some accessors =>
        simp only [hlist, Except.ok.injEq] at h
        rw [← h]
        exact ⟨rfl, Table.get?_ofPairs accessors⟩
  · cases h
    exact ⟨rfl, fun _ => rfl⟩

theorem ofBase_eq_error {strategy : Strategy} {base? : Option Text} {marker : Text} {count : Nat}
    {e : GenerateError} :
    (ofBase strategy base? marker count).outcome = .error e ↔ strategy = .typed ∧
      (base? = none ∧ e = .missingBase ∨ ∃ source, base? = some source ∧
        (∀ line ∈ source.lines, line.trim ≠ marker.trim) ∧ e = .missingMarker marker) := by
  rw [outcome_ofBase]
  rcases strategy with _ | _
  · rcases base? with _ | source
    · simp [eq_comm]
    · rcases Accessor.behind_or_forall_ne source marker with ⟨rest, hrest⟩ | hnone
      · simpa [Accessor.list?_of_behind hrest] using fun h => absurd h hrest.not_forall_ne
      · simpa [Accessor.list?_of_forall_ne hnone, eq_comm] using fun _ => hnone
  · simp

theorem exists_ofBase_eq_ok {strategy : Strategy} {base? : Option Text} {marker : Text} {count : Nat} :
    (∃ typing, (ofBase strategy base? marker count).outcome = .ok typing) ↔
      (strategy = .typed → ∃ source rest, base? = some source ∧ Behind source marker rest) := by
  constructor
  · rintro ⟨typing, h⟩ rfl
    rcases base? with _ | source
    · cases h
    · rcases Accessor.behind_or_forall_ne source marker with ⟨rest, hrest⟩ | hnone
      · exact ⟨source, rest, rfl, hrest⟩
      · have hfail : (ofBase .typed (some source) marker count).outcome =
            .error (.missingMarker marker) :=
          ofBase_eq_error.mpr ⟨rfl, .inr ⟨source, rfl, hnone, rfl⟩⟩
        rw [h] at hfail
        cases hfail
  · intro h
    cases hbase : (ofBase strategy base? marker count).outcome with
    | ok typing => exact ⟨typing, rfl⟩
    | error e =>
      obtain ⟨htyped, hfails⟩ := ofBase_eq_error.mp hbase
      obtain ⟨source, rest, rfl, hrest⟩ := h htyped
      rcases hfails with ⟨hnone, -⟩ | ⟨_, ⟨⟩, hnone, -⟩
      · cases hnone
      · exact absurd hnone hrest.not_forall_ne

end Typing

/-- The code is made from the schema alone once the types of the fields are known. -/
theorem Schema.outcome_render (schema : Schema) (base? : Option Text) (strategy : Strategy)
    (target : Target) (marker : Text) :
    (schema.render base? strategy target marker).outcome =
      (Typing.ofBase strategy base? marker schema.fieldCount).outcome >>= fun typing =>
        (fun classes => OutputFile.code target ⟨typing.strategy, schema.kinds, classes⟩) <$>
          (typing.classes schema.kinds).outcome := by
  simp only [render, toFile, bind_pure_comp, Traced.outcome_bind, Outcome.outcome_map,
    Functor.map_map]

/-- The code of a schema declares every field with its type. -/
theorem Schema.exists_typeOf_of_render {schema : Schema} {base? : Option Text} {strategy : Strategy}
    {target : Target} {marker code : Text}
    (h : (schema.render base? strategy target marker).outcome = .ok code) :
    ∃ typeOf : Text → Text,
      (∀ p ∈ Kind.allFields schema.kinds,
        Typing.declaredType? strategy base? marker p.2.name = some (typeOf p.2.name)) ∧
      code = OutputFile.code target
        ⟨strategy, schema.kinds, schema.kinds.map (Typing.classOf typeOf)⟩ := by
  rw [outcome_render] at h
  obtain ⟨typing, htyping, h⟩ := Outcome.bind_eq_ok.mp h
  obtain ⟨classes, hclasses, rfl⟩ := Outcome.map_eq_ok.mp h
  obtain ⟨rfl, htype⟩ := Typing.typeOf?_of_ofBase htyping
  have hsome := (Typing.exists_outcome_classes_eq_ok typing).mp ⟨classes, hclasses⟩
  have hget : ∀ p ∈ Kind.allFields schema.kinds,
      typing.typeOf? p.2.name = some ((typing.typeOf? p.2.name).getD []) := fun p hp =>
    (Option.some_get (hsome p hp)).symm.trans
      (congrArg some (Option.get_eq_getD _))
  have hmap : (typing.classes schema.kinds).outcome = .ok (schema.kinds.map
      (Typing.classOf fun name => (typing.typeOf? name).getD [])) :=
    Typing.outcome_classes_of_typeOf typing hget
  rw [hclasses] at hmap
  cases hmap
  refine ⟨_, fun p hp => ?_, rfl⟩
  rw [← htype]
  exact hget p hp

end DartNodes
