import DartNodes.Proofs.Generation

/-! Which failure of a generation is told when several things are wrong: that of the schema text, then
a repeated name, then what the types of the fields lack. -/
namespace DartNodes

open Accessor (Behind Declares declared?)

/-- What keeps the fields of some kinds from having types. -/
inductive Untypable (base? : Option Text) (strategy : Strategy) (marker : Text) (kinds : List Kind) :
    GenerateError → Prop
  | missingBase (typed : strategy = .typed) (absent : base? = none) :
      Untypable base? strategy marker kinds .missingBase
  | missingMarker {source} (typed : strategy = .typed) (given : base? = some source)
      (absent : ∀ line ∈ source.lines, line.trim ≠ marker.trim) :
      Untypable base? strategy marker kinds (.missingMarker marker)
  | unresolvedField {source rest before kind field after} (typed : strategy = .typed)
      (given : base? = some source) (found : Behind source marker rest)
      (order : Kind.allFields kinds = before ++ (kind, field) :: after)
      (earlier : ∀ p ∈ before, Declares rest p.2.name) (undeclared : ¬ Declares rest field.name) :
      Untypable base? strategy marker kinds (.unresolvedField field.name kind.className kind.line)

/-- What a generation is refused for. A cause is told only if those named before it are absent. -/
inductive Refused (base? : Option Text) (text : Text) (strategy : Strategy) (marker : Text) :
    GenerateError → Prop
  | parse {e} (fails : (Schema.parse text).outcome = .error e) :
      Refused base? text strategy marker (.parse e)
  | schema {schema e} (parses : (Schema.parse text).outcome = .ok schema)
      (repeats : ¬ Schema.Distinct schema.kinds) (fails : schema.validate = .error e) :
      Refused base? text strategy marker (.schema e)
  | typing {schema e} (parses : (Schema.parse text).outcome = .ok schema)
      (distinct : Schema.Distinct schema.kinds) (fails : Untypable base? strategy marker schema.kinds e) :
      Refused base? text strategy marker e

/-- With a marker line, a name has a type if it is declared behind that line. -/
lemma Typing.isSome_declaredType? {strategy : Strategy} {source marker : Text} {rest : List Text}
    (hstrategy : strategy = .typed) (h : Behind source marker rest) {name : Text} :
    (declaredType? strategy (some source) marker name).isSome ↔ Declares rest name := by
  rw [hstrategy, declaredType?_of_behind h, Accessor.isSome_lastType?]

/-- The code of a schema is refused exactly if the types of its fields lack something. -/
theorem Schema.render_eq_error {schema : Schema} {base? : Option Text} {strategy : Strategy}
    {target : Target} {marker : Text} {e : GenerateError} :
    (schema.render base? strategy target marker).outcome = .error e ↔
      Untypable base? strategy marker schema.kinds e := by
  rw [outcome_render, Outcome.bind_eq_error, Typing.ofBase_eq_error]
  simp only [Outcome.map_eq_error, Typing.outcome_classes_eq_error]
  constructor
  · rintro (⟨htyped, ⟨habsent, rfl⟩ | ⟨source, hgiven, habsent, rfl⟩⟩ |
      ⟨typing, htyping, before, kind, field, after, horder, hearlier, hfield, rfl⟩)
    · exact .missingBase htyped habsent
    · exact .missingMarker htyped hgiven habsent
    · obtain ⟨-, htype⟩ := Typing.typeOf?_of_ofBase htyping
      rw [htype] at hfield
      simp only [htype] at hearlier
      have htyped : strategy = .typed := by
        rcases strategy with _ | _
        · rfl
        · cases hfield
      obtain ⟨source, rest, rfl, hrest⟩ := Typing.exists_ofBase_eq_ok.mp ⟨typing, htyping⟩ htyped
      refine .unresolvedField htyped rfl hrest horder (fun p hp => ?_) fun hdeclared => ?_
      · exact (Typing.isSome_declaredType? htyped hrest).mp (hearlier p hp)
      · have hsome := (Typing.isSome_declaredType? htyped hrest).mpr hdeclared
        rw [hfield] at hsome
        cases hsome
  · rintro (⟨htyped, habsent⟩ | ⟨htyped, hgiven, habsent⟩ |
      ⟨htyped, hgiven, hrest, horder, hearlier, hfield⟩)
    · exact .inl ⟨htyped, .inl ⟨habsent, rfl⟩⟩
    · exact .inl ⟨htyped, .inr ⟨_, hgiven, habsent, rfl⟩⟩
    · obtain ⟨typing, htyping⟩ := Typing.exists_ofBase_eq_ok.mpr fun _ => ⟨_, _, hgiven, hrest⟩
      obtain ⟨-, htype⟩ := Typing.typeOf?_of_ofBase htyping
      refine .inr ⟨typing, htyping, _, _, _, _, horder, fun p hp => ?_, ?_, rfl⟩
      · rw [htype, hgiven, Typing.isSome_declaredType? htyped hrest]
        exact hearlier p hp
      · rw [htype, hgiven, ← Option.not_isSome_iff_eq_none,
          Typing.isSome_declaredType? htyped hrest]
        exact hfield

theorem Schema.exists_render_eq_ok {schema : Schema} {base? : Option Text} {strategy : Strategy}
    {target : Target} {marker : Text} :
    (∃ code, (schema.render base? strategy target marker).outcome = .ok code) ↔
      (strategy = .typed → ∃ source rest, base? = some source ∧ Behind source marker rest ∧
        ∀ p ∈ Kind.allFields schema.kinds, Declares rest p.2.name) := by
  rw [outcome_render]
  constructor
  · rintro ⟨code, h⟩ htyped
    obtain ⟨typing, htyping, h⟩ := Outcome.bind_eq_ok.mp h
    obtain ⟨classes, hclasses, -⟩ := Outcome.map_eq_ok.mp h
    obtain ⟨-, htype⟩ := Typing.typeOf?_of_ofBase htyping
    obtain ⟨source, rest, rfl, hrest⟩ := Typing.exists_ofBase_eq_ok.mp ⟨typing, htyping⟩ htyped
    refine ⟨source, rest, rfl, hrest, fun p hp => ?_⟩
    rw [← Typing.isSome_declaredType? htyped hrest, ← htype]
    exact (Typing.exists_outcome_classes_eq_ok typing).mp ⟨classes, hclasses⟩ p hp
  · intro h
    obtain ⟨typing, htyping⟩ : ∃ typing,
        (Typing.ofBase strategy base? marker schema.fieldCount).outcome = .ok typing := by
      refine Typing.exists_ofBase_eq_ok.mpr fun htyped => ?_
      obtain ⟨source, rest, hgiven, hrest, -⟩ := h htyped
      exact ⟨source, rest, hgiven, hrest⟩
    obtain ⟨-, htype⟩ := Typing.typeOf?_of_ofBase htyping
    obtain ⟨classes, hclasses⟩ : ∃ classes,
        (typing.classes schema.kinds).outcome = .ok classes := by
      refine (Typing.exists_outcome_classes_eq_ok typing).mpr fun p hp => ?_
      rw [htype]
      rcases hstrategy : strategy with _ | _
      · obtain ⟨source, rest, rfl, hrest, hall⟩ := h hstrategy
        exact (Typing.isSome_declaredType? rfl hrest).mpr (hall p hp)
      · rfl
    exact ⟨_, Outcome.bind_eq_ok.mpr ⟨typing, htyping, Outcome.map_eq_ok.mpr ⟨classes, hclasses, rfl⟩⟩⟩

/-- The error of a generation is the cause that comes first. -/
theorem generate_eq_error {base? : Option Text} {text : Text} {strategy : Strategy} {target : Target}
    {marker : Text} {e : GenerateError} :
    (generate base? text strategy target marker).outcome = .error e ↔
      Refused base? text strategy marker e := by
  rw [generate, Traced.outcome_bind, Outcome.bind_eq_error, Schema.load_eq_error]
  simp only [Schema.load_eq_ok, Schema.render_eq_error]
  constructor
  · rintro ((⟨inner, hfails, rfl⟩ | ⟨schema, inner, hparse, hfails, rfl⟩) |
      ⟨schema, ⟨hparse, hdistinct⟩, hfails⟩)
    · exact .parse hfails
    · refine .schema hparse (fun hdistinct => ?_) hfails
      rw [Schema.validate_eq_ok.mpr hdistinct] at hfails
      cases hfails
    · exact .typing hparse hdistinct hfails
  · rintro (hfails | ⟨hparse, -, hfails⟩ | ⟨hparse, hdistinct, hfails⟩)
    · exact .inl (.inl ⟨_, hfails, rfl⟩)
    · exact .inl (.inr ⟨_, _, hparse, hfails, rfl⟩)
    · exact .inr ⟨_, ⟨hparse, hdistinct⟩, hfails⟩

theorem exists_generate_eq_ok {base? : Option Text} {text : Text} {strategy : Strategy}
    {target : Target} {marker : Text} :
    (∃ code, (generate base? text strategy target marker).outcome = .ok code) ↔
      ∃ schema, (Schema.parse text).outcome = .ok schema ∧ Schema.Distinct schema.kinds ∧
        (strategy = .typed → ∃ source rest, base? = some source ∧ Behind source marker rest ∧
          ∀ p ∈ Kind.allFields schema.kinds, Declares rest p.2.name) := by
  simp only [generate, Traced.outcome_bind, Outcome.bind_eq_ok, Schema.load_eq_ok]
  constructor
  · rintro ⟨code, schema, ⟨hparse, hdistinct⟩, hrender⟩
    exact ⟨schema, hparse, hdistinct, Schema.exists_render_eq_ok.mp ⟨code, hrender⟩⟩
  · rintro ⟨schema, hparse, hdistinct, htyped⟩
    obtain ⟨code, hrender⟩ : ∃ code,
        (schema.render base? strategy target marker).outcome = .ok code :=
      Schema.exists_render_eq_ok.mpr htyped
    exact ⟨code, schema, ⟨hparse, hdistinct⟩, hrender⟩

/-- Exactly one thing decides how a generation ends: the first of the causes of refusal that is there,
or the absence of all of them. -/
theorem generate_precedence (base? : Option Text) (text : Text) (strategy : Strategy)
    (target : Target) (marker : Text) :
    (∀ e, (generate base? text strategy target marker).outcome = .error e ↔
      Refused base? text strategy marker e) ∧
    (∀ inner, ¬ Refused base? text strategy marker (.schema (.parse inner))) ∧
    ((∃ code, (generate base? text strategy target marker).outcome = .ok code) ↔
      ∃ schema, (Schema.parse text).outcome = .ok schema ∧ Schema.Distinct schema.kinds ∧
        (strategy = .typed → ∃ source rest, base? = some source ∧ Behind source marker rest ∧
          ∀ p ∈ Kind.allFields schema.kinds, Declares rest p.2.name)) ∧
    (strategy = .untyped →
      (∀ otherBase? otherMarker, generate otherBase? text strategy target otherMarker =
        generate base? text strategy target marker) ∧
      ((∃ code, (generate base? text strategy target marker).outcome = .ok code) ↔
        ∃ schema, (Schema.parse text).outcome = .ok schema ∧ schema.validate = .ok ())) := by
  refine ⟨fun _ => generate_eq_error, fun inner h => ?_, exists_generate_eq_ok, ?_⟩
  · rcases h with _ | ⟨-, -, hfails⟩ | ⟨-, -, hfails⟩
    · exact Schema.ne_parse_of_validate hfails inner rfl
    · cases hfails
  · rintro rfl
    refine ⟨fun _ _ => rfl, ?_⟩
    simp only [exists_generate_eq_ok, Schema.validate_eq_ok, reduceCtorEq, false_implies, and_true]

end DartNodes
