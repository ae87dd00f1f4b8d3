import DartNodes.Proofs.Events
import DartNodes.Proofs.Run

/-! The events of a run, from the first one to the last, which comes only if the run ends well. -/
namespace DartNodes

namespace Event

/-- A record was read. -/
def isKindParsed : Event → Bool
  | kindParsed _ => true
  | _ => false

/-- A field was emitted. -/
def isFieldEmitted : Event → Bool
  | fieldEmitted .. => true
  | _ => false

end Event

variable {store : Store} {config : Config}

/-- What a run reports last. -/
def closing : Except GenerateError Report → List Event
  | .error _ => []
  | .ok report => [.runFinished report.classes report.fields report.bytes]

/-- What a run reports between the beginning and the end. The records of the schema are told as far as they
can be read. The base class and the fields follow once there is something to render. -/
inductive RunTells (store : Store) (config : Config) : List Event → Prop
  | unread {fault} (fails : store.readText config.schema = .error fault) : RunTells store config []
  | unrendered {text kinds} (reads : store.readText config.schema = .ok text)
      (records : Schema.ReadsUpTo 2 text.lines.tail kinds)
      (stops : ¬ Schema.Loads text ∨ ∃ path fault, BaseUnreadable store.readText config text path fault) :
      RunTells store config (kinds.map .kindParsed)
  | rendered {text schema types fields} (reads : store.readText config.schema = .ok text)
      (readable : ∀ path fault, ¬ BaseUnreadable store.readText config text path fault)
      (parses : (Schema.parse text).outcome = .ok schema) (distinct : Schema.Distinct schema.kinds)
      (tells : Typing.Tells (baseSource? store.readText config) config.marker schema.kinds
        config.strategy types)
      (emits : Typing.Emits (baseSource? store.readText config) config.marker config.strategy
        (Kind.allFields schema.kinds) fields) :
      RunTells store config (schema.kinds.map .kindParsed ++ types ++ fields)

/-- Of the base class neither records nor fields are told, and nothing that begins or ends a run. -/
lemma Typing.Tells.forall_mem {base? : Option Text} {marker : Text} {kinds : List Kind}
    {strategy : Strategy} {types : List Event} (h : Tells base? marker kinds strategy types) :
    ∀ event ∈ types, event.isKindParsed = false ∧ event.isFieldEmitted = false ∧ event.level ≠ .info := by
  cases h with
  | untyped | missingBase => simp
  | missingMarker => simp [Event.isKindParsed, Event.isFieldEmitted, Event.level]
  | recovered =>
    intro event hevent
    simp only [List.mem_append, List.mem_map, List.mem_ite_nil_right, List.mem_singleton] at hevent
    rcases hevent with (⟨a, -, rfl⟩ | ⟨-, rfl⟩) | rfl <;>
      exact ⟨rfl, rfl, by simp [Event.level]⟩

lemma Typing.Emits.forall_mem {base? : Option Text} {marker : Text} {strategy : Strategy}
    {fields : List (Kind × Field)} {events : List Event} (h : Emits base? marker strategy fields events) :
    ∀ event ∈ events, event.isKindParsed = false ∧ event.isFieldEmitted = true ∧ event.level = .debug := by
  induction h with
  | done | unresolved => simp
  | field typed tail ih => exact List.forall_mem_cons.mpr ⟨⟨rfl, rfl, rfl⟩, ih⟩

/-- If the base class is told to declare nothing, the first field of the schema has no type. -/
lemma RunTells.unresolved {told : List Event} (htold : RunTells store config told) {marker : Text}
    (h : .noAccessors marker ∈ told) : ∃ text schema kind field rest,
      store.readText config.schema = .ok text ∧ (Schema.parse text).outcome = .ok schema ∧
        Kind.allFields schema.kinds = (kind, field) :: rest ∧ (run store config).1.outcome =
          .error (.unresolvedField field.name kind.className kind.line) := by
  cases htold with
  | unread => cases h
  | unrendered => simp at h
  | @rendered text schema types fields reads readable parses distinct tells emits =>
    have hmem : .noAccessors marker ∈ types := by
      rcases List.mem_append.mp h with h | h
      · rcases List.mem_append.mp h with h | h
        · simp at h
        · exact h
      · exact absurd (emits.forall_mem _ h).2.1 (by simp [Event.isFieldEmitted])
    generalize hstrategy : config.strategy = strategy at tells
    cases tells with
    | untyped | missingBase => cases hmem
    | missingMarker => simp at hmem
    | @recovered source rest table given found lists =>
      simp only [List.mem_append, List.mem_map, reduceCtorEq, and_false, exists_false,
        List.mem_ite_nil_right, List.mem_singleton, false_or, or_false] at hmem
      obtain ⟨⟨hempty, hsome⟩, -⟩ := hmem
      obtain ⟨⟨kind, field⟩, others, hfields⟩ := List.exists_cons_of_ne_nil hsome
      refine ⟨text, schema, kind, field, others, reads, parses, hfields, ?_⟩
      have hundeclared : ¬ Accessor.Declares rest field.name := by
        rw [← Table.mem_names_ofLines, ← lists.unique (Table.lists_ofLines rest)]
        have hnames : table.names = [] := by
          rw [← List.length_eq_zero_iff, Table.length_names, hempty]
        simp [hnames]
      have hrefused : Refused (baseSource? store.readText config) text config.strategy config.marker
          (.unresolvedField field.name kind.className kind.line) :=
        .typing parses distinct (@Untypable.unresolvedField _ _ _ _ source rest [] kind field others
          hstrategy given found hfields (by simp) hundeclared)
      exact outcome_run_of_prepare_error
        ((prepare_eq_error reads readable).mpr (generate_eq_error.mpr hrefused))

end DartNodes
