import DartNodes.Proofs.Precedence
import DartNodes.Proofs.Store.Write
import DartNodes.Run

/-! Runs come to what generating from the texts of their files comes to, and then to what writing the code
comes to. -/
namespace DartNodes

variable {read : Text → Except Fault Text} {store : Store} {config : Config} {text : Text}

/-- All that a run can come to, and the store after it. -/
inductive RunEnds (store : Store) (config : Config) : Except GenerateError Report → Store → Prop
  | refused {e} (fails : (prepare store.readText config).outcome = .error e) :
      RunEnds store config (.error e) store
  | unsaved {report path fault after} (prepared : (prepare store.readText config).outcome = .ok report)
      (wanted : report.output? = some path)
      (fails : store.write path report.code.toBytes = (.error fault, after)) :
      RunEnds store config (.error (.write path fault)) after
  | saved {report path after} (prepared : (prepare store.readText config).outcome = .ok report)
      (wanted : report.output? = some path)
      (writes : store.write path report.code.toBytes = (.ok (), after)) :
      RunEnds store config (.ok report) after
  | kept {report} (prepared : (prepare store.readText config).outcome = .ok report)
      (unwanted : report.output? = none) : RunEnds store config (.ok report) store

lemma Report.save_of_output {report : Report} {path : Text} (h : report.output? = some path)
    (store : Store) : report.save store =
      ((store.write path report.code.toBytes).1.mapError (.write path),
        (store.write path report.code.toBytes).2) := by
  rw [save, h]

lemma Report.save_of_no_output {report : Report} (h : report.output? = none) (store : Store) :
    report.save store = (.ok (), store) := by
  rw [save, h]

lemma run_of_prepare_error {e : GenerateError} (h : (prepare store.readText config).outcome = .error e) :
    run store config = (prepare store.readText config, store) := by
  simp only [run, h]

lemma run_of_prepare_ok {report : Report} (h : (prepare store.readText config).outcome = .ok report) :
    run store config =
      (conclude (prepare store.readText config) (report.save store).1, (report.save store).2) := by
  simp only [run, h]

/-- A prepared run fails where its code cannot be saved. -/
lemma outcome_conclude {prepared : Traced GenerateError Report} {report : Report}
    (h : prepared.outcome = .ok report) (saved : Except GenerateError Unit) :
    (conclude prepared saved).outcome = saved.map fun _ => report := by
  simp only [conclude, Traced.outcome_bind, h]
  cases saved <;> rfl

theorem runEnds (store : Store) (config : Config) :
    RunEnds store config (run store config).1.outcome (run store config).2 := by
  cases hprepared : (prepare store.readText config).outcome with
  | error e =>
    rw [run_of_prepare_error hprepared, hprepared]
    exact .refused hprepared
  | ok report =>
    rw [run_of_prepare_ok hprepared, outcome_conclude hprepared]
    cases houtput : report.output? with
    | none =>
      rw [Report.save_of_no_output houtput]
      exact .kept hprepared houtput
    | some path =>
      rw [Report.save_of_output houtput]
      cases hwrite : store.write path report.code.toBytes with
      | mk written after =>
        cases written with
        | error fault => exact .unsaved hprepared houtput hwrite
        | ok => exact .saved hprepared houtput hwrite

/-- What a run does before it writes, without its events. -/
lemma outcome_prepare (read : Text → Except Fault Text) (config : Config) :
    (prepare read config).outcome =
      (read config.schema).mapError (.read config.schema) >>= fun text =>
        (Schema.load text).outcome >>= fun schema =>
          (readBase read config).outcome >>= fun base? =>
            (fun code => Report.mk schema.kinds.length schema.fieldCount config.output? code) <$>
              (schema.render base? config.strategy config.target config.marker).outcome := by
  simp only [prepare, readInput, bind_pure_comp, Traced.outcome_bind, Traced.outcome_report,
    Traced.outcome_ofExcept, Outcome.outcome_map]
  rfl

lemma outcome_prepare_of_text (htext : read config.schema = .ok text) :
    (prepare read config).outcome = (Schema.load text).outcome >>= fun schema =>
      (readBase read config).outcome >>= fun base? =>
        (fun code => Report.mk schema.kinds.length schema.fieldCount config.output? code) <$>
          (schema.render base? config.strategy config.target config.marker).outcome := by
  rw [outcome_prepare, htext]
  rfl

/-- The source of the base class, for a strategy that needs it. -/
def baseSource? (read : Text → Except Fault Text) (config : Config) : Option Text :=
  match config.strategy, config.base? with
  | .typed, some path => (read path).toOption
  | _, _ => none

/-- A text spells a schema in which no name is repeated. -/
def Schema.Loads (text : Text) : Prop :=
  ∃ schema, (parse text).outcome = .ok schema ∧ schema.validate = .ok ()

lemma Schema.loads_of_load {schema : Schema} (h : (load text).outcome = .ok schema) : Loads text := by
  obtain ⟨hparse, hdistinct⟩ := load_eq_ok.mp h
  exact ⟨schema, hparse, validate_eq_ok.mpr hdistinct⟩

lemma Schema.outcome_render_of_missingBase (schema : Schema) (target : Target) (marker : Text) :
    (schema.render none .typed target marker).outcome = .error .missingBase := by
  rw [outcome_render, Typing.outcome_ofBase]
  rfl

/-- The schema is good, but the base class, which is needed, cannot be read. -/
structure BaseUnreadable (read : Text → Except Fault Text) (config : Config) (text path : Text)
    (fault : Fault) : Prop where
  typed : config.strategy = .typed
  given : config.base? = some path
  loads : Schema.Loads text
  fails : read path = .error fault

/-- Reading the base class fails if it is not there or cannot be read. -/
lemma outcome_readBase (read : Text → Except Fault Text) (config : Config) :
    (readBase read config).outcome =
      match config.strategy, config.base? with
      | .untyped, _ => .ok none
      | .typed, none => .error .missingBase
      | .typed, some path => some <$> (read path).mapError (.read path) := by
  unfold readBase
  rcases config.strategy with _ | _
  · rcases config.base? with _ | path
    · rfl
    · simp [Strategy.needsBase, readInput]
  · rfl

/-- A run that can read what it needs prepares the code of the schema. Without a base class it stops
where the code would be refused. -/
theorem outcome_prepare_of_readable (htext : read config.schema = .ok text)
    (hbase : ∀ path fault, ¬ BaseUnreadable read config text path fault) :
    (prepare read config).outcome = (Schema.load text).outcome >>= fun schema =>
      (fun code => Report.mk schema.kinds.length schema.fieldCount config.output? code) <$>
        (schema.render (baseSource? read config) config.strategy config.target config.marker).outcome := by
  rw [outcome_prepare_of_text htext, outcome_readBase, baseSource?]
  cases hload : (Schema.load text).outcome with
  | error e => rfl
  | ok schema =>
    rcases hstrategy : config.strategy with _ | _
    · rcases hgiven : config.base? with _ | path
      -- Both the reader and the renderer refuse a missing base class, in the same words.
      · change .error .missingBase =
          (fun code => Report.mk schema.kinds.length schema.fieldCount config.output? code) <$>
            (schema.render none .typed config.target config.marker).outcome
        rw [schema.outcome_render_of_missingBase]
        rfl
      · cases hread : read path with
        | error fault =>
          exact absurd ⟨hstrategy, hgiven, Schema.loads_of_load hload, hread⟩ (hbase path fault)
        | ok source =>
          simp only [hread]
          rfl
    · rfl

/-- A run that can read what it needs fails as generating does. -/
lemma prepare_eq_error (htext : read config.schema = .ok text)
    (hbase : ∀ path fault, ¬ BaseUnreadable read config text path fault) {e : GenerateError} :
    (prepare read config).outcome = .error e ↔
      (generate (baseSource? read config) text config.strategy config.target config.marker).outcome =
        .error e := by
  rw [outcome_prepare_of_readable htext hbase, generate, Traced.outcome_bind, Outcome.bind_eq_error,
    Outcome.bind_eq_error]
  simp only [Outcome.map_eq_error]

/-- Its report tells the code that is generated, and the size of the schema. -/
lemma prepare_eq_ok (htext : read config.schema = .ok text)
    (hbase : ∀ path fault, ¬ BaseUnreadable read config text path fault) {report : Report} :
    (prepare read config).outcome = .ok report ↔
      ∃ schema code, (Schema.parse text).outcome = .ok schema ∧
        (generate (baseSource? read config) text config.strategy config.target config.marker).outcome =
          .ok code ∧
        report = ⟨schema.kinds.length, schema.fieldCount, config.output?, code⟩ := by
  rw [outcome_prepare_of_readable htext hbase, generate, Traced.outcome_bind]
  simp only [Outcome.bind_eq_ok, Outcome.map_eq_ok]
  constructor
  · rintro ⟨schema, hload, code, hrender, rfl⟩
    exact ⟨schema, code, (Schema.load_eq_ok.mp hload).1, ⟨schema, hload, hrender⟩, rfl⟩
  · rintro ⟨schema, code, hparse, ⟨loaded, hload, hrender⟩, rfl⟩
    obtain rfl : loaded = schema := by
      have h := (Schema.load_eq_ok.mp hload).1
      rw [hparse] at h
      exact (Except.ok.inj h).symm
    exact ⟨loaded, hload, code, hrender, rfl⟩

lemma prepare_of_unreadable_schema {fault : Fault} (h : read config.schema = .error fault) :
    (prepare read config).outcome = .error (.read config.schema fault) := by
  rw [outcome_prepare, h]
  rfl

lemma prepare_of_baseUnreadable {path : Text} {fault : Fault} (htext : read config.schema = .ok text)
    (h : BaseUnreadable read config text path fault) :
    (prepare read config).outcome = .error (.read path fault) := by
  obtain ⟨typed, given, ⟨schema, hparse, hvalid⟩, fails⟩ := h
  have hload : (Schema.load text).outcome = .ok schema :=
    Schema.load_eq_ok.mpr ⟨hparse, Schema.validate_eq_ok.mp hvalid⟩
  rw [outcome_prepare_of_text htext, hload, outcome_readBase, typed, given]
  simp only [fails]
  rfl

/-- The base class does not matter for a schema that is refused. -/
lemma outcome_generate_congr {b? other? : Option Text} (h : Schema.Loads text → b? = other?)
    (strategy : Strategy) (target : Target) (marker : Text) :
    (generate b? text strategy target marker).outcome =
      (generate other? text strategy target marker).outcome := by
  simp only [generate, Traced.outcome_bind]
  cases hload : (Schema.load text).outcome with
  | error e => rfl
  | ok schema =>
    rw [h (Schema.loads_of_load hload)]

/-- Of a run that is prepared, all that it needed was read. -/
lemma exists_generate_of_prepare {report : Report} (h : (prepare read config).outcome = .ok report) :
    report.output? = config.output? ∧ ∃ text, read config.schema = .ok text ∧
      (generate (baseSource? read config) text config.strategy config.target config.marker).outcome =
        .ok report.code := by
  cases htext : read config.schema with
  | error fault =>
    rw [prepare_of_unreadable_schema htext] at h
    cases h
  | ok text =>
    have hbase : ∀ path fault, ¬ BaseUnreadable read config text path fault := by
      intro path fault hunreadable
      rw [prepare_of_baseUnreadable htext hunreadable] at h
      cases h
    obtain ⟨schema, code, -, hcode, rfl⟩ := (prepare_eq_ok htext hbase).mp h
    exact ⟨rfl, text, rfl, hcode⟩

lemma Config.mem_base?_of_baseToRead? {schemaText : Except Fault Text} {path : Text}
    (h : path ∈ config.baseToRead? schemaText) : path ∈ config.base? := by
  unfold baseToRead? at h
  split at h
  · cases h
  · split at h
    · cases h
    · split at h
      · exact h
      · cases h

/-- The schema is read, and the base class only behind a good schema and only if it is needed. -/
theorem prepare_congr {others : Text → Except Fault Text}
    (hschema : others config.schema = read config.schema)
    (hbase : ∀ path ∈ config.baseToRead? (read config.schema), others path = read path) :
    prepare others config = prepare read config := by
  have hinput : readInput others config.schema = readInput read config.schema := by
    rw [readInput, readInput, hschema]
  unfold prepare
  rw [hinput]
  refine Traced.bind_congr fun _ _ => Traced.bind_congr fun text htext => ?_
  have hread : read config.schema = .ok text := Outcome.mapError_eq_ok.mp htext
  refine Traced.bind_congr fun schema hload => ?_
  have hsource : readBase others config = readBase read config := by
    unfold readBase
    split
    · rename_i hneeds
      cases hgiven : config.base? with
      | none => rfl
      | some path =>
        have hpath : path ∈ config.baseToRead? (read config.schema) := by
          simp only [Config.baseToRead?, hread, hload, hneeds, if_true, hgiven]
          rfl
        simp only [readInput, hbase path hpath]
    · rfl
  rw [hsource]

/-- Without types nothing but the schema is read. -/
lemma prepare_of_untyped (huntyped : config.strategy = .untyped) {other : Text → Except Fault Text}
    (h : other config.schema = read config.schema) (base? : Option Text) :
    prepare other { config with base? := base? } = prepare read config := by
  have hread : ∀ (read : Text → Except Fault Text) (base? : Option Text),
      readBase read { config with base? := base? } = pure none := by
    intro read base?
    rw [readBase, huntyped]
    rfl
  have hschema : readInput other config.schema = readInput read config.schema := by
    rw [readInput, readInput, h]
  change prepare other { config with base? := base? } = prepare read { config with base? := config.base? }
  simp only [prepare, hread, hschema]

lemma outcome_run_of_prepare_error {e : GenerateError}
    (h : (prepare store.readText config).outcome = .error e) :
    (run store config).1.outcome = .error e := by
  have hends := runEnds store config
  generalize (run store config).1.outcome = outcome at hends ⊢
  generalize (run store config).2 = after at hends
  cases hends with
  | refused fails => exact fails.symm.trans h
  | unsaved prepared | saved prepared | kept prepared =>
    rw [h] at prepared
    cases prepared

/-- A prepared run fails if its code cannot be written. -/
lemma outcome_run_of_prepare_ok {report : Report}
    (h : (prepare store.readText config).outcome = .ok report) :
    (∃ path fault, report.output? = some path ∧
        store.write path report.code.toBytes = (.error fault, (run store config).2) ∧
        (run store config).1.outcome = .error (.write path fault)) ∨
      (∀ path, report.output? = some path →
          store.write path report.code.toBytes = (.ok (), (run store config).2)) ∧
        (run store config).1.outcome = .ok report := by
  have hends := runEnds store config
  generalize (run store config).1.outcome = outcome at hends ⊢
  generalize (run store config).2 = after at hends ⊢
  cases hends with
  | refused fails =>
    rw [h] at fails
    cases fails
  | unsaved prepared wanted fails =>
    rw [h] at prepared
    cases prepared
    exact .inl ⟨_, _, wanted, fails, rfl⟩
  | saved prepared wanted writes =>
    rw [h] at prepared
    cases prepared
    refine .inr ⟨fun path hpath => ?_, rfl⟩
    rw [wanted] at hpath
    cases hpath
    exact writes
  | kept prepared unwanted =>
    rw [h] at prepared
    cases prepared
    refine .inr ⟨fun path hpath => ?_, rfl⟩
    rw [unwanted] at hpath
    cases hpath

/-- A run that ends well was prepared well. -/
lemma prepare_of_run {report : Report} (h : (run store config).1.outcome = .ok report) :
    (prepare store.readText config).outcome = .ok report := by
  have hends := runEnds store config
  rw [h] at hends
  generalize (run store config).2 = after at hends
  cases hends with
  | saved prepared | kept prepared => exact prepared

/-- A run comes to what generating from the texts of its files comes to. Only reading and writing can fail
besides: the schema before all else, the base class behind the schema, and the output in the end. Without
types the base class is not looked at. -/
theorem run_refines_generate (store : Store) (config : Config) :
    (∀ fault, store.readText config.schema = .error fault →
      (run store config).1.outcome = .error (.read config.schema fault)) ∧
    (∀ text, store.readText config.schema = .ok text →
      (∀ path fault, BaseUnreadable store.readText config text path fault →
        (run store config).1.outcome = .error (.read path fault)) ∧
      ((∀ path fault, ¬ BaseUnreadable store.readText config text path fault) →
        ∀ b?, (Schema.Loads text → b? = baseSource? store.readText config) →
          (∀ e, (generate b? text config.strategy config.target config.marker).outcome = .error e →
            (run store config).1.outcome = .error e) ∧
          ∀ code, (generate b? text config.strategy config.target config.marker).outcome = .ok code →
            (∃ path fault, config.output? = some path ∧
              store.write path code.toBytes = (.error fault, (run store config).2) ∧
              (run store config).1.outcome = .error (.write path fault)) ∨
            ((∀ path, config.output? = some path →
                store.write path code.toBytes = (.ok (), (run store config).2)) ∧
              ∃ schema, (Schema.parse text).outcome = .ok schema ∧ (run store config).1.outcome =
                .ok ⟨schema.kinds.length, schema.fieldCount, config.output?, code⟩))) ∧
    (config.strategy = .untyped → ∀ base? other, other config.schema = store.readText config.schema →
      prepare other { config with base? := base? } = prepare store.readText config ∧
        run store { config with base? := base? } = run store config) := by
  refine ⟨fun fault h => outcome_run_of_prepare_error (prepare_of_unreadable_schema h),
    fun text htext => ⟨fun path fault h => outcome_run_of_prepare_error (prepare_of_baseUnreadable htext h),
      fun hbase b? hb => ⟨fun e h => ?_, fun code h => ?_⟩⟩, fun huntyped base? other h => ⟨?_, ?_⟩⟩
  · rw [outcome_generate_congr hb] at h
    exact outcome_run_of_prepare_error ((prepare_eq_error htext hbase).mpr h)
  · rw [outcome_generate_congr hb] at h
    obtain ⟨schema, hparse, -⟩ := exists_generate_eq_ok.mp ⟨code, h⟩
    have hprepare := (prepare_eq_ok htext hbase).mpr ⟨schema, code, hparse, h, rfl⟩
    exact outcome_run_of_prepare_ok hprepare |>.imp_right fun ⟨hwrite, hok⟩ => ⟨hwrite, schema, hparse, hok⟩
  · exact prepare_of_untyped huntyped h base?
  · have hprepare : prepare store.readText { config with base? := base? } =
        prepare store.readText config := prepare_of_untyped huntyped rfl base?
    rw [run, hprepare, run]

end DartNodes
