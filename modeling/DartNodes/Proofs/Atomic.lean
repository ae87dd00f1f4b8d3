import DartNodes.Proofs.Run

/-! Runs change nothing but the file that they write last. A run that fails has changed nothing, unless its
output can be opened and then takes only a part of the code: opening it loses what it held before. -/
namespace DartNodes

variable {store : Store} {config : Config} {path : Text} {place : Place} {report : Report} {limit : Limit}

/-- What is wanted of a run and of the store after it. A run that fails leaves the store as it is. A run that
ends well has generated its code from what it read before, and changes nothing but the file that the output
path names, which holds the code then. -/
structure Atomic (store : Store) (config : Config) : Prop where
  failed : ∀ e, (run store config).1.outcome = .error e → (run store config).2 = store
  generated : ∀ report, (run store config).1.outcome = .ok report → report.output? = config.output? ∧
    ∃ text, store.readText config.schema = .ok text ∧
      (generate (baseSource? store.readText config) text config.strategy config.target
        config.marker).outcome = .ok report.code
  unwanted : ∀ report, (run store config).1.outcome = .ok report → config.output? = none →
    (run store config).2 = store
  saved : ∀ report, (run store config).1.outcome = .ok report → ∀ path, config.output? = some path →
    (∃ place, store.Wrote path place report.code.toBytes (run store config).2) ∧
      (run store config).2.read path = .ok report.code.toBytes

/-- The output of a run can be opened, but takes only a part of the code. -/
structure CutOff (store : Store) (config : Config) (path : Text) (place : Place) (report : Report)
    (limit : Limit) : Prop where
  prepared : (prepare store.readText config).outcome = .ok report
  wanted : config.output? = some path
  opens : store.filePlace path = .ok place
  limited : store.limit? place = some limit
  exceeds : limit.room < report.code.toBytes.size

lemma run_of_cutOff (h : CutOff store config path place report limit) :
    (run store config).1.outcome = .error (.write path limit.fault) ∧
      (run store config).2 = store.set place (.file (report.code.toBytes.extract 0 limit.room)) := by
  have houtput : report.output? = some path := (exists_generate_of_prepare h.prepared).1.trans h.wanted
  have hsave : report.save store = (.error (.write path limit.fault),
      store.set place (.file (report.code.toBytes.extract 0 limit.room))) := by
    rw [Report.save_of_output houtput, Store.write_of_filePlace h.opens,
      Store.accept_of_exceeds h.limited h.exceeds]
    rfl
  rw [run_of_prepare_ok h.prepared, outcome_conclude h.prepared, hsave]
  exact ⟨rfl, rfl⟩

/-- A run whose code is cut off changes the output, and nothing else. -/
lemma wrote_of_cutOff (h : CutOff store config path place report limit) :
    (run store config).1.outcome = .error (.write path limit.fault) ∧
      store.Wrote path place (report.code.toBytes.extract 0 limit.room) (run store config).2 := by
  obtain ⟨hfails, hafter⟩ := run_of_cutOff h
  exact ⟨hfails, hafter ▸ Store.wrote_of_filePlace h.opens _⟩

/-- A run that fails has opened its output only if that takes a part of the code. -/
lemma eq_or_cutOff {e : GenerateError} (h : (run store config).1.outcome = .error e) :
    (run store config).2 = store ∨
      ∃ path place report limit, CutOff store config path place report limit := by
  have hends := runEnds store config
  rw [h] at hends
  generalize (run store config).2 = after at hends ⊢
  cases hends with
  | refused => exact .inl rfl
  | @unsaved report path fault after prepared wanted fails =>
    have hwrite := Store.writeEnds store path report.code.toBytes
    rw [fails] at hwrite
    generalize hended : Except.error fault = ended at hwrite
    cases hwrite with
    | unopened => exact .inl rfl
    | whole => cases hended
    | part opens limited exceeds =>
      have hwanted := (exists_generate_of_prepare prepared).1.symm.trans wanted
      exact .inr ⟨path, _, report, _, prepared, hwanted, opens, limited, exceeds⟩

/-- What is wanted of a run that ends well holds on every store. -/
lemma atomic_of_failed (h : ∀ e, (run store config).1.outcome = .error e → (run store config).2 = store) :
    Atomic store config := by
  refine ⟨h, fun report hok => exists_generate_of_prepare (prepare_of_run hok), ?_, ?_⟩
  · intro report hok hnone
    have hprepared := prepare_of_run hok
    have houtput := (exists_generate_of_prepare hprepared).1.trans hnone
    rw [run_of_prepare_ok hprepared, Report.save_of_no_output houtput]
  · intro report hok path hpath
    have hprepared := prepare_of_run hok
    have houtput := (exists_generate_of_prepare hprepared).1.trans hpath
    rcases outcome_run_of_prepare_ok hprepared with ⟨_, _, _, _, hfails⟩ | ⟨hwrites, -⟩
    · rw [hfails] at hok
      cases hok
    · obtain ⟨place, hwrote⟩ := Store.wrote_of_write (hwrites path houtput)
      exact ⟨⟨place, hwrote⟩, Store.read_of_names hwrote.names_after hwrote.holds⟩

/-- A run is atomic unless its output can be opened but takes only a part of the code, and did not hold just
that part before. Such a run fails, and changes nothing but the file that the output path names, which has
lost what it held and holds that part of the code. -/
theorem run_atomic_iff (store : Store) (config : Config) :
    (Atomic store config ↔ ∀ path place report limit, CutOff store config path place report limit →
      store.find? place = some (.file (report.code.toBytes.extract 0 limit.room))) ∧
    ∀ path place report limit, CutOff store config path place report limit →
      (run store config).1.outcome = .error (.write path limit.fault) ∧
        store.Wrote path place (report.code.toBytes.extract 0 limit.room) (run store config).2 := by
  refine ⟨⟨fun h path place report limit hcutOff => ?_, fun h => ?_⟩, fun _ _ _ _ => wrote_of_cutOff⟩
  · obtain ⟨hfails, hwrote⟩ := wrote_of_cutOff hcutOff
    rw [h.failed _ hfails] at hwrote
    exact hwrote.holds
  · apply atomic_of_failed
    intro e hfails
    apply (eq_or_cutOff hfails).elim id
    rintro ⟨path, place, report, limit, hcutOff⟩
    rw [(run_of_cutOff hcutOff).2]
    exact Store.set_of_find? (h path place report limit hcutOff) (Store.ne_root_of_filePlace hcutOff.opens)

/-- On a disk with room for three bytes, a run that fails replaces its old output with the first three bytes
of the code. -/
theorem not_run_atomic : ∃ store config path fault, (run store config).1.outcome = .error (.write path fault) ∧
    store.read path = .ok (Text.toBytes "old code") ∧
    (run store config).2.read path = .ok (Text.toBytes "imp") ∧ ¬ Atomic store config := by
  let store : Store := {
    entries := [(["w"], .directory), (["w", "s"], .file (Text.toBytes "h\nA X\n")),
      (["w", "o"], .file (Text.toBytes "old code"))]
    workingDir := ["w"]
    limits := [(["w", "o"], ⟨3, .other "No space left on device (os error 28)"⟩)] }
  let config : Config := { schema := "s", output? := some "o".toList, strategy := .untyped }
  have hfails : (run store config).1.outcome =
      .error (.write "o" (.other "No space left on device (os error 28)")) := by decide +kernel
  have hold : store.read "o" = .ok (Text.toBytes "old code") := by decide +kernel
  have hnew : (run store config).2.read "o" = .ok (Text.toBytes "imp") := by decide +kernel
  refine ⟨store, config, "o", _, hfails, hold, hnew, fun h => ?_⟩
  have hlost : (Except.ok (Text.toBytes "old code") : Except Fault ByteArray) ≠ .ok (Text.toBytes "imp") := by
    decide +kernel
  rw [h.failed _ hfails] at hnew
  exact hlost (hold.symm.trans hnew)

end DartNodes
