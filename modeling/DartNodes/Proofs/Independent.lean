import DartNodes.Proofs.Assoc
import DartNodes.Proofs.Run
import DartNodes.Proofs.Store.Plain

/-! Runs that write nothing that another run needs can be done in any order, and again. -/
namespace DartNodes

open Store (Plain)

/-- The paths that a run may read. -/
def Config.inputs (config : Config) : List Text := config.schema :: config.base?.toList

/-- All paths are plain. No output is read, or a directory on the way to what is read or written, and no
two different configurations share an output. Paths are compared by the places that they lead to, which for
paths that do not start with `/` are their names on any store (`Store.placeOf_prefix_iff`). -/
structure Independent (store : Store) (configs : List Config) : Prop where
  inputs_plain : ∀ config ∈ configs, ∀ path ∈ config.inputs, Plain path
  output_plain : ∀ config ∈ configs, ∀ path ∈ config.output?, Plain path
  unread : ∀ writer ∈ configs, ∀ written ∈ writer.output?, ∀ reader ∈ configs, ∀ path ∈ reader.inputs,
    ¬ store.placeOf written <+: store.placeOf path
  not_above : ∀ writer ∈ configs, ∀ written ∈ writer.output?, ∀ other ∈ configs, ∀ path ∈ other.output?,
    store.placeOf written <+: store.placeOf path → store.placeOf written = store.placeOf path
  unshared : ∀ writer ∈ configs, ∀ written ∈ writer.output?, ∀ other ∈ configs, ∀ path ∈ other.output?,
    store.placeOf written = store.placeOf path → writer = other

/-- A run on the store writes the bytes to the place: its code, or as much of it as the place takes. -/
inductive Writes (store : Store) (config : Config) : Place → ByteArray → Prop
  | intro {report path place} (prepared : (prepare store.readText config).outcome = .ok report)
      (wanted : config.output? = some path) (found : store.filePlace path = .ok place) :
      Writes store config place (store.accept place report.code.toBytes).1

/-- Runs one after the other: how each ends, and the store in the end. -/
def runAll (store : Store) : List Config → List (Traced GenerateError Report) × Store
  | [] => ([], store)
  | config :: rest =>
    let first := run store config
    let later := runAll first.2 rest
    (first.1 :: later.1, later.2)

/-- The store once the runs were done on it: it holds what each writes, and all else is as it was. -/
structure After (store : Store) (done : List Config) (now : Store) : Prop where
  workingDir : now.workingDir = store.workingDir
  limits : now.limits = store.limits
  written : ∀ config ∈ done, ∀ place bytes, Writes store config place bytes →
    now.find? place = some (.file bytes)
  kept : ∀ place, (∀ config ∈ done, ∀ bytes, ¬ Writes store config place bytes) →
    now.find? place = store.find? place

/-- Nothing tells the stores apart. -/
structure Store.Same (store other : Store) : Prop where
  workingDir : store.workingDir = other.workingDir
  limits : store.limits = other.limits
  find? : ∀ place, store.find? place = other.find? place

variable {store now other : Store} {config : Config} {configs done order : List Config} {place : Place}
  {bytes : ByteArray}

lemma Report.save_of_unopened {report : Report} {path : Text} {fault : Fault}
    (h : report.output? = some path) (hfault : store.filePlace path = .error fault) :
    report.save store = (.error (.write path fault), store) := by
  rw [save_of_output h, Store.write_of_unopened hfault]
  rfl

/-- What is saved, and whether all of it, depends on the limits of the store alone. -/
lemma Report.save_congr {report : Report} {path : Text} (h : report.output? = some path)
    (hlimits : now.limits = store.limits) (hnow : now.filePlace path = .ok place)
    (hstore : store.filePlace path = .ok place) :
    (report.save now).1 = (report.save store).1 ∧
      (report.save now).2 = now.set place (.file (store.accept place report.code.toBytes).1) := by
  have haccept : now.accept place report.code.toBytes = store.accept place report.code.toBytes := by
    rw [Store.accept, Store.accept, Store.limit?, Store.limit?, hlimits]
  rw [save_of_output h, save_of_output h, Store.write_of_filePlace hnow, Store.write_of_filePlace hstore,
    haccept]
  exact ⟨rfl, rfl⟩

namespace Writes

lemma unique {others : ByteArray} {elsewhere : Place} (h : Writes store config place bytes)
    (hother : Writes store config elsewhere others) : place = elsewhere ∧ bytes = others := by
  cases h with
  | intro prepared wanted found =>
    cases hother with
    | intro preparedOther wantedOther foundOther =>
      obtain rfl := Except.ok.inj (prepared.symm.trans preparedOther)
      obtain rfl := Option.some.inj (wanted.symm.trans wantedOther)
      obtain rfl := Except.ok.inj (found.symm.trans foundOther)
      exact ⟨rfl, rfl⟩

/-- A run does not write over a directory. -/
lemma not_directory (h : Writes store config place bytes) : store.find? place ≠ some .directory := by
  cases h with
  | intro prepared wanted found => exact (Store.names_of_filePlace found).2

lemma ne_root (h : Writes store config place bytes) : place ≠ [] := by
  cases h with
  | intro prepared wanted found => exact Store.ne_root_of_filePlace found

end Writes

/-- A run depends on what it prepares, on where it may write and on how much it may write there, and changes
nothing but what it writes. -/
theorem run_congr (hprepare : prepare now.readText config = prepare store.readText config)
    (hlimits : now.limits = store.limits)
    (hfound : ∀ path ∈ config.output?, now.filePlace path = store.filePlace path) :
    (run now config).1 = (run store config).1 ∧
      ((∀ place bytes, ¬ Writes store config place bytes) ∧ (run now config).2 = now ∨
        ∃ place bytes, Writes store config place bytes ∧
          (run now config).2 = now.set place (.file bytes)) := by
  cases hprepared : (prepare store.readText config).outcome with
  | error e =>
    rw [run_of_prepare_error hprepared, run_of_prepare_error (hprepare ▸ hprepared), hprepare]
    refine ⟨rfl, .inl ⟨?_, rfl⟩⟩
    rintro place bytes ⟨prepared, -, -⟩
    rw [hprepared] at prepared
    cases prepared
  | ok report =>
    have houtput := (exists_generate_of_prepare hprepared).1
    rw [run_of_prepare_ok hprepared, run_of_prepare_ok (hprepare ▸ hprepared), hprepare]
    cases hwanted : config.output? with
    | none =>
      have hnone := houtput.trans hwanted
      rw [Report.save_of_no_output hnone, Report.save_of_no_output hnone]
      refine ⟨rfl, .inl ⟨?_, rfl⟩⟩
      rintro place bytes ⟨-, wanted, -⟩
      rw [hwanted] at wanted
      cases wanted
    | some path =>
      have hsome := houtput.trans hwanted
      have hnow := hfound path hwanted
      cases hplace : store.filePlace path with
      | error fault =>
        rw [Report.save_of_unopened hsome hplace, Report.save_of_unopened hsome (hnow.trans hplace)]
        refine ⟨rfl, .inl ⟨?_, rfl⟩⟩
        rintro place bytes ⟨-, wanted, found⟩
        obtain rfl := Option.some.inj (wanted.symm.trans hwanted)
        rw [hplace] at found
        cases found
      | ok place =>
        obtain ⟨hsaved, hafter⟩ := Report.save_congr hsome hlimits (hnow.trans hplace) hplace
        rw [hsaved]
        exact ⟨rfl, .inr ⟨place, _, .intro hprepared hwanted hplace, hafter⟩⟩

namespace After

lemma start (store : Store) : After store [] store := ⟨rfl, rfl, nofun, fun _ _ => rfl⟩

lemma eq_or_written (h : After store done now) (place : Place) : now.find? place = store.find? place ∨
    ∃ config ∈ done, ∃ bytes, Writes store config place bytes ∧ now.find? place = some (.file bytes) := by
  by_cases hwritten : ∃ config ∈ done, ∃ bytes, Writes store config place bytes
  · obtain ⟨config, hconfig, bytes, hbytes⟩ := hwritten
    exact .inr ⟨config, hconfig, bytes, hbytes, h.written config hconfig place bytes hbytes⟩
  · exact .inl (h.kept place fun config hconfig bytes hbytes => hwritten ⟨config, hconfig, bytes, hbytes⟩)

/-- It does not matter in which order the runs were done, or how often. -/
lemma same {others : List Config} (h : After store done now) (hother : After store others other)
    (hmem : ∀ config, config ∈ done ↔ config ∈ others) : now.Same other := by
  refine ⟨h.workingDir.trans hother.workingDir.symm, h.limits.trans hother.limits.symm, ?_⟩
  intro place
  rcases h.eq_or_written place with hkept | ⟨config, hconfig, bytes, hbytes, hnow⟩
  · rcases hother.eq_or_written place with hkeptOther | ⟨config, hconfig, bytes, hbytes, hthere⟩
    · exact hkept.trans hkeptOther.symm
    · exact (h.written config ((hmem config).mpr hconfig) place bytes hbytes).trans hthere.symm
  · exact hnow.trans (hother.written config ((hmem config).mp hconfig) place bytes hbytes).symm

lemma cons_of_nothing (h : After store done now) (hnothing : ∀ place bytes, ¬ Writes store config place bytes) :
    After store (config :: done) now := by
  refine ⟨h.workingDir, h.limits, ?_, ?_⟩
  · intro writer hwriter place bytes hbytes
    rcases List.mem_cons.mp hwriter with rfl | hwriter
    · exact absurd hbytes (hnothing place bytes)
    · exact h.written writer hwriter place bytes hbytes
  · intro place hplace
    exact h.kept place fun writer hwriter => hplace writer (List.mem_cons_of_mem config hwriter)

/-- One more run may write where others wrote, if they wrote the same. -/
lemma cons_of_writes (h : After store done now) (hbytes : Writes store config place bytes)
    (halike : ∀ writer ∈ done, ∀ content, Writes store writer place content → content = bytes) :
    After store (config :: done) (now.set place (.file bytes)) := by
  have hroot := hbytes.ne_root
  refine ⟨h.workingDir, h.limits, ?_, ?_⟩
  · intro writer hwriter there content hcontent
    rw [Store.find?_set now place there _ hroot]
    rcases List.mem_cons.mp hwriter with rfl | hwriter
    · obtain ⟨rfl, rfl⟩ := hcontent.unique hbytes
      exact if_pos rfl
    · split
      · rename_i hthere
        rw [halike writer hwriter content (hthere ▸ hcontent)]
      · exact h.written writer hwriter there content hcontent
  · intro there hthere
    have hne : there ≠ place := by
      rintro rfl
      exact hthere config List.mem_cons_self bytes hbytes
    rw [Store.find?_set now place there _ hroot, if_neg hne]
    exact h.kept there fun writer hwriter => hthere writer (List.mem_cons_of_mem config hwriter)

end After

namespace Independent

/-- A run writes where its output path leads. -/
lemma exists_output (h : Independent store configs) (hconfig : config ∈ configs)
    (hbytes : Writes store config place bytes) : ∃ path ∈ config.output?, place = store.placeOf path := by
  cases hbytes with
  | @intro _ path _ prepared wanted found =>
    exact ⟨path, wanted, Store.eq_of_filePlace (h.output_plain config hconfig path wanted) found⟩

/-- Runs that write to the same place are the same. -/
lemma eq_of_writes {writer : Config} {content : ByteArray} (h : Independent store configs)
    (hwriter : writer ∈ configs) (hconfig : config ∈ configs) (hcontent : Writes store writer place content)
    (hbytes : Writes store config place bytes) : writer = config := by
  obtain ⟨written, hwritten, rfl⟩ := h.exists_output hwriter hcontent
  obtain ⟨path, hpath, hplace⟩ := h.exists_output hconfig hbytes
  exact h.unshared writer hwriter written hwritten config hconfig path hpath hplace

/-- A place that no output leads to is as it was. -/
lemma find?_eq (h : Independent store configs) (hdone : ∀ config ∈ done, config ∈ configs)
    (hnow : After store done now)
    (hplace : ∀ writer ∈ configs, ∀ written ∈ writer.output?, place ≠ store.placeOf written) :
    now.find? place = store.find? place := by
  refine (hnow.eq_or_written place).resolve_right ?_
  rintro ⟨writer, hwriter, bytes, hbytes, -⟩
  obtain ⟨written, hwritten, hlead⟩ := h.exists_output (hdone writer hwriter) hbytes
  exact hplace writer (hdone writer hwriter) written hwritten hlead

/-- No run finds its input changed by the others. -/
lemma prepare_eq (h : Independent store configs) (hdone : ∀ config ∈ done, config ∈ configs)
    (hnow : After store done now) (hconfig : config ∈ configs) :
    prepare now.readText config = prepare store.readText config := by
  have hread : ∀ path ∈ config.inputs, now.readText path = store.readText path := by
    intro path hpath
    apply Store.readText_congr (h.inputs_plain config hconfig path hpath) hnow.workingDir
    intro above habove
    apply h.find?_eq hdone hnow
    rintro writer hwriter written hwritten rfl
    exact h.unread writer hwriter written hwritten config hconfig path hpath habove
  apply prepare_congr (hread config.schema List.mem_cons_self)
  intro path hpath
  exact hread path (List.mem_cons_of_mem _ (Option.mem_toList.mpr (Config.mem_base?_of_baseToRead? hpath)))

/-- No run finds the way to its output changed, or a directory at its end that was not there. -/
lemma filePlace_eq (h : Independent store configs) (hdone : ∀ config ∈ done, config ∈ configs)
    (hnow : After store done now) (hconfig : config ∈ configs) :
    ∀ path ∈ config.output?, now.filePlace path = store.filePlace path := by
  intro path hpath
  apply Store.filePlace_congr (h.output_plain config hconfig path hpath) hnow.workingDir
  · intro above habove hne
    apply h.find?_eq hdone hnow
    rintro writer hwriter written hwritten rfl
    exact hne (h.not_above writer hwriter written hwritten config hconfig path hpath habove)
  · rcases hnow.eq_or_written (store.placeOf path) with hkept | ⟨writer, hwriter, bytes, hbytes, hfile⟩
    · rw [hkept]
    · simp [hfile, hbytes.not_directory]

/-- A run that comes after others ends as it does on the first store, and adds what it writes there. -/
theorem run_after (h : Independent store configs) (hdone : ∀ config ∈ done, config ∈ configs)
    (hnow : After store done now) (hconfig : config ∈ configs) :
    (run now config).1 = (run store config).1 ∧ After store (config :: done) (run now config).2 := by
  obtain ⟨hends, hstore⟩ := run_congr (h.prepare_eq hdone hnow hconfig) hnow.limits
    (h.filePlace_eq hdone hnow hconfig)
  refine ⟨hends, ?_⟩
  rcases hstore with ⟨hnothing, hstore⟩ | ⟨place, bytes, hbytes, hstore⟩
  · rw [hstore]
    exact hnow.cons_of_nothing hnothing
  · rw [hstore]
    apply hnow.cons_of_writes hbytes
    intro writer hwriter content hcontent
    obtain rfl := h.eq_of_writes (hdone writer hwriter) hconfig hcontent hbytes
    exact (hcontent.unique hbytes).2

/-- Any sequence of the runs, each of which may come up again, ends every run as on the first store. -/
theorem runAll_after (h : Independent store configs) (horder : ∀ config ∈ order, config ∈ configs)
    (hdone : ∀ config ∈ done, config ∈ configs) (hnow : After store done now) :
    (runAll now order).1 = order.map (fun config => (run store config).1) ∧
      After store (order.reverse ++ done) (runAll now order).2 := by
  induction order generalizing done now with
  | nil => exact ⟨rfl, hnow⟩
  | cons config order ih =>
    obtain ⟨hconfig, horder⟩ := List.forall_mem_cons.mp horder
    obtain ⟨hends, hafter⟩ := h.run_after hdone hnow hconfig
    obtain ⟨hlater, hlast⟩ := ih horder (List.forall_mem_cons.mpr ⟨hconfig, hdone⟩) hafter
    rw [List.map_cons, List.reverse_cons, List.append_assoc, ← hends, ← hlater]
    exact ⟨rfl, hlast⟩

/-- To run once more changes nothing at all. -/
lemma run_again (h : Independent store configs) (hconfig : config ∈ configs) :
    run (run store config).2 config = run store config := by
  have hdone : ∀ done ∈ [config], done ∈ configs := List.forall_mem_singleton.mpr hconfig
  have hafter := (h.run_after (List.forall_mem_nil _) (.start store) hconfig).2
  obtain ⟨hends, hagain⟩ := run_congr (h.prepare_eq hdone hafter hconfig) hafter.limits
    (h.filePlace_eq hdone hafter hconfig)
  refine Prod.ext hends ?_
  obtain ⟨-, hfirst⟩ := run_congr (rfl : prepare store.readText config = _) rfl fun path _ => rfl
  rcases hagain with ⟨-, hagain⟩ | ⟨place, bytes, hbytes, hagain⟩
  · exact hagain
  · rcases hfirst with ⟨hnothing, -⟩ | ⟨elsewhere, others, hothers, hfirst⟩
    · exact absurd hbytes (hnothing place bytes)
    · obtain ⟨rfl, rfl⟩ := hbytes.unique hothers
      rw [hagain, hfirst, Store.set, Store.set, Assoc.set_set]

end Independent

/-- Independent runs end as they end when they are run alone on the first store, in whatever order they come
and however often each comes. Which runs there are decides what the store holds in the end, and neither their
order nor how often each comes. -/
theorem runAll_of_independent (h : Independent store configs) :
    (∀ order, (∀ config ∈ order, config ∈ configs) →
      (runAll store order).1 = order.map fun config => (run store config).1) ∧
    (∀ order others, (∀ config ∈ order, config ∈ configs) → (∀ config, config ∈ order ↔ config ∈ others) →
      (runAll store order).2.Same (runAll store others).2) ∧
    ∀ config ∈ configs, run (run store config).2 config = run store config := by
  refine ⟨?_, ?_, fun config => h.run_again⟩
  · intro order horder
    exact (h.runAll_after horder (List.forall_mem_nil _) (.start store)).1
  · intro order others horder hmem
    have hothers : ∀ config ∈ others, config ∈ configs := fun config hconfig =>
      horder config ((hmem config).mpr hconfig)
    refine (h.runAll_after horder (List.forall_mem_nil _) (.start store)).2.same
      (h.runAll_after hothers (List.forall_mem_nil _) (.start store)).2 ?_
    intro config
    simpa using hmem config

theorem runAll_of_independent_two : ∃ store good bad,
    Independent store [good, bad] ∧ (run store bad).1.outcome = .error (.read "gone" .notFound) ∧
      (run store good).2.find? ["w", "o"] ≠ store.find? ["w", "o"] ∧
      (runAll store [good, bad, good]).1 = [(run store good).1, (run store bad).1, (run store good).1] ∧
      (runAll store [good, bad, good]).2.Same (runAll store [bad, good]).2 ∧
      run (run store good).2 good = run store good := by
  let store : Store := {
    entries := [(["w"], .directory), (["w", "s"], .file (Text.toBytes "h\nA X n=0\n"))]
    workingDir := ["w"] }
  let good : Config := { schema := "s", output? := some "o".toList, strategy := .untyped }
  let bad : Config := { schema := "gone", base? := some "b".toList, output? := some "/w/p".toList }
  have h : Independent store [good, bad] := by constructor <;> decide +kernel
  obtain ⟨hends, hsame, hagain⟩ := runAll_of_independent h
  refine ⟨store, good, bad, h, by decide +kernel, by decide +kernel, ?_, ?_, hagain good (by simp)⟩
  · exact hends [good, bad, good] (by simp)
  · exact hsame [good, bad, good] [bad, good] (by simp) (by simp [or_comm])

end DartNodes
