import DartNodes.Proofs.Assoc
import DartNodes.Proofs.Outcome
import DartNodes.Proofs.Text.Lines
import DartNodes.Store.Basic

/-! Writing a file: nothing changes but the file that the path names, and the path names it as before. What
the file holds then is all that was to be written, or what its place takes of it. -/
namespace DartNodes.Store

variable {store after : Store} {here place next : Place} {path name : Text} {names : List Text}

/-- A path names a place: reading the path looks there. -/
def Names (store : Store) (path : Text) (place : Place) : Prop :=
  path ≠ [] ∧ store.walk (store.start path) (path.pieces '/') = .ok place

/-- Two stores differ in nothing but the file that a path names, and in the second it holds the bytes. -/
structure Wrote (before : Store) (path : Text) (place : Place) (bytes : ByteArray) (after : Store) :
    Prop where
  named : before.Names path place
  names_after : after.Names path place
  holds : after.find? place = some (.file bytes)
  elsewhere : ∀ other, other ≠ place → after.find? other = before.find? other
  workingDir : after.workingDir = before.workingDir
  limits : after.limits = before.limits

/-- All that a write can come to, and the store after it. -/
inductive WriteEnds (store : Store) (path : Text) (bytes : ByteArray) : Except Fault Unit → Store → Prop
  | unopened {fault} (fails : store.filePlace path = .error fault) :
      WriteEnds store path bytes (.error fault) store
  | whole {place : Place} (opens : store.filePlace path = .ok place)
      (fits : ∀ limit, store.limit? place = some limit → bytes.size ≤ limit.room) :
      WriteEnds store path bytes (.ok ()) (store.set place (.file bytes))
  | part {place : Place} {limit} (opens : store.filePlace path = .ok place)
      (limited : store.limit? place = some limit) (exceeds : limit.room < bytes.size) :
      WriteEnds store path bytes (.error limit.fault)
        (store.set place (.file (bytes.extract 0 limit.room)))

@[simp] lemma walk_nil : store.walk here [] = .ok here := rfl

lemma walk_cons : store.walk here (name :: names) =
    store.enter here name >>= fun next => store.walk next names := List.foldlM_cons ..

lemma walk_append (more : List Text) : store.walk here (names ++ more) =
    store.walk here names >>= fun next => store.walk next more := by
  simp [walk, List.foldlM_append]

/-- Only directories are left behind. -/
lemma find?_of_enter (h : store.enter here name = .ok next) : store.find? here = some .directory := by
  unfold enter at h
  split at h
  · cases h
  · cases h
  · assumption

/-- A directory is entered as before when something else is written. -/
lemma enter_set {entry : Entry} (hplace : place ≠ []) (hne : here ≠ place) :
    (store.set place entry).enter here name = store.enter here name := by
  rw [enter, enter, find?_set store place here entry hplace, if_neg hne]

/-- A walk goes where it went when something is written where no directory stands. -/
theorem walk_set {entry : Entry} (hdir : store.find? place ≠ some .directory)
    (h : store.walk here names = .ok next) : (store.set place entry).walk here names = .ok next := by
  have hplace : place ≠ [] := fun he => hdir (he ▸ find?_root store)
  induction names generalizing here with
  | nil => exact h
  | cons name names ih =>
    rw [walk_cons] at h ⊢
    obtain ⟨inner, henter, hwalk⟩ := Outcome.bind_eq_ok.mp h
    -- Each place on the way is a directory before the writing, so it is not the written place.
    have hne : here ≠ place := fun he => hdir (he ▸ find?_of_enter henter)
    rw [enter_set hplace hne]
    exact Outcome.bind_eq_ok.mpr ⟨inner, henter, ih hwalk⟩

/-- An empty name on the way makes no difference. -/
lemma enter_empty_bind : (store.enter here [] >>= fun next => store.walk next (name :: names)) =
    store.walk here (name :: names) := by
  simp only [walk_cons]
  cases hhere : store.find? here with
  | none => simp [enter, hhere, bind, Except.bind]
  | some entry => cases entry <;> simp [enter, hhere, bind, Except.bind]

lemma walk_filter_append (last : Text) :
    store.walk here (names.filter (· ≠ []) ++ [last]) = store.walk here (names ++ [last]) := by
  induction names generalizing here with
  | nil => rfl
  | cons name names ih =>
    by_cases hname : name = []
    · subst hname
      have hne : names ++ [last] ≠ [] := by simp
      obtain ⟨first, rest, hfirst⟩ := List.exists_cons_of_ne_nil hne
      rw [List.filter_cons_of_neg (by simp), ih, List.cons_append, walk_cons, hfirst, enter_empty_bind]
    · rw [List.filter_cons_of_pos (by simpa using hname), List.cons_append, List.cons_append, walk_cons,
        walk_cons]
      simp only [ih]

lemma exists_final_piece (hpath : path ≠ []) (hslash : path.getLast? ≠ some '/') :
    ∃ front final, path.pieces '/' = front ++ [final] ∧ final ≠ [] := by
  obtain ⟨front, final, hpieces⟩ :=
    (List.eq_nil_or_concat (path.pieces '/')).resolve_left (Text.pieces_ne_nil '/' path)
  rw [List.concat_eq_append] at hpieces
  refine ⟨front, final, hpieces, ?_⟩
  rintro rfl
  exact (Text.getLast?_of_pieces_eq hpieces).elim hpath hslash

/-- What a file can be written to is what its path names, and no directory. -/
theorem names_of_filePlace (h : store.filePlace path = .ok place) :
    store.Names path place ∧ store.find? place ≠ some .directory := by
  unfold filePlace at h
  dsimp only at h
  split at h
  · cases h
  · rename_i last hlast
    obtain ⟨here, hwalk, h⟩ := Outcome.bind_eq_ok.mp h
    obtain ⟨found, henter, h⟩ := Outcome.bind_eq_ok.mp h
    split at h
    · cases h
    · rename_i hfile
      cases h
      obtain ⟨hslash, hdir⟩ := not_or.mp hfile
      have hpath : path ≠ [] := by
        rintro rfl
        cases hlast
      -- The walk of a writer leaves the empty names out, which no walk to a last name tells.
      obtain ⟨front, final, hpieces, hfinal⟩ := exists_final_piece hpath hslash
      have hfilter : (path.pieces '/').filter (· ≠ []) = front.filter (· ≠ []) ++ [final] := by
        simp [hpieces, hfinal]
      rw [hfilter, List.getLast?_concat] at hlast
      rw [hfilter, List.dropLast_concat] at hwalk
      cases hlast
      refine ⟨⟨hpath, ?_⟩, hdir⟩
      rw [hpieces, ← walk_filter_append, walk_append, hwalk]
      exact Outcome.bind_eq_ok.mpr ⟨here, rfl, Outcome.bind_eq_ok.mpr ⟨place, henter, rfl⟩⟩

lemma ne_root_of_filePlace (h : store.filePlace path = .ok place) : place ≠ [] := by
  rintro rfl
  exact (names_of_filePlace h).2 (find?_root store)

/-- A new content of the file that a path names changes nothing else. -/
theorem wrote_of_filePlace (h : store.filePlace path = .ok place) (bytes : ByteArray) :
    store.Wrote path place bytes (store.set place (.file bytes)) := by
  obtain ⟨⟨hpath, hwalk⟩, hdir⟩ := names_of_filePlace h
  have hne := ne_root_of_filePlace h
  refine ⟨⟨hpath, hwalk⟩, ⟨hpath, walk_set hdir hwalk⟩, ?_, fun other hother => ?_,
    workingDir_set store place _, limits_set store place _⟩
  · rw [find?_set store place place _ hne, if_pos rfl]
  · rw [find?_set store place other _ hne, if_neg hother]

/-- To write what is there changes nothing. -/
lemma set_of_find? {entry : Entry} (h : store.find? place = some entry) (hne : place ≠ []) :
    store.set place entry = store := by
  rw [find?, if_neg hne] at h
  rw [set, Assoc.set_of_lookup h]

lemma accept_of_exceeds {limit : Limit} {bytes : ByteArray} (hlimit : store.limit? place = some limit)
    (h : limit.room < bytes.size) :
    store.accept place bytes = (bytes.extract 0 limit.room, .error limit.fault) := by
  rw [accept, hlimit]
  exact if_neg (Nat.not_le_of_lt h)

/-- Opening the file leaves no trace once it is filled. -/
lemma write_of_filePlace (h : store.filePlace path = .ok place) (bytes : ByteArray) :
    store.write path bytes =
      ((store.accept place bytes).2, store.set place (.file (store.accept place bytes).1)) := by
  rw [write, create, h]
  change (_, (store.set place (.file .empty)).set place _) = _
  rw [set, set, Assoc.set_set]
  rfl

lemma write_of_unopened {fault : Fault} (h : store.filePlace path = .error fault) (bytes : ByteArray) :
    store.write path bytes = (.error fault, store) := by
  rw [write, create, h]
  rfl

theorem writeEnds (store : Store) (path : Text) (bytes : ByteArray) :
    WriteEnds store path bytes (store.write path bytes).1 (store.write path bytes).2 := by
  cases hplace : store.filePlace path with
  | error fault =>
    rw [write_of_unopened hplace]
    exact .unopened hplace
  | ok place =>
    rw [write_of_filePlace hplace, accept]
    cases hlimit : store.limit? place with
    | none => exact .whole hplace (by simp [hlimit])
    | some limit =>
      dsimp only
      split
      · rename_i hfits
        exact .whole hplace (by simpa [hlimit] using hfits)
      · rename_i hexceeds
        exact .part hplace hlimit (by omega)

/-- A write that goes through changes the file that the path names, and nothing else. -/
theorem wrote_of_write {bytes : ByteArray} (h : store.write path bytes = (.ok (), after)) :
    ∃ place, store.Wrote path place bytes after := by
  have hends := writeEnds store path bytes
  rw [h] at hends
  generalize hended : (Except.ok () : Except Fault Unit) = ended at hends
  cases hends with
  | unopened | part => cases hended
  | whole opens => exact ⟨_, wrote_of_filePlace opens bytes⟩

lemma read_of_names {bytes : ByteArray} (h : store.Names path place)
    (hfile : store.find? place = some (.file bytes)) : store.read path = .ok bytes := by
  obtain ⟨hpath, hwalk⟩ := h
  rw [read, if_neg hpath, hwalk]
  simp [hfile, bind, Except.bind, pure, Except.pure]

example : (read { entries := [(["d"], .directory), (["d", "f"], .file ⟨#[65]⟩)], workingDir := ["d"] }
    "..//d/f").toOption = some ⟨#[65]⟩ := by decide

end DartNodes.Store
