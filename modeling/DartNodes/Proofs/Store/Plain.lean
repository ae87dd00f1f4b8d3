import DartNodes.Proofs.Store.Write

/-! Plain paths lead straight down, and where they lead depends on nothing but the places on their way. -/
namespace DartNodes.Store

/-- The names that a path goes through from where it starts. -/
def namesOf (path : Text) : List Text :=
  Text.pieces '/' (if path.head? = some '/' then path.tail else path)

/-- The name is neither empty nor one of those that lead nowhere or back. -/
def PlainName (name : Text) : Prop := name ≠ [] ∧ name ≠ "." ∧ name ≠ ".."

def Plain (path : Text) : Prop := ∀ name ∈ namesOf path, PlainName name

instance (name : Text) : Decidable (PlainName name) :=
  inferInstanceAs (Decidable (name ≠ [] ∧ name ≠ "." ∧ name ≠ ".."))

instance (path : Text) : Decidable (Plain path) :=
  inferInstanceAs (Decidable (∀ name ∈ namesOf path, PlainName name))

variable {store now : Store} {here next place : Place} {path name : Text} {names : List Text}

lemma pieces_eq (path : Text) : path.pieces '/' = namesOf path ∨
    path.head? = some '/' ∧ path.pieces '/' = [] :: namesOf path := by
  cases path with
  | nil => exact .inl rfl
  | cons c t =>
    by_cases hc : c = '/'
    · right
      rw [hc, namesOf, List.head?_cons, if_pos rfl, Text.pieces_cons, if_pos rfl]
      exact ⟨rfl, rfl⟩
    · left
      rw [namesOf, List.head?_cons, if_neg (by simpa using hc)]

lemma Plain.filter_pieces (h : Plain path) : (path.pieces '/').filter (· ≠ []) = namesOf path := by
  have hnames : (namesOf path).filter (· ≠ []) = namesOf path := by
    rw [List.filter_eq_self]
    intro name hname
    simpa using (h name hname).1
  rcases pieces_eq path with hpieces | ⟨-, hpieces⟩
  · rw [hpieces, hnames]
  · rw [hpieces, List.filter_cons_of_neg (by simp), hnames]

/-- A plain path does not end in `/`. -/
lemma Plain.getLast?_ne (h : Plain path) : path.getLast? ≠ some '/' := by
  intro hlast
  obtain ⟨front, rfl⟩ := List.getLast?_eq_some_iff.mp hlast
  have hempty : [] ∈ namesOf (front ++ ['/']) := by
    cases front with
    | nil => decide
    | cons c t =>
      rw [namesOf]
      split
      · exact Text.pieces_concat '/' t ▸ List.mem_concat_self
      · exact Text.pieces_concat '/' (c :: t) ▸ List.mem_concat_self
  exact (h [] hempty).1 rfl

/-- Where a path leads if all its names lead on. -/
def placeOf (store : Store) (path : Text) : Place := store.start path ++ namesOf path

/-- Of paths that do not start with `/`, the names alone tell which one leads above the other. -/
lemma placeOf_prefix_iff {other : Text} (h : path.head? ≠ some '/') (hother : other.head? ≠ some '/') :
    store.placeOf path <+: store.placeOf other ↔ namesOf path <+: namesOf other := by
  rw [placeOf, placeOf, start, start, if_neg h, if_neg hother, List.prefix_append_right_inj]

/-- Two stores hold the same at all places above a place. -/
def AgreeAbove (now store : Store) (place : Place) : Prop :=
  ∀ above, above <+: place → above ≠ place → now.find? above = store.find? above

lemma enter_congr (h : now.find? here = store.find? here) (name : Text) :
    now.enter here name = store.enter here name := by
  rw [enter, enter, h]

lemma eq_of_enter (hname : PlainName name) (h : store.enter here name = .ok next) :
    next = here ++ [name] := by
  obtain ⟨hempty, hdot, hdots⟩ := hname
  rw [enter, find?_of_enter h] at h
  simp only [hempty, hdot, hdots, or_self, if_false, Except.ok.injEq] at h
  exact h.symm

lemma eq_of_walk (hnames : ∀ name ∈ names, PlainName name)
    (h : store.walk here names = .ok next) : next = here ++ names := by
  induction names generalizing here with
  | nil => rw [List.append_nil, ← Except.ok.inj h]
  | cons name names ih =>
    rw [walk_cons] at h
    obtain ⟨inner, henter, hwalk⟩ := Outcome.bind_eq_ok.mp h
    obtain ⟨hname, hnames⟩ := List.forall_mem_cons.mp hnames
    rw [ih hnames hwalk, eq_of_enter hname henter, List.append_assoc, List.singleton_append]

/-- On a walk straight down only the places that are left are looked at. -/
theorem walk_congr (hnames : ∀ name ∈ names, PlainName name)
    (h : AgreeAbove now store (here ++ names)) : now.walk here names = store.walk here names := by
  induction names generalizing here with
  | nil => rfl
  | cons name names ih =>
    obtain ⟨hname, hnames⟩ := List.forall_mem_cons.mp hnames
    have hhere : now.find? here = store.find? here := h here (List.prefix_append _ _) (by simp)
    rw [walk_cons, walk_cons, enter_congr hhere]
    cases henter : store.enter here name with
    | error fault => rfl
    | ok next =>
      have hdown : here ++ name :: names = next ++ names := by
        rw [eq_of_enter hname henter, List.append_assoc, List.singleton_append]
      exact ih hnames (hdown ▸ h)

lemma start_congr (h : now.workingDir = store.workingDir) (path : Text) :
    now.start path = store.start path := by
  rw [start, start, h]

lemma walk_pieces (store : Store) (path : Text) : store.walk (store.start path) (path.pieces '/') =
    store.walk (store.start path) (namesOf path) := by
  rcases pieces_eq path with hpieces | ⟨hhead, hpieces⟩
  · rw [hpieces]
  -- The empty piece in front of the first `/` stays at the root.
  · rw [hpieces, walk_cons, start, if_pos hhead]
    rfl

/-- What is read at a plain path depends on nothing but what is on the way, and at its end. -/
theorem readText_congr (hplain : Plain path) (hdir : now.workingDir = store.workingDir)
    (h : ∀ above, above <+: store.placeOf path → now.find? above = store.find? above) :
    now.readText path = store.readText path := by
  have habove : AgreeAbove now store (store.start path ++ namesOf path) := fun above hpre _ => h above hpre
  have hread : now.read path = store.read path := by
    rw [read, read, walk_pieces, walk_pieces, start_congr hdir, walk_congr hplain habove]
    cases hwalk : store.walk (store.start path) (namesOf path) with
    | error fault => rfl
    | ok place =>
      obtain rfl := eq_of_walk hplain hwalk
      have hplace := h _ List.prefix_rfl
      rw [placeOf] at hplace
      simp only [bind, Except.bind, hplace]
  rw [readText, readText, hread]

/-- A file can be written at the end of a plain path, unless a directory is there. -/
lemma filePlace_of_plain (hplain : Plain path) : store.filePlace path =
    (store.walk (store.start path) (namesOf path) >>= fun place =>
      if store.find? place = some .directory then .error .isADirectory else .ok place) := by
  obtain ⟨front, last, hnames⟩ := (List.eq_nil_or_concat (namesOf path)).resolve_left
    (Text.pieces_ne_nil '/' _)
  rw [List.concat_eq_append] at hnames
  rw [filePlace, hplain.filter_pieces, hnames, walk_append]
  simp only [List.getLast?_concat, List.dropLast_concat, walk_cons, hplain.getLast?_ne, false_or]
  cases store.walk (store.start path) front with
  | error fault => rfl
  | ok here =>
    change (store.enter here last >>= _) = ((store.enter here last >>= fun next => store.walk next []) >>= _)
    cases store.enter here last with
    | error fault => rfl
    | ok place =>
      change (if _ then _ else _) = (if _ then _ else _)
      split <;> rfl

lemma eq_of_filePlace (hplain : Plain path) (h : store.filePlace path = .ok place) :
    place = store.placeOf path := by
  rw [filePlace_of_plain hplain] at h
  obtain ⟨found, hwalk, hfile⟩ := Outcome.bind_eq_ok.mp h
  split at hfile
  · cases hfile
  · cases hfile
    exact eq_of_walk hplain hwalk

/-- Whether a plain path can be written to depends on nothing but what is on the way, and on whether it
leads to a directory. -/
theorem filePlace_congr (hplain : Plain path) (hdir : now.workingDir = store.workingDir)
    (habove : AgreeAbove now store (store.placeOf path))
    (hend : now.find? (store.placeOf path) = some .directory ↔
      store.find? (store.placeOf path) = some .directory) :
    now.filePlace path = store.filePlace path := by
  rw [filePlace_of_plain hplain, filePlace_of_plain hplain, start_congr hdir, walk_congr hplain habove]
  cases hwalk : store.walk (store.start path) (namesOf path) with
  | error fault => rfl
  | ok place =>
    obtain rfl := eq_of_walk hplain hwalk
    simp only [bind, Except.bind]
    rw [placeOf] at hend
    simp only [hend]

end DartNodes.Store
