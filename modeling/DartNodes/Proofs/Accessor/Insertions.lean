import DartNodes.Proofs.Accessor.Table
import Mathlib.Data.List.Perm.Subperm

/-! Insertions into a table. Names stand where they were first inserted, with the type that they were given
last, and tables agree if they give every name the same type. -/
namespace DartNodes.Table

/-- Among some insertions, the last one of a name gives it a type. -/
def LastInserts (inserts : List (Text × Text)) (name type : Text) : Prop :=
  ∃ before after, inserts = before ++ (name, type) :: after ∧ name ∉ after.map Prod.fst

/-- One more insertion counts for its own name, and leaves the others as they are. -/
lemma lastInserts_concat {inserts : List (Text × Text)} {inserted given name type : Text} :
    LastInserts (inserts ++ [(inserted, given)]) name type ↔
      if name = inserted then given = type else LastInserts inserts name type := by
  constructor
  · rintro ⟨before, after, hsplit, hafter⟩
    induction after using List.reverseRecOn with
    | nil =>
      obtain ⟨-, hlast⟩ := List.append_inj' hsplit rfl
      cases hlast
      rw [if_pos rfl]
    | append_singleton after last =>
      rw [← List.cons_append, ← List.append_assoc] at hsplit
      obtain ⟨rfl, hlast⟩ := List.append_inj' hsplit rfl
      cases hlast
      rw [List.map_append, List.mem_append, not_or] at hafter
      have hne : name ≠ inserted := fun he => hafter.2 (List.mem_singleton.mpr he)
      rw [if_neg hne]
      exact ⟨before, after, rfl, hafter.1⟩
  · intro h
    split at h
    · rename_i hname
      subst hname h
      exact ⟨inserts, [], rfl, List.not_mem_nil⟩
    · rename_i hne
      obtain ⟨before, after, rfl, hafter⟩ := h
      refine ⟨before, after ++ [(inserted, given)], by simp, ?_⟩
      simp [hafter, hne]

/-- Of two names that some insertions give types, one comes for the first time before the other does. -/
def InsertedBefore (inserts : List (Text × Text)) (name other : Text) : Prop :=
  (inserts.map Prod.fst).idxOf name < (inserts.map Prod.fst).idxOf other

section
variable {inserts : List (Text × Text)} {name other : Text}

lemma InsertedBefore.append (h : InsertedBefore inserts name other) (hname : name ∈ inserts.map Prod.fst)
    (hother : other ∈ inserts.map Prod.fst) (more : List (Text × Text)) :
    InsertedBefore (inserts ++ more) name other := by
  rw [InsertedBefore, List.map_append, List.idxOf_append_of_mem hname, List.idxOf_append_of_mem hother]
  exact h

lemma insertedBefore_new (hname : name ∈ inserts.map Prod.fst) (hother : other ∉ inserts.map Prod.fst)
    (type : Text) : InsertedBefore (inserts ++ [(other, type)]) name other := by
  have hplace := List.idxOf_lt_length_of_mem hname
  rw [InsertedBefore, List.map_append, List.idxOf_append_of_mem hname, List.idxOf_append_of_notMem hother]
  omega

end

/-- A table holds what some insertions, one after the other, leave in it. -/
structure Holds (table : Table) (inserts : List (Text × Text)) : Prop where
  once : table.names.Nodup
  mem_iff : ∀ name, name ∈ table.names ↔ name ∈ inserts.map Prod.fst
  order : table.names.Pairwise (InsertedBefore inserts)
  last : ∀ name type, table.get? name = some type ↔ LastInserts inserts name type

lemma holds_empty : empty.Holds [] where
  once := List.nodup_nil
  mem_iff _ := Iff.rfl
  order := .nil
  last _ _ := by simp [LastInserts]

/-- An insertion leaves the names that are there in their places, and puts a new name behind them. -/
theorem Holds.insert {table : Table} {inserts : List (Text × Text)} (h : table.Holds inserts)
    (name type : Text) : (table.insert name type).Holds (inserts ++ [(name, type)]) where
  once := (table.insert name type).distinct
  mem_iff other := by
    rw [names_insert, List.map_append, List.mem_append, ← h.mem_iff]
    split
    · rename_i hold
      refine ⟨.inl, ?_⟩
      rintro (hother | hother)
      · exact hother
      · rw [List.mem_singleton.mp hother]
        exact hold
    · exact List.mem_append
  order := by
    apply pairwise_names_insert
    · apply h.order.imp_of_mem
      intro a b ha hb hab
      exact hab.append ((h.mem_iff a).mp ha) ((h.mem_iff b).mp hb) _
    · intro hnew other hother
      have hfresh : name ∉ inserts.map Prod.fst := fun hold => hnew ((h.mem_iff name).mpr hold)
      exact insertedBefore_new ((h.mem_iff other).mp hother) hfresh type
  last other given := by
    rw [get?_insert, lastInserts_concat]
    split
    · exact Option.some_inj
    · exact h.last other given

theorem holds_ofPairs (inserts : List (Text × Text)) : (ofPairs inserts).Holds inserts := by
  induction inserts using List.reverseRecOn with
  | nil => exact holds_empty
  | append_singleton inserts entry ih =>
    rw [ofPairs_concat]
    exact ih.insert entry.1 entry.2

lemma nodup_names (table : Table) : table.names.Nodup := table.distinct

lemma get?_eq_none_iff (table : Table) {name : Text} : table.get? name = none ↔ name ∉ table.names :=
  Assoc.lookup_eq_none_iff name table.entries

/-- Insertions determine the table that holds them. -/
theorem Holds.unique {table other : Table} {inserts : List (Text × Text)} (h : table.Holds inserts)
    (hother : other.Holds inserts) : table = other := by
  refine eq_of_pairwise_names (fun _ _ => Nat.lt_asymm) h.order hother.order fun name type => ?_
  rw [mem_entries_iff, mem_entries_iff, h.last, hother.last]

/-- What is asked of a table is answered from its entries. -/
structure ReadsEntries (table : Table) : Prop where
  get? : ∀ name type, table.get? name = some type ↔ (name, type) ∈ table.entries
  contains : ∀ name, table.contains name = true ↔ name ∈ table.names
  size : table.size = table.names.length
  isEmpty : table.isEmpty = true ↔ table.entries = []

lemma readsEntries (table : Table) : table.ReadsEntries where
  get? _ _ := table.mem_entries_iff.symm
  contains := table.contains_iff
  size := table.length_names.symm
  isEmpty := List.isEmpty_iff

section
variable {s t : Table}

lemma agrees_iff_entries : s.agrees t = true ↔
    s.size = t.size ∧ ∀ name type, s.get? name = some type → t.get? name = some type := by
  rw [agrees, Bool.and_eq_true, decide_eq_true_eq, List.all_eq_true]
  apply and_congr_right
  intro _
  constructor
  · intro h name type hname
    exact of_decide_eq_true (h (name, type) (s.mem_entries_iff.mpr hname))
  · rintro h ⟨name, type⟩ hentry
    exact decide_eq_true (h name type (s.mem_entries_iff.mp hentry))

/-- Distinct names of one table, among as many names of another one, are all of them. -/
lemma perm_names_of_agrees (h : s.agrees t = true) : s.names.Perm t.names := by
  obtain ⟨hsize, hfound⟩ := agrees_iff_entries.mp h
  have hsubset : s.names ⊆ t.names := by
    intro name hname
    rw [← contains_iff, contains, Option.isSome_iff_exists] at hname ⊢
    obtain ⟨type, htype⟩ := hname
    exact ⟨type, hfound name type htype⟩
  apply (s.nodup_names.subperm hsubset).perm_of_length_le
  rw [length_names, length_names, hsize]

/-- Tables agree if and only if no look-up tells them apart, in whatever order their names stand. -/
theorem agrees_iff : s.agrees t = true ↔ ∀ name, s.get? name = t.get? name := by
  constructor
  · intro h name
    cases hname : s.get? name with
    | some type => exact ((agrees_iff_entries.mp h).2 name type hname).symm
    | none =>
      rw [get?_eq_none_iff, (perm_names_of_agrees h).mem_iff, ← get?_eq_none_iff] at hname
      exact hname.symm
  · intro h
    have hperm : s.names.Perm t.names := by
      rw [List.perm_ext_iff_of_nodup s.nodup_names t.nodup_names]
      intro name
      rw [← contains_iff, ← contains_iff, contains, contains, h name]
    refine agrees_iff_entries.mpr ⟨?_, fun name type hname => ?_⟩
    · rw [← length_names, ← length_names, hperm.length_eq]
    · rw [← h name, hname]

example : (ofPairs [("a", "S"), ("b", "T")]).agrees (ofPairs [("b", "T"), ("a", "S")]) := by decide

end

/-- From the empty table on, insertions make the one table that holds them. All that is asked of it is
answered from its entries, and it agrees with the table of other insertions if and only if both give every
name the same type. -/
theorem ofPairs_spec (inserts : List (Text × Text)) :
    (∀ table : Table, table.Holds inserts ↔ table = ofPairs inserts) ∧
    (∀ name, (ofPairs inserts).get? name = none ↔ name ∉ inserts.map Prod.fst) ∧
    (ofPairs inserts).ReadsEntries ∧
    ∀ others, (ofPairs inserts).agrees (ofPairs others) = true ↔
      ∀ name, (ofPairs inserts).get? name = (ofPairs others).get? name := by
  have hholds := holds_ofPairs inserts
  refine ⟨fun table => ⟨fun h => h.unique hholds, ?_⟩, fun name => ?_, readsEntries _, fun others => agrees_iff⟩
  · rintro rfl
    exact hholds
  · rw [get?_eq_none_iff, hholds.mem_iff]

end DartNodes.Table
