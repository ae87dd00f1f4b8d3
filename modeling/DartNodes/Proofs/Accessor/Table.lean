import DartNodes.Proofs.Accessor.Rule
import DartNodes.Proofs.Assoc
import Mathlib.Data.List.Sort

/-! The table of the accessors that some lines declare: names in the order in which they first come, each
with the type that it has where it comes last. -/
namespace DartNodes

open Accessor (Behind Declares Rule declared? lastType?)

namespace Accessor

lemma Declares.append {front : List Text} {name : Text} (h : Declares front name) (back : List Text) :
    Declares (front ++ back) name := by
  obtain ⟨line, hline, declares⟩ := h
  exact ⟨line, List.mem_append_left back hline, declares⟩

/-- Some first lines declare a name, and do not declare another one. -/
def Precedes (lines : List Text) (name other : Text) : Prop :=
  ∃ front back, lines = front ++ back ∧ Declares front name ∧ ¬ Declares front other

lemma Precedes.append {lines : List Text} {name other : Text} (h : Precedes lines name other)
    (more : List Text) : Precedes (lines ++ more) name other := by
  obtain ⟨front, back, rfl, hname, hother⟩ := h
  exact ⟨front, back ++ more, List.append_assoc .., hname, hother⟩

/-- Of any two beginnings of the same lines, one is a part of the other. -/
lemma Precedes.asymm {lines : List Text} {name other : Text} (h : Precedes lines name other) :
    ¬ Precedes lines other name := by
  obtain ⟨front, back, rfl, hname, hother⟩ := h
  rintro ⟨front', back', heq, hother', hname'⟩
  rcases List.append_eq_append_iff.mp heq with ⟨more, rfl, -⟩ | ⟨more, rfl, -⟩
  · exact hname' (hname.append more)
  · exact hother (hother'.append more)

lemma lastType?_append (front back : List Accessor) (name : Text) :
    lastType? (front ++ back) name = (lastType? back name).or (lastType? front name) := by
  rw [lastType?, List.reverse_append, List.find?_append, Option.map_or, lastType?, lastType?]

/-- The last type of a name is that of the line behind which the name is not declared. -/
theorem lastType?_eq_some {lines : List Text} {name type : Text} :
    lastType? (lines.filterMap declared?) name = some type ↔ ∃ before line after,
      lines = before ++ line :: after ∧ declared? line = some ⟨name, type⟩ ∧ ¬ Declares after name := by
  refine ⟨exists_last_of_lastType?, ?_⟩
  rintro ⟨before, line, after, rfl, hline, hafter⟩
  have hnone : lastType? (after.filterMap declared?) name = none := by
    rwa [← Option.not_isSome_iff_eq_none, isSome_lastType?]
  rw [List.filterMap_append, lastType?_append, lastType?_filterMap_cons, hnone, hline]
  simp

end Accessor

namespace Table

lemma mem_entries_iff (table : Table) {name type : Text} :
    (name, type) ∈ table.entries ↔ table.get? name = some type :=
  (Assoc.lookup_eq_some_iff_mem table.distinct).symm

/-- An order of names is kept if it puts a new name behind those that are there. -/
lemma pairwise_names_insert {table : Table} {name : Text} {r : Text → Text → Prop}
    (h : table.names.Pairwise r) (hnew : name ∉ table.names → ∀ other ∈ table.names, r other name)
    (type : Text) : (table.insert name type).names.Pairwise r := by
  rw [names_insert]
  split
  · exact h
  · rename_i hname
    refine List.pairwise_append.mpr ⟨h, List.pairwise_singleton .., ?_⟩
    intro other hother last hlast
    rw [List.mem_singleton.mp hlast]
    exact hnew hname other hother

/-- A table lists what some lines declare, and nothing else. -/
structure Lists (table : Table) (lines : List Text) : Prop where
  once : table.names.Nodup
  order : table.names.Pairwise (Accessor.Precedes lines)
  /-- A name has the type of the line behind which it is not declared. -/
  mem_iff : ∀ name type, (name, type) ∈ table.entries ↔ ∃ before line after,
    lines = before ++ line :: after ∧ declared? line = some ⟨name, type⟩ ∧ ¬ Declares after name

/-- The table of the accessors on some lines. -/
def ofLines (lines : List Text) : Table :=
  ofPairs ((lines.filterMap declared?).map fun a => (a.name, a.type))

lemma ofLines_concat (lines : List Text) (line : Text) :
    ofLines (lines ++ [line]) = match declared? line with
      | none => ofLines lines
      | some a => (ofLines lines).insert a.name a.type := by
  rw [ofLines, List.filterMap_append, List.map_append, List.filterMap_cons]
  cases declared? line with
  | none => simp [ofLines]
  | some a => exact ofPairs_concat _ a.name a.type

lemma get?_ofLines (lines : List Text) (name : Text) :
    (ofLines lines).get? name = lastType? (lines.filterMap declared?) name :=
  get?_ofPairs _ name

lemma mem_names_ofLines {lines : List Text} {name : Text} :
    name ∈ (ofLines lines).names ↔ Declares lines name := by
  rw [← contains_iff, contains, get?_ofLines, Accessor.isSome_lastType?]

lemma contains_ofLines {lines : List Text} {name : Text} :
    (ofLines lines).contains name = true ↔ Declares lines name := by
  rw [contains_iff, mem_names_ofLines]

/-- A name is added behind those that were declared before it. -/
lemma pairwise_names_ofLines (lines : List Text) :
    (ofLines lines).names.Pairwise (Accessor.Precedes lines) := by
  induction lines using List.reverseRecOn with
  | nil => exact .nil
  | append_singleton lines line ih =>
    have hkept : (ofLines lines).names.Pairwise (Accessor.Precedes (lines ++ [line])) :=
      ih.imp fun h => h.append [line]
    rw [ofLines_concat]
    cases declared? line with
    | none => exact hkept
    | some a =>
      apply pairwise_names_insert hkept
      intro hnew name hname
      exact ⟨lines, [line], rfl, mem_names_ofLines.mp hname, fun h => hnew (mem_names_ofLines.mpr h)⟩

theorem lists_ofLines (lines : List Text) : (ofLines lines).Lists lines where
  once := (ofLines lines).distinct
  order := pairwise_names_ofLines lines
  mem_iff name type := by
    rw [← Accessor.lastType?_eq_some, ← get?_ofLines, mem_entries_iff]

/-- Tables with the same entries are equal if one strict order sorts the names of both. -/
lemma eq_of_pairwise_names {table other : Table} {r : Text → Text → Prop}
    (hr : ∀ name later, r name later → ¬ r later name) (horder : table.names.Pairwise r)
    (hother : other.names.Pairwise r)
    (hmem : ∀ name type, (name, type) ∈ table.entries ↔ (name, type) ∈ other.entries) :
    table = other := by
  let earlier := fun e f : Text × Text => r e.1 f.1
  have hirrefl : Std.Irrefl earlier := ⟨fun e h => hr e.1 e.1 h h⟩
  have hasymm : Std.Asymm earlier := ⟨fun e f => hr e.1 f.1⟩
  have hentries : table.entries = other.entries :=
    (List.pairwise_map.mp horder).eq_of_mem_iff (r := earlier) (List.pairwise_map.mp hother)
      fun (name, type) => hmem name type
  cases table
  cases other
  cases hentries
  rfl

/-- Only one table lists what some lines declare. -/
theorem Lists.unique {table other : Table} {lines : List Text} (h : table.Lists lines)
    (hother : other.Lists lines) : table = other :=
  eq_of_pairwise_names (fun _ _ => Accessor.Precedes.asymm) h.order hother.order
    fun name type => (h.mem_iff name type).trans (hother.mem_iff name type).symm

lemma outcome_recover_of_behind {source marker : Text} {rest : List Text}
    (h : Behind source marker rest) : (recover source marker).outcome = .ok (ofLines rest) := by
  rw [outcome_recover, Accessor.list?_of_behind h]
  rfl

lemma outcome_recover_of_forall_ne {source marker : Text}
    (h : ∀ line ∈ source.lines, line.trim ≠ marker.trim) :
    (recover source marker).outcome = .error ⟨marker⟩ := by
  rw [outcome_recover, Accessor.list?_of_forall_ne h]

/-- A table that is recovered is that of the lines behind the marker line. -/
lemma exists_behind_of_recover {source marker : Text} {table : Table}
    (h : (recover source marker).outcome = .ok table) :
    ∃ rest, Behind source marker rest ∧ table = ofLines rest := by
  rcases Accessor.behind_or_forall_ne source marker with ⟨rest, hrest⟩ | hnone
  · rw [outcome_recover_of_behind hrest] at h
    cases h
    exact ⟨rest, hrest, rfl⟩
  · rw [outcome_recover_of_forall_ne hnone] at h
    cases h

/-- If no line is the marker, this is told. Otherwise the table lists what the lines declare that stand
behind the first marker line, where the rule of accessors alone decides what a line declares. -/
theorem recover_spec (source marker : Text) :
    (∀ line a, declared? line = some a ↔ Rule line.trim a) ∧
    (∀ e, (recover source marker).outcome = .error e ↔
      (∀ line ∈ source.lines, line.trim ≠ marker.trim) ∧ e = ⟨marker⟩) ∧
    ∀ table, (recover source marker).outcome = .ok table ↔
      ∃ rest, Behind source marker rest ∧ table.Lists rest := by
  refine ⟨fun _ _ => Accessor.declared?_eq_some, fun e => ⟨fun h => ?_, ?_⟩, fun table => ⟨fun h => ?_, ?_⟩⟩
  · rcases Accessor.behind_or_forall_ne source marker with ⟨rest, hrest⟩ | hnone
    · rw [outcome_recover_of_behind hrest] at h
      cases h
    · rw [outcome_recover_of_forall_ne hnone] at h
      cases h
      exact ⟨hnone, rfl⟩
  · rintro ⟨hnone, rfl⟩
    exact outcome_recover_of_forall_ne hnone
  · rcases Accessor.behind_or_forall_ne source marker with ⟨rest, hrest⟩ | hnone
    · rw [outcome_recover_of_behind hrest] at h
      cases h
      exact ⟨rest, hrest, lists_ofLines rest⟩
    · rw [outcome_recover_of_forall_ne hnone] at h
      cases h
  · rintro ⟨rest, hrest, hlists⟩
    rw [outcome_recover_of_behind hrest, hlists.unique (lists_ofLines rest)]

end Table
end DartNodes
