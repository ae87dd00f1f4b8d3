import DartNodes.Accessor.Printer
import DartNodes.Proofs.Accessor.Table
import DartNodes.Proofs.Text.Lines

/-! Recovering and printing tables: what sources declare is well formed, and what is well formed is
recovered from its print. -/
namespace DartNodes

open Accessor (declared?)

/-- A name and a type that a line can declare. The type breaks off neither its line nor the first ` get `,
and does not make a comment of the line. -/
structure Accessor.WellFormed (a : Accessor) : Prop where
  named : a.name ≠ []
  nameChars : ∀ c ∈ a.name, isNameChar c = true
  typed : a.type ≠ []
  trimmed : a.type.trim = a.type
  oneLine : '\n' ∉ a.type
  unmarked : ¬ " get ".toList <:+: a.type
  code : ¬ "//".toList <+: a.type

/-- All entries of a table, whose names are distinct anyway, can be declared. -/
def Table.WellFormed (table : Table) : Prop :=
  ∀ name type, (name, type) ∈ table.entries → Accessor.WellFormed ⟨name, type⟩

namespace Accessor

lemma Rule.wellFormed {line : Text} {a : Accessor} (h : Rule line a) (hline : '\n' ∉ line)
    (hhead : ∀ c, line.head? = some c → Text.isBlank c = false) : a.WellFormed := by
  cases h with
  | @mk before gap name rest code first blank named run longest =>
    have hpart : before.trim <:+: before := Text.trim_isInfix before
    have hbefore : before <+: line := by
      rw [first.split, List.append_assoc]
      exact List.prefix_append before _
    refine ⟨named, run, trim_ne_nil_of_firstCut hhead first, Text.trim_trim before, ?_, ?_, ?_⟩
    · intro hbreak
      exact hline (hbefore.subset (hpart.subset hbreak))
    · intro hmark
      exact first.not_infix (by decide) (hmark.trans hpart)
    · intro hcomment
      -- The line begins with no blank, so that trimming takes nothing from the front of the type.
      have hstart : before.trimStart = before := by
        apply Text.trimStart_eq_self
        intro c hc
        apply hhead c
        rw [first.split, List.append_assoc, List.head?_append, hc]
        rfl
      have hfront : before.trim <+: before := by
        rw [Text.trim, hstart]
        exact Text.trimEnd_isPrefix before
      exact code ((hcomment.trans hfront).trans hbefore)

lemma wellFormed_of_declared? {line : Text} {a : Accessor} (h : declared? line = some a)
    (hline : '\n' ∉ line) : a.WellFormed := by
  refine (declared?_eq_some.mp h).wellFormed ?_ fun _ => Text.head?_trim
  intro hbreak
  exact hline (Text.mem_of_mem_trim hbreak)

namespace WellFormed

variable {a : Accessor} (h : a.WellFormed)
include h

lemma head?_type {c : Char} (hc : a.type.head? = some c) : Text.isBlank c = false := by
  rw [← h.trimmed] at hc
  exact Text.head?_trim hc

lemma isBlank_of_mem_name {c : Char} (hc : c ∈ a.name) : Text.isBlank c = false :=
  isBlank_of_isNameChar (h.nameChars c hc)

lemma getLast?_accessorLine {c : Char} (hc : (Table.accessorLine (a.name, a.type)).getLast? = some c) :
    Text.isBlank c = false := by
  rw [Table.accessorLine, List.getLast?_append, List.getLast?_eq_some_getLast h.named] at hc
  cases hc
  exact h.isBlank_of_mem_name (List.getLast_mem h.named)

lemma trim_accessorLine :
    (Table.accessorLine (a.name, a.type)).trim = Table.accessorLine (a.name, a.type) := by
  apply Text.trim_eq_self
  · intro c hc
    rw [Table.accessorLine, List.append_assoc, List.head?_append_of_ne_nil _ h.typed] at hc
    exact h.head?_type hc
  · intro c hc
    exact h.getLast?_accessorLine hc

lemma notMem_accessorLine : '\n' ∉ Table.accessorLine (a.name, a.type) := by
  have hname : '\n' ∉ a.name := by
    intro hbreak
    exact absurd (h.isBlank_of_mem_name hbreak) (by decide)
  simp [Table.accessorLine, h.oneLine, hname]

/-- Behind a type that is no comment, the tab does not begin one either. -/
lemma not_comment_accessorLine : ¬ "//".toList <+: Table.accessorLine (a.name, a.type) := by
  intro hcomment
  apply h.code
  obtain ⟨c, type, htype⟩ := List.exists_cons_of_ne_nil h.typed
  rw [Table.accessorLine, htype] at hcomment
  rw [htype]
  cases type with
  | nil => simp at hcomment
  | cons d type => simpa using hcomment

/-- The tab parts the type from the mark, so that the first ` get ` is the one behind it. -/
lemma firstCut_accessorLine :
    Text.FirstCut (Table.accessorLine (a.name, a.type)) " get " (a.type ++ ['\t']) a.name := by
  have hsplit : Table.accessorLine (a.name, a.type) = a.type ++ ['\t'] ++ " get ".toList ++ a.name := by
    simp [Table.accessorLine]
  rw [hsplit]
  exact Text.firstCut_append h.unmarked (by decide) a.name

/-- The line of an accessor declares it. -/
theorem declared?_accessorLine : declared? (Table.accessorLine (a.name, a.type)) = some a := by
  rw [declared?_eq_some, h.trim_accessorLine]
  have hrule := @Rule.mk _ (a.type ++ ['\t']) [] a.name [] h.not_comment_accessorLine
    (by simpa using h.firstCut_accessorLine) (by simp) h.named h.nameChars (by simp)
  have htab : ∀ c ∈ ['\t'], Text.isBlank c = true := List.forall_mem_singleton.mpr (by decide)
  have htype : (a.type ++ ['\t']).trim = a.type := by
    rw [Text.trim_append_blank htab, h.trimmed]
  rwa [htype] at hrule

end WellFormed
end Accessor

namespace Table

/-- The entries of a table make the table. -/
theorem ofPairs_entries (table : Table) : ofPairs table.entries = table := by
  obtain ⟨entries, distinct⟩ := table
  induction entries using List.reverseRecOn with
  | nil => rfl
  | append_singleton entries entry ih =>
    obtain ⟨name, type⟩ := entry
    rw [Assoc.keys, List.map_append, List.nodup_append] at distinct
    obtain ⟨hentries, -, hnew⟩ := distinct
    have hname : name ∉ Assoc.keys entries := by
      intro hold
      exact hnew name hold name (by simp) rfl
    have hrest : ofPairs entries = ⟨entries, hentries⟩ := ih hentries
    rw [ofPairs_concat, hrest]
    simp only [insert, Assoc.set_of_notMem hname]

variable {table : Table}

lemma WellFormed.filterMap_declared? (h : table.WellFormed) :
    (table.entries.map accessorLine).filterMap declared? =
      table.entries.map fun entry => ⟨entry.1, entry.2⟩ := by
  rw [List.filterMap_map, ← List.filterMap_eq_map]
  apply List.filterMap_congr
  intro entry hentry
  exact (h entry.1 entry.2 hentry).declared?_accessorLine

lemma WellFormed.ofLines_accessorLines (h : table.WellFormed) :
    ofLines (table.entries.map accessorLine) = table := by
  rw [ofLines, h.filterMap_declared?, List.map_map]
  exact (congrArg ofPairs (List.map_id table.entries)).trans (ofPairs_entries table)

lemma lines_print (h : table.WellFormed) {marker : Text} (hmarker : '\n' ∉ marker.trim) :
    (print marker table).lines = marker.trim :: table.entries.map accessorLine := by
  apply Text.lines_unlines
  intro line hline
  rcases List.mem_cons.mp hline with rfl | hline
  · refine ⟨hmarker, ?_⟩
    intro hlast
    exact absurd (Text.getLast?_trim hlast) (by decide)
  · obtain ⟨entry, hentry, rfl⟩ := List.mem_map.mp hline
    have hwell := h entry.1 entry.2 hentry
    refine ⟨hwell.notMem_accessorLine, ?_⟩
    intro hlast
    exact absurd (hwell.getLast?_accessorLine hlast) (by decide)

/-- A table is recovered from any source with the lines of its print. -/
theorem recover_of_lines (h : table.WellFormed) {source marker : Text}
    (hlines : source.lines = marker.trim :: table.entries.map accessorLine) :
    (recover source marker).outcome = .ok table := by
  have hbehind : Accessor.Behind source marker (table.entries.map accessorLine) :=
    ⟨[], marker.trim, hlines, Text.trim_trim marker, by simp⟩
  rw [outcome_recover_of_behind hbehind, h.ofLines_accessorLines]

theorem wellFormed_of_recover {source marker : Text}
    (h : (recover source marker).outcome = .ok table) : table.WellFormed := by
  obtain ⟨rest, ⟨front, mark, hlines, -⟩, rfl⟩ := exists_behind_of_recover h
  intro name type hentry
  obtain ⟨before, line, after, rfl, hdeclared, -⟩ := ((lists_ofLines rest).mem_iff name type).mp hentry
  have hline : line ∈ source.lines := by simp [hlines]
  exact Accessor.wellFormed_of_declared? hdeclared (Text.notMem_of_mem_lines hline)

/-- Well-formed tables are exactly what sources declare. Printed, the marker stands on the first line and
each entry on a line of its own, in the same order, and recovering gives all of it back. -/
theorem recover_print_roundTrip :
    (∀ source marker table, (recover source marker).outcome = .ok table → table.WellFormed) ∧
    ∀ (table : Table) (marker : Text), table.WellFormed → '\n' ∉ marker.trim →
      (print marker table).lines = marker.trim :: table.entries.map accessorLine ∧
      (recover (print marker table) marker).outcome = .ok table ∧
      ∀ source : Text, source.lines = marker.trim :: table.entries.map accessorLine →
        (recover source marker).outcome = .ok table := by
  refine ⟨fun _ _ _ => wellFormed_of_recover, ?_⟩
  intro table marker h hmarker
  have hlines := lines_print h hmarker
  exact ⟨hlines, recover_of_lines h hlines, fun source => recover_of_lines h⟩

theorem recover_print_roundTrip_trailing_get :
    (ofPairs [("x", "T get"), ("y", "/ /")]).WellFormed ∧ '\n' ∉ Text.trim " m" ∧
      (recover (print " m" (ofPairs [("x", "T get"), ("y", "/ /")])) " m").outcome =
        .ok (ofPairs [("x", "T get"), ("y", "/ /")]) := by
  have hmarker : '\n' ∉ Text.trim " m" := by decide
  have hentries : (ofPairs [("x", "T get"), ("y", "/ /")]).entries =
      [("x".toList, "T get".toList), ("y".toList, "/ /".toList)] := by decide
  have hwell : (ofPairs [("x", "T get"), ("y", "/ /")]).WellFormed := by
    intro name type hentry
    rw [hentries] at hentry
    rcases List.mem_pair.mp hentry with h | h <;> cases h <;>
      exact ⟨by decide, List.all_eq_true.mp (by decide), by decide, by decide, by decide, by decide,
        by decide⟩
  exact ⟨hwell, hmarker, (recover_print_roundTrip.2 _ _ hwell hmarker).2.1⟩

end Table
end DartNodes
