import DartNodes.Proofs.Accessor.Insertions

/-! An accessor on the marker line itself. Recovering begins behind that line, and so it loses the accessor
unless its name is declared again. -/
namespace DartNodes

open Accessor (Declares declared? lastType?)

namespace Accessor

/-- The first line of a source that is the marker, blanks at the ends of both aside, and the lines
behind it. -/
def Opens (source marker line : Text) (rest : List Text) : Prop :=
  ∃ before, source.lines = before ++ line :: rest ∧ line.trim = marker.trim ∧
    ∀ l ∈ before, l.trim ≠ marker.trim

variable {source marker line : Text} {rest : List Text} (h : Opens source marker line rest)
include h

lemma Opens.behind : Behind source marker rest := by
  obtain ⟨before, hlines, hline, hbefore⟩ := h
  exact ⟨before, line, hlines, hline, hbefore⟩

/-- What the marker line declares does not depend on the source. -/
lemma Opens.declared?_eq : declared? line = declared? marker := by
  obtain ⟨-, -, hline, -⟩ := h
  rw [declared?, declared?, hline]

end Accessor

namespace Table

open Accessor (Opens)

/-- A line in front of others adds to their table if it declares a name that they do not declare. -/
theorem agrees_ofLines_cons {line : Text} {rest : List Text} :
    (ofLines rest).agrees (ofLines (line :: rest)) = true ↔
      ∀ a, declared? line = some a → Declares rest a.name := by
  simp only [agrees_iff, get?_ofLines, Accessor.lastType?_filterMap_cons]
  constructor
  · intro h a ha
    have hname := h a.name
    rw [ha, Option.bind_some, if_pos rfl] at hname
    rw [← Accessor.isSome_lastType?, hname, Option.isSome_or, Option.isSome_some, Bool.or_true]
  · intro h name
    cases hline : declared? line with
    | none => rw [Option.bind_none, Option.or_none]
    | some a =>
      rw [Option.bind_some]
      split
      · rename_i hname
        obtain ⟨type, htype⟩ := Option.isSome_iff_exists.mp (Accessor.isSome_lastType?.mpr (h a hline))
        rw [hname, htype, Option.some_or]
      · rw [Option.or_none]

/-- The table that is recovered has the names that are declared behind the marker line. It agrees with that
of the marker line and all lines behind it if and only if the marker is no accessor, or one whose name is
declared again behind it. -/
theorem recover_agrees_from_marker_iff {source marker line : Text} {rest : List Text}
    (h : Opens source marker line rest) : ∃ table, (recover source marker).outcome = .ok table ∧
      (∀ name, table.contains name = true ↔ Declares rest name) ∧
      (table.agrees (ofLines (line :: rest)) = true ↔
        ∀ a, declared? marker = some a → Declares rest a.name) := by
  refine ⟨ofLines rest, outcome_recover_of_behind h.behind, fun _ => contains_ofLines, ?_⟩
  rw [agrees_ofLines_cons, h.declared?_eq]

/-- The marker declares `x`, and so does a line behind it. -/
theorem recover_agrees_from_marker_iff_again :
    Opens " T get x;\nU get x" "T get x;" " T get x;" ["U get x"] ∧
      ∃ table, (recover " T get x;\nU get x" "T get x;").outcome = .ok table ∧
        (∀ name, table.contains name = true ↔ Declares ["U get x"] name) ∧
        (table.agrees (ofLines [" T get x;", "U get x"]) = true ↔
          ∀ a, declared? "T get x;" = some a → Declares ["U get x"] a.name) := by
  have hopens : Opens " T get x;\nU get x" "T get x;" " T get x;" ["U get x"] :=
    ⟨[], by decide, by decide, by decide⟩
  exact ⟨hopens, recover_agrees_from_marker_iff hopens⟩

/-- The first accessor of a class may open it, and then it is lost. -/
theorem not_recover_agrees_from_marker :
    ¬ ∀ source marker line rest, Opens source marker line rest →
      ∃ table, (recover source marker).outcome = .ok table ∧
        table.agrees (ofLines (line :: rest)) = true := by
  intro h
  have hopens : Opens "class ASTNode \x7b\n  AST get self => this;\n  String get value;\n\x7d\n"
      "AST get self => this;" "  AST get self => this;" ["  String get value;", "\x7d"] :=
    ⟨["class ASTNode \x7b"], by decide, by decide, by decide⟩
  obtain ⟨table, htable, hagrees⟩ := h _ _ _ _ hopens
  rw [outcome_recover_of_behind hopens.behind] at htable
  cases htable
  exact absurd hagrees (by decide)

end Table
end DartNodes
