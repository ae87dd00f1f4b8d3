import DartNodes.Accessor.Scan
import DartNodes.Proofs.Text.Trim
import Mathlib.Data.List.Induction
import Mathlib.Data.List.TakeWhile
import Mathlib.Tactic.Lemma

/-! The accessors behind the marker line, and the table that they make: of several accessors of a name
the last one counts. -/
namespace DartNodes

namespace Accessor

/-- Some lines are those behind the first line of a source that is the marker, blanks at the ends of
both aside. -/
def Behind (source marker : Text) (rest : List Text) : Prop :=
  ∃ before line, source.lines = before ++ line :: rest ∧ line.trim = marker.trim ∧
    ∀ l ∈ before, l.trim ≠ marker.trim

/-- The accessor that a line declares, blanks at its ends aside. -/
def declared? (line : Text) : Option Accessor := ofLine? line.trim

/-- A line holds the type that it declares. -/
lemma mem_of_declared? {line : Text} {a : Accessor} (h : declared? line = some a) {c : Char}
    (hc : c ∈ a.type) : c ∈ line := by
  unfold declared? ofLine? at h
  split at h
  · cases h
  · split at h
    · cases h
    · rename_i before after hcut
      dsimp only at h
      split at h
      · cases h
      · cases h
        have hbefore : c ∈ before := Text.mem_of_mem_trim hc
        refine Text.mem_of_mem_trim ?_
        rw [Text.eq_of_cut? hcut, List.append_assoc]
        exact List.mem_append_left _ hbefore

/-- Some line declares an accessor of the name. -/
def Declares (lines : List Text) (name : Text) : Prop :=
  ∃ line ∈ lines, ∃ type, declared? line = some ⟨name, type⟩

lemma linesAfter?_append {marker : Text} {before : List Text} (h : marker ∉ before)
    (rest : List Text) : linesAfter? marker (before ++ marker :: rest) = some rest := by
  have hbefore : ∀ l ∈ before, decide (l ≠ marker) = true := by
    intro l hl
    exact decide_eq_true fun he => h (he ▸ hl)
  rw [linesAfter?, List.dropWhile_append_of_pos hbefore]
  simp

lemma linesAfter?_of_notMem {marker : Text} {lines : List Text} (h : marker ∉ lines) :
    linesAfter? marker lines = none := by
  have hnil : lines.dropWhile (· ≠ marker) = [] := by
    rw [List.dropWhile_eq_nil_iff]
    intro l hl
    exact decide_eq_true fun he => h (he ▸ hl)
  rw [linesAfter?, hnil]

theorem list?_of_behind {source marker : Text} {rest : List Text} (h : Behind source marker rest) :
    list? source marker = some (rest.filterMap declared?) := by
  obtain ⟨before, line, hlines, hline, hbefore⟩ := h
  have hmap : source.lines.map Text.trim =
      before.map Text.trim ++ marker.trim :: rest.map Text.trim := by
    rw [hlines, List.map_append, List.map_cons, hline]
  have hnot : marker.trim ∉ before.map Text.trim := by
    intro hm
    obtain ⟨l, hl, he⟩ := List.mem_map.mp hm
    exact hbefore l hl he
  rw [list?, hmap, linesAfter?_append hnot, Option.map_some, List.filterMap_map]
  rfl

theorem list?_of_forall_ne {source marker : Text} (h : ∀ l ∈ source.lines, l.trim ≠ marker.trim) :
    list? source marker = none := by
  have hnot : marker.trim ∉ source.lines.map Text.trim := by
    intro hm
    obtain ⟨l, hl, he⟩ := List.mem_map.mp hm
    exact h l hl he
  rw [list?, linesAfter?_of_notMem hnot, Option.map_none]

lemma exists_behind {source marker line : Text} (hline : line ∈ source.lines)
    (h : line.trim = marker.trim) : ∃ rest, Behind source marker rest := by
  have hm : marker.trim ∈ source.lines.map Text.trim := List.mem_map.mpr ⟨line, hline, h⟩
  obtain ⟨before, rest, hlines, hnot⟩ := List.eq_append_cons_of_mem hm
  obtain ⟨front, back, hsource, rfl, hback⟩ := List.map_eq_append_iff.mp hlines
  obtain ⟨first, tail, rfl, hfirst, rfl⟩ := List.map_eq_cons_iff.mp hback
  exact ⟨tail, front, first, hsource, hfirst, fun l hl he => hnot (he ▸ List.mem_map_of_mem hl)⟩

/-- Either there is a marker line or there is none. -/
theorem behind_or_forall_ne (source marker : Text) :
    (∃ rest, Behind source marker rest) ∨ ∀ l ∈ source.lines, l.trim ≠ marker.trim := by
  by_cases h : ∃ l ∈ source.lines, l.trim = marker.trim
  · obtain ⟨l, hl, he⟩ := h
    exact .inl (exists_behind hl he)
  · exact .inr fun l hl he => h ⟨l, hl, he⟩

lemma Behind.not_forall_ne {source marker : Text} {rest : List Text} (h : Behind source marker rest) :
    ¬ ∀ l ∈ source.lines, l.trim ≠ marker.trim := by
  obtain ⟨before, line, hlines, hline, -⟩ := h
  intro hall
  exact hall line (by rw [hlines]; simp) hline

/-- The type that the last of some accessors of a name has. -/
def lastType? (accessors : List Accessor) (name : Text) : Option Text :=
  (accessors.reverse.find? (·.name = name)).map Accessor.type

lemma lastType?_concat (accessors : List Accessor) (a : Accessor) (name : Text) :
    lastType? (accessors ++ [a]) name =
      if name = a.name then some a.type else lastType? accessors name := by
  rw [lastType?, List.reverse_append, List.reverse_singleton, List.singleton_append]
  by_cases h : a.name = name
  · simp [h]
  · rw [List.find?_cons_of_neg (by simpa using h), if_neg (Ne.symm h), lastType?]

lemma lastType?_cons (a : Accessor) (accessors : List Accessor) (name : Text) :
    lastType? (a :: accessors) name =
      (lastType? accessors name).or (if name = a.name then some a.type else none) := by
  rw [lastType?, List.reverse_cons, List.find?_append, Option.map_or]
  by_cases h : a.name = name
  · simp [lastType?, h]
  · simp [lastType?, h, Ne.symm h]

/-- A later line counts before the first one. -/
lemma lastType?_filterMap_cons (line : Text) (rest : List Text) (name : Text) :
    lastType? ((line :: rest).filterMap declared?) name =
      (lastType? (rest.filterMap declared?) name).or
        ((declared? line).bind fun a => if name = a.name then some a.type else none) := by
  rw [List.filterMap_cons]
  cases declared? line with
  | none => rw [Option.bind_none, Option.or_none]
  | some a => rw [lastType?_cons, Option.bind_some]

theorem isSome_lastType? {lines : List Text} {name : Text} :
    (lastType? (lines.filterMap declared?) name).isSome ↔ Declares lines name := by
  simp only [lastType?, Option.isSome_map, List.find?_isSome, List.mem_reverse, List.mem_filterMap,
    decide_eq_true_eq, Declares]
  constructor
  · rintro ⟨⟨_, type⟩, ⟨line, hline, hdeclared⟩, rfl⟩
    exact ⟨line, hline, type, hdeclared⟩
  · rintro ⟨line, hline, type, hdeclared⟩
    exact ⟨⟨name, type⟩, ⟨line, hline, hdeclared⟩, rfl⟩

/-- The last type of a name stands on a line behind which the name is not declared. -/
theorem exists_last_of_lastType? {lines : List Text} {name type : Text}
    (h : lastType? (lines.filterMap declared?) name = some type) : ∃ before line after,
      lines = before ++ line :: after ∧ declared? line = some ⟨name, type⟩ ∧ ¬ Declares after name := by
  induction lines with
  | nil => cases h
  | cons line rest ih =>
    rw [lastType?_filterMap_cons] at h
    cases hrest : lastType? (rest.filterMap declared?) name with
    | some found =>
      rw [hrest, Option.some_or] at h
      obtain ⟨before, last, after, rfl, hdeclared, hafter⟩ := ih (hrest.trans h)
      exact ⟨line :: before, last, after, rfl, hdeclared, hafter⟩
    | none =>
      have hlater : ¬ Declares rest name := by
        rw [← isSome_lastType?, hrest]
        exact Bool.false_ne_true
      rw [hrest, Option.none_or, Option.bind_eq_some_iff] at h
      obtain ⟨a, hline, ha⟩ := h
      rw [Option.ite_none_right_eq_some] at ha
      obtain ⟨rfl, ⟨⟩⟩ := ha
      exact ⟨[], line, rest, rfl, hline, hlater⟩

end Accessor

lemma Table.ofPairs_concat (pairs : List (Text × Text)) (name type : Text) :
    ofPairs (pairs ++ [(name, type)]) = (ofPairs pairs).insert name type :=
  List.foldl_append

/-- The table of some accessors gives a name the type of its last accessor. -/
theorem Table.get?_ofPairs (accessors : List Accessor) (name : Text) :
    (ofPairs (accessors.map fun a => (a.name, a.type))).get? name =
      Accessor.lastType? accessors name := by
  induction accessors using List.reverseRecOn with
  | nil => rfl
  | append_singleton accessors a ih =>
    rw [Accessor.lastType?_concat, ← ih, List.map_append, List.map_singleton, ofPairs_concat,
      get?_insert]

theorem Table.outcome_recover (source marker : Text) :
    (recover source marker).outcome =
      match Accessor.list? source marker with
      | none => .error ⟨marker⟩
      | some accessors => .ok (ofPairs (accessors.map fun a => (a.name, a.type))) := by
  unfold recover
  cases Accessor.list? source marker <;> rfl

end DartNodes
