import DartNodes.Proofs.Output.Dispatch
import DartNodes.Proofs.Schema.Grammar

/-! A schema with one more line. The kinds of the other lines stay what they are, and those behind the new
line move down by one. -/
namespace DartNodes

namespace Kind

/-- The same kind, declared one line further down. -/
def below (kind : Kind) : Kind := kind.onLine (kind.line + 1)

lemma map_names_below (kinds : List Kind) : (kinds.map below).map names = kinds.map names := by
  rw [List.map_map]
  rfl

theorem declaredBy_iff {kind : Kind} {line : Text} {number : Nat} :
    kind.DeclaredBy (line, number) ↔ ofLine number line = .ok (some kind) := by
  rw [ofLine_eq_some]
  constructor
  · rintro ⟨wellFormed, here, words, hwords, spells⟩
    refine ⟨wellFormed, here, ?_⟩
    rw [Text.tokens, Text.hasWords_iff.mp hwords, spells]
  · rintro ⟨wellFormed, here, spells⟩
    exact ⟨wellFormed, here, line.words, Text.hasWords_iff.mpr rfl, spells⟩

lemma ofLine_ne_none {line : Text} (hline : ¬ line.Blank) (number : Nat) :
    ofLine number line ≠ .ok none := by
  rw [ne_eq, ofLine_eq_none, Text.tokens, List.map_eq_nil_iff, Text.words_eq_nil]
  exact hline

/-- A line that is not blank declares a kind exactly if it is a record. -/
theorem exists_declaredBy {line : Text} (hline : ¬ line.Blank) (number : Nat) :
    (∃ kind : Kind, kind.DeclaredBy (line, number)) ↔ IsRecord line := by
  simp only [declaredBy_iff]
  rw [← or_iff_right (b := IsRecord line) hline, ← exists_ofLine_eq_ok number]
  constructor
  · rintro ⟨kind, hkind⟩
    exact ⟨some kind, hkind⟩
  · rintro ⟨_ | kind, hfound⟩
    · exact absurd hfound (ofLine_ne_none hline number)
    · exact ⟨kind, hfound⟩

lemma DeclaredBy.unique {kind other : Kind} {numbered : Text × Nat} (h : kind.DeclaredBy numbered)
    (hother : other.DeclaredBy numbered) : kind = other := by
  have hsame := (declaredBy_iff.mp h).symm.trans (declaredBy_iff.mp hother)
  cases hsame
  rfl

end Kind

namespace Schema
namespace Reads

variable {number : Nat} {lines front back : List Text} {kinds before after : List Kind}

/-- Lines are read one after the other. -/
theorem append_iff : Reads number (front ++ back) kinds ↔ ∃ before after, kinds = before ++ after ∧
    Reads number front before ∧ Reads (number + front.length) back after := by
  constructor
  · intro h
    induction front generalizing number kinds with
    | nil => exact ⟨[], kinds, rfl, .nil, h⟩
    | cons line front ih =>
      rw [List.length_cons, Nat.add_comm front.length, ← Nat.add_assoc]
      cases h with
      | blank empty tail =>
        obtain ⟨before, after, rfl, hfront, hback⟩ := ih tail
        exact ⟨before, after, rfl, .blank empty hfront, hback⟩
      | @record _ _ _ kind _ wellFormed here spells tail =>
        obtain ⟨before, after, rfl, hfront, hback⟩ := ih tail
        exact ⟨kind :: before, after, rfl, .record wellFormed here spells hfront, hback⟩
  · rintro ⟨before, after, rfl, hfront, hback⟩
    induction hfront with
    | nil => exact hback
    | blank empty tail ih =>
      rw [List.length_cons, Nat.add_comm (List.length _), ← Nat.add_assoc] at hback
      exact .blank empty (ih hback)
    | record wellFormed here spells tail ih =>
      rw [List.length_cons, Nat.add_comm (List.length _), ← Nat.add_assoc] at hback
      exact .record wellFormed here spells (ih hback)

lemma line_lt (h : Reads number lines kinds) : ∀ kind ∈ kinds, kind.line < number + lines.length := by
  induction h with
  | nil => simp
  | blank empty tail ih =>
    intro kind hkind
    have := ih kind hkind
    rw [List.length_cons]
    omega
  | record wellFormed here spells tail ih =>
    intro kind hkind
    rw [List.length_cons]
    rcases List.mem_cons.mp hkind with rfl | hkind
    · omega
    · have := ih kind hkind
      omega

lemma map_below (h : Reads number lines kinds) : Reads (number + 1) lines (kinds.map Kind.below) := by
  induction h with
  | nil => exact .nil
  | blank empty tail ih => exact .blank empty ih
  | @record number line rest kind kinds wellFormed here spells tail ih =>
    exact .record (wellFormed.onLine _) (congrArg (· + 1) here) spells ih

lemma unique {others : List Kind} (h : Reads number lines kinds) (hothers : Reads number lines others) :
    kinds = others := by
  have hsame := (readKinds_eq_ok.mpr h).symm.trans (readKinds_eq_ok.mpr hothers)
  cases hsame
  rfl

lemma cons_iff {line : Text} (hline : ¬ line.Blank) : Reads number (line :: lines) kinds ↔
    ∃ kind rest, kinds = kind :: rest ∧ kind.DeclaredBy (line, number) ∧ Reads (number + 1) lines rest := by
  constructor
  · intro h
    cases h with
    | blank empty tail => exact absurd (Kind.ofLine_eq_none.mpr empty) (Kind.ofLine_ne_none hline number)
    | @record _ _ _ kind rest wellFormed here spells tail =>
      exact ⟨kind, rest, rfl, Kind.declaredBy_iff.mpr (Kind.ofLine_eq_some.mpr ⟨wellFormed, here, spells⟩), tail⟩
  · rintro ⟨kind, rest, rfl, hkind, htail⟩
    obtain ⟨wellFormed, here, spells⟩ := Kind.ofLine_eq_some.mp (Kind.declaredBy_iff.mp hkind)
    exact .record wellFormed here spells htail

/-- With one more line, one more kind is declared, or nothing is read at all. -/
theorem insert_iff {line : Text} (hline : ¬ line.Blank) (hfront : Reads number front before)
    (hback : Reads (number + front.length) back after) :
    Reads number (front ++ line :: back) kinds ↔ ∃ kind : Kind,
      kind.DeclaredBy (line, number + front.length) ∧ kinds = before ++ kind :: after.map Kind.below := by
  rw [append_iff]
  constructor
  · rintro ⟨found, rest, rfl, hfound, hrest⟩
    obtain ⟨kind, later, rfl, hkind, hlater⟩ := (cons_iff hline).mp hrest
    refine ⟨kind, hkind, ?_⟩
    rw [hfound.unique hfront, hlater.unique hback.map_below]
  · rintro ⟨kind, hkind, rfl⟩
    exact ⟨before, _, rfl, hfront, (cons_iff hline).mpr ⟨kind, _, rfl, hkind, hback.map_below⟩⟩

end Reads

/-- One more kind is distinct from the others if its names are new. -/
lemma distinct_insert {before after : List Kind} {kind : Kind} :
    Distinct (before ++ kind :: after.map Kind.below) ↔
      Unseen (before ++ after) kind ∧ Distinct (before ++ after) := by
  have hperm : ((before ++ kind :: after.map Kind.below).map Kind.names).Perm
      ((kind :: (before ++ after)).map Kind.names) := by
    rw [List.map_append, List.map_cons, Kind.map_names_below, List.map_cons, List.map_append]
    exact List.perm_middle
  rw [Unseen, and_assoc, ← distinct_cons]
  exact ⟨fun h => h.of_perm hperm.symm, fun h => h.of_perm hperm⟩

/-- Texts that differ in one line that is not blank spell the same schema, but for the kind of this line. -/
theorem parse_insert {text other header line : Text} {front back : List Text} {schema : Schema}
    (hlines : text.lines = header :: (front ++ back))
    (hother : other.lines = header :: (front ++ line :: back)) (hline : ¬ line.Blank)
    (h : (parse text).outcome = .ok schema) : ∃ before after,
      schema = ⟨header.trim, before ++ after⟩ ∧ (∀ kind ∈ before, kind.line < 2 + front.length) ∧
      (∀ kind ∈ after, 2 + front.length ≤ kind.line) ∧
      ∀ found, (parse other).outcome = .ok found ↔ ∃ kind : Kind,
        kind.DeclaredBy (line, 2 + front.length) ∧
          found = ⟨header.trim, before ++ kind :: after.map Kind.below⟩ := by
  obtain ⟨hheader, hkinds⟩ := parse_eq_ok.mp h
  rw [hlines, List.tail_cons, Reads.append_iff] at hkinds
  obtain ⟨before, after, hsplit, hfront, hback⟩ := hkinds
  refine ⟨before, after, ?_, hfront.line_lt, hback.le_line, ?_⟩
  · rw [hlines] at hheader
    rw [← hsplit, ← show schema.header = header.trim from hheader]
  · intro found
    rw [parse_eq_ok, hother, List.tail_cons, Reads.insert_iff hline hfront hback]
    constructor
    · rintro ⟨hheader, kind, hkind, hfound⟩
      exact ⟨kind, hkind, by rw [← hfound, ← show found.header = header.trim from hheader]⟩
    · rintro ⟨kind, hkind, rfl⟩
      exact ⟨rfl, kind, hkind, rfl⟩

end Schema
end DartNodes
