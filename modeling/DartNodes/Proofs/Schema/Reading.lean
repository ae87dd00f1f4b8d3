import DartNodes.Proofs.Schema.Record
import DartNodes.Proofs.Text.Lines
import DartNodes.Proofs.Text.Trim

/-! What the lines of a schema declare, as a relation, and the schemas that come out of texts. -/
namespace DartNodes.Schema

/-- Some lines, the first of them having the given number, declare some kinds. -/
inductive Reads : Nat → List Text → List Kind → Prop
  | nil {number} : Reads number [] []
  | blank {number line rest kinds} (empty : line.tokens = []) (tail : Reads (number + 1) rest kinds) :
      Reads number (line :: rest) kinds
  | record {number line rest kind kinds} (wellFormed : kind.WellFormed) (here : kind.line = number)
      (spells : line.tokens = kind.spelling) (tail : Reads (number + 1) rest kinds) :
      Reads number (line :: rest) (kind :: kinds)

lemma outcome_readKinds_cons (number : Nat) (line : Text) (rest : List Text) :
    (readKinds number (line :: rest)).outcome = Kind.ofLine number line >>= fun
      | none => (readKinds (number + 1) rest).outcome
      | some kind => (kind :: ·) <$> (readKinds (number + 1) rest).outcome := by
  rw [readKinds, Traced.outcome_bind, Traced.outcome_ofExcept]
  congr 1
  funext found
  cases found with
  | none => rfl
  | some kind =>
    simp only [bind_pure_comp, Traced.outcome_bind, Outcome.outcome_map, Traced.outcome_report]
    rfl

theorem readKinds_eq_ok {number : Nat} {lines : List Text} {kinds : List Kind} :
    (readKinds number lines).outcome = .ok kinds ↔ Reads number lines kinds := by
  constructor
  · intro h
    induction lines generalizing number kinds with
    | nil => cases h; exact .nil
    | cons line rest ih =>
      rw [outcome_readKinds_cons] at h
      obtain ⟨_ | kind, hline, h⟩ := Outcome.bind_eq_ok.mp h
      · exact .blank (Kind.ofLine_eq_none.mp hline) (ih h)
      · obtain ⟨others, hrest, rfl⟩ := Outcome.map_eq_ok.mp h
        obtain ⟨hkind, hnumber, hspell⟩ := Kind.ofLine_eq_some.mp hline
        exact .record hkind hnumber hspell (ih hrest)
  · intro h
    induction h with
    | nil => rfl
    | blank empty tail ih =>
      rw [outcome_readKinds_cons, Kind.ofLine_eq_none.mpr empty]
      exact ih
    | record wellFormed here spells tail ih =>
      rw [outcome_readKinds_cons, Kind.ofLine_eq_some.mpr ⟨wellFormed, here, spells⟩]
      exact Outcome.map_eq_ok.mpr ⟨_, ih, rfl⟩

/-- A text spells a schema exactly if its first line, trimmed, is the header and the other lines
declare the kinds. -/
theorem parse_eq_ok {text : Text} {schema : Schema} :
    (parse text).outcome = .ok schema ↔
      schema.header = (text.lines.headD []).trim ∧ Reads 2 text.lines.tail schema.kinds := by
  unfold parse
  rcases text.lines with _ | ⟨header, records⟩
  · constructor
    · intro h
      cases h
      exact ⟨rfl, .nil⟩
    · rintro ⟨hheader, hkinds⟩
      rcases schema with ⟨h, kinds⟩
      cases hheader
      cases hkinds
      rfl
  · simp only [Traced.outcome_bind, Outcome.bind_eq_ok, readKinds_eq_ok, Traced.outcome_pure,
      Except.ok.injEq, List.headD_cons, List.tail_cons]
    constructor
    · rintro ⟨kinds, hkinds, rfl⟩
      exact ⟨rfl, hkinds⟩
    · rintro ⟨hheader, hkinds⟩
      exact ⟨schema.kinds, hkinds, by rw [← hheader]⟩

/-- The schemas that texts spell. -/
structure WellFormed (schema : Schema) : Prop where
  header_trimmed : schema.header.trim = schema.header
  header_oneLine : '\n' ∉ schema.header
  kinds_wellFormed : ∀ kind ∈ schema.kinds, kind.WellFormed
  /-- The first line is that of the header. -/
  two_le_line : ∀ kind ∈ schema.kinds, 2 ≤ kind.line
  lines_increasing : schema.kinds.Pairwise (·.line < ·.line)

namespace Reads

variable {number : Nat} {lines : List Text} {kinds : List Kind}

lemma le_line (h : Reads number lines kinds) : ∀ kind ∈ kinds, number ≤ kind.line := by
  induction h with
  | nil => simp
  | blank empty tail ih => exact fun kind hk => Nat.le_of_succ_le (ih kind hk)
  | record wellFormed here spells tail ih =>
    intro kind hk
    rcases List.mem_cons.mp hk with rfl | hk
    · exact here.ge
    · exact Nat.le_of_succ_le (ih kind hk)

lemma lines_increasing (h : Reads number lines kinds) : kinds.Pairwise (·.line < ·.line) := by
  induction h with
  | nil => exact .nil
  | blank empty tail ih => exact ih
  | record wellFormed here spells tail ih =>
    refine .cons (fun kind hk => ?_) ih
    rw [here]
    exact le_line tail kind hk

lemma kinds_wellFormed (h : Reads number lines kinds) : ∀ kind ∈ kinds, kind.WellFormed := by
  induction h with
  | nil => simp
  | blank empty tail ih => exact ih
  | record wellFormed here spells tail ih => exact List.forall_mem_cons.mpr ⟨wellFormed, ih⟩

/-- The kinds are spelled by the lines that hold a word, in the same order. -/
lemma map_spelling (h : Reads number lines kinds) :
    kinds.map Kind.spelling = (lines.map Text.tokens).filter (· ≠ []) := by
  induction h with
  | nil => rfl
  | blank empty tail ih => simpa [empty] using ih
  | record wellFormed here spells tail ih => simpa [spells, Kind.spelling] using ih

/-- Lines that are blank or spell a kind declare kinds, whatever their numbers. -/
lemma exists_of_forall (h : ∀ line ∈ lines, line.tokens ≠ [] →
    ∃ kind : Kind, kind.WellFormed ∧ line.tokens = kind.spelling) (number : Nat) :
    ∃ kinds, Reads number lines kinds := by
  induction lines generalizing number with
  | nil => exact ⟨[], .nil⟩
  | cons line rest ih =>
    obtain ⟨kinds, hkinds⟩ := ih (fun l hl => h l (List.mem_cons_of_mem line hl)) (number + 1)
    by_cases hline : line.tokens = []
    · exact ⟨kinds, .blank hline hkinds⟩
    · obtain ⟨kind, hkind, hspell⟩ := h line List.mem_cons_self hline
      exact ⟨kind.onLine number :: kinds, .record (hkind.onLine number) rfl hspell hkinds⟩

end Reads

theorem wellFormed_of_parse {text : Text} {schema : Schema} (h : (parse text).outcome = .ok schema) :
    schema.WellFormed := by
  obtain ⟨hheader, hkinds⟩ := parse_eq_ok.mp h
  refine ⟨?_, ?_, hkinds.kinds_wellFormed, hkinds.le_line, hkinds.lines_increasing⟩
  · rw [hheader, Text.trim_trim]
  · rw [hheader]
    intro hm
    have hline : '\n' ∈ text.lines.headD [] := Text.mem_of_mem_trim hm
    rcases hl : text.lines with _ | ⟨first, rest⟩
    · rw [hl] at hline
      cases hline
    · rw [hl] at hline
      exact Text.notMem_of_mem_lines (hl ▸ List.mem_cons_self) hline

end DartNodes.Schema
