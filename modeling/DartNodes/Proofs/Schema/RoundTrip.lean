import DartNodes.Proofs.Schema.Reading

/-! Reading and printing schemas: what texts spell is well formed, and what is well formed is spelled
by its print. -/
namespace DartNodes

namespace Kind

lemma notMem_print {kind : Kind} (h : kind.WellFormed) : '\n' ∉ kind.print := by
  rw [print_eq]
  refine Text.notMem_spaced h.tag_isWord (fun word hword => ?_) (by decide) (by decide)
  exact isWord_of_mem_spelling h word (List.mem_cons_of_mem _ hword)

lemma getLast?_print {kind : Kind} (h : kind.WellFormed) : kind.print.getLast? ≠ some '\r' := by
  rw [print_eq]
  intro hlast
  have hblank := Text.getLast?_spaced h.tag_isWord
    (fun word hword => isWord_of_mem_spelling h word (List.mem_cons_of_mem _ hword)) hlast
  exact absurd hblank (by decide)

end Kind

namespace Schema

/-- Some kinds can be printed one after the other, from line `number` on. -/
structure Printable (number : Nat) (kinds : List Kind) : Prop where
  kinds_wellFormed : ∀ kind ∈ kinds, kind.WellFormed
  le_line : ∀ kind ∈ kinds, number ≤ kind.line
  lines_increasing : kinds.Pairwise (·.line < ·.line)

lemma Printable.tail {number : Nat} {kind : Kind} {rest : List Kind}
    (h : Printable number (kind :: rest)) : Printable (kind.line + 1) rest where
  kinds_wellFormed := (List.forall_mem_cons.mp h.kinds_wellFormed).2
  le_line := (List.pairwise_cons.mp h.lines_increasing).1
  lines_increasing := (List.pairwise_cons.mp h.lines_increasing).2

lemma WellFormed.printable {schema : Schema} (h : schema.WellFormed) : Printable 2 schema.kinds :=
  ⟨h.kinds_wellFormed, h.two_le_line, h.lines_increasing⟩

lemma Reads.replicate_append {lines : List Text} {kinds : List Kind} (count : Nat) {number : Nat}
    (h : Reads (number + count) lines kinds) :
    Reads number (List.replicate count [] ++ lines) kinds := by
  induction count generalizing number with
  | zero => exact h
  | succ count ih =>
    refine .blank rfl (ih ?_)
    rwa [Nat.add_right_comm, Nat.add_assoc]

/-- The lines that kinds are printed on declare these kinds. -/
theorem reads_recordLines {number : Nat} {kinds : List Kind} (h : Printable number kinds) :
    Reads number (recordLines number kinds) kinds := by
  induction kinds generalizing number with
  | nil => exact .nil
  | cons kind rest ih =>
    have hkind := h.kinds_wellFormed kind List.mem_cons_self
    have hle := h.le_line kind List.mem_cons_self
    refine Reads.replicate_append (kind.line - number) ?_
    rw [Nat.add_sub_cancel' hle]
    exact .record hkind rfl (Kind.tokens_print hkind) (ih h.tail)

lemma mem_recordLines {number : Nat} {kinds : List Kind} {line : Text}
    (h : line ∈ recordLines number kinds) : line = [] ∨ ∃ kind ∈ kinds, line = kind.print := by
  induction kinds generalizing number with
  | nil => cases h
  | cons kind rest ih =>
    simp only [recordLines, List.mem_append, List.mem_replicate, List.mem_cons] at h
    rcases h with ⟨-, rfl⟩ | rfl | h
    · exact .inl rfl
    · exact .inr ⟨kind, List.mem_cons_self, rfl⟩
    · rcases ih h with rfl | ⟨other, hother, rfl⟩
      · exact .inl rfl
      · exact .inr ⟨other, List.mem_cons_of_mem kind hother, rfl⟩

/-- Printed kinds stand on the lines that they name, and the other lines are empty. -/
theorem getElem?_recordLines {number : Nat} {kinds : List Kind} (h : Printable number kinds)
    {index : Nat} {line : Text} :
    (recordLines number kinds)[index]? = some line ↔
      (∃ kind ∈ kinds, kind.line = number + index ∧ line = kind.print) ∨
        line = [] ∧ (∀ kind ∈ kinds, kind.line ≠ number + index) ∧
          ∃ kind ∈ kinds, number + index < kind.line := by
  induction kinds generalizing number index with
  | nil => simp [recordLines]
  | cons kind rest ih =>
    have hle := h.le_line kind List.mem_cons_self
    have hlater := h.tail.le_line
    have hfirst : ∀ other ∈ kind :: rest, kind.line ≤ other.line := by
      intro other hother
      rcases List.mem_cons.mp hother with rfl | hother
      · exact Nat.le_refl _
      · exact Nat.le_of_succ_le (hlater other hother)
    rw [recordLines, List.getElem?_append, List.length_replicate]
    split
    · rename_i hgap
      rw [List.getElem?_replicate, if_pos hgap]
      constructor
      · rintro ⟨rfl⟩
        refine .inr ⟨rfl, fun other hother => ?_, kind, List.mem_cons_self, by omega⟩
        have := hfirst other hother
        omega
      · rintro (⟨other, hother, hline, rfl⟩ | ⟨rfl, -⟩)
        · have := hfirst other hother
          omega
        · rfl
    · rename_i hgap
      cases hi : index - (kind.line - number) with
      | zero =>
        have hhere : number + index = kind.line := by omega
        rw [List.getElem?_cons_zero, hhere]
        constructor
        · rintro ⟨rfl⟩
          exact .inl ⟨kind, List.mem_cons_self, rfl, rfl⟩
        · rintro (⟨other, hother, hline, rfl⟩ | ⟨-, hne, -⟩)
          · rcases List.mem_cons.mp hother with rfl | hother
            · rfl
            · have := hlater other hother
              omega
          · exact absurd rfl (hne kind List.mem_cons_self)
      | succ i =>
        have hbehind : number + index = kind.line + 1 + i := by omega
        have hne : kind.line ≠ kind.line + 1 + i := by omega
        have hnot : ¬ kind.line + 1 + i < kind.line := by omega
        rw [List.getElem?_cons_succ, ih h.tail, hbehind]
        simp [hne, hnot]

lemma lines_print {schema : Schema} (h : schema.WellFormed) :
    schema.print.lines = schema.header :: recordLines 2 schema.kinds := by
  refine Text.lines_unlines fun line hline => ?_
  rcases List.mem_cons.mp hline with rfl | hline
  · refine ⟨h.header_oneLine, fun hlast => ?_⟩
    rw [← h.header_trimmed] at hlast
    exact absurd (Text.getLast?_trim hlast) (by decide)
  · rcases mem_recordLines hline with rfl | ⟨kind, hkind, rfl⟩
    · exact ⟨List.not_mem_nil, by simp⟩
    · have hwell := h.kinds_wellFormed kind hkind
      exact ⟨Kind.notMem_print hwell, Kind.getLast?_print hwell⟩

theorem parse_print {schema : Schema} (h : schema.WellFormed) :
    (parse schema.print).outcome = .ok schema := by
  rw [parse_eq_ok, lines_print h]
  exact ⟨h.header_trimmed.symm, reads_recordLines h.printable⟩

example : print ⟨"h", [⟨"A", "X", [⟨"f", some "0=1".toList⟩], 3⟩]⟩ = "h\n\nA X f=0=1\n" := by decide

/-- Well-formed schemas are exactly what texts spell. Printed, the header stands on the first line, each
kind on the line that it names and nothing on the lines in between, and reading gives all of it back. -/
theorem parse_print_roundTrip :
    (∀ text schema, (parse text).outcome = .ok schema → schema.WellFormed) ∧
    ∀ schema : Schema, schema.WellFormed →
      schema.print.lines.head? = some schema.header ∧
      (∀ index line, schema.print.lines[index + 1]? = some line ↔
        (∃ kind ∈ schema.kinds, kind.line = 2 + index ∧ line = kind.print) ∨
          line = [] ∧ (∀ kind ∈ schema.kinds, kind.line ≠ 2 + index) ∧
            ∃ kind ∈ schema.kinds, 2 + index < kind.line) ∧
      (parse schema.print).outcome = .ok schema := by
  refine ⟨fun _ _ => wellFormed_of_parse, fun schema h => ⟨?_, fun index line => ?_, parse_print h⟩⟩
  · rw [lines_print h, List.head?_cons]
  · rw [lines_print h, List.getElem?_cons_succ, getElem?_recordLines h.printable]

end Schema
end DartNodes
