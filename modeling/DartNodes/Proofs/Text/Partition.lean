import DartNodes.Proofs.Text.Columns

/-! A line falls into words and the blanks between them: what is not blank lies in exactly one word, and
any two words have a blank between them. -/
namespace DartNodes

namespace Word

/-- The columns of a word's characters. -/
def Covers (w : Word) (column : Nat) : Prop := w.column ≤ column ∧ column < w.column + w.text.length

namespace StandsIn

variable {v w : Word} {t : Text}

/-- A line is not blank where a word stands. -/
lemma exists_of_covers (h : w.StandsIn t) {i : Nat} (hi : w.Covers (i + 1)) :
    ∃ c, t[i]? = some c ∧ Text.isBlank c = false := by
  obtain ⟨before, after, rfl, hcolumn, hword, -, -⟩ := h
  obtain ⟨hlow, hhigh⟩ := hi
  have hplace : i - before.length < w.text.length := by omega
  refine ⟨w.text[i - before.length], ?_, hword.2 _ (List.getElem_mem hplace)⟩
  rw [List.append_assoc, List.getElem?_append_right (by omega), List.getElem?_append_left hplace]
  exact List.getElem?_eq_getElem hplace

/-- In front of a later word, and behind an earlier one, there is a blank. -/
lemma exists_blank_between (hv : v.StandsIn t) (hw : w.StandsIn t) (h : v.column < w.column) :
    ∃ i c, v.column + v.text.length ≤ i + 1 ∧ i + 1 < w.column ∧ t[i]? = some c ∧
      Text.isBlank c = true := by
  have hpositive := hv.one_le_column
  obtain ⟨before, after, hsplit, hcolumn, -, hfront, -⟩ := hw
  have hne : before ≠ [] := by
    rintro rfl
    rw [List.length_nil] at hcolumn
    omega
  obtain ⟨front, c, rfl⟩ : ∃ front c, before = front ++ [c] :=
    ⟨_, _, (List.dropLast_append_getLast hne).symm⟩
  have hblank : Text.isBlank c = true := hfront c (by simp)
  have hhere : t[front.length]? = some c := by
    rw [hsplit]
    simp
  rw [List.length_append, List.length_singleton] at hcolumn
  refine ⟨front.length, c, ?_, by omega, hhere, hblank⟩
  -- Otherwise the earlier word reaches over this blank.
  by_contra hreach
  obtain ⟨d, hd, hnot⟩ := hv.exists_of_covers (i := front.length) ⟨by omega, by omega⟩
  rw [hhere] at hd
  cases hd
  rw [hblank] at hnot
  cases hnot

/-- A word is determined by its column. -/
lemma eq_of_column (hv : v.StandsIn t) (hw : w.StandsIn t) (h : v.column = w.column) : v = w := by
  have htext : v.text = w.text := by
    rw [← Text.takeWhile_drop_of_standsIn hv, ← Text.takeWhile_drop_of_standsIn hw, h]
  cases v
  cases w
  cases h
  cases htext
  rfl

lemma not_covers_of_lt (hv : v.StandsIn t) (hw : w.StandsIn t) (h : v.column < w.column)
    {column : Nat} (hcovers : w.Covers column) : ¬ v.Covers column := by
  obtain ⟨i, -, hend, hstart, -⟩ := exists_blank_between hv hw h
  rintro ⟨-, hlast⟩
  have hfirst := hcovers.1
  omega

/-- No two words share a column. -/
lemma eq_of_covers (hv : v.StandsIn t) (hw : w.StandsIn t) {column : Nat}
    (hcv : v.Covers column) (hcw : w.Covers column) : v = w := by
  apply eq_of_column hv hw
  apply Nat.le_antisymm
  · exact Nat.le_of_not_lt fun h => hw.not_covers_of_lt hv h hcv hcw
  · exact Nat.le_of_not_lt fun h => hv.not_covers_of_lt hw h hcw hcv

end StandsIn
end Word

namespace Text

/-- A text ends in the run that goes on behind its last blank. -/
lemma exists_last_run (t : Text) : ∃ before run, t = before ++ run ∧
    (∀ c, before.getLast? = some c → isBlank c = true) ∧ ∀ c ∈ run, isBlank c = false := by
  induction t using List.reverseRecOn with
  | nil => exact ⟨[], [], rfl, by simp, by simp⟩
  | append_singleton t d ih =>
    cases hd : isBlank d with
    | true => exact ⟨t ++ [d], [], by simp, by simpa using hd, by simp⟩
    | false =>
      obtain ⟨before, run, rfl, hbefore, hrun⟩ := ih
      refine ⟨before, run ++ [d], by simp, hbefore, ?_⟩
      intro c hc
      rcases List.mem_append.mp hc with hc | hc
      · exact hrun c hc
      · rw [List.mem_singleton.mp hc]
        exact hd

lemma exists_split_of_getElem? {t : Text} {i : Nat} {c : Char} (h : t[i]? = some c) :
    ∃ front back, t = front ++ c :: back ∧ front.length = i := by
  obtain ⟨hi, rfl⟩ := List.getElem?_eq_some_iff.mp h
  refine ⟨t.take i, t.drop (i + 1), ?_, List.length_take_of_le (Nat.le_of_lt hi)⟩
  rw [List.getElem_cons_drop, List.take_append_drop]

/-- Where a line is not blank, a word stands: it goes from behind the last blank to the next one. -/
lemma exists_covers {t : Text} {i : Nat} {c : Char} (hc : t[i]? = some c) (h : isBlank c = false) :
    ∃ w : Word, w.StandsIn t ∧ w.Covers (i + 1) := by
  obtain ⟨front, back, rfl, rfl⟩ := exists_split_of_getElem? hc
  obtain ⟨before, run, rfl, hbefore, hrun⟩ := exists_last_run front
  let rest := back.takeWhile (!isBlank ·)
  have hrest : ∀ d ∈ rest, isBlank d = false := by
    intro d hd
    simpa using List.mem_takeWhile_imp hd
  refine ⟨⟨run ++ c :: rest, before.length + 1⟩, ?_, ?_⟩
  · refine ⟨before, back.dropWhile (!isBlank ·), ?_, rfl, ⟨by simp, ?_⟩, hbefore, endsWord_dropWhile back⟩
    · simp [rest]
    · intro d hd
      rcases List.mem_append.mp hd with hd | hd
      · exact hrun d hd
      · rcases List.mem_cons.mp hd with rfl | hd
        · exact h
        · exact hrest d hd
  · simp only [Word.Covers, List.length_append, List.length_cons]
    omega

/-- The words of a line are the maximal runs that stand in it, from left to right, with blanks in between.
They hold all that is not blank, and each of it once. -/
theorem words_partition (t : Text) :
    t.HasWords t.words ∧
    (t.words.Pairwise fun v w => ∃ i c, v.column + v.text.length ≤ i + 1 ∧ i + 1 < w.column ∧
      t[i]? = some c ∧ isBlank c = true) ∧
    ∀ i, (∃ c, t[i]? = some c ∧ isBlank c = false) ↔ ∃! w, w ∈ t.words ∧ w.Covers (i + 1) := by
  have hwords : t.HasWords t.words := hasWords_iff.mpr rfl
  refine ⟨hwords, ?_, fun i => ⟨?_, ?_⟩⟩
  · apply hwords.increasing.imp_of_mem
    intro v w hv hw
    exact (mem_words.mp hv).exists_blank_between (mem_words.mp hw)
  · rintro ⟨c, hc, hblank⟩
    obtain ⟨w, hw, hcovers⟩ := exists_covers hc hblank
    refine ⟨w, ⟨mem_words.mpr hw, hcovers⟩, ?_⟩
    rintro v ⟨hv, hcv⟩
    exact (mem_words.mp hv).eq_of_covers hw hcv hcovers
  · rintro ⟨w, ⟨hw, hcovers⟩, -⟩
    exact (mem_words.mp hw).exists_of_covers hcovers

end Text
end DartNodes
