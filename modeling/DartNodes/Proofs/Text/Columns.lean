import DartNodes.Proofs.Text.Trim
import DartNodes.Proofs.Text.Words
import Mathlib.Data.List.Sort

/-! The words of a line are its maximal runs without blanks, from left to right, each with the column of
its first character. -/
namespace DartNodes

/-- A word stands in a line, between blanks or the ends of the line, from its column on. -/
def Word.StandsIn (w : Word) (line : Text) : Prop :=
  ∃ before after, line = before ++ w.text ++ after ∧ w.column = before.length + 1 ∧
    Text.IsWord w.text ∧ (∀ c, before.getLast? = some c → Text.isBlank c = true) ∧ Text.EndsWord after

lemma Word.StandsIn.one_le_column {w : Word} {line : Text} (h : w.StandsIn line) : 1 ≤ w.column := by
  obtain ⟨before, -, -, hcolumn, -⟩ := h
  omega

namespace Text

/-- The words that stand in a line, from left to right. -/
structure HasWords (line : Text) (words : List Word) : Prop where
  mem_iff : ∀ w, w ∈ words ↔ w.StandsIn line
  increasing : words.Pairwise (·.column < ·.column)

/-- Whether a word is running behind some text. -/
def runsBehind (inWord : Bool) (before : Text) : Bool := before.foldl (fun _ c => !isBlank c) inWord

@[simp] lemma runsBehind_nil (inWord : Bool) : runsBehind inWord [] = inWord := rfl

@[simp] lemma runsBehind_cons (inWord : Bool) (c : Char) (before : Text) :
    runsBehind inWord (c :: before) = runsBehind (!isBlank c) before := rfl

/-- In front of a line no word is running, and behind a character one is if that is no blank. -/
lemma runsBehind_eq_false {before : Text} :
    runsBehind false before = false ↔ ∀ c, before.getLast? = some c → isBlank c = true := by
  rcases List.eq_nil_or_concat before with rfl | ⟨front, last, rfl⟩
  · simp
  · simp [runsBehind]

/-- One character further, a word begins here or does not. -/
lemma mem_wordsFrom_cons {w : Word} {inWord : Bool} {column : Nat} {c : Char} {t : Text} :
    w ∈ wordsFrom inWord column (c :: t) ↔
      (isBlank c = false ∧ inWord = false ∧ w = ⟨(c :: t).takeWhile (!isBlank ·), column⟩) ∨
        w ∈ wordsFrom (!isBlank c) (column + 1) t := by
  rw [wordsFrom]
  cases hc : isBlank c <;> cases inWord <;> simp

/-- The words of the rest of a line are the runs that begin where no word is running. -/
theorem mem_wordsFrom {w : Word} {inWord : Bool} {column : Nat} {t : Text} :
    w ∈ wordsFrom inWord column t ↔ ∃ before after, t = before ++ w.text ++ after ∧
      w.column = column + before.length ∧ IsWord w.text ∧ runsBehind inWord before = false ∧
        EndsWord after := by
  induction t generalizing inWord column with
  | nil =>
    constructor
    · intro h
      cases h
    · rintro ⟨before, after, htext, -, hword, -⟩
      exact absurd (List.append_eq_nil_iff.mp (List.append_eq_nil_iff.mp htext.symm).1).2 hword.1
  | cons c t ih =>
    rw [mem_wordsFrom_cons, ih]
    -- A run that begins here has nothing before it; any other run has `c` before it.
    constructor
    · rintro (⟨hc, hrun, rfl⟩ | ⟨before, after, rfl, hcolumn, hword, hrun, hafter⟩)
      · refine ⟨[], (c :: t).dropWhile (!isBlank ·), ?_, rfl, ⟨by simp [hc], fun d hd => ?_⟩, hrun,
          endsWord_dropWhile _⟩
        · rw [List.nil_append, List.takeWhile_append_dropWhile]
        · simpa using List.mem_takeWhile_imp hd
      · refine ⟨c :: before, after, rfl, ?_, hword, hrun, hafter⟩
        rw [hcolumn, List.length_cons]
        omega
    · rintro ⟨before, after, htext, hcolumn, hword, hrun, hafter⟩
      cases before with
      | nil =>
        have hhead : c ∈ w.text := by
          obtain ⟨d, v, hv⟩ := List.exists_cons_of_ne_nil hword.1
          rw [hv] at htext ⊢
          obtain ⟨rfl, -⟩ := List.cons.inj htext
          exact List.mem_cons_self
        refine .inl ⟨hword.2 c hhead, hrun, ?_⟩
        rw [htext, List.nil_append, takeWhile_word hword.2 hafter]
        exact congrArg (Word.mk w.text) hcolumn
      | cons d before =>
        obtain ⟨rfl, rfl⟩ := List.cons.inj htext
        refine .inr ⟨before, after, rfl, ?_, hword, hrun, hafter⟩
        rw [hcolumn, List.length_cons]
        omega

theorem mem_words {w : Word} {line : Text} : w ∈ line.words ↔ w.StandsIn line := by
  rw [words, mem_wordsFrom, Word.StandsIn]
  simp only [runsBehind_eq_false, Nat.add_comm 1]

lemma pairwise_wordsFrom (inWord : Bool) (column : Nat) (t : Text) :
    (wordsFrom inWord column t).Pairwise (·.column < ·.column) := by
  induction t generalizing inWord column with
  | nil => exact .nil
  | cons c t ih =>
    unfold wordsFrom
    split
    · exact ih _ _
    · split
      · exact ih _ _
      · refine .cons (fun w hw => ?_) (ih _ _)
        obtain ⟨before, -, -, hcolumn, -⟩ := mem_wordsFrom.mp hw
        change column < w.column
        omega

/-- From its column on, a line spells a word, up to a blank or its end. -/
lemma takeWhile_drop_of_standsIn {w : Word} {line : Text} (h : w.StandsIn line) :
    (line.drop (w.column - 1)).takeWhile (!isBlank ·) = w.text := by
  obtain ⟨before, after, rfl, hcolumn, hword, -, hafter⟩ := h
  rw [hcolumn, Nat.add_sub_cancel, List.append_assoc, List.drop_left]
  exact takeWhile_word hword.2 hafter

/-- The words that are read off a line are those that stand in it. -/
theorem hasWords_iff {line : Text} {ws : List Word} : line.HasWords ws ↔ line.words = ws := by
  constructor
  · rintro ⟨hmem, hincreasing⟩
    have hirrefl : Std.Irrefl fun v w : Word => v.column < w.column := ⟨fun _ => Nat.lt_irrefl _⟩
    have hasymm : Std.Asymm fun v w : Word => v.column < w.column := ⟨fun _ _ => Nat.lt_asymm⟩
    refine List.Pairwise.eq_of_mem_iff (pairwise_wordsFrom false 1 line) hincreasing fun w => ?_
    exact mem_words.trans (hmem w).symm
  · rintro rfl
    exact ⟨fun _ => mem_words, pairwise_wordsFrom false 1 line⟩

example : words " ab\u00a0c" = ([⟨"ab", 2⟩, ⟨"c", 5⟩] : List Word) := by decide

lemma wordsFrom_eq_nil {column : Nat} {t : Text} :
    wordsFrom false column t = [] ↔ ∀ c ∈ t, isBlank c = true := by
  induction t generalizing column with
  | nil => simp [wordsFrom]
  | cons c t ih =>
    rw [List.forall_mem_cons, wordsFrom]
    cases hc : isBlank c with
    | true => simpa using ih
    | false => simp

/-- A line without words is one of blanks. -/
theorem words_eq_nil {line : Text} : line.words = [] ↔ ∀ c ∈ line, isBlank c = true :=
  wordsFrom_eq_nil

/-- A running word is passed over. -/
lemma wordsFrom_true (column : Nat) (t : Text) :
    wordsFrom true column t =
      wordsFrom false (column + (t.takeWhile (!isBlank ·)).length) (t.dropWhile (!isBlank ·)) := by
  have hrun : ∀ c ∈ t.takeWhile (!isBlank ·), isBlank c = false := by
    intro c hc
    simpa using List.mem_takeWhile_imp hc
  have happend := wordsFrom_append hrun column (t.dropWhile (!isBlank ·))
  rwa [List.takeWhile_append_dropWhile, wordsFrom_of_endsWord (endsWord_dropWhile t)] at happend

/-- In front of the first word there are blanks, and the other words are those behind it. -/
lemma exists_of_wordsFrom_eq_cons {column : Nat} {t : Text} {w : Word} {ws : List Word}
    (h : wordsFrom false column t = w :: ws) : ∃ before rest, t = before ++ (w.text ++ rest) ∧
      (∀ c ∈ before, isBlank c = true) ∧ ∃ next, wordsFrom false next rest = ws := by
  induction t generalizing column with
  | nil => cases h
  | cons c t ih =>
    rw [wordsFrom] at h
    cases hc : isBlank c with
    | true =>
      rw [hc, if_pos rfl] at h
      obtain ⟨before, rest, rfl, hbefore, hrest⟩ := ih h
      exact ⟨c :: before, rest, rfl, List.forall_mem_cons.mpr ⟨hc, hbefore⟩, hrest⟩
    | false =>
      simp only [hc, Bool.false_eq_true, if_false, List.cons.injEq] at h
      obtain ⟨rfl, rfl⟩ := h
      refine ⟨[], t.dropWhile (!isBlank ·), ?_, by simp, _, (wordsFrom_true _ t).symm⟩
      simp [hc]

/-- A line of one word, trimmed, is that word. -/
theorem trim_of_words {line : Text} {w : Word} (h : line.words = [w]) : line.trim = w.text := by
  have hword : IsWord w.text := isWord_of_mem_words (h ▸ List.mem_cons_self)
  obtain ⟨before, rest, rfl, hbefore, next, hrest⟩ := exists_of_wordsFrom_eq_cons h
  have hblank : ∀ c ∈ rest, isBlank c = true := wordsFrom_eq_nil.mp hrest
  have hhead : ∀ c, (w.text ++ rest).head? = some c → isBlank c = false := by
    intro c hc
    rw [List.head?_append_of_ne_nil _ hword.1] at hc
    exact hword.2 c (List.mem_of_head? hc)
  calc (before ++ (w.text ++ rest)).trim
      = (w.text ++ rest).trimStart.trimEnd := by rw [trim, trimStart_append_blank hbefore]
    _ = (w.text ++ rest).trimEnd := by rw [trimStart_eq_self hhead]
    _ = w.text.trimEnd := trimEnd_append_blank hblank
    _ = w.text := trimEnd_eq_self fun c hc => hword.2 c (List.mem_of_getLast? hc)

end Text
end DartNodes
