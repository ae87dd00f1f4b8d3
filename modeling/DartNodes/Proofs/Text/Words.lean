import DartNodes.Proofs.Text.Runs
import DartNodes.Text.Word

/-! The texts that can be words, and the words of texts that are made of words. -/
namespace DartNodes.Text

/-- Some text without blanks. -/
def IsWord (t : Text) : Prop := t ≠ [] ∧ ∀ c ∈ t, isBlank c = false

instance : DecidablePred IsWord := fun _ => inferInstanceAs (Decidable (_ ∧ _))

lemma IsWord.notMem {w : Text} (hw : IsWord w) {c : Char} (hc : isBlank c = true) : c ∉ w := by
  intro hm
  have h := hw.2 c hm
  rw [hc] at h
  cases h

lemma IsWord.append {v w : Text} (hv : IsWord v) (hw : ∀ c ∈ w, isBlank c = false) :
    IsWord (v ++ w) := by
  refine ⟨by simp [hv.1], fun c hc => ?_⟩
  rcases List.mem_append.mp hc with hc | hc
  · exact hv.2 c hc
  · exact hw c hc

/-- No text that follows a word may go on with it. -/
def EndsWord (rest : Text) : Prop := ∀ c, rest.head? = some c → isBlank c = true

lemma endsWord_nil : EndsWord [] := by
  intro c hc
  cases hc

lemma endsWord_cons {c : Char} (h : isBlank c = true) (t : Text) : EndsWord (c :: t) := by
  intro d hd
  cases hd
  exact h

lemma takeWhile_word {w rest : Text} (hw : ∀ c ∈ w, isBlank c = false) (hr : EndsWord rest) :
    (w ++ rest).takeWhile (!isBlank ·) = w := by
  exact takeWhile_append_stop (by simpa using hw) fun c hc => by simpa using hr c hc

lemma dropWhile_word {w rest : Text} (hw : ∀ c ∈ w, isBlank c = false) (hr : EndsWord rest) :
    (w ++ rest).dropWhile (!isBlank ·) = rest := by
  exact dropWhile_append_stop (by simpa using hw) fun c hc => by simpa using hr c hc

lemma endsWord_dropWhile (t : Text) : EndsWord (t.dropWhile (!isBlank ·)) := by
  intro c hc
  simpa using eq_false_of_head?_dropWhile hc

/-- Texts that go on behind their first words are equal in both. -/
lemma append_inj_of_endsWord {v w s t : Text} (hv : ∀ c ∈ v, isBlank c = false)
    (hw : ∀ c ∈ w, isBlank c = false) (hs : EndsWord s) (ht : EndsWord t) (h : v ++ s = w ++ t) :
    v = w ∧ s = t := by
  have hvw : v = w := by
    rw [← takeWhile_word hv hs, h, takeWhile_word hw ht]
  subst hvw
  exact ⟨rfl, List.append_cancel_left h⟩

/-- Behind a word it does not matter whether a word was running. -/
lemma wordsFrom_of_endsWord {rest : Text} (hr : EndsWord rest) (inWord : Bool) (column : Nat) :
    wordsFrom inWord column rest = wordsFrom false column rest := by
  cases rest with
  | nil => cases inWord <;> rfl
  | cons c t => simp [wordsFrom_cons_blank (hr c rfl)]

/-- A word at the beginning is read whole. -/
theorem wordsFrom_word {w rest : Text} (hw : IsWord w) (hr : EndsWord rest) (column : Nat) :
    wordsFrom false column (w ++ rest) =
      ⟨w, column⟩ :: wordsFrom false (column + w.length) rest := by
  obtain ⟨hne, hblank⟩ := hw
  obtain ⟨c, v, rfl⟩ := List.exists_cons_of_ne_nil hne
  have hc : isBlank c = false := hblank c List.mem_cons_self
  have hv : ∀ d ∈ v, isBlank d = false := fun d hd => hblank d (List.mem_cons_of_mem c hd)
  have htake : (c :: (v ++ rest)).takeWhile (!isBlank ·) = c :: v := takeWhile_word hblank hr
  have hcount : column + 1 + v.length = column + (c :: v).length := by
    simp only [List.length_cons]
    omega
  rw [List.cons_append, wordsFrom, hc]
  simp only [Bool.false_eq_true, if_false, htake]
  rw [wordsFrom_append hv, wordsFrom_of_endsWord hr, hcount]

lemma isWord_of_mem_wordsFrom {w : Word} {inWord : Bool} {column : Nat} {t : Text}
    (h : w ∈ wordsFrom inWord column t) : IsWord w.text := by
  induction t generalizing inWord column with
  | nil => cases h
  | cons c t ih =>
    unfold wordsFrom at h
    split at h
    · exact ih h
    · rename_i hc
      split at h
      · exact ih h
      · rcases List.mem_cons.mp h with rfl | h
        · refine ⟨by simp [hc], fun d hd => ?_⟩
          simpa using List.mem_takeWhile_imp hd
        · exact ih h

theorem isWord_of_mem_words {w : Word} {line : Text} (h : w ∈ line.words) : IsWord w.text :=
  isWord_of_mem_wordsFrom h

/-- The words of a line without their columns. -/
def tokens (line : Text) : List Text := line.words.map Word.text

/-- The words of a text that starts in any column. -/
lemma map_text_wordsFrom_spaced {w : Text} {ws : List Text} (hw : IsWord w) (hws : ∀ v ∈ ws, IsWord v)
    (column : Nat) :
    (wordsFrom false column (w ++ ws.flatMap (' ' :: ·))).map Word.text = w :: ws := by
  induction ws generalizing w column with
  | nil =>
    rw [List.flatMap_nil, wordsFrom_word hw endsWord_nil]
    rfl
  | cons v vs ih =>
    have hspace : isBlank ' ' = true := by decide
    have hv : IsWord v := hws v List.mem_cons_self
    have hvs : ∀ u ∈ vs, IsWord u := fun u hu => hws u (List.mem_cons_of_mem v hu)
    rw [List.flatMap_cons, List.cons_append, wordsFrom_word hw (endsWord_cons hspace _),
      wordsFrom_cons_blank hspace, List.map_cons, ih hv hvs]

/-- Words with single spaces in between are the words of the line that they make. -/
theorem tokens_spaced {w : Text} {ws : List Text} (hw : IsWord w) (hws : ∀ v ∈ ws, IsWord v) :
    tokens (w ++ ws.flatMap (' ' :: ·)) = w :: ws :=
  map_text_wordsFrom_spaced hw hws 1

/-- Such a line ends with its last word. -/
lemma getLast?_spaced {w : Text} {ws : List Text} (hw : IsWord w) (hws : ∀ v ∈ ws, IsWord v)
    {c : Char} (h : (w ++ ws.flatMap (' ' :: ·)).getLast? = some c) : isBlank c = false := by
  induction ws generalizing w with
  | nil =>
    rw [List.flatMap_nil, List.append_nil] at h
    exact hw.2 c (List.mem_of_getLast? h)
  | cons v vs ih =>
    have hv : IsWord v := hws v List.mem_cons_self
    have hne : v ++ vs.flatMap (' ' :: ·) ≠ [] := by simp [hv.1]
    refine ih hv (fun u hu => hws u (List.mem_cons_of_mem v hu)) ?_
    rw [List.flatMap_cons, List.cons_append, List.append_cons, List.getLast?_append,
      List.getLast?_eq_some_getLast hne] at h
    rw [List.getLast?_eq_some_getLast hne]
    exact h

/-- Such a line holds no other blanks than spaces. -/
lemma notMem_spaced {w : Text} {ws : List Text} (hw : IsWord w) (hws : ∀ v ∈ ws, IsWord v)
    {c : Char} (hc : isBlank c = true) (hspace : c ≠ ' ') : c ∉ w ++ ws.flatMap (' ' :: ·) := by
  intro hm
  rcases List.mem_append.mp hm with hm | hm
  · exact hw.notMem hc hm
  · obtain ⟨v, hv, hm⟩ := List.mem_flatMap.mp hm
    rcases List.mem_cons.mp hm with rfl | hm
    · exact hspace rfl
    · exact (hws v hv).notMem hc hm

end DartNodes.Text
