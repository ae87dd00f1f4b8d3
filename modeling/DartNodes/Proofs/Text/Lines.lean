import DartNodes.Text.Lines
import Mathlib.Tactic.Lemma

/-! Lines hold no line feed, and lines without line feeds are what their text is cut into. -/
namespace DartNodes.Text

lemma pieces_append {mark : Char} {l : Text} (h : mark ∉ l) (t : Text) :
    pieces mark (l ++ mark :: t) = l :: pieces mark t := by
  induction l with
  | nil => rw [List.nil_append, pieces_cons, if_pos rfl]
  | cons c l ih =>
    obtain ⟨hc, hl⟩ := List.ne_and_not_mem_of_not_mem_cons h
    rw [List.cons_append, pieces_cons, if_neg (Ne.symm hc), ih hl]
    rfl

theorem notMem_of_mem_pieces {mark : Char} {t p : Text} (h : p ∈ pieces mark t) : mark ∉ p := by
  induction t generalizing p with
  | nil =>
    rw [pieces_nil, List.mem_singleton] at h
    rw [h]
    exact List.not_mem_nil
  | cons c t ih =>
    rw [pieces_cons] at h
    split at h
    · rcases List.mem_cons.mp h with rfl | h
      · exact List.not_mem_nil
      · exact ih h
    · rename_i hc
      cases hp : pieces mark t with
      | nil => exact absurd hp (pieces_ne_nil mark t)
      | cons q qs =>
        rw [hp] at h ih
        rcases List.mem_cons.mp h with rfl | h
        · exact List.not_mem_cons_of_ne_of_not_mem (Ne.symm hc) (ih List.mem_cons_self)
        · exact ih (List.mem_cons_of_mem q h)

lemma pieces_concat (mark : Char) (t : Text) : pieces mark (t ++ [mark]) = pieces mark t ++ [[]] := by
  induction t with
  | nil => simp
  | cons c t ih =>
    obtain ⟨q, qs, hq⟩ := List.exists_cons_of_ne_nil (pieces_ne_nil mark t)
    rw [List.cons_append, pieces_cons, pieces_cons, ih, hq]
    split <;> rfl

/-- The last piece is empty only behind a mark, or in an empty text. -/
lemma getLast?_of_pieces_eq {mark : Char} {t : Text} {front : List Text}
    (h : pieces mark t = front ++ [[]]) : t = [] ∨ t.getLast? = some mark := by
  induction t generalizing front with
  | nil => exact .inl rfl
  | cons c t ih =>
    obtain ⟨q, qs, hq⟩ := List.exists_cons_of_ne_nil (pieces_ne_nil mark t)
    have hlater : ∀ {fs}, q :: qs = fs ++ [[]] → t ≠ [] → (c :: t).getLast? = some mark := by
      intro fs hfs hne
      rw [List.getLast?_cons_of_ne_nil hne]
      exact (ih (hq.trans hfs)).resolve_left hne
    rw [pieces_cons, hq] at h
    right
    split at h
    · rename_i hc
      cases front with
      | nil => cases h
      | cons f fs =>
        obtain ⟨-, htail⟩ := List.cons.inj h
        by_cases hne : t = []
        · rw [hne, hc, List.getLast?_singleton]
        · exact hlater htail hne
    · cases front with
      | nil => cases h
      | cons f fs =>
        obtain ⟨-, htail⟩ := List.cons.inj h
        have hpieces : q :: qs = (q :: fs) ++ [[]] := congrArg (q :: ·) htail
        refine hlater hpieces fun hnil => ?_
        rw [hnil, pieces_nil, hpieces] at hq
        simp at hq

lemma unlines_flatMap {α : Type} (f : α → List Text) (xs : List α) :
    unlines (xs.flatMap f) = xs.flatMap fun x => unlines (f x) := List.flatMap_assoc

/-- A text of lines is cut into these lines, and an empty piece behind the last line feed. -/
theorem pieces_unlines {ls : List Text} (h : ∀ l ∈ ls, '\n' ∉ l) :
    pieces '\n' (unlines ls) = ls ++ [[]] := by
  induction ls with
  | nil => rfl
  | cons l ls ih =>
    rw [unlines_cons, pieces_append (h l List.mem_cons_self),
      ih fun k hk => h k (List.mem_cons_of_mem l hk), List.cons_append]

lemma count_unlines {ls : List Text} (h : ∀ l ∈ ls, '\n' ∉ l) :
    (unlines ls).count '\n' = ls.length := by
  induction ls with
  | nil => rfl
  | cons l ls ih =>
    rw [unlines_cons, List.count_append, List.count_cons_self, List.count_eq_zero.mpr
      (h l List.mem_cons_self), ih fun k hk => h k (List.mem_cons_of_mem l hk), List.length_cons]
    omega

lemma getLast?_unlines {ls : List Text} (h : ls ≠ []) : (unlines ls).getLast? = some '\n' := by
  obtain ⟨ks, l, rfl⟩ := List.eq_nil_or_concat ls |>.resolve_left h
  simp

lemma dropReturn_isPrefix (line : Text) : dropReturn line <+: line := by
  unfold dropReturn
  split
  · exact List.dropLast_prefix line
  · exact List.prefix_rfl

lemma dropReturn_eq_self {line : Text} (h : line.getLast? ≠ some '\r') : dropReturn line = line :=
  if_neg h

lemma mem_closeLines {ps : List Text} {l : Text} (h : l ∈ closeLines ps) : ∃ p ∈ ps, l <+: p := by
  fun_induction closeLines ps with
  | case1 => cases h
  | case2 => cases h
  | case3 last =>
    obtain rfl := List.mem_singleton.mp h
    exact ⟨l, List.mem_cons_self, List.prefix_rfl⟩
  | case4 piece next rest ih =>
    rcases List.mem_cons.mp h with rfl | h
    · exact ⟨piece, List.mem_cons_self, dropReturn_isPrefix piece⟩
    · obtain ⟨p, hp, hl⟩ := ih h
      exact ⟨p, List.mem_cons_of_mem piece hp, hl⟩

theorem notMem_of_mem_lines {t l : Text} (h : l ∈ t.lines) : '\n' ∉ l := by
  obtain ⟨p, hp, hl⟩ := mem_closeLines h
  exact fun hm => notMem_of_mem_pieces hp (hl.subset hm)

lemma closeLines_concat (ls : List Text) : closeLines (ls ++ [[]]) = ls.map dropReturn := by
  induction ls with
  | nil => rfl
  | cons l ls ih =>
    cases ls with
    | nil => rfl
    | cons k ks => rw [List.map_cons, ← ih]; rfl

/-- The lines of a text of lines are these lines, if no line ends in a part of a line break. -/
theorem lines_unlines {ls : List Text} (h : ∀ l ∈ ls, '\n' ∉ l ∧ l.getLast? ≠ some '\r') :
    (unlines ls).lines = ls := by
  rw [lines, pieces_unlines fun l hl => (h l hl).1, closeLines_concat]
  refine (List.map_congr_left fun l hl => ?_).trans (List.map_id ls)
  exact dropReturn_eq_self (h l hl).2

end DartNodes.Text
