import DartNodes.Text.Cut
import Mathlib.Tactic.Lemma

/-! A cut is made where the mark occurs first. If the mark is a single character, the text before the
cut does not hold it. -/
namespace DartNodes.Text

/-- A text falls into what stands before and what stands behind the first occurrence of a mark. -/
structure FirstCut (t mark before after : Text) : Prop where
  split : t = before ++ mark ++ after
  first : ∀ b a, t = b ++ mark ++ a → before.length ≤ b.length

lemma firstCut_of_isPrefix {t mark before after : Text} (h : mark.isPrefixOf t = true) :
    FirstCut t mark before after ↔ before = [] ∧ after = t.drop mark.length := by
  obtain ⟨rest, rfl⟩ := List.isPrefixOf_iff_prefix.mp h
  rw [List.drop_left]
  constructor
  · rintro ⟨split, first⟩
    obtain rfl := List.eq_nil_of_length_eq_zero (Nat.le_zero.mp (first [] rest rfl))
    exact ⟨rfl, (List.append_cancel_left split).symm⟩
  · rintro ⟨rfl, rfl⟩
    exact ⟨rfl, fun _ _ _ => Nat.zero_le _⟩

lemma firstCut_cons {c : Char} {t mark before after : Text}
    (h : ¬ mark.isPrefixOf (c :: t) = true) :
    FirstCut (c :: t) mark before after ↔ ∃ front, before = c :: front ∧ FirstCut t mark front after := by
  have hlater : ∀ {b a}, c :: t = b ++ mark ++ a → ∃ front, b = c :: front ∧ t = front ++ mark ++ a := by
    intro b a heq
    cases b with
    | nil => exact absurd (List.isPrefixOf_iff_prefix.mpr ⟨a, heq.symm⟩) h
    | cons d front =>
      obtain ⟨rfl, rfl⟩ := List.cons.inj heq
      exact ⟨front, rfl, rfl⟩
  constructor
  · rintro ⟨split, first⟩
    obtain ⟨front, rfl, hsplit⟩ := hlater split
    refine ⟨front, rfl, hsplit, fun b a heq => ?_⟩
    exact Nat.le_of_succ_le_succ (first (c :: b) a (congrArg (c :: ·) heq))
  · rintro ⟨front, rfl, split, first⟩
    refine ⟨congrArg (c :: ·) split, fun b a heq => ?_⟩
    obtain ⟨other, rfl, hother⟩ := hlater heq
    exact Nat.succ_le_succ (first other a hother)

/-- A text is cut at the first occurrence of the mark, also where occurrences overlap. -/
theorem cut?_eq_some {t mark before after : Text} :
    cut? t mark = some (before, after) ↔ FirstCut t mark before after := by
  induction t generalizing before with
  | nil =>
    by_cases hm : mark = []
    · subst hm
      rw [firstCut_of_isPrefix rfl]
      simp [cut?, eq_comm]
    · have hno : ¬ FirstCut [] mark before after := by
        rintro ⟨split, -⟩
        exact hm (List.append_eq_nil_iff.mp (List.append_eq_nil_iff.mp split.symm).1).2
      simp [cut?, hm, hno]
  | cons c t ih =>
    by_cases hm : mark.isPrefixOf (c :: t) = true
    · rw [firstCut_of_isPrefix hm]
      simp [cut?, hm, eq_comm]
    · rw [firstCut_cons hm, cut?, if_neg hm, Option.map_eq_some_iff]
      constructor
      · rintro ⟨⟨front, back⟩, hcut, heq⟩
        cases heq
        exact ⟨front, rfl, ih.mp hcut⟩
      · rintro ⟨front, rfl, hcut⟩
        exact ⟨(front, after), ih.mpr hcut, rfl⟩

example : cut? "a==b" "=" = some ("a".toList, "=b".toList) := by decide

/-- The mark does not stand in the text before the cut. -/
lemma FirstCut.not_infix {t mark before after : Text} (h : FirstCut t mark before after)
    (hmark : mark ≠ []) : ¬ mark <:+: before := by
  rintro ⟨b, a, rfl⟩
  have hearlier := h.first b (a ++ mark ++ after) (by rw [h.split]; simp)
  have hpositive := List.length_pos_iff.mpr hmark
  simp only [List.length_append] at hearlier
  omega

/-- Behind a text without the mark, and a character that the mark does not hold, the mark stands for the
first time. -/
lemma firstCut_append {t mark : Text} {c : Char} (ht : ¬ mark <:+: t) (hc : c ∉ mark) (rest : Text) :
    FirstCut (t ++ [c] ++ mark ++ rest) mark (t ++ [c]) rest := by
  refine ⟨rfl, ?_⟩
  intro b a heq
  rw [← Nat.not_lt]
  intro hearlier
  have hstart : b.length ≤ t.length := by simpa [Nat.lt_succ_iff] using hearlier
  -- An earlier occurrence reaches over `c`, or else it lies in `t`.
  by_cases hend : t.length < (b ++ mark).length
  · apply hc
    have hhere : (b ++ mark ++ a)[t.length]? = some c := by
      rw [← heq]
      simp
    rw [List.getElem?_append_left hend, List.getElem?_append_right hstart] at hhere
    exact List.mem_of_getElem? hhere
  · apply ht
    have hwhole : t <+: b ++ mark ++ a := by
      rw [← heq]
      simp
    obtain ⟨back, rfl⟩ := List.prefix_of_prefix_length_le (List.prefix_append (b ++ mark) a) hwhole
      (Nat.le_of_not_lt hend)
    exact ⟨b, back, rfl⟩

lemma cut?_cons_singleton (mark c : Char) (t : Text) :
    cut? (c :: t) [mark] =
      if c = mark then some ([], t) else (cut? t [mark]).map fun (before, after) => (c :: before, after) := by
  by_cases h : c = mark
  · subst h
    simp [cut?]
  · simp [cut?, h, Ne.symm h]

theorem cut?_singleton_eq_none {mark : Char} {t : Text} : cut? t [mark] = none ↔ mark ∉ t := by
  induction t with
  | nil => simp [cut?]
  | cons c t ih =>
    by_cases h : c = mark
    · simp [cut?_cons_singleton, h]
    · simp [cut?_cons_singleton, h, ih, Ne.symm h]

theorem cut?_singleton_eq_some {mark : Char} {t before after : Text} :
    cut? t [mark] = some (before, after) ↔ t = before ++ mark :: after ∧ mark ∉ before := by
  induction t generalizing before with
  | nil => simp [cut?]
  | cons c t ih =>
    rw [cut?_cons_singleton]
    by_cases h : c = mark
    · subst h
      cases before <;> simp +contextual [eq_comm]
    · cases before with
      | nil => simp [h]
      | cons d before =>
        rw [if_neg h, Option.map_eq_some_iff]
        constructor
        · rintro ⟨⟨b, a⟩, hcut, heq⟩
          cases heq
          obtain ⟨rfl, hb⟩ := ih.mp hcut
          exact ⟨rfl, List.not_mem_cons_of_ne_of_not_mem (Ne.symm h) hb⟩
        · rintro ⟨heq, hm⟩
          obtain ⟨rfl, rfl⟩ := List.cons.inj heq
          exact ⟨(before, after), ih.mpr ⟨rfl, (List.ne_and_not_mem_of_not_mem_cons hm).2⟩, rfl⟩

end DartNodes.Text
