import DartNodes.Text.Basic
import Mathlib.Data.List.TakeWhile
import Mathlib.Tactic.Lemma

/-! The longest beginning of a text whose characters all pass a test ends where the first fails it. -/
namespace DartNodes.Text

variable {p : Char → Bool} {t front rest : Text}

lemma eq_false_of_head?_dropWhile {c : Char} (h : (t.dropWhile p).head? = some c) : p c = false := by
  have hnot := List.head?_dropWhile_not p t
  rw [h] at hnot
  exact hnot

/-- What cannot go on with a run does not change the run. -/
lemma takeWhile_append_left (hrest : ∀ c, rest.head? = some c → p c = false) :
    (t ++ rest).takeWhile p = t.takeWhile p := by
  induction t with
  | nil =>
    cases rest with
    | nil => rfl
    | cons c rest => simp [hrest c rfl]
  | cons c t ih => simp only [List.cons_append, List.takeWhile_cons, ih]

lemma takeWhile_append_stop (hfront : ∀ c ∈ front, p c = true)
    (hrest : ∀ c, rest.head? = some c → p c = false) : (front ++ rest).takeWhile p = front := by
  rw [takeWhile_append_left hrest, List.takeWhile_eq_self_iff.mpr hfront]

lemma dropWhile_append_stop (hfront : ∀ c ∈ front, p c = true)
    (hrest : ∀ c, rest.head? = some c → p c = false) : (front ++ rest).dropWhile p = rest := by
  rw [List.dropWhile_append_of_pos hfront]
  cases rest with
  | nil => rfl
  | cons c t => simp [hrest c rfl]

end DartNodes.Text
