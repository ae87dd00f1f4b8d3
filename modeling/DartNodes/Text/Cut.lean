import DartNodes.Text.Basic

/-! Cutting a text in two at the first occurrence of a mark. -/
namespace DartNodes.Text

/-- The text before and the text after the first occurrence of `mark`, if there is one. -/
def cut? (t mark : Text) : Option (Text × Text) :=
  match t with
  | [] => if mark = [] then some ([], []) else none
  | c :: rest =>
    if mark.isPrefixOf t then some ([], t.drop mark.length)
    else (cut? rest mark).map fun (before, after) => (c :: before, after)

/-- Nothing but the mark is lost. -/
theorem eq_of_cut? {mark t before after : Text} (h : t.cut? mark = some (before, after)) :
    t = before ++ mark ++ after := by
  induction t generalizing before with
  | nil =>
    by_cases hm : mark = [] <;> simp_all [cut?]
  | cons c t ih =>
    by_cases hm : mark.isPrefixOf (c :: t)
    · obtain ⟨r, hr⟩ := List.isPrefixOf_iff_prefix.mp hm
      simp only [cut?, hm, if_true, Option.some.injEq, Prod.mk.injEq] at h
      obtain ⟨rfl, rfl⟩ := h
      simp [← hr]
    · simp only [cut?, hm, Bool.false_eq_true, if_false, Option.map_eq_some_iff] at h
      obtain ⟨⟨b, a⟩, hcut, hb⟩ := h
      obtain ⟨rfl, rfl⟩ := Prod.mk.injEq .. ▸ hb
      simp [ih hcut]

end DartNodes.Text
