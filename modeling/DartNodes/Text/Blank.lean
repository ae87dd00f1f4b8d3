import DartNodes.Text.Basic

/-! The code points with the Unicode property White_Space, and trimming by them. -/
namespace DartNodes.Text

/-- The ranges of White_Space, both ends included. -/
def blankRanges : List (Nat × Nat) :=
  [(0x0009, 0x000D), (0x0020, 0x0020), (0x0085, 0x0085), (0x00A0, 0x00A0), (0x1680, 0x1680),
    (0x2000, 0x200A), (0x2028, 0x2029), (0x202F, 0x202F), (0x205F, 0x205F), (0x3000, 0x3000)]

def isBlank (c : Char) : Bool :=
  blankRanges.any fun (low, high) => decide (low ≤ c.toNat) && decide (c.toNat ≤ high)

theorem isBlank_of_isWhitespace {c : Char} (h : c.isWhitespace = true) : isBlank c = true := by
  simp only [Char.isWhitespace, Bool.or_eq_true, decide_eq_true_eq] at h
  rcases h with ((rfl | rfl) | rfl) | rfl <;> decide

def trimStart (t : Text) : Text := t.dropWhile isBlank

def trimEnd (t : Text) : Text := (t.reverse.dropWhile isBlank).reverse

/-- The text without the blanks at both ends. -/
def trim (t : Text) : Text := t.trimStart.trimEnd

@[simp] theorem trim_nil : trim [] = [] := rfl

theorem trimStart_append_blank {s t : Text} (h : ∀ c ∈ s, isBlank c = true) :
    trimStart (s ++ t) = t.trimStart := by
  induction s with
  | nil => rfl
  | cons c s ih =>
    simp [trimStart, h c List.mem_cons_self] at ih ⊢
    exact ih fun d hd => h d (List.mem_cons_of_mem c hd)

theorem trimEnd_append_blank {s t : Text} (h : ∀ c ∈ t, isBlank c = true) :
    trimEnd (s ++ t) = s.trimEnd := by
  have hr : ∀ c ∈ t.reverse, isBlank c = true := by simpa using h
  simpa [trimEnd, trimStart] using congrArg List.reverse (trimStart_append_blank (t := s.reverse) hr)

end DartNodes.Text
