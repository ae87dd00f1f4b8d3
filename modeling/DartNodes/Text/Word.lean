import DartNodes.Text.Blank

/-! The words of a line and the columns where they start. -/
namespace DartNodes

/-- A maximal run of non-blank characters, and the column of its first, counted from 1. -/
structure Word where
  text : Text
  column : Nat
deriving DecidableEq, Repr

namespace Text

/-- The words of the rest of a line that starts in `column`. A word starts at each character that
is not blank and does not continue a word. -/
def wordsFrom (inWord : Bool) (column : Nat) : Text → List Word
  | [] => []
  | c :: t =>
    if isBlank c then wordsFrom false (column + 1) t
    else if inWord then wordsFrom true (column + 1) t
    else ⟨(c :: t).takeWhile (!isBlank ·), column⟩ :: wordsFrom true (column + 1) t

/-- The words of a line, from left to right. -/
def words (line : Text) : List Word := wordsFrom false 1 line

@[simp] theorem words_nil : words [] = [] := rfl

@[simp] theorem wordsFrom_cons_blank {c : Char} (h : isBlank c = true) (inWord : Bool) (column : Nat)
    (t : Text) : wordsFrom inWord column (c :: t) = wordsFrom false (column + 1) t := by
  simp [wordsFrom, h]

/-- What is left of a running word makes no word of its own. -/
theorem wordsFrom_append {w : Text} (h : ∀ c ∈ w, isBlank c = false) (column : Nat) (t : Text) :
    wordsFrom true column (w ++ t) = wordsFrom true (column + w.length) t := by
  induction w generalizing column with
  | nil => rfl
  | cons c w ih =>
    simp [wordsFrom, h c List.mem_cons_self, ih fun d hd => h d (List.mem_cons_of_mem c hd)]
    congr 1
    omega

end Text
end DartNodes
