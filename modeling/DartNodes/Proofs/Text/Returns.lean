import DartNodes.Proofs.Text.Columns
import DartNodes.Text.Lines

/-! Carriage returns in front of line feeds. All that they leave in the lines of a text are carriage
returns at the ends of some lines, where they are blanks. -/
namespace DartNodes.Text

/-- A text, and the same with a carriage return put in front of some of its line feeds. -/
inductive Returned : Text → Text → Prop
  | nil : Returned [] []
  | char {c t other} (tail : Returned t other) : Returned (c :: t) (c :: other)
  | feed {t other} (tail : Returned t other) : Returned ('\n' :: t) ('\r' :: '\n' :: other)

/-- A line, and the same with perhaps a carriage return at its end. -/
def LineReturned (line other : Text) : Prop := other = line ∨ other = line ++ ['\r']

/-- The last piece has no line feed behind it, and so no carriage return is put there. -/
inductive PiecesReturned : List Text → List Text → Prop
  | last {piece} : PiecesReturned [piece] [piece]
  | cons {piece other rest others} (here : LineReturned piece other) (tail : PiecesReturned rest others) :
      PiecesReturned (piece :: rest) (other :: others)

lemma PiecesReturned.modifyHead_cons {ps qs : List Text} (h : PiecesReturned ps qs) (c : Char) :
    PiecesReturned (ps.modifyHead (c :: ·)) (qs.modifyHead (c :: ·)) := by
  cases h with
  | last => exact .last
  | cons here tail =>
    refine .cons ?_ tail
    rcases here with rfl | rfl
    · exact .inl rfl
    · exact .inr rfl

lemma Returned.pieces {t other : Text} (h : Returned t other) :
    PiecesReturned (pieces '\n' t) (Text.pieces '\n' other) := by
  induction h with
  | nil => exact .last
  | @char c t other tail ih =>
    rw [pieces_cons, pieces_cons]
    split
    · exact .cons (.inl rfl) ih
    · exact ih.modifyHead_cons c
  | feed tail ih => exact .cons (.inr rfl) ih

/-- Of two carriage returns one is left. -/
lemma LineReturned.dropReturn {line other : Text} (h : LineReturned line other) :
    LineReturned (dropReturn line) (Text.dropReturn other) := by
  rcases h with rfl | rfl
  · exact .inl rfl
  · have hdrop : Text.dropReturn (line ++ ['\r']) = line := by simp [Text.dropReturn]
    rw [hdrop]
    by_cases hlast : line.getLast? = some '\r'
    · obtain ⟨front, rfl⟩ := List.getLast?_eq_some_iff.mp hlast
      refine .inr ?_
      simp [Text.dropReturn]
    · exact .inl (if_neg hlast).symm

lemma PiecesReturned.closeLines {ps qs : List Text} (h : PiecesReturned ps qs) :
    List.Forall₂ LineReturned (closeLines ps) (Text.closeLines qs) := by
  induction h with
  | last => exact List.forall₂_same.mpr fun _ _ => .inl rfl
  | cons here tail ih => cases tail <;> exact .cons here.dropReturn ih

theorem Returned.lines {t other : Text} (h : Returned t other) :
    List.Forall₂ LineReturned t.lines other.lines := h.pieces.closeLines

/-- Blanks behind a line make no words. -/
lemma wordsFrom_append_blank {s : Text} (h : ∀ c ∈ s, isBlank c = true) (inWord : Bool) (column : Nat)
    (t : Text) : wordsFrom inWord column (t ++ s) = wordsFrom inWord column t := by
  have hends : EndsWord s := fun c hc => h c (List.mem_of_head? hc)
  induction t generalizing inWord column with
  | nil =>
    rw [List.nil_append, wordsFrom_of_endsWord hends, wordsFrom_eq_nil.mpr h]
    rfl
  | cons c t ih =>
    have hrun : (c :: t ++ s).takeWhile (!isBlank ·) = (c :: t).takeWhile (!isBlank ·) :=
      takeWhile_append_left fun d hd => by simpa using hends d hd
    rw [List.cons_append, wordsFrom, wordsFrom, ih, ih, ← List.cons_append, hrun]

namespace LineReturned

variable {line other : Text} (h : LineReturned line other)
include h

lemma eq_append_blank : ∃ s, other = line ++ s ∧ ∀ c ∈ s, isBlank c = true := by
  rcases h with rfl | rfl
  · exact ⟨[], by simp, by simp⟩
  · exact ⟨['\r'], rfl, List.forall_mem_singleton.mpr (by decide)⟩

lemma words_eq : line.words = other.words := by
  obtain ⟨s, rfl, hs⟩ := h.eq_append_blank
  exact (wordsFrom_append_blank hs false 1 line).symm

lemma trim_eq : line.trim = other.trim := by
  obtain ⟨s, rfl, hs⟩ := h.eq_append_blank
  exact (trim_append_blank hs).symm

end LineReturned
end DartNodes.Text
