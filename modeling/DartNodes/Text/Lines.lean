import DartNodes.Text.Basic

/-! Lines of a text, and the text made of lines. -/
namespace DartNodes.Text

/-- The pieces of a text between the occurrences of `mark`; there is always at least one. -/
def pieces (mark : Char) (t : Text) : List Text :=
  t.foldr (fun c ps => if c = mark then [] :: ps else ps.modifyHead (c :: ·)) [[]]

@[simp] theorem pieces_nil (mark : Char) : pieces mark [] = [[]] := rfl

@[simp] theorem pieces_cons (mark c : Char) (t : Text) :
    pieces mark (c :: t) =
      if c = mark then [] :: pieces mark t else (pieces mark t).modifyHead (c :: ·) := rfl

theorem pieces_ne_nil (mark : Char) (t : Text) : pieces mark t ≠ [] := by
  induction t with
  | nil => simp
  | cons c t ih => by_cases h : c = mark <;> simp [h, ih]

/-- A carriage return at the end of a line belongs to the line break. -/
def dropReturn (line : Text) : Text :=
  if line.getLast? = some '\r' then line.dropLast else line

/-- The lines that the pieces between line feeds stand for. The last piece is not closed by a line
feed: it is a line only if it holds something, and then it is kept as it is. -/
def closeLines : List Text → List Text
  | [] => []
  | [last] => if last = [] then [] else [last]
  | piece :: next :: rest => dropReturn piece :: closeLines (next :: rest)

/-- The lines of a text, without their breaks: `\n`, or `\r\n`. -/
def lines (t : Text) : List Text := closeLines (pieces '\n' t)

@[simp] theorem lines_nil : lines [] = [] := rfl

/-- The text of the given lines, each closed by a line feed. -/
def unlines (ls : List Text) : Text := ls.flatMap (· ++ ['\n'])

@[simp] theorem unlines_nil : unlines [] = [] := rfl

@[simp] theorem unlines_cons (l : Text) (ls : List Text) :
    unlines (l :: ls) = l ++ '\n' :: unlines ls := by simp [unlines]

@[simp] theorem unlines_append (ks ls : List Text) :
    unlines (ks ++ ls) = unlines ks ++ unlines ls := by simp [unlines]

end DartNodes.Text
