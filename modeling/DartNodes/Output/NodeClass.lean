import DartNodes.Output.Target

/-! Generated classes and the lines that declare them. -/
namespace DartNodes

/-- A field of a generated class. -/
structure Declaration where
  type : Text
  name : Text
  initial? : Option Text
deriving DecidableEq, Repr

/-- What stands between the type of a field and the end of its line. -/
def Declaration.rest (d : Declaration) : Text :=
  match d.initial? with
  | none => d.name ++ ";"
  | some initial => d.name ++ " = " ++ initial ++ ";"

/-- A field stands behind an empty line and overrides that of the base class. -/
def Declaration.lines (d : Declaration) : List Text :=
  [[], "  @override", "  " ++ d.type ++ ' ' :: d.rest]

/-- A generated class. -/
structure NodeClass where
  name : Text
  tag : Text
  fields : List Declaration
deriving DecidableEq, Repr

namespace NodeClass

/-- The first lines of a class: its name, and the field that holds its tag. -/
def headLines (target : Target) (c : NodeClass) : List Text :=
  ["class " ++ c.name ++ " extends " ++ target.baseClass ++ " \x7b",
    "  @override",
    "  " ++ target.enumName ++ ' ' :: target.tagField ++ " = " ++ target.enumConstant c.tag ++ ";"]

/-- The end of a class, and an empty line behind it. -/
def lastLines : List Text := ["\x7d", []]

def lines (target : Target) (c : NodeClass) : List Text :=
  c.headLines target ++ c.fields.flatMap Declaration.lines ++ lastLines

@[simp] theorem length_lines (target : Target) (c : NodeClass) :
    (c.lines target).length = 5 + 3 * c.fields.length := by
  have h : ∀ ds : List Declaration, (ds.flatMap Declaration.lines).length = 3 * ds.length := by
    intro ds
    induction ds with
    | nil => rfl
    | cons d ds ih =>
      rw [List.flatMap_cons, List.length_append, ih, List.length_cons]
      simp only [Declaration.lines, List.length_cons, List.length_nil]
      omega
  simp only [lines, headLines, lastLines, List.length_append, h, List.length_cons, List.length_nil]
  omega

end NodeClass
end DartNodes
