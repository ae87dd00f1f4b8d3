import DartNodes.Output.Target

/-! The function that makes a node from a tag, and the lines that declare it. -/
namespace DartNodes

/-- An ordered choice of a class by a member of the tag enumeration. -/
structure Dispatcher where
  /-- The members to compare with, in order, and the class that each yields. -/
  branches : List (Text × Text)
  /-- The class of every other member. -/
  fallback : Text
deriving DecidableEq, Repr

namespace Dispatcher

/-- The choice between the classes of some kinds. -/
def ofKinds (target : Target) (kinds : List Kind) : Dispatcher :=
  ⟨kinds.map fun kind => (target.enumConstant kind.tag, kind.className), target.baseClass⟩

/-- The class that the first fitting branch yields. -/
def select (d : Dispatcher) (constant : Text) : Text :=
  (d.branches.lookup constant).getD d.fallback

def headLine (target : Target) : Text :=
  target.interface ++ ' ' :: target.dispatcher ++ '(' :: target.enumName ++ ' ' ::
    target.tagField ++ ") \x7b"

def branchLine (target : Target) (branch : Text × Text) : Text :=
  "  if (" ++ target.tagField ++ " == " ++ branch.1 ++ ") return " ++ branch.2 ++ "();"

def lines (target : Target) (d : Dispatcher) : List Text :=
  headLine target :: d.branches.map (branchLine target) ++
    ["  return " ++ d.fallback ++ "();", "\x7d"]

@[simp] theorem length_lines (target : Target) (d : Dispatcher) :
    (d.lines target).length = d.branches.length + 3 := by
  simp [lines]

end Dispatcher
end DartNodes
