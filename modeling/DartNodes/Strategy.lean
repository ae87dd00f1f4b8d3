import DartNodes.Text.Basic

/-! The two ways to declare the fields of a generated class. -/
namespace DartNodes

inductive Strategy where
  /-- Every field has the type that the base class gives it. -/
  | typed
  /-- Every field is declared `var`. -/
  | untyped
deriving DecidableEq, Repr

namespace Strategy

instance : Inhabited Strategy := ⟨typed⟩

def all : List Strategy := [typed, untyped]

theorem mem_all (s : Strategy) : s ∈ all := by cases s <;> decide

def name : Strategy → Text
  | typed => "typed"
  | untyped => "untyped"

/-- Only typed declarations are made from the source of the base class. -/
def needsBase : Strategy → Bool
  | typed => true
  | untyped => false

/-- The strategy of a name, in lower case. -/
def ofName? (name : Text) : Option Strategy := all.find? (·.name = name)

@[simp] theorem ofName?_name (s : Strategy) : ofName? s.name = some s := by cases s <;> decide

theorem name_of_ofName? {t : Text} {s : Strategy} (h : ofName? t = some s) : s.name = t := by
  simpa using List.find?_some h

/-- The name of a strategy that does not exist. -/
structure Unknown where
  name : Text
deriving DecidableEq, Repr

def Unknown.message (e : Unknown) : Text :=
  "unknown strategy '" ++ e.name ++ "' (expected 'typed' or 'untyped')"

/-- The strategy of a name in any case of its ASCII letters. -/
def ofName (name : Text) : Except Unknown Strategy :=
  match ofName? (name.map Char.toLower) with
  | some s => .ok s
  | none => .error ⟨name⟩

end Strategy
end DartNodes
