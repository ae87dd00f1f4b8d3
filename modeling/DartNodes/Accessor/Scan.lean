import DartNodes.Accessor.Table
import DartNodes.Text.Blank
import DartNodes.Text.Cut
import DartNodes.Text.Lines
import DartNodes.Traced

/-! Finding the types of fields in the source of the base class, from lines such as
`String get value => _value;` behind the marker line that opens the class. -/
namespace DartNodes

/-- A declared field of the base class. -/
structure Accessor where
  name : Text
  type : Text
deriving DecidableEq, Repr

/-- The marker line that is meant unless another one is given. -/
def defaultMarker : Text := "class ASTNode implements AST \x7b"

/-- The ASCII letters and digits, `_` and `$`. -/
def isNameChar (c : Char) : Bool := c.isAlphanum || c = '_' || c = '$'

namespace Accessor

/-- The accessor on a trimmed line. The first ` get ` parts the type from the name, and a line that
starts with `//` declares nothing. -/
def ofLine? (line : Text) : Option Accessor :=
  if "//".toList.isPrefixOf line then none
  else
    match line.cut? " get " with
    | none => none
    | some (before, after) =>
      let name := after.trimStart.takeWhile isNameChar
      let type := before.trim
      if name = [] ∨ type = [] then none else some ⟨name, type⟩

/-- The lines behind the first that is `marker`. -/
def linesAfter? (marker : Text) (lines : List Text) : Option (List Text) :=
  match lines.dropWhile (· ≠ marker) with
  | [] => none
  | _ :: rest => some rest

/-- The accessors behind the marker line, repeated names included. -/
def list? (source marker : Text) : Option (List Accessor) :=
  (linesAfter? marker.trim (source.lines.map Text.trim)).map (·.filterMap ofLine?)

end Accessor

/-- No line of the base source is the marker. -/
structure MarkerMissing where
  marker : Text
deriving DecidableEq, Repr

/-- The table of accessors behind the marker line. -/
def Table.recover (source marker : Text) : Traced MarkerMissing Table :=
  match Accessor.list? source marker with
  | none => do
    Traced.report [.markerMissing marker.trim]
    Traced.fail ⟨marker⟩
  | some accessors => do
    Traced.report (accessors.map fun a => .typeRecovered a.name a.type)
    return ofPairs (accessors.map fun a => (a.name, a.type))

end DartNodes
