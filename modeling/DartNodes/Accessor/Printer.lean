import DartNodes.Accessor.Scan

/-! Writing a table as the source of a base class. -/
namespace DartNodes.Table

/-- The line of an accessor. The tab keeps a type that ends in ` get` from running into the mark
that parts it from the name. -/
def accessorLine (entry : Text × Text) : Text := entry.2 ++ '\t' :: " get " ++ entry.1

/-- The marker line, and then one line for each entry. -/
def print (marker : Text) (table : Table) : Text :=
  Text.unlines (marker.trim :: table.entries.map accessorLine)

end DartNodes.Table
