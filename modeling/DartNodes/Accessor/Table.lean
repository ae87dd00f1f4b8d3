import DartNodes.Assoc
import DartNodes.Text.Basic

/-! Tables of the types of fields. They keep the order in which names first came, as an `IndexMap` does. -/
namespace DartNodes

/-- Types by the name of a field. -/
structure Table where
  entries : List (Text × Text)
  distinct : (Assoc.keys entries).Nodup

namespace Table

def empty : Table := ⟨[], List.nodup_nil⟩

/-- Gives a name its type. A name that is there keeps its place and loses its type. -/
def insert (table : Table) (name type : Text) : Table :=
  ⟨Assoc.set name type table.entries, Assoc.nodup_keys_set name type table.distinct⟩

/-- The table that pairs of names and types make, from left to right. -/
def ofPairs (pairs : List (Text × Text)) : Table :=
  pairs.foldl (fun table (name, type) => table.insert name type) empty

def names (table : Table) : List Text := Assoc.keys table.entries

def get? (table : Table) (name : Text) : Option Text := table.entries.lookup name

def contains (table : Table) (name : Text) : Bool := (table.get? name).isSome

def size (table : Table) : Nat := table.entries.length

def isEmpty (table : Table) : Bool := table.entries.isEmpty

@[simp] theorem get?_empty (name : Text) : empty.get? name = none := rfl

@[simp] theorem get?_insert (table : Table) (name type query : Text) :
    (table.insert name type).get? query =
      if query = name then some type else table.get? query := by
  simp [get?, insert, Assoc.lookup_set]

@[simp] theorem names_empty : empty.names = [] := rfl

@[simp] theorem names_insert (table : Table) (name type : Text) :
    (table.insert name type).names =
      if name ∈ table.names then table.names else table.names ++ [name] :=
  Assoc.keys_set name type table.entries

theorem contains_iff (table : Table) (name : Text) : table.contains name = true ↔ name ∈ table.names := by
  rw [contains, Option.isSome_iff_ne_none, ne_eq, get?, Assoc.lookup_eq_none_iff, names]
  exact Decidable.not_not

@[simp] theorem length_names (table : Table) : table.names.length = table.size := by
  simp [names, size, Assoc.keys]

/-- Tables that give the same types, whatever their order: the equality that is documented of `IndexMap`. -/
def agrees (s t : Table) : Bool :=
  s.size = t.size && s.entries.all fun (name, type) => t.get? name = some type

end Table
end DartNodes
