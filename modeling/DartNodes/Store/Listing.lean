import DartNodes.Store.Basic

/-! Stores made from a listing of paths, and the listing of a store. -/
namespace DartNodes.Store

/-- The store of an empty working directory. -/
def fresh : Store := { entries := [(["work"], .directory)], workingDir := ["work"] }

/-- Enters a directory, and makes it before if nothing was there. -/
def enterMaking (here : Store × Place) (name : Text) : Except Fault (Store × Place) := do
  let (store, place) := here
  let next ← store.enter place name
  match store.find? next with
  | none => return (store.set next .directory, next)
  | some .directory => return (store, next)
  | some (.file _) => throw .notADirectory

/-- The store with a directory at the end of the names, and on the whole way to it. -/
def makeWay (store : Store) (path : Text) (names : List Text) : Except Fault Store := do
  let (made, _) ← names.foldlM enterMaking (store, store.start path)
  return made

/-- The store with an entry at a path, and directories on the way to it where nothing was. -/
def plant (store : Store) (path : Text) : Entry → Except Fault Store
  | .directory => store.makeWay path (path.pieces '/')
  | .file bytes => do
    let made ← store.makeWay path (path.pieces '/').dropLast
    return made.set (← made.filePlace path) (.file bytes)

/-- What stands below the working directory, by paths from there. -/
def contents (store : Store) : List (Text × Entry) :=
  store.entries.filterMap fun (place, entry) =>
    if store.workingDir.isPrefixOf place ∧ place ≠ store.workingDir then
      some (List.intercalate ['/'] (place.drop store.workingDir.length), entry)
    else none

end DartNodes.Store
