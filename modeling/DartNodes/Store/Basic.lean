import DartNodes.Assoc
import DartNodes.Store.Fault
import DartNodes.Text.Lines

/-! Stores of files and directories, what a path leads to in them, and how files are read and written. To write
a file is to open it, which empties it, and then to fill it, which may stop halfway. Links and permissions are
left out. -/
namespace DartNodes

inductive Entry where
  | file (bytes : ByteArray)
  | directory

instance : DecidableEq Entry
  | .file a, .file b =>
    match ByteArray.instDecidableEq a b with
    | isTrue h => isTrue (congrArg Entry.file h)
    | isFalse h => isFalse fun he => h (Entry.file.inj he)
  | .file _, .directory => isFalse nofun
  | .directory, .file _ => isFalse nofun
  | .directory, .directory => isTrue rfl

/-- The names on the way from the root to a place. -/
abbrev Place := List Text

/-- How many bytes the file of a place takes, and the fault of a write that brings more. -/
structure Limit where
  room : Nat
  fault : Fault
deriving DecidableEq, Repr

structure Store where
  entries : List (Place × Entry)
  /-- Where paths start that do not start with `/`. -/
  workingDir : Place
  /-- The places that do not take every file, as on a full disk or over a quota. -/
  limits : List (Place × Limit) := []
deriving DecidableEq

namespace Store

/-- What stands at a place; the root is a directory. -/
def find? (store : Store) (place : Place) : Option Entry :=
  if place = [] then some .directory else store.entries.lookup place

def set (store : Store) (place : Place) (entry : Entry) : Store :=
  { store with entries := Assoc.set place entry store.entries }

def limit? (store : Store) (place : Place) : Option Limit := store.limits.lookup place

@[simp] theorem find?_root (store : Store) : store.find? [] = some .directory := rfl

theorem find?_set (store : Store) (place query : Place) (entry : Entry) (h : place ≠ []) :
    (store.set place entry).find? query =
      if query = place then some entry else store.find? query := by
  by_cases hq : query = []
  · have hp : [] ≠ place := fun he => h he.symm
    subst hq
    rw [if_neg hp]
    rfl
  · simp [find?, hq, set, Assoc.lookup_set]

@[simp] theorem workingDir_set (store : Store) (place : Place) (entry : Entry) :
    (store.set place entry).workingDir = store.workingDir := rfl

@[simp] theorem limits_set (store : Store) (place : Place) (entry : Entry) :
    (store.set place entry).limits = store.limits := rfl

/-- The place that a name leads to. Only directories lead on. -/
def enter (store : Store) (here : Place) (name : Text) : Except Fault Place :=
  match store.find? here with
  | none => .error .notFound
  | some (.file _) => .error .notADirectory
  | some .directory =>
    if name = [] ∨ name = "." then .ok here
    else if name = ".." then .ok here.dropLast
    else .ok (here ++ [name])

/-- Where a path starts. -/
def start (store : Store) (path : Text) : Place :=
  if path.head? = some '/' then [] else store.workingDir

/-- The place at the end of the names, each entered from the one before. -/
def walk (store : Store) (here : Place) (names : List Text) : Except Fault Place :=
  names.foldlM store.enter here

/-- The bytes of the file that a path leads to. The empty path leads nowhere. -/
def read (store : Store) (path : Text) : Except Fault ByteArray := do
  if path = [] then
    throw .notFound
  let place ← store.walk (store.start path) (path.pieces '/')
  match store.find? place with
  | none => throw .notFound
  | some .directory => throw .isADirectory
  | some (.file bytes) => return bytes

/-- The text of the file that a path leads to. -/
def readText (store : Store) (path : Text) : Except Fault Text := do
  Fault.decode (← store.read path)

/-- The place where a path lets a file be written: its directory has to be there, and a path that
ends in `/` names no file. -/
def filePlace (store : Store) (path : Text) : Except Fault Place := do
  let names := (path.pieces '/').filter (· ≠ [])
  match names.getLast? with
  | none => throw (if path = [] then .notFound else .isADirectory)
  | some last =>
    let place ← store.enter (← store.walk (store.start path) names.dropLast) last
    if path.getLast? = some '/' ∨ store.find? place = some .directory then
      throw .isADirectory
    return place

/-- Opens the file of a path to write it: from then on it is there, and empty. -/
def create (store : Store) (path : Text) : Except Fault (Place × Store) := do
  let place ← store.filePlace path
  return (place, store.set place (.file .empty))

/-- The bytes that the file of a place holds once all of them were written to it, or as many as it takes
before the fault that stops the writing. -/
def accept (store : Store) (place : Place) (bytes : ByteArray) : ByteArray × Except Fault Unit :=
  match store.limit? place with
  | none => (bytes, .ok ())
  | some limit =>
    if bytes.size ≤ limit.room then (bytes, .ok ())
    else (bytes.extract 0 limit.room, .error limit.fault)

/-- Writes the bytes to the open file of a place. -/
def fill (store : Store) (place : Place) (bytes : ByteArray) : Except Fault Unit × Store :=
  let (held, ended) := store.accept place bytes
  (ended, store.set place (.file held))

/-- Writes the bytes to the file of a path, and the store after it. The file is opened first, so one that
does not take all the bytes has lost what it held before. -/
def write (store : Store) (path : Text) (bytes : ByteArray) : Except Fault Unit × Store :=
  match store.create path with
  | .error fault => (.error fault, store)
  | .ok (place, opened) => opened.fill place bytes

end Store
end DartNodes
