import DartNodes.Strategy

/-! The flags of the command line. -/
namespace DartNodes.Command

/-- The flags that take a value. -/
inductive Setting where
  | schema
  | base
  | out
  | strategy
  | marker
  | baseClass
  | interface
  | enumName
  | dispatcher
  | importLine
deriving DecidableEq, Repr

/-- The flags that take none. -/
inductive Switch where
  | verbose
  | help
  | version
deriving DecidableEq, Repr

namespace Setting

def all : List Setting :=
  [schema, base, out, strategy, marker, baseClass, interface, enumName, dispatcher, importLine]

theorem mem_all (s : Setting) : s ∈ all := by cases s <;> decide

def name : Setting → Text
  | schema => "schema"
  | base => "base"
  | out => "out"
  | strategy => "strategy"
  | marker => "marker"
  | baseClass => "base-class"
  | interface => "interface"
  | enumName => "enum-name"
  | dispatcher => "dispatcher"
  | importLine => "import"

/-- Paths are not empty, and a strategy has one of the known names. -/
def accepts : Setting → Text → Bool
  | schema, value | base, value | out, value => value ≠ []
  | strategy, value => (Strategy.ofName? value).isSome
  | _, _ => true

/-- Only import lines may be given more than once. -/
def isRepeatable (s : Setting) : Bool := s = importLine

end Setting

namespace Switch

def all : List Switch := [verbose, help, version]

def name : Switch → Text
  | verbose => "verbose"
  | help => "help"
  | version => "version"

end Switch

inductive Flag where
  | setting (s : Setting)
  | switch (s : Switch)
deriving DecidableEq, Repr

namespace Flag

def all : List Flag := Setting.all.map setting ++ Switch.all.map switch

def name : Flag → Text
  | setting s => s.name
  | switch s => s.name

/-- The flag that `--name` is; a name is not shortened. -/
def ofName? (name : Text) : Option Flag := all.find? (·.name = name)

@[simp] theorem ofName?_name (f : Flag) : ofName? f.name = some f := by
  rcases f with s | s <;> cases s <;> decide

/-- The flag that a single letter is. -/
def ofLetter? : Char → Option Flag
  | 'o' => some (setting .out)
  | 'v' => some (switch .verbose)
  | 'h' => some (switch .help)
  | 'V' => some (switch .version)
  | _ => none

end Flag
end DartNodes.Command
