import DartNodes.Command.Flag
import DartNodes.Text.Cut

/-! Reading the arguments of the command line, from left to right. The first offence ends it.

The rules are those that clap documents for options of one value each, for switches, and for a command that
takes nothing else: a value stands in the next argument or behind `=`, short switches may share one argument,
a value that starts with `-` has to be attached, and an option that does not append its values, as well as a
switch, is given at most once. -/
namespace DartNodes.Command

inductive UsageError where
  | missingSchema
  /-- A flag without its value, or with a value that it does not take. -/
  | invalidValue (setting : Setting)
  | unknownArgument (argument : Text)
  | repeated (flag : Flag)
  /-- A value for a flag that takes none. -/
  | unexpectedValue (flag : Flag)
deriving DecidableEq, Repr

/-- What ends the reading before a run. -/
inductive Halt where
  | usage (error : UsageError)
  | help
  | version
deriving DecidableEq, Repr

/-- The arguments read so far. -/
structure Reading where
  /-- The settled values, in order. -/
  values : List (Setting × Text) := []
  verbose : Bool := false
  /-- The last flag, if it takes a value from an argument of its own, and that value once it came.
  It is settled when the next flag comes, or at the end. -/
  pending? : Option (Setting × Option Text) := none
deriving DecidableEq, Repr

/-- The forms of an argument. -/
inductive Form where
  | separator
  /-- `--name` or `--name=value`. -/
  | long (name : Text) (value? : Option Text)
  /-- Letters behind a single `-`. -/
  | cluster (letters : Text)
  | plain
deriving DecidableEq, Repr

def Form.ofText : Text → Form
  | ['-', '-'] => .separator
  | '-' :: '-' :: rest =>
    match Text.cut? rest "=" with
    | none => .long rest none
    | some (name, value) => .long name (some value)
  | '-' :: letter :: rest => .cluster (letter :: rest)
  | _ => .plain

namespace Reading

def isSet (r : Reading) (s : Setting) : Bool := r.values.any (·.1 = s)

/-- Takes the value of a flag. A missing value counts before a repetition, and that before a value
that the flag does not take. -/
def accept (r : Reading) (s : Setting) : Option Text → Except Halt Reading
  | none => .error (.usage (.invalidValue s))
  | some value =>
    if r.isSet s ∧ ¬ s.isRepeatable then .error (.usage (.repeated (.setting s)))
    else if s.accepts value then .ok { r with values := r.values ++ [(s, value)] }
    else .error (.usage (.invalidValue s))

/-- Takes the value of the pending flag. -/
def settle (r : Reading) : Except Halt Reading :=
  match r.pending? with
  | none => .ok r
  | some (s, value?) => accept { r with pending? := none } s value?

/-- A flag that takes a value, with it if it was given in the same argument. -/
def onSetting (r : Reading) (s : Setting) (value? : Option Text) : Except Halt Reading := do
  let settled ← r.settle
  match value? with
  | none => return { settled with pending? := some (s, none) }
  | some value => settled.accept s (some value)

/-- A flag that takes no value. -/
def onSwitch (r : Reading) (s : Switch) : Except Halt Reading := do
  let settled ← r.settle
  match s with
  | .help => throw .help
  | .version => throw .version
  | .verbose =>
    if settled.verbose then
      throw (.usage (.repeated (.switch .verbose)))
    return { settled with verbose := true }

/-- Letters of one argument. What follows a flag that takes a value is the value, with or without a
`=` before it. -/
def onLetters (argument : Text) (r : Reading) : Text → Except Halt Reading
  | [] => .ok r
  | letter :: rest =>
    match Flag.ofLetter? letter with
    | none => .error (.usage (.unknownArgument argument))
    | some (.switch s) => do onLetters argument (← r.onSwitch s) rest
    | some (.setting s) =>
      match rest with
      | [] => r.onSetting s none
      | '=' :: value => r.onSetting s (some value)
      | value => r.onSetting s (some value)

/-- A flag that is written out. One that does not exist is told at once, whatever the flag before it
still lacks, and so is a value that the flag does not take. -/
def onLong (argument : Text) (r : Reading) (name : Text) (value? : Option Text) :
    Except Halt Reading :=
  match Flag.ofName? name, value? with
  | none, _ => .error (.usage (.unknownArgument argument))
  | some (.setting s), _ => r.onSetting s value?
  | some (.switch s), none => r.onSwitch s
  | some (.switch s), some _ => .error (.usage (.unexpectedValue (.switch s)))

/-- An argument that is no flag: the value of the flag before it, if that lacks one. -/
def onPlain (argument : Text) (r : Reading) : Except Halt Reading :=
  match r.pending? with
  | some (s, none) => .ok { r with pending? := some (s, some argument) }
  | _ => .error (.usage (.unknownArgument argument))

/-- All arguments from here on. None may follow a `--`. -/
def onArguments (r : Reading) : List Text → Except Halt Reading
  | [] => r.settle
  | argument :: rest =>
    match Form.ofText argument with
    | .separator =>
      match rest with
      | [] => r.settle
      | next :: _ => .error (.usage (.unknownArgument next))
    | .long name value? => do onArguments (← onLong argument r name value?) rest
    | .cluster letters => do onArguments (← onLetters argument r letters) rest
    | .plain => do onArguments (← onPlain argument r) rest

/-- The value of a flag. -/
def value? (r : Reading) (s : Setting) : Option Text := r.values.lookup s

/-- All values of a flag that may be repeated, in order. -/
def valuesOf (r : Reading) (s : Setting) : List Text :=
  r.values.filterMap fun (t, value) => if t = s then some value else none

end Reading
end DartNodes.Command
