import DartNodes.Text.Basic

/-! The reasons why a file cannot be read or written. -/
namespace DartNodes

inductive Fault where
  | notFound
  | notADirectory
  | isADirectory
  | invalidUtf8
  /-- Any other fault, as the system tells it. -/
  | other (description : Text)
deriving DecidableEq, Repr

namespace Fault

def message : Fault → Text
  | notFound => "No such file or directory (os error 2)"
  | notADirectory => "Not a directory (os error 20)"
  | isADirectory => "Is a directory (os error 21)"
  | invalidUtf8 => "stream did not contain valid UTF-8"
  | other description => description

/-- The text that the bytes of a file spell. -/
def decode (bytes : ByteArray) : Except Fault Text :=
  match Text.ofBytes? bytes with
  | none => .error invalidUtf8
  | some text => .ok text

@[simp] theorem decode_toBytes (text : Text) : decode text.toBytes = .ok text := by
  simp [decode]

end Fault
end DartNodes
