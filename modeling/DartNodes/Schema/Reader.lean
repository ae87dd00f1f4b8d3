import DartNodes.Schema.Error
import DartNodes.Text.Cut
import DartNodes.Text.Lines
import DartNodes.Text.Word
import DartNodes.Traced

/-! Reading schemas. The first line of a text is its header; every later line that holds a word is
the record of a kind: its tag, its class, and its fields, each `name` or `name=initial`. -/
namespace DartNodes

/-- A word of a record as a field. The first `=` ends the name, and both sides need some text. -/
def Field.ofWord (line : Nat) (word : Word) : Except ParseError Field :=
  match word.text.cut? "=" with
  | none => .ok ⟨word.text, none⟩
  | some (name, initial) =>
    if name = [] then .error (.invalidField line word.column word.text .missingName)
    else if initial = [] then .error (.invalidField line word.column word.text .missingDefault)
    else .ok ⟨name, some initial⟩

/-- The kind that a line declares; a line without words declares none. -/
def Kind.ofLine (number : Nat) (line : Text) : Except ParseError (Option Kind) :=
  match line.words with
  | [] => .ok none
  | [_] => .error (.malformedLine number line.trim)
  | tag :: className :: rest => do
    let fields ← rest.mapM (Field.ofWord number)
    return some ⟨tag.text, className.text, fields, number⟩

namespace Schema

/-- The kinds that some lines declare, the first of them having the given number. -/
def readKinds (number : Nat) : List Text → Traced ParseError (List Kind)
  | [] => pure []
  | line :: rest => do
    match ← Traced.ofExcept (Kind.ofLine number line) with
    | none => readKinds (number + 1) rest
    | some kind =>
      Traced.report [.kindParsed kind]
      return kind :: (← readKinds (number + 1) rest)

/-- The schema that a text spells. -/
def parse (text : Text) : Traced ParseError Schema :=
  match text.lines with
  | [] => pure (empty [])
  | header :: records => do return ⟨header.trim, ← readKinds 2 records⟩

end Schema
end DartNodes
