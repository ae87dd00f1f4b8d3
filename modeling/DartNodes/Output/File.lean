import DartNodes.Output.Dispatcher
import DartNodes.Output.NodeClass
import DartNodes.Text.Lines

/-! The whole generated file. -/
namespace DartNodes

/-- A file: the classes of some kinds, in the same order, between the imports and the dispatcher. -/
structure OutputFile where
  strategy : Strategy
  kinds : List Kind
  classes : List NodeClass
deriving DecidableEq, Repr

namespace OutputFile

def lines (target : Target) (file : OutputFile) : List Text :=
  target.preambleLines file.strategy ++ file.classes.flatMap (·.lines target) ++
    (Dispatcher.ofKinds target file.kinds).lines target

/-- The text of the file. -/
def code (target : Target) (file : OutputFile) : Text := Text.unlines (file.lines target)

end OutputFile
end DartNodes
