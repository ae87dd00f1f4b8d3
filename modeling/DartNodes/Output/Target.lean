import DartNodes.Schema.Basic
import DartNodes.Strategy

/-! The names and the import lines of a generated file. -/
namespace DartNodes

structure Target where
  /-- The class that every generated class extends, and that an unknown tag yields. -/
  baseClass : Text := "ASTNode"
  /-- The type of what the dispatcher makes. -/
  interface : Text := "AST"
  /-- The enumeration of the tags. -/
  enumName : Text := "ASTType"
  /-- The field of a generated class that holds its tag. -/
  tagField : Text := "type"
  dispatcher : Text := "initAST"
  tagPrefix : Text := defaultTagPrefix
  /-- The import lines; without any given, those of the strategy. -/
  imports? : Option (List Text) := none
deriving DecidableEq, Repr

def Strategy.defaultImports : Strategy → List Text
  | typed =>
    ["import 'package:Birb/utils/ast/ast_node.dart';", "import 'package:Birb/lexer/token.dart';",
      "import 'package:Birb/utils/AST.dart';"]
  | untyped => ["import 'ast_node.dart';", "import '../AST.dart';"]

namespace Target

instance : Inhabited Target := ⟨{}⟩

/-- The member of the tag enumeration that stands for a tag. -/
def enumConstant (target : Target) (tag : Text) : Text :=
  target.enumName ++ '.' :: target.tagPrefix ++ tag

/-- The import lines and an empty line. -/
def preambleLines (target : Target) (strategy : Strategy) : List Text :=
  target.imports?.getD strategy.defaultImports ++ [[]]

end Target
end DartNodes
