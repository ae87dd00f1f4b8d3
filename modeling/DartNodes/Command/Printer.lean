import DartNodes.Command.Invocation

/-! Writing what is asked for as arguments of the command line. -/
namespace DartNodes.Command

/-- A flag that is written out in an argument of its own, together with its value. -/
inductive Written where
  | setting (s : Setting) (value : Text)
  | verbose
deriving DecidableEq, Repr

def Written.argument : Written → Text
  | setting s value => '-' :: '-' :: (s.name ++ '=' :: value)
  | verbose => "--verbose"

/-- The values of a flag in a configuration. -/
def Setting.valuesIn (config : Config) : Setting → List Text
  | schema => [config.schema]
  | base => config.base?.toList
  | out => config.output?.toList
  | strategy => [config.strategy.name]
  | marker => [config.marker]
  | baseClass => [config.target.baseClass]
  | interface => [config.target.interface]
  | enumName => [config.target.enumName]
  | dispatcher => [config.target.dispatcher]
  | importLine => config.target.imports?.getD []

/-- The values of a flag that is not given. The schema has to be given. -/
def Setting.defaults (s : Setting) : List Text :=
  if s = schema then [] else s.valuesIn { schema := [] }

/-- All that is asked for, one flag after the other. -/
def Invocation.written (invocation : Invocation) : List Written :=
  (Setting.all.flatMap fun s => (s.valuesIn invocation.config).map (.setting s)) ++
    if invocation.verbose then [.verbose] else []

end DartNodes.Command
