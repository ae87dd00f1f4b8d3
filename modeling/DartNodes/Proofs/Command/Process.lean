import DartNodes.Command.Process
import DartNodes.Proofs.RunEvents

/-! A process shows what its run comes to, whatever part of the log is asked for. -/
namespace DartNodes.Command

variable {store : Store} {config : Config} {outcome : Except GenerateError Report} {ending : Ending}

end DartNodes.Command
