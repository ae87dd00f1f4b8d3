import DartNodes.Accessor.Printer
import DartNodes.Main
import DartNodes.Schema.Printer
import DartNodes.Store.Listing
import DartNodes.Proofs.Accessor.RoundTrip
import DartNodes.Proofs.Output.Injective
import DartNodes.Proofs.Precedence
import DartNodes.Proofs.Respaced
import DartNodes.Proofs.Atomic
import DartNodes.Proofs.Schema.Grammar
import DartNodes.Proofs.Schema.RoundTrip
import DartNodes.Proofs.Text.Returns
import DartNodes.Proofs.LineBreaks
import DartNodes.Proofs.UsedTypes
import DartNodes.Proofs.AddedRecord
import DartNodes.Proofs.Store.Plain
import DartNodes.Proofs.Independent
import DartNodes.Proofs.Schema.Repeats
import DartNodes.Proofs.RunEvents
import DartNodes.Command.Printer
import DartNodes.Proofs.Command.Reading
import DartNodes.Proofs.Command.RoundTrip
import DartNodes.Proofs.Command.Process
import DartNodes.Proofs.Accessor.Insertions
import DartNodes.Proofs.Accessor.MarkerLine
import DartNodes.Proofs.Text.Partition
