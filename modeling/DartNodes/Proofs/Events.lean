import DartNodes.Proofs.Accessor.Table
import DartNodes.Proofs.Generation
import DartNodes.Proofs.Schema.Grammar

/-! What a generation reports on the way: the records that are read, the types that are recovered and the
fields that are emitted, each up to the first that fails. -/
namespace DartNodes

open Accessor (Behind Declares declared?)

namespace Traced

variable {ε α β : Type}

end Traced

namespace Schema

/-- Some lines, the first of them having the given number, declare some kinds before the first line that
offends, or up to the end if none does. -/
def ReadsUpTo (number : Nat) (lines : List Text) (kinds : List Kind) : Prop :=
  ∃ front back, lines = front ++ back ∧ Reads number front kinds ∧
    ∀ line ∈ back.head?, ∃ e, Kind.Offends (number + front.length) line e

lemma ReadsUpTo.cons {number : Nat} {line : Text} {rest : List Text} {kinds found : List Kind}
    (h : ReadsUpTo (number + 1) rest kinds)
    (hline : ∀ front, Reads (number + 1) front kinds → Reads number (line :: front) found) :
    ReadsUpTo number (line :: rest) found := by
  obtain ⟨front, back, rfl, hfront, hback⟩ := h
  refine ⟨line :: front, back, rfl, hline front hfront, ?_⟩
  rwa [List.length_cons, Nat.add_comm front.length, ← Nat.add_assoc]

end Schema

namespace Table

end Table

namespace Typing

variable {base? : Option Text} {marker : Text} {strategy : Strategy}

/-- What is reported of a base class for some kinds. Each accessor behind the marker line is told, also one
whose type a later one replaces, and if there is none although a field needs one, this is told as well. -/
inductive Tells (base? : Option Text) (marker : Text) (kinds : List Kind) : Strategy → List Event → Prop
  | untyped : Tells base? marker kinds .untyped []
  | missingBase (absent : base? = none) : Tells base? marker kinds .typed []
  | missingMarker {source} (given : base? = some source)
      (absent : ∀ line ∈ source.lines, line.trim ≠ marker.trim) :
      Tells base? marker kinds .typed [.markerMissing marker.trim]
  | recovered {source rest} {table : Table} (given : base? = some source)
      (found : Behind source marker rest) (lists : table.Lists rest) :
      Tells base? marker kinds .typed
        ((rest.filterMap declared?).map (fun a => .typeRecovered a.name a.type) ++
          (if table.size = 0 ∧ Kind.allFields kinds ≠ [] then [.noAccessors marker] else []) ++
            [.typesRecovered table.size])

/-- What is reported of fields that are declared one after the other, up to the first without a type. -/
inductive Emits (base? : Option Text) (marker : Text) (strategy : Strategy) :
    List (Kind × Field) → List Event → Prop
  | done : Emits base? marker strategy [] []
  | unresolved {kind field rest} (untyped : ∀ type, ¬ HasType base? marker field.name strategy type) :
      Emits base? marker strategy ((kind, field) :: rest) []
  | field {kind field rest type events} (typed : HasType base? marker field.name strategy type)
      (tail : Emits base? marker strategy rest events) :
      Emits base? marker strategy ((kind, field) :: rest)
        (.fieldEmitted kind.className field.name type strategy :: events)

/-- Every field is reported if all have types. -/
lemma Emits.length_eq {fields : List (Kind × Field)} {events : List Event}
    (h : Emits base? marker strategy fields events)
    (htyped : ∀ p ∈ fields, ∃ type, HasType base? marker p.2.name strategy type) :
    events.length = fields.length := by
  induction h with
  | done => rfl
  | unresolved untyped =>
    obtain ⟨type, htype⟩ := htyped _ List.mem_cons_self
    exact absurd htype (untyped type)
  | field typed tail ih =>
    rw [List.length_cons, List.length_cons, ih fun p hp => htyped p (List.mem_cons_of_mem _ hp)]

end Typing

end DartNodes
