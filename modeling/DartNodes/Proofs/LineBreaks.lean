import DartNodes.Generate
import DartNodes.Proofs.Text.Returns

/-! Lines may end in `\n` or in `\r\n`, in the schema as in the source of the base class: what is generated,
refused or reported is the same. -/
namespace DartNodes

open Text (LineReturned Returned)

lemma Kind.ofLine_returned {line other : Text} (h : LineReturned line other) (number : Nat) :
    ofLine number line = ofLine number other := by
  rw [ofLine, ofLine, h.words_eq, h.trim_eq]

namespace Schema

lemma readKinds_returned {lines others : List Text} (h : List.Forall₂ LineReturned lines others)
    (number : Nat) : readKinds number lines = readKinds number others := by
  induction h generalizing number with
  | nil => rfl
  | cons here tail ih =>
    rw [readKinds, readKinds, Kind.ofLine_returned here]
    simp only [ih]

/-- The header, the kinds and what is wrong with them do not tell how lines are broken. -/
theorem parse_returned {text other : Text} (h : Returned text other) : parse text = parse other := by
  have hlines := h.lines
  unfold parse
  generalize text.lines = lines at hlines ⊢
  generalize other.lines = others at hlines ⊢
  cases hlines with
  | nil => rfl
  | cons header records =>
    dsimp only
    rw [header.trim_eq, readKinds_returned records]

end Schema

/-- The marker line and the accessors behind it are looked for in trimmed lines. -/
theorem Table.recover_returned {source other : Text} (h : Returned source other) (marker : Text) :
    recover source marker = recover other marker := by
  have htrim : source.lines.map Text.trim = other.lines.map Text.trim := by
    rw [← List.forall₂_eq_eq_eq, List.forall₂_map_left_iff, List.forall₂_map_right_iff]
    exact h.lines.imp fun _ _ here => here.trim_eq
  rw [recover, recover, Accessor.list?, Accessor.list?, htrim]

lemma Typing.ofBase_returned {base? other? : Option Text} (h : Option.Rel Returned base? other?)
    (strategy : Strategy) (marker : Text) (count : Nat) :
    ofBase strategy base? marker count = ofBase strategy other? marker count := by
  cases h with
  | none => rfl
  | some here =>
    cases strategy with
    | typed => simp only [ofBase, Table.recover_returned here]
    | untyped => rfl

/-- Carriage returns in front of any line feeds of the schema and of the base class change neither the
code, nor the error with all that it tells, nor the events. -/
theorem generate_returned {base? otherBase? : Option Text} {text other : Text}
    (hbase : Option.Rel Returned base? otherBase?) (htext : Returned text other) (strategy : Strategy)
    (target : Target) (marker : Text) :
    generate base? text strategy target marker = generate otherBase? other strategy target marker := by
  simp only [generate, Schema.load, Schema.render, Schema.parse_returned htext,
    Typing.ofBase_returned hbase]

theorem generate_returned_stray :
    Option.Rel Returned (some "m\nA get n;\n") (some "m\r\nA get n;\r\n") ∧
      Returned "h\nA X n\nB\r\nC" "h\r\nA X n\nB\r\r\nC" ∧
      (generate (some "m\r\nA get n;\r\n") "h\r\nA X n\nB\r\r\nC" .typed {} "m").outcome =
        .error (.parse (.malformedLine 3 "B")) := by
  have hbase : Returned "m\nA get n;\n" "m\r\nA get n;\r\n" :=
    .char (.feed (.char (.char (.char (.char (.char (.char (.char (.char (.feed .nil))))))))))
  have htext : Returned "h\nA X n\nB\r\nC" "h\r\nA X n\nB\r\r\nC" :=
    .char (.feed (.char (.char (.char (.char (.char (.char (.char (.char (.feed (.char .nil)))))))))))
  have hsame := generate_returned (.some hbase) htext .typed {} "m"
  refine ⟨.some hbase, htext, ?_⟩
  rw [← hsame]
  decide +kernel

end DartNodes
