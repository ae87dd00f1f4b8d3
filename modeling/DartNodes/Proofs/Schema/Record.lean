import DartNodes.Proofs.Outcome
import DartNodes.Proofs.Text.Cut
import DartNodes.Proofs.Text.Words
import DartNodes.Schema.Printer

/-! A line is read as a record exactly if its words are the words that the record is printed with. -/
namespace DartNodes

/-- Neither side of a field is empty or holds blanks, and the name ends at the first `=`. -/
structure Field.WellFormed (field : Field) : Prop where
  name_isWord : Text.IsWord field.name
  name_unsplit : '=' ∉ field.name
  initial_isWord : ∀ initial, field.initial? = some initial → Text.IsWord initial

structure Kind.WellFormed (kind : Kind) : Prop where
  tag_isWord : Text.IsWord kind.tag
  className_isWord : Text.IsWord kind.className
  fields_wellFormed : ∀ field ∈ kind.fields, field.WellFormed

namespace Field

lemma isWord_print {field : Field} (h : field.WellFormed) : Text.IsWord field.print := by
  rcases field with ⟨name, _ | initial⟩
  · exact h.name_isWord
  · refine h.name_isWord.append fun c hc => ?_
    rcases List.mem_cons.mp hc with rfl | hc
    · decide
    · exact (h.initial_isWord initial rfl).2 c hc

lemma ofWord_print {field : Field} (h : field.WellFormed) {line : Nat} {word : Word}
    (hword : field.print = word.text) : ofWord line word = .ok field := by
  have hcut : word.text.cut? "=" = field.print.cut? ['='] := congrArg (Text.cut? · "=") hword.symm
  rcases field with ⟨name, _ | initial⟩
  · have hnone : Text.cut? name ['='] = none := Text.cut?_singleton_eq_none.mpr h.name_unsplit
    rw [ofWord, hcut, show print ⟨name, none⟩ = name from rfl, hnone, ← hword]
    rfl
  · have hsome : Text.cut? (name ++ '=' :: initial) ['='] = some (name, initial) :=
      Text.cut?_singleton_eq_some.mpr ⟨rfl, h.name_unsplit⟩
    rw [ofWord, hcut, show print ⟨name, some initial⟩ = name ++ '=' :: initial from rfl, hsome]
    simp [h.name_isWord.1, (h.initial_isWord initial rfl).1]

/-- A word is read as the field that it is the print of. -/
theorem ofWord_eq_ok {line : Nat} {word : Word} {field : Field} (hw : Text.IsWord word.text) :
    ofWord line word = .ok field ↔ field.WellFormed ∧ field.print = word.text := by
  refine ⟨fun h => ?_, fun ⟨h, hword⟩ => ofWord_print h hword⟩
  unfold ofWord at h
  split at h
  · rename_i hcut
    cases h
    have hname : '=' ∉ word.text := Text.cut?_singleton_eq_none.mp hcut
    refine ⟨⟨hw, hname, fun initial hi => ?_⟩, rfl⟩
    cases hi
  · rename_i name initial hcut
    obtain ⟨htext, hname⟩ := Text.cut?_singleton_eq_some.mp hcut
    split at h
    · cases h
    · rename_i hne
      split at h
      · cases h
      · rename_i hni
        cases h
        rw [htext] at hw
        have hleft : ∀ c ∈ name, Text.isBlank c = false :=
          fun c hc => hw.2 c (List.mem_append_left _ hc)
        have hright : ∀ c ∈ initial, Text.isBlank c = false :=
          fun c hc => hw.2 c (List.mem_append_right _ (List.mem_cons_of_mem _ hc))
        refine ⟨⟨⟨hne, hleft⟩, hname, fun i hi => ?_⟩, htext.symm⟩
        cases hi
        exact ⟨hni, hright⟩

/-- The same for all the words of a list. -/
lemma mapM_ofWord_eq_ok {line : Nat} {words : List Word} {fields : List Field}
    (hw : ∀ word ∈ words, Text.IsWord word.text) :
    words.mapM (ofWord line) = .ok fields ↔
      (∀ field ∈ fields, field.WellFormed) ∧ words.map Word.text = fields.map print := by
  rw [Outcome.mapM_eq_ok]
  induction words generalizing fields with
  | nil => cases fields <;> simp
  | cons word words ih =>
    have hhead := hw word List.mem_cons_self
    have htail := fun v hv => hw v (List.mem_cons_of_mem word hv)
    cases fields with
    | nil => simp
    | cons field fields =>
      rw [List.forall₂_cons, ofWord_eq_ok hhead, ih htail]
      simp only [List.forall_mem_cons, List.map_cons, List.cons.injEq]
      tauto

end Field

namespace Kind

/-- The words that a kind is printed with. -/
def spelling (kind : Kind) : List Text :=
  kind.tag :: kind.className :: kind.fields.map Field.print

/-- A kind without the line that declares it. -/
def content (kind : Kind) : Text × Text × List Field := (kind.tag, kind.className, kind.fields)

/-- The same kind, declared on another line. -/
def onLine (kind : Kind) (number : Nat) : Kind := { kind with line := number }

lemma WellFormed.onLine {kind : Kind} (h : kind.WellFormed) (number : Nat) :
    (kind.onLine number).WellFormed := ⟨h.1, h.2, h.3⟩

lemma isWord_of_mem_spelling {kind : Kind} (h : kind.WellFormed) :
    ∀ word ∈ kind.spelling, Text.IsWord word := by
  intro word hword
  simp only [spelling, List.mem_cons, List.mem_map] at hword
  rcases hword with rfl | rfl | ⟨field, hfield, rfl⟩
  · exact h.tag_isWord
  · exact h.className_isWord
  · exact Field.isWord_print (h.fields_wellFormed field hfield)

lemma print_eq (kind : Kind) :
    kind.print = kind.tag ++ (kind.className :: kind.fields.map Field.print).flatMap (' ' :: ·) := by
  simp [print, List.flatMap_map]

theorem tokens_print {kind : Kind} (h : kind.WellFormed) : kind.print.tokens = kind.spelling := by
  have hwords := isWord_of_mem_spelling h
  rw [print_eq]
  exact Text.tokens_spaced h.tag_isWord fun word hword => hwords word (List.mem_cons_of_mem _ hword)

/-- A line without words declares nothing. -/
theorem ofLine_eq_none {number : Nat} {line : Text} :
    ofLine number line = .ok none ↔ line.tokens = [] := by
  unfold ofLine Text.tokens
  rcases line.words with _ | ⟨tag, _ | ⟨className, rest⟩⟩
  · simp
  · simp
  · simp [Outcome.bind_eq_ok, pure, Except.pure]

/-- A line declares a kind exactly if its words are those of the kind. -/
theorem ofLine_eq_some {number : Nat} {line : Text} {kind : Kind} :
    ofLine number line = .ok (some kind) ↔
      kind.WellFormed ∧ kind.line = number ∧ line.tokens = kind.spelling := by
  have hwords : ∀ word ∈ line.words, Text.IsWord word.text := fun _ => Text.isWord_of_mem_words
  unfold ofLine Text.tokens
  rcases hl : line.words with _ | ⟨tag, _ | ⟨className, rest⟩⟩
  · simp [spelling]
  · simp [spelling]
  · rw [hl] at hwords
    have htag := hwords tag (by simp)
    have hclass := hwords className (by simp)
    have hrest : ∀ word ∈ rest, Text.IsWord word.text := fun word h => hwords word (by simp [h])
    simp only [Outcome.bind_eq_ok, pure, Except.pure, Except.ok.injEq, Option.some.injEq,
      Field.mapM_ofWord_eq_ok hrest, List.map_cons, spelling, List.cons.injEq]
    constructor
    · rintro ⟨fields, ⟨hfields, hprint⟩, rfl⟩
      exact ⟨⟨htag, hclass, hfields⟩, rfl, rfl, rfl, hprint⟩
    · rintro ⟨h, rfl, htagText, hclassText, hprint⟩
      refine ⟨kind.fields, ⟨h.fields_wellFormed, hprint⟩, ?_⟩
      rw [htagText, hclassText]

end Kind
end DartNodes
