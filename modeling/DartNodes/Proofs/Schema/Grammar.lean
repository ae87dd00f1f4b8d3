import DartNodes.Proofs.Schema.Reading
import DartNodes.Proofs.Text.Columns

/-! The lines that a schema may be made of, and what is told of a text with another line: the first
such line, and in it what is wrong first. -/
namespace DartNodes

/-- A text of blanks only. -/
def Text.Blank (t : Text) : Prop := ∀ c ∈ t, Text.isBlank c = true

instance : DecidablePred Text.Blank := fun t => inferInstanceAs (Decidable (∀ c ∈ t, _))

/-- The line that an error tells of. -/
def ParseError.line : ParseError → Nat
  | malformedLine line _ | invalidField line _ _ _ => line

namespace Field

/-- The words that fields are spelled by: those without `=`, and those with some text on both sides of
the first `=`. -/
inductive IsSpelling : Text → Prop
  | bare {name} (unsplit : '=' ∉ name) : IsSpelling name
  | assigned {name initial} (unsplit : '=' ∉ name) (named : name ≠ []) (valued : initial ≠ []) :
      IsSpelling (name ++ '=' :: initial)

/-- The sides of the first `=`. -/
lemma isSpelling_append {name initial : Text} (h : '=' ∉ name) :
    IsSpelling (name ++ '=' :: initial) ↔ name ≠ [] ∧ initial ≠ [] := by
  constructor
  · intro hspelling
    generalize htext : name ++ '=' :: initial = text at hspelling
    cases hspelling with
    | bare unsplit => exact absurd (by simp [← htext]) unsplit
    | @assigned other value unsplit named valued =>
      have hcut := Text.cut?_singleton_eq_some.mpr ⟨htext.symm, h⟩
      rw [Text.cut?_singleton_eq_some.mpr ⟨rfl, unsplit⟩] at hcut
      cases hcut
      exact ⟨named, valued⟩
  · rintro ⟨named, valued⟩
    exact .assigned h named valued

lemma head?_append_eq {name initial : Text} (h : '=' ∉ name) :
    (name ++ '=' :: initial).head? = some '=' ↔ name = [] := by
  cases name with
  | nil => simp
  | cons c name =>
    have hc : c ≠ '=' := (List.ne_and_not_mem_of_not_mem_cons h).1.symm
    simp [hc]

/-- A word is read as a field exactly if it spells one. -/
theorem exists_ofWord_eq_ok {line : Nat} {word : Word} :
    (∃ field, ofWord line word = .ok field) ↔ IsSpelling word.text := by
  have hmark : "=".toList = ['='] := rfl
  unfold ofWord
  rw [hmark]
  cases hcut : word.text.cut? ['='] with
  | none => simpa using IsSpelling.bare (Text.cut?_singleton_eq_none.mp hcut)
  | some sides =>
    obtain ⟨name, initial⟩ := sides
    obtain ⟨htext, hname⟩ := Text.cut?_singleton_eq_some.mp hcut
    rw [htext, isSpelling_append hname]
    by_cases hn : name = [] <;> by_cases hi : initial = [] <;> simp [hn, hi]

/-- Any other word is told with its column and with the side that is missing, the name before the
initial expression. -/
theorem ofWord_eq_error {line : Nat} {word : Word} {e : ParseError} :
    ofWord line word = .error e ↔ ¬ IsSpelling word.text ∧
      ∃ fault : FieldFault, (fault = .missingName ↔ word.text.head? = some '=') ∧
        e = .invalidField line word.column word.text fault := by
  have hmark : "=".toList = ['='] := rfl
  unfold ofWord
  rw [hmark]
  cases hcut : word.text.cut? ['='] with
  | none => simpa using fun h => absurd (IsSpelling.bare (Text.cut?_singleton_eq_none.mp hcut)) h
  | some sides =>
    obtain ⟨name, initial⟩ := sides
    obtain ⟨htext, hname⟩ := Text.cut?_singleton_eq_some.mp hcut
    rw [htext, isSpelling_append hname, head?_append_eq hname]
    dsimp only
    constructor
    · intro h
      split at h
      · rename_i hn
        cases h
        exact ⟨by simp [hn], .missingName, by simp [hn], rfl⟩
      · rename_i hn
        split at h
        · rename_i hi
          cases h
          exact ⟨by simp [hi], .missingDefault, by simp [hn], rfl⟩
        · cases h
    · rintro ⟨hbad, fault, hfault, rfl⟩
      by_cases hn : name = []
      · rw [if_pos hn, hfault.mpr hn]
      · have hi : initial = [] := by
          by_contra hi
          exact hbad ⟨hn, hi⟩
        rw [if_neg hn, if_pos hi]
        cases fault with
        | missingName => exact absurd (hfault.mp rfl) hn
        | missingDefault => rfl

end Field

namespace Kind

/-- A line of at least two words, of which all behind the second spell fields. -/
def IsRecord (line : Text) : Prop :=
  ∃ tag className rest, line.HasWords (tag :: className :: rest) ∧
    ∀ word ∈ rest, Field.IsSpelling word.text

/-- What is wrong, first, with a line of the given number that is neither blank nor a record. -/
inductive Offends (number : Nat) (line : Text) : ParseError → Prop
  | single {word} (alone : line.HasWords [word]) : Offends number line (.malformedLine number word.text)
  | field {tag className before word after fault}
      (words : line.HasWords (tag :: className :: (before ++ word :: after)))
      (earlier : ∀ w ∈ before, Field.IsSpelling w.text) (bad : ¬ Field.IsSpelling word.text)
      (reason : fault = .missingName ↔ word.text.head? = some '=') :
      Offends number line (.invalidField number word.column word.text fault)

/-- A kind is declared by a line of some number: it stands on this line, and the words of the line are
those that the kind is spelled with, each field being cut at the first `=`. -/
structure DeclaredBy (kind : Kind) (numbered : Text × Nat) : Prop where
  wellFormed : kind.WellFormed
  here : kind.line = numbered.2
  spells : ∃ words, numbered.1.HasWords words ∧ words.map Word.text = kind.spelling

lemma Offends.line_eq {number : Nat} {line : Text} {e : ParseError} (h : Offends number line e) :
    e.line = number := by
  cases h <;> rfl

lemma isRecord_iff {line : Text} : IsRecord line ↔ ∃ tag className rest,
    line.words = tag :: className :: rest ∧ ∀ word ∈ rest, Field.IsSpelling word.text := by
  simp only [IsRecord, Text.hasWords_iff]

theorem exists_ofLine_eq_ok (number : Nat) {line : Text} :
    (∃ found, ofLine number line = .ok found) ↔ line.Blank ∨ IsRecord line := by
  rw [Text.Blank, ← Text.words_eq_nil, isRecord_iff]
  unfold ofLine
  rcases line.words with _ | ⟨tag, _ | ⟨className, rest⟩⟩
  · simp
  · simp
  · simp only [bind_pure_comp, Outcome.exists_map_eq_ok, Outcome.exists_mapM_eq_ok,
      Field.exists_ofWord_eq_ok]
    simp

theorem ofLine_eq_error {number : Nat} {line : Text} {e : ParseError} :
    ofLine number line = .error e ↔ Offends number line e := by
  constructor
  · intro h
    unfold ofLine at h
    rcases hwords : line.words with _ | ⟨tag, _ | ⟨className, rest⟩⟩
    · rw [hwords] at h
      cases h
    · rw [hwords] at h
      cases h
      rw [Text.trim_of_words hwords]
      exact .single (Text.hasWords_iff.mpr hwords)
    · rw [hwords] at h
      simp only [bind_pure_comp, Outcome.map_eq_error, Outcome.mapM_eq_error,
        Field.exists_ofWord_eq_ok, Field.ofWord_eq_error] at h
      obtain ⟨before, word, after, rfl, hearlier, hbad, fault, hfault, rfl⟩ := h
      exact .field (Text.hasWords_iff.mpr hwords) hearlier hbad hfault
  · intro h
    cases h with
    | @single word alone =>
      have hwords := Text.hasWords_iff.mp alone
      unfold ofLine
      rw [hwords, ← Text.trim_of_words hwords]
    | @field tag className before word after fault words earlier bad reason =>
      unfold ofLine
      rw [Text.hasWords_iff.mp words]
      simp only [bind_pure_comp, Outcome.map_eq_error, Outcome.mapM_eq_error,
        Field.exists_ofWord_eq_ok, Field.ofWord_eq_error]
      exact ⟨before, word, after, rfl, earlier, bad, fault, reason, rfl⟩

end Kind

namespace Schema

open Kind (IsRecord Offends)

/-- Lines are read one after the other, up to the first that offends. -/
lemma readKinds_cons_eq_error {number : Nat} {line : Text} {rest : List Text} {e : ParseError} :
    (readKinds number (line :: rest)).outcome = .error e ↔ Offends number line e ∨
      (line.Blank ∨ IsRecord line) ∧ (readKinds (number + 1) rest).outcome = .error e := by
  rw [outcome_readKinds_cons, Outcome.bind_eq_error, Kind.ofLine_eq_error,
    ← Kind.exists_ofLine_eq_ok number, ← exists_and_right]
  refine or_congr_right (exists_congr fun found => and_congr_right fun _ => ?_)
  cases found with
  | none => rfl
  | some kind => exact Outcome.map_eq_error

/-- Reading lines fails with what is wrong with the first of them that offends. -/
theorem readKinds_eq_error {number : Nat} {lines : List Text} {e : ParseError} :
    (readKinds number lines).outcome = .error e ↔ ∃ before line after,
      lines = before ++ line :: after ∧ (∀ l ∈ before, l.Blank ∨ IsRecord l) ∧
        Offends (number + before.length) line e := by
  induction lines generalizing number with
  | nil => simp [readKinds]
  | cons line rest ih =>
    rw [readKinds_cons_eq_error, ih]
    constructor
    · rintro (hline | ⟨hline, before, bad, after, rfl, hbefore, hbad⟩)
      · exact ⟨[], line, rest, rfl, by simp, hline⟩
      · refine ⟨line :: before, bad, after, rfl, List.forall_mem_cons.mpr ⟨hline, hbefore⟩, ?_⟩
        rwa [List.length_cons, Nat.add_comm before.length, ← Nat.add_assoc]
    · rintro ⟨before, bad, after, hlines, hbefore, hbad⟩
      cases before with
      | nil =>
        obtain ⟨rfl, rfl⟩ := List.cons.inj hlines
        exact .inl hbad
      | cons first before =>
        obtain ⟨rfl, rfl⟩ := List.cons.inj hlines
        obtain ⟨hfirst, hbefore⟩ := List.forall_mem_cons.mp hbefore
        rw [List.length_cons, Nat.add_comm before.length, ← Nat.add_assoc] at hbad
        exact .inr ⟨hfirst, before, bad, after, rfl, hbefore, hbad⟩

/-- Lines are read without failure if none of them offends. -/
theorem exists_readKinds_eq_ok (number : Nat) {lines : List Text} :
    (∃ kinds, (readKinds number lines).outcome = .ok kinds) ↔
      ∀ line ∈ lines, line.Blank ∨ IsRecord line := by
  induction lines generalizing number with
  | nil => exact ⟨by simp, fun _ => ⟨[], rfl⟩⟩
  | cons line rest ih =>
    rw [List.forall_mem_cons, ← Kind.exists_ofLine_eq_ok number,
      ← ih (number + 1), outcome_readKinds_cons]
    cases Kind.ofLine number line with
    | error e => simp [bind, Except.bind]
    | ok found =>
      cases found with
      | none => simp [bind, Except.bind]
      | some kind => simp [Outcome.exists_map_eq_ok, bind, Except.bind]

/-- Lines that fail do so, and report the same, whatever lines follow. -/
theorem readKinds_append_of_error {number : Nat} {front : List Text} {e : ParseError}
    (h : (readKinds number front).outcome = .error e) (back : List Text) :
    readKinds number (front ++ back) = readKinds number front := by
  induction front generalizing number with
  | nil => cases h
  | cons line rest ih =>
    rw [List.cons_append, readKinds, readKinds]
    cases hline : Kind.ofLine number line with
    | error e => rfl
    | ok found =>
      have hrest : (readKinds (number + 1) rest).outcome = .error e := by
        rcases readKinds_cons_eq_error.mp h with hbad | ⟨-, hrest⟩
        · rw [Kind.ofLine_eq_error.mpr hbad] at hline
          cases hline
        · exact hrest
      simp only [ih hrest]

/-- The lines of a text behind the first that are not blank, each with its number. -/
def numberedRecords (text : Text) : List (Text × Nat) :=
  (text.lines.zipIdx 1).tail.filter (¬ ·.1.Blank)

lemma numberedRecords_eq (text : Text) :
    numberedRecords text = (text.lines.tail.zipIdx 2).filter (¬ ·.1.Blank) := by
  rw [numberedRecords]
  cases text.lines <;> rfl

/-- Each kind is declared by a line that is not blank, in the same order. -/
lemma Reads.forall₂_declaredBy {number : Nat} {lines : List Text} {kinds : List Kind}
    (h : Reads number lines kinds) :
    List.Forall₂ Kind.DeclaredBy kinds ((lines.zipIdx number).filter (¬ ·.1.Blank)) := by
  induction h with
  | nil => exact .nil
  | @blank number line rest kinds empty tail ih =>
    have hblank : line.Blank := Text.words_eq_nil.mp (List.map_eq_nil_iff.mp empty)
    simpa [List.zipIdx_cons, hblank] using ih
  | @record number line rest kind kinds wellFormed here spells tail ih =>
    have hblank : ¬ line.Blank := by
      intro hblank
      rw [Text.tokens, Text.words_eq_nil.mpr hblank] at spells
      cases spells
    rw [List.zipIdx_cons, List.filter_cons_of_pos (by simpa using hblank)]
    exact .cons ⟨wellFormed, here, line.words, Text.hasWords_iff.mpr rfl, spells⟩ ih

lemma parse_of_lines {text header : Text} {records : List Text}
    (h : text.lines = header :: records) :
    parse text = do return ⟨header.trim, ← readKinds 2 records⟩ := by
  rw [parse, h]

theorem exists_parse_eq_ok {text : Text} :
    (∃ schema, (parse text).outcome = .ok schema) ↔
      ∀ line ∈ text.lines.tail, line.Blank ∨ IsRecord line := by
  rw [← exists_readKinds_eq_ok 2]
  simp only [parse_eq_ok, readKinds_eq_ok]
  exact ⟨fun ⟨schema, _, hkinds⟩ => ⟨schema.kinds, hkinds⟩, fun ⟨kinds, hkinds⟩ => ⟨⟨_, kinds⟩, rfl, hkinds⟩⟩

theorem parse_eq_error {text : Text} {e : ParseError} :
    (parse text).outcome = .error e ↔ ∃ before line after,
      text.lines.tail = before ++ line :: after ∧ (∀ l ∈ before, l.Blank ∨ IsRecord l) ∧
        Offends (2 + before.length) line e := by
  rw [← readKinds_eq_error]
  rcases hlines : text.lines with _ | ⟨header, records⟩
  · rw [parse, hlines]
    exact ⟨nofun, nofun⟩
  · rw [parse_of_lines hlines, Traced.outcome_bind, Outcome.bind_eq_error]
    simp

/-- Nothing behind the line that is told matters. -/
theorem parse_eq_of_take_eq {text other : Text} {e : ParseError}
    (h : (parse text).outcome = .error e) (htake : other.lines.take e.line = text.lines.take e.line) :
    parse other = parse text := by
  obtain ⟨before, line, after, htail, hbefore, hline⟩ := parse_eq_error.mp h
  -- The texts agree on the header and on all lines that are read: `before` and `line`.
  obtain ⟨header, hlines⟩ : ∃ header, text.lines = header :: (before ++ [line] ++ after) := by
    rcases hlines : text.lines with _ | ⟨header, records⟩
    · rw [hlines] at htail
      simp at htail
    · rw [hlines] at htail
      exact ⟨header, by rw [List.append_cons] at htail; exact congrArg (header :: ·) htail⟩
  have hread : (readKinds 2 (before ++ [line])).outcome = .error e :=
    readKinds_eq_error.mpr ⟨before, line, [], rfl, hbefore, hline⟩
  have hupTo : text.lines.take e.line = header :: (before ++ [line]) := by
    have hlength : e.line = (header :: (before ++ [line])).length := by
      rw [hline.line_eq]
      simp only [List.length_cons, List.length_append, List.length_nil]
      omega
    rw [hlines, ← List.cons_append, hlength, List.take_left]
  have hother : other.lines = header :: (before ++ [line] ++ other.lines.drop e.line) := by
    calc other.lines
        = other.lines.take e.line ++ other.lines.drop e.line := (List.take_append_drop ..).symm
      _ = header :: (before ++ [line] ++ other.lines.drop e.line) := by
        rw [htake, hupTo, List.cons_append]
  rw [parse_of_lines hlines, parse_of_lines hother, readKinds_append_of_error hread,
    readKinds_append_of_error hread]

/-- A text is read exactly if each of its lines behind the first is blank or a record, and then each
record declares a kind. Otherwise the first other line is told, with what is wrong with it first, and
nothing behind it matters. -/
theorem parse_grammar (text : Text) :
    ((∃ schema, (parse text).outcome = .ok schema) ↔
      ∀ line ∈ text.lines.tail, line.Blank ∨ IsRecord line) ∧
    (∀ schema, (parse text).outcome = .ok schema →
      List.Forall₂ Kind.DeclaredBy schema.kinds (numberedRecords text)) ∧
    (∀ e, (parse text).outcome = .error e ↔ ∃ before line after,
      text.lines.tail = before ++ line :: after ∧ (∀ l ∈ before, l.Blank ∨ IsRecord l) ∧
        Offends (2 + before.length) line e) ∧
    (∀ number column word fault, (parse text).outcome = .error (.invalidField number column word fault) →
      2 ≤ number ∧ 1 ≤ column ∧ ∃ line, text.lines[number - 1]? = some line ∧
        (line.drop (column - 1)).takeWhile (!Text.isBlank ·) = word) ∧
    ∀ e, (parse text).outcome = .error e → ∀ other : Text,
      other.lines.take e.line = text.lines.take e.line → parse other = parse text := by
  refine ⟨exists_parse_eq_ok, fun schema h => ?_, fun _ => parse_eq_error, ?_,
    fun e h other => parse_eq_of_take_eq h⟩
  · rw [numberedRecords_eq]
    exact (parse_eq_ok.mp h).2.forall₂_declaredBy
  · intro number column word fault h
    obtain ⟨before, line, after, htail, -, hline⟩ := parse_eq_error.mp h
    cases hline with
    | @field tag className front found back _ words earlier bad reason =>
      have hword : found.StandsIn line := (words.mem_iff found).mp (by simp)
      refine ⟨Nat.le_add_right .., hword.one_le_column, line, ?_, Text.takeWhile_drop_of_standsIn hword⟩
      rw [Nat.add_comm, Nat.add_sub_assoc (by decide), ← List.getElem?_tail, htail]
      simp

end Schema
end DartNodes
