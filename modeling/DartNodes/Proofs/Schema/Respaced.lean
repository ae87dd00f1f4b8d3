import DartNodes.Proofs.Alike
import DartNodes.Proofs.Output.Dispatch
import DartNodes.Proofs.Text.Columns

/-! Two texts whose records have the same words spell the same kinds, or are refused for the same reason:
only the lines and columns that are told may differ. -/
namespace DartNodes

open Outcome (Alike)

/-- Errors of the same kind that tell of the same words, perhaps in other places. -/
inductive ParseError.Agrees : ParseError → ParseError → Prop
  | malformedLine {line otherLine found} :
      Agrees (.malformedLine line found) (.malformedLine otherLine found)
  | invalidField {line otherLine column otherColumn word fault} :
      Agrees (.invalidField line column word fault) (.invalidField otherLine otherColumn word fault)

/-- Errors of the same kind that tell of the same words, perhaps in other places. -/
inductive SchemaError.Agrees : SchemaError → SchemaError → Prop
  | parse {error other} (agree : error.Agrees other) : Agrees (.parse error) (.parse other)
  | duplicateTag {tag firstLine line otherFirstLine otherLine} :
      Agrees (.duplicateTag tag firstLine line) (.duplicateTag tag otherFirstLine otherLine)
  | duplicateClass {className firstLine line otherFirstLine otherLine} :
      Agrees (.duplicateClass className firstLine line)
        (.duplicateClass className otherFirstLine otherLine)

lemma Field.alike_ofWord {word other : Word} (h : word.text = other.text) (line otherLine : Nat) :
    Alike ParseError.Agrees Eq (ofWord line word) (ofWord otherLine other) := by
  unfold ofWord
  rw [h]
  cases other.text.cut? "=" with
  | none => exact .ok rfl
  | some sides =>
    obtain ⟨name, initial⟩ := sides
    dsimp only
    split
    · exact .error .invalidField
    · split
      · exact .error .invalidField
      · exact .ok rfl

lemma forall₂_of_map_eq {α β : Type} {f : α → β} {xs ys : List α} (h : xs.map f = ys.map f) :
    List.Forall₂ (fun x y => f x = f y) xs ys := by
  rwa [← List.forall₂_eq_eq_eq, List.forall₂_map_left_iff, List.forall₂_map_right_iff] at h

/-- The words of a line decide what it declares. -/
theorem Kind.alike_ofLine {line other : Text} (h : line.tokens = other.tokens) (number otherNumber : Nat) :
    Alike ParseError.Agrees (fun found otherFound => found.map content = otherFound.map content)
      (ofLine number line) (ofLine otherNumber other) := by
  unfold Text.tokens at h
  unfold ofLine
  rcases hline : line.words with _ | ⟨tag, _ | ⟨className, rest⟩⟩ <;>
    rcases hother : other.words with _ | ⟨otherTag, _ | ⟨otherClass, otherRest⟩⟩ <;>
    simp only [hline, hother, List.map_cons, List.map_nil, List.cons.injEq, reduceCtorEq, and_true,
      and_false] at h
  · exact .ok rfl
  · dsimp only
    rw [Text.trim_of_words hline, Text.trim_of_words hother, h]
    exact .error .malformedLine
  · obtain ⟨htag, hclass, hrest⟩ := h
    dsimp only
    have hwords : List.Forall₂ (fun v w : Word => v.text = w.text) rest otherRest :=
      forall₂_of_map_eq hrest
    have hfield : ∀ v w : Word, v.text = w.text →
        Alike ParseError.Agrees Eq (Field.ofWord number v) (Field.ofWord otherNumber w) :=
      fun _ _ hvw => Field.alike_ofWord hvw number otherNumber
    refine (Alike.mapM hfield hwords).bind ?_
    intro fields otherFields hequal
    rw [List.forall₂_eq_eq_eq] at hequal
    subst hequal
    exact .ok (by simp [content, htag, hclass])

namespace Schema

/-- The same records, word for word, with any lines without words in between. -/
inductive Respaced : List Text → List Text → Prop
  | nil : Respaced [] []
  | blankLeft {line lines others} (blank : line.tokens = []) (tail : Respaced lines others) :
      Respaced (line :: lines) others
  | blankRight {other lines others} (blank : other.tokens = []) (tail : Respaced lines others) :
      Respaced lines (other :: others)
  | record {line other lines others} (same : line.tokens = other.tokens) (tail : Respaced lines others) :
      Respaced (line :: lines) (other :: others)

/-- The words of the lines that hold a word. -/
def tokenLists (lines : List Text) : List (List Text) := (lines.map Text.tokens).filter (· ≠ [])

lemma tokenLists_cons_blank {line : Text} (h : line.tokens = []) (lines : List Text) :
    tokenLists (line :: lines) = tokenLists lines := by
  simp [tokenLists, h]

lemma tokenLists_cons {line : Text} (h : line.tokens ≠ []) (lines : List Text) :
    tokenLists (line :: lines) = line.tokens :: tokenLists lines := by
  simp [tokenLists, h]

theorem respaced_of_tokenLists_eq {lines others : List Text}
    (h : tokenLists lines = tokenLists others) : Respaced lines others := by
  induction lines generalizing others with
  | nil =>
    induction others with
    | nil => exact .nil
    | cons other others ih =>
      by_cases hother : other.tokens = []
      · rw [tokenLists_cons_blank hother] at h
        exact .blankRight hother (ih h)
      · rw [tokenLists_cons hother] at h
        cases h
  | cons line lines ih =>
    by_cases hline : line.tokens = []
    · rw [tokenLists_cons_blank hline] at h
      exact .blankLeft hline (ih h)
    · induction others with
      | nil =>
        rw [tokenLists_cons hline] at h
        cases h
      | cons other others ihOthers =>
        by_cases hother : other.tokens = []
        · rw [tokenLists_cons_blank hother] at h
          exact .blankRight hother (ihOthers h)
        · rw [tokenLists_cons hline, tokenLists_cons hother] at h
          obtain ⟨hsame, htail⟩ := List.cons.inj h
          exact .record hsame (ih htail)

/-- Kinds that differ at most in the lines that declare them. -/
def SameContent (kinds others : List Kind) : Prop := kinds.map Kind.content = others.map Kind.content

lemma outcome_readKinds_blank {line : Text} (h : line.tokens = []) (number : Nat) (rest : List Text) :
    (readKinds number (line :: rest)).outcome = (readKinds (number + 1) rest).outcome := by
  rw [outcome_readKinds_cons, Kind.ofLine_eq_none.mpr h]
  rfl

/-- Lines that are respaced declare the same kinds, on other lines. -/
theorem Respaced.alike_readKinds {lines others : List Text} (h : Respaced lines others)
    (number otherNumber : Nat) :
    Alike ParseError.Agrees SameContent (readKinds number lines).outcome
      (readKinds otherNumber others).outcome := by
  induction h generalizing number otherNumber with
  | nil => exact .ok rfl
  | blankLeft blank tail ih =>
    rw [outcome_readKinds_blank blank]
    exact ih (number + 1) otherNumber
  | blankRight blank tail ih =>
    rw [outcome_readKinds_blank blank]
    exact ih number (otherNumber + 1)
  | record same tail ih =>
    rw [outcome_readKinds_cons, outcome_readKinds_cons]
    refine (Kind.alike_ofLine same number otherNumber).bind ?_
    intro found otherFound hfound
    have hrest := ih (number + 1) (otherNumber + 1)
    cases found with
    | none =>
      cases otherFound with
      | none => exact hrest
      | some other => cases hfound
    | some kind =>
      cases otherFound with
      | none => cases hfound
      | some other =>
        refine hrest.map ?_
        intro kinds others hkinds
        rw [SameContent, List.map_cons, List.map_cons, Option.some.inj hfound, hkinds]

lemma outcome_parse (text : Text) :
    (parse text).outcome =
      Schema.mk (text.lines.headD []).trim <$> (readKinds 2 text.lines.tail).outcome := by
  unfold parse
  rcases text.lines with _ | ⟨header, records⟩
  · rfl
  · simp only [bind_pure_comp, Outcome.outcome_map, List.headD_cons, List.tail_cons]

lemma map_tokens_records (text : Text) :
    (records text).map Text.tokens = tokenLists text.lines.tail := by
  rw [records, tokenLists, List.filter_map]
  rfl

/-- Reading texts whose records have the same words ends alike. -/
theorem alike_parse {text other : Text}
    (h : (records text).map Text.tokens = (records other).map Text.tokens) :
    Alike ParseError.Agrees (fun schema otherSchema => SameContent schema.kinds otherSchema.kinds)
      (parse text).outcome (parse other).outcome := by
  rw [map_tokens_records, map_tokens_records] at h
  rw [outcome_parse, outcome_parse]
  exact ((respaced_of_tokenLists_eq h).alike_readKinds 2 2).map fun _ _ hkinds => hkinds

/-- What is looked for by its content is found in both of two lists, or in neither. -/
lemma SameContent.rel_find? {kinds others : List Kind} (h : SameContent kinds others)
    (p : Text × Text × List Field → Bool) :
    Option.Rel (fun kind other => kind.content = other.content)
      (kinds.find? fun kind => p kind.content) (others.find? fun kind => p kind.content) := by
  induction kinds generalizing others with
  | nil =>
    cases others with
    | nil => exact .none
    | cons other others => cases h
  | cons kind kinds ih =>
    cases others with
    | nil => cases h
    | cons other others =>
      obtain ⟨hcontent, hrest⟩ := List.cons.inj h
      rw [List.find?_cons, List.find?_cons, hcontent]
      cases p other.content with
      | true => exact .some hcontent
      | false => exact ih hrest

lemma SameContent.concat {kinds others : List Kind} {kind other : Kind} (h : SameContent kinds others)
    (hcontent : kind.content = other.content) : SameContent (kinds ++ [kind]) (others ++ [other]) := by
  rw [SameContent, List.map_append, List.map_append, h, List.map_singleton, List.map_singleton,
    hcontent]

/-- What is refused first depends on the names alone. -/
theorem SameContent.rel_firstRepeat {seen otherSeen kinds others : List Kind}
    (hseen : SameContent seen otherSeen) (h : SameContent kinds others) :
    Option.Rel SchemaError.Agrees (firstRepeat seen kinds) (firstRepeat otherSeen others) := by
  induction kinds generalizing seen otherSeen others with
  | nil =>
    cases others with
    | nil => exact .none
    | cons other others => cases h
  | cons kind kinds ih =>
    cases others with
    | nil => cases h
    | cons other others =>
      obtain ⟨hcontent, hrest⟩ := List.cons.inj h
      have htag : kind.tag = other.tag := congrArg (·.1) hcontent
      have hclass : kind.className = other.className := congrArg (·.2.1) hcontent
      have htags : Option.Rel _ (seen.find? (·.tag = other.tag)) (otherSeen.find? (·.tag = other.tag)) :=
        hseen.rel_find? fun content => content.1 = other.tag
      have hclasses : Option.Rel _ (seen.find? (·.className = other.className))
          (otherSeen.find? (·.className = other.className)) :=
        hseen.rel_find? fun content => content.2.1 = other.className
      have hlater := ih (hseen.concat hcontent) hrest
      rw [firstRepeat, firstRepeat, htag, hclass]
      generalize seen.find? (·.tag = other.tag) = first at htags ⊢
      generalize otherSeen.find? (·.tag = other.tag) = otherFirst at htags ⊢
      generalize seen.find? (·.className = other.className) = firstClass at hclasses ⊢
      generalize otherSeen.find? (·.className = other.className) = otherFirstClass at hclasses ⊢
      cases htags with
      | some => exact .some .duplicateTag
      | none =>
        cases hclasses with
        | some => exact .some .duplicateClass
        | none => exact hlater

theorem SameContent.alike_validate {schema other : Schema} (h : SameContent schema.kinds other.kinds) :
    Alike SchemaError.Agrees Eq schema.validate other.validate := by
  have hrepeat := rel_firstRepeat (show SameContent [] [] from rfl) h
  unfold validate
  generalize firstRepeat [] schema.kinds = error at hrepeat ⊢
  generalize firstRepeat [] other.kinds = otherError at hrepeat ⊢
  cases hrepeat with
  | none => exact .ok rfl
  | some agree => exact .error agree

end Schema
end DartNodes
