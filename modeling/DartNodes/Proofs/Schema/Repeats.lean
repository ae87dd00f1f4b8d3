import DartNodes.Proofs.Schema.Distinct
import DartNodes.Proofs.Schema.Grammar

/-! Which repetition is told of a schema that has several: that of the first kind that uses a name again,
with the one kind before it that has this name. -/
namespace DartNodes

/-- A line of a text, counted from 1, has the word at the index. -/
def Text.HasWordAt (text : Text) (number index : Nat) (word : Text) : Prop :=
  ∃ line words, text.lines[number - 1]? = some line ∧ line.HasWords words ∧
    (words.map Word.text)[index]? = some word

namespace Schema

lemma distinct_concat {kinds : List Kind} {kind : Kind} :
    Distinct (kinds ++ [kind]) ↔ Distinct kinds ∧ Unseen kinds kind := by
  rw [← List.concat_eq_append]
  constructor
  · rintro ⟨htags, hclasses⟩
    rw [List.map_concat, List.nodup_concat] at htags hclasses
    exact ⟨⟨htags.2, hclasses.2⟩, htags.1, hclasses.1⟩
  · rintro ⟨⟨htags, hclasses⟩, htag, hclass⟩
    constructor
    · rw [List.map_concat, List.nodup_concat]
      exact ⟨htag, htags⟩
    · rw [List.map_concat, List.nodup_concat]
      exact ⟨hclass, hclasses⟩

/-- The first kinds are distinct if each of them is unseen where it stands. -/
lemma distinct_take {kinds : List Kind} {count : Nat} :
    Distinct (kinds.take count) ↔
      ∀ i < count, ∀ kind, kinds[i]? = some kind → Unseen (kinds.take i) kind := by
  induction count with
  | zero => simp [distinct_nil]
  | succ n ih =>
    rw [List.take_add_one, Nat.forall_lt_succ_right, ← ih]
    cases kinds[n]? with
    | none => simp
    | some kind => simpa using distinct_concat

/-- The kind at an index is the first that uses a tag or a class name again. -/
structure FirstAgain (kinds : List Kind) (index : Nat) (kind : Kind) : Prop where
  here : kinds[index]? = some kind
  again : ¬ Unseen (kinds.take index) kind
  least : ∀ i < index, ∀ other, kinds[i]? = some other → Unseen (kinds.take i) other

/-- What is told of kinds that are not distinct. A repeated tag counts before a repeated class name, and in
front of the first kind that uses a name again only one kind has it. -/
inductive Repeats (kinds : List Kind) : SchemaError → Prop
  | tag {index kind earlier} (first : FirstAgain kinds index kind)
      (only : (kinds.take index).filter (·.tag = kind.tag) = [earlier]) :
      Repeats kinds (.duplicateTag kind.tag earlier.line kind.line)
  | className {index kind earlier} (first : FirstAgain kinds index kind)
      (fresh : kind.tag ∉ (kinds.take index).map Kind.tag)
      (only : (kinds.take index).filter (·.className = kind.className) = [earlier]) :
      Repeats kinds (.duplicateClass kind.className earlier.line kind.line)

lemma FirstAgain.distinct {kinds : List Kind} {index : Nat} {kind : Kind}
    (h : FirstAgain kinds index kind) : Distinct (kinds.take index) :=
  distinct_take.mpr h.least

lemma FirstAgain.split {kinds : List Kind} {index : Nat} {kind : Kind}
    (h : FirstAgain kinds index kind) :
    kinds = kinds.take index ++ kind :: kinds.drop (index + 1) := by
  obtain ⟨hindex, hkind⟩ := List.getElem?_eq_some_iff.mp h.here
  rw [← hkind, List.getElem_cons_drop, List.take_append_drop]

/-- A kind behind distinct ones that uses a name again is the first that does. -/
lemma firstAgain_of_distinct {before after : List Kind} {kind : Kind} (hbefore : Distinct before)
    (hkind : ¬ Unseen before kind) : FirstAgain (before ++ kind :: after) before.length kind := by
  have htake : (before ++ kind :: after).take before.length = before := List.take_left
  exact ⟨by simp, by rwa [htake], distinct_take.mp (by rwa [htake])⟩

/-- Of kinds whose names differ, one at most has a name. -/
lemma find?_eq_some_iff_filter {kinds : List Kind} {f : Kind → Text} (h : (kinds.map f).Nodup)
    {name : Text} {kind : Kind} :
    kinds.find? (f · = name) = some kind ↔ kinds.filter (f · = name) = [kind] := by
  rw [← List.head?_filter]
  constructor
  · intro hfind
    induction kinds with
    | nil => cases hfind
    | cons first rest ih =>
      obtain ⟨hfirst, hrest⟩ := List.nodup_cons.mp h
      by_cases hname : f first = name
      · have hnil : rest.filter (f · = name) = [] := by
          rw [List.filter_eq_nil_iff]
          intro other hother hsame
          exact hfirst (hname ▸ of_decide_eq_true hsame ▸ List.mem_map_of_mem hother)
        rw [List.filter_cons_of_pos (by simpa using hname), hnil] at hfind ⊢
        rw [Option.some.inj hfind]
      · rw [List.filter_cons_of_neg (by simpa using hname)] at hfind ⊢
        exact ih hrest hfind
  · intro hfilter
    rw [hfilter, List.head?_cons]

/-- Distinct kinds are passed over. -/
lemma firstRepeat_append {seen before : List Kind} (h : firstRepeat seen before = none)
    (rest : List Kind) : firstRepeat seen (before ++ rest) = firstRepeat (seen ++ before) rest := by
  induction before generalizing seen with
  | nil => simp
  | cons kind before ih =>
    have hkind : Unseen seen kind := (firstRepeat_eq_none.mp h).2 kind List.mem_cons_self
    rw [firstRepeat_of_unseen hkind] at h
    rw [List.cons_append, firstRepeat_of_unseen hkind, ih h, List.append_assoc, List.singleton_append]

/-- Kinds that are refused fall into those that are passed over, the kind that is told, and others. -/
lemma exists_split_of_firstRepeat {seen rest : List Kind} {e : SchemaError}
    (h : firstRepeat seen rest = some e) : ∃ before kind after, rest = before ++ kind :: after ∧
      firstRepeat seen before = none ∧ ¬ Unseen (seen ++ before) kind := by
  induction rest generalizing seen with
  | nil => cases h
  | cons kind rest ih =>
    by_cases hkind : Unseen seen kind
    · rw [firstRepeat_of_unseen hkind] at h
      obtain ⟨before, told, after, rfl, hbefore, htold⟩ := ih h
      refine ⟨kind :: before, told, after, rfl, ?_, ?_⟩
      · rw [firstRepeat_of_unseen hkind, hbefore]
      · rwa [List.append_assoc, List.singleton_append] at htold
    · exact ⟨[], kind, rest, rfl, rfl, by rwa [List.append_nil]⟩

/-- What is told of a kind behind distinct ones that uses a name again. -/
lemma firstRepeat_cons_eq_some {seen rest : List Kind} {kind : Kind} (hseen : Distinct seen)
    (hkind : ¬ Unseen seen kind) {e : SchemaError} :
    firstRepeat seen (kind :: rest) = some e ↔
      (∃ earlier, seen.filter (·.tag = kind.tag) = [earlier] ∧
        e = .duplicateTag kind.tag earlier.line kind.line) ∨
      kind.tag ∉ seen.map Kind.tag ∧ ∃ earlier, seen.filter (·.className = kind.className) = [earlier] ∧
        e = .duplicateClass kind.className earlier.line kind.line := by
  simp only [← find?_eq_some_iff_filter hseen.tags, ← find?_eq_some_iff_filter hseen.classNames,
    ← find?_eq_none_iff_notMem (f := Kind.tag)]
  rw [firstRepeat]
  cases htag : seen.find? (·.tag = kind.tag) with
  | some earlier => simp [eq_comm]
  | none =>
    cases hclass : seen.find? (·.className = kind.className) with
    | some earlier => simp [eq_comm]
    | none =>
      exact absurd ⟨find?_eq_none_iff_notMem.mp htag, find?_eq_none_iff_notMem.mp hclass⟩ hkind

theorem firstRepeat_eq_some {kinds : List Kind} {e : SchemaError} :
    firstRepeat [] kinds = some e ↔ Repeats kinds e := by
  constructor
  · intro h
    obtain ⟨before, kind, after, rfl, hbefore, hkind⟩ := exists_split_of_firstRepeat h
    rw [List.nil_append] at hkind
    have hdistinct : Distinct before := firstRepeat_nil_eq_none.mp hbefore
    have hfirst : FirstAgain (before ++ kind :: after) before.length kind :=
      firstAgain_of_distinct hdistinct hkind
    have htake : (before ++ kind :: after).take before.length = before := List.take_left
    rw [firstRepeat_append hbefore, List.nil_append, firstRepeat_cons_eq_some hdistinct hkind] at h
    rcases h with ⟨earlier, honly, rfl⟩ | ⟨hfresh, earlier, honly, rfl⟩
    · exact .tag hfirst (by rwa [htake])
    · exact .className hfirst (by rwa [htake]) (by rwa [htake])
  · -- The kinds before the one that is told are passed over.
    have hpass : ∀ {index kind}, FirstAgain kinds index kind → firstRepeat [] kinds =
        firstRepeat (kinds.take index) (kind :: kinds.drop (index + 1)) := by
      intro index kind hfirst
      conv_lhs => rw [hfirst.split]
      exact firstRepeat_append (firstRepeat_nil_eq_none.mpr hfirst.distinct) _
    rintro (⟨hfirst, honly⟩ | ⟨hfirst, hfresh, honly⟩)
    · rw [hpass hfirst, firstRepeat_cons_eq_some hfirst.distinct hfirst.again]
      exact .inl ⟨_, honly, rfl⟩
    · rw [hpass hfirst, firstRepeat_cons_eq_some hfirst.distinct hfirst.again]
      exact .inr ⟨hfresh, _, honly, rfl⟩

theorem validate_eq_error {schema : Schema} {e : SchemaError} :
    schema.validate = .error e ↔ Repeats schema.kinds e := by
  rw [← firstRepeat_eq_some, validate]
  cases firstRepeat [] schema.kinds <;> simp

/-- The line that declares a kind is found by its number. -/
lemma Reads.getElem?_line {number : Nat} {lines : List Text} {kinds : List Kind}
    (h : Reads number lines kinds) : ∀ kind ∈ kinds, ∃ line, lines[kind.line - number]? = some line ∧
      line.tokens = kind.spelling := by
  -- Behind one line more, the number of a later line is one higher, too.
  have hlater : ∀ {number} {first : Text} {rest : List Text} {kinds}, Reads (number + 1) rest kinds →
      ∀ kind ∈ kinds, (first :: rest)[kind.line - number]? = rest[kind.line - (number + 1)]? := by
    intro number first rest kinds htail kind hkind
    have hle := htail.le_line kind hkind
    rw [show kind.line - number = kind.line - (number + 1) + 1 by omega, List.getElem?_cons_succ]
  induction h with
  | nil => simp
  | blank empty tail ih =>
    intro kind hkind
    rw [hlater tail kind hkind]
    exact ih kind hkind
  | record wellFormed here spells tail ih =>
    intro kind hkind
    rcases List.mem_cons.mp hkind with rfl | hkind
    · exact ⟨_, by rw [here, Nat.sub_self, List.getElem?_cons_zero], spells⟩
    · rw [hlater tail kind hkind]
      exact ih kind hkind

/-- The words of a kind stand on its line. -/
lemma hasWordAt_of_mem {text : Text} {schema : Schema} (h : (parse text).outcome = .ok schema)
    {kind : Kind} (hkind : kind ∈ schema.kinds) {index : Nat} {word : Text}
    (hword : kind.spelling[index]? = some word) : text.HasWordAt kind.line index word := by
  have hreads := (parse_eq_ok.mp h).2
  have htwo := hreads.le_line kind hkind
  obtain ⟨line, hline, hspell⟩ := hreads.getElem?_line kind hkind
  rw [List.getElem?_tail, show kind.line - 2 + 1 = kind.line - 1 by omega] at hline
  rw [← hspell] at hword
  exact ⟨line, line.words, hline, Text.hasWords_iff.mpr rfl, hword⟩

/-- Of a text, both lines that a repetition tells of are records, the earlier one first. -/
lemma FirstAgain.lines {text : Text} {schema : Schema} (h : (parse text).outcome = .ok schema)
    {index : Nat} {kind earlier : Kind} (hfirst : FirstAgain schema.kinds index kind)
    (hearlier : earlier ∈ schema.kinds.take index) {place : Nat} {name : Text}
    (hname : kind.spelling[place]? = some name) (hsame : earlier.spelling[place]? = some name) :
    2 ≤ earlier.line ∧ earlier.line < kind.line ∧ text.HasWordAt earlier.line place name ∧
      text.HasWordAt kind.line place name := by
  have hwell := wellFormed_of_parse h
  have hmem : earlier ∈ schema.kinds := List.mem_of_mem_take hearlier
  have hincreasing := hwell.lines_increasing
  rw [hfirst.split] at hincreasing
  have hlt : earlier.line < kind.line :=
    (List.pairwise_append.mp hincreasing).2.2 earlier hearlier kind List.mem_cons_self
  exact ⟨hwell.two_le_line earlier hmem, hlt, hasWordAt_of_mem h hmem hsame,
    hasWordAt_of_mem h (List.mem_of_getElem? hfirst.here) hname⟩

/-- A schema is accepted exactly if all its tags differ and all its class names differ. Otherwise the first
kind that uses a name again is told, its tag before its class name, with the one kind that had the name
before. In a text these are two lines with that word, the earlier one first and behind the header. -/
theorem validate_spec (schema : Schema) :
    (schema.validate = .ok () ↔
      (schema.kinds.map Kind.tag).Nodup ∧ (schema.kinds.map Kind.className).Nodup) ∧
    (∀ e, schema.validate = .error e ↔ Repeats schema.kinds e) ∧
    ∀ text, (parse text).outcome = .ok schema →
      (∀ tag first line, schema.validate = .error (.duplicateTag tag first line) →
        2 ≤ first ∧ first < line ∧ text.HasWordAt first 0 tag ∧ text.HasWordAt line 0 tag) ∧
      ∀ className first line, schema.validate = .error (.duplicateClass className first line) →
        2 ≤ first ∧ first < line ∧ text.HasWordAt first 1 className ∧ text.HasWordAt line 1 className := by
  refine ⟨?_, fun _ => validate_eq_error, fun text h => ⟨?_, ?_⟩⟩
  · rw [validate_eq_ok]
    exact ⟨fun ⟨htags, hclasses⟩ => ⟨htags, hclasses⟩, fun ⟨htags, hclasses⟩ => ⟨htags, hclasses⟩⟩
  · intro tag first line hfails
    cases validate_eq_error.mp hfails with
    | @tag index kind earlier again only =>
      obtain ⟨hearlier, hsame⟩ := List.mem_filter.mp (only ▸ List.mem_singleton_self earlier)
      refine again.lines h hearlier rfl ?_
      exact congrArg some (of_decide_eq_true hsame)
  · intro className first line hfails
    cases validate_eq_error.mp hfails with
    | @className index kind earlier again fresh only =>
      obtain ⟨hearlier, hsame⟩ := List.mem_filter.mp (only ▸ List.mem_singleton_self earlier)
      refine again.lines h hearlier rfl ?_
      exact congrArg some (of_decide_eq_true hsame)

end Schema
end DartNodes
