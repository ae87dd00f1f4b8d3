import DartNodes.Schema.Distinct
import Mathlib.Data.List.Basic
import Mathlib.Tactic.Lemma
import Mathlib.Tactic.Tauto

/-! A schema is refused exactly if a tag or a class name stands in it twice. -/
namespace DartNodes.Schema

/-- No two kinds share their tag, and no two share their class name. -/
structure Distinct (kinds : List Kind) : Prop where
  tags : (kinds.map Kind.tag).Nodup
  classNames : (kinds.map Kind.className).Nodup

lemma distinct_nil : Distinct [] := ⟨List.nodup_nil, List.nodup_nil⟩

lemma distinct_cons {kind : Kind} {rest : List Kind} :
    Distinct (kind :: rest) ↔ kind.tag ∉ rest.map Kind.tag ∧
      kind.className ∉ rest.map Kind.className ∧ Distinct rest := by
  constructor
  · rintro ⟨htags, hclasses⟩
    obtain ⟨htag, htags⟩ := List.nodup_cons.mp htags
    obtain ⟨hclass, hclasses⟩ := List.nodup_cons.mp hclasses
    exact ⟨htag, hclass, htags, hclasses⟩
  · rintro ⟨htag, hclass, htags, hclasses⟩
    exact ⟨List.nodup_cons.mpr ⟨htag, htags⟩, List.nodup_cons.mpr ⟨hclass, hclasses⟩⟩

/-- The name of a kind, its tag or its class, is not used by those seen before. -/
def Unseen (seen : List Kind) (kind : Kind) : Prop :=
  kind.tag ∉ seen.map Kind.tag ∧ kind.className ∉ seen.map Kind.className

lemma unseen_concat {seen : List Kind} {kind other : Kind} :
    Unseen (seen ++ [kind]) other ↔
      Unseen seen other ∧ other.tag ≠ kind.tag ∧ other.className ≠ kind.className := by
  simp only [Unseen, List.map_append, List.map_cons, List.map_nil, List.mem_append,
    List.mem_singleton, not_or]
  tauto

lemma find?_eq_none_iff_notMem {seen : List Kind} {f : Kind → Text} {name : Text} :
    seen.find? (f · = name) = none ↔ name ∉ seen.map f := by
  simp [List.find?_eq_none]

/-- A kind whose names are used is refused where it stands. -/
lemma firstRepeat_of_not_unseen {seen : List Kind} {kind : Kind} (h : ¬ Unseen seen kind)
    (rest : List Kind) :
    ∃ error, firstRepeat seen (kind :: rest) = some error ∧ ∀ inner, error ≠ .parse inner := by
  rw [firstRepeat]
  split
  · exact ⟨_, rfl, by simp⟩
  · exact ⟨_, rfl, by simp⟩
  · rename_i htag hclass
    exact absurd ⟨find?_eq_none_iff_notMem.mp htag, find?_eq_none_iff_notMem.mp hclass⟩ h

lemma firstRepeat_of_unseen {seen rest : List Kind} {kind : Kind} (h : Unseen seen kind) :
    firstRepeat seen (kind :: rest) = firstRepeat (seen ++ [kind]) rest := by
  rw [firstRepeat, find?_eq_none_iff_notMem.mpr h.1, find?_eq_none_iff_notMem.mpr h.2]

/-- Nothing is refused if the kinds are distinct from each other and from those seen before. -/
theorem firstRepeat_eq_none {seen rest : List Kind} :
    firstRepeat seen rest = none ↔ Distinct rest ∧ ∀ kind ∈ rest, Unseen seen kind := by
  induction rest generalizing seen with
  | nil => simp [distinct_nil]
  | cons kind rest ih =>
    by_cases hkind : Unseen seen kind
    · rw [firstRepeat_of_unseen hkind, ih, distinct_cons, List.forall_mem_cons]
      simp only [unseen_concat, List.mem_map, not_exists, not_and]
      constructor
      · rintro ⟨hrest, hall⟩
        exact ⟨⟨fun k hk => (hall k hk).2.1, fun k hk => (hall k hk).2.2, hrest⟩, hkind,
          fun k hk => (hall k hk).1⟩
      · rintro ⟨⟨htag, hclass, hrest⟩, -, hall⟩
        exact ⟨hrest, fun k hk => ⟨hall k hk, htag k hk, hclass k hk⟩⟩
    · obtain ⟨error, herror, -⟩ := firstRepeat_of_not_unseen hkind rest
      rw [herror, List.forall_mem_cons]
      simp [hkind]

/-- What is refused is refused for a repeated name. -/
lemma ne_parse_of_firstRepeat {seen rest : List Kind} {error : SchemaError}
    (h : firstRepeat seen rest = some error) (inner : ParseError) : error ≠ .parse inner := by
  induction rest generalizing seen with
  | nil => cases h
  | cons kind rest ih =>
    by_cases hkind : Unseen seen kind
    · rw [firstRepeat_of_unseen hkind] at h
      exact ih h
    · obtain ⟨found, hfound, hne⟩ := firstRepeat_of_not_unseen hkind rest
      rw [h] at hfound
      cases hfound
      exact hne inner

lemma firstRepeat_nil_eq_none {kinds : List Kind} : firstRepeat [] kinds = none ↔ Distinct kinds := by
  rw [firstRepeat_eq_none]
  simp [Unseen]

theorem validate_eq_ok {schema : Schema} : schema.validate = .ok () ↔ Distinct schema.kinds := by
  rw [← firstRepeat_nil_eq_none, validate]
  cases firstRepeat [] schema.kinds <;> simp

theorem ne_parse_of_validate {schema : Schema} {error : SchemaError}
    (h : schema.validate = .error error) (inner : ParseError) : error ≠ .parse inner := by
  unfold validate at h
  split at h
  · rename_i found hfound
    cases h
    exact ne_parse_of_firstRepeat hfound inner
  · cases h

end DartNodes.Schema
