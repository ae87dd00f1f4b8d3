import DartNodes.Proofs.Assoc
import DartNodes.Proofs.Output.DispatcherReader
import DartNodes.Proofs.Schema.Distinct
import DartNodes.Proofs.Schema.Reading

/-! The class that a dispatcher yields for a tag is that of the first kind with the tag. If no name is
repeated, the order of the records does not matter. -/
namespace DartNodes

namespace Dispatcher

lemma enumConstant_inj {target : Target} {s t : Text} :
    target.enumConstant s = target.enumConstant t ↔ s = t := by
  simp [Target.enumConstant]

lemma lookup_branches (target : Target) (kinds : List Kind) (tag : Text) :
    (ofKinds target kinds).branches.lookup (target.enumConstant tag) =
      (kinds.find? (·.tag = tag)).map Kind.className := by
  induction kinds with
  | nil => rfl
  | cons kind rest ih =>
    rw [ofKinds, List.map_cons, List.lookup_cons]
    by_cases h : kind.tag = tag
    · simp [h]
    · have hne : (target.enumConstant tag == target.enumConstant kind.tag) = false := by
        simpa [enumConstant_inj] using Ne.symm h
      rw [hne, List.find?_cons_of_neg (by simpa using h), ← ih]
      rfl

/-- The first branch that fits is that of the first kind with the tag. -/
theorem select_enumConstant (target : Target) (schema : Schema) (tag : Text) :
    (ofKinds target schema.kinds).select (target.enumConstant tag) =
      match schema.find? tag with
      | some kind => kind.className
      | none => target.baseClass := by
  rw [select, lookup_branches, Schema.find?]
  cases schema.kinds.find? (·.tag = tag) <;> rfl

lemma readable_of_wellFormed (target : Target) {kinds : List Kind}
    (h : ∀ kind ∈ kinds, kind.WellFormed) :
    ∀ branch ∈ (ofKinds target kinds).branches, Readable target branch := by
  intro branch hbranch
  obtain ⟨kind, hkind, rfl⟩ := List.mem_map.mp hbranch
  exact ⟨⟨kind.tag, rfl, (h kind hkind).tag_isWord.2⟩, (h kind hkind).className_isWord.2⟩

/-- The constants of branches are as distinct as the tags. -/
lemma nodup_constants (target : Target) {kinds : List Kind} (h : (kinds.map Kind.tag).Nodup) :
    (Assoc.keys (ofKinds target kinds).branches).Nodup := by
  have hmap : Assoc.keys (ofKinds target kinds).branches =
      (kinds.map Kind.tag).map target.enumConstant := by
    simp [Assoc.keys, ofKinds]
  rw [hmap]
  exact h.map fun _ _ => enumConstant_inj.mp

lemma map_snd_branches (target : Target) (kinds : List Kind) :
    (ofKinds target kinds).branches.map Prod.snd = kinds.map Kind.className := by
  simp [ofKinds]

end Dispatcher

namespace Kind

/-- The tag and the class name, which are the first two words of a record. -/
def names (kind : Kind) : Text × Text := (kind.tag, kind.className)

lemma map_names (kinds : List Kind) :
    kinds.map names = (kinds.map spelling).map fun words => (words.headD [], words.tail.headD []) := by
  rw [List.map_map]
  rfl

end Kind

namespace Schema

/-- The lines of a text that declare kinds. -/
def records (text : Text) : List Text := text.lines.tail.filter (·.tokens ≠ [])

lemma map_spelling_of_parse {text : Text} {schema : Schema}
    (h : (parse text).outcome = .ok schema) :
    schema.kinds.map Kind.spelling = (records text).map Text.tokens := by
  rw [(parse_eq_ok.mp h).2.map_spelling, records, List.filter_map]
  rfl

/-- Records in another order are read as well, with the same names. -/
theorem exists_parse_of_perm {text other : Text} {schema : Schema}
    (h : (parse text).outcome = .ok schema) (hperm : (records other).Perm (records text)) :
    ∃ found, (parse other).outcome = .ok found ∧
      (found.kinds.map Kind.names).Perm (schema.kinds.map Kind.names) := by
  have hrecords : ∀ line ∈ other.lines.tail, line.tokens ≠ [] →
      ∃ kind : Kind, kind.WellFormed ∧ line.tokens = kind.spelling := by
    intro line hline hne
    have hmem : line ∈ records text :=
      hperm.subset (List.mem_filter.mpr ⟨hline, decide_eq_true hne⟩)
    have hspell : line.tokens ∈ schema.kinds.map Kind.spelling := by
      rw [map_spelling_of_parse h]
      exact List.mem_map_of_mem hmem
    obtain ⟨kind, hkind, heq⟩ := List.mem_map.mp hspell
    exact ⟨kind, (wellFormed_of_parse h).kinds_wellFormed kind hkind, heq.symm⟩
  obtain ⟨kinds, hkinds⟩ := Reads.exists_of_forall hrecords 2
  have hfound : (parse other).outcome = .ok ⟨(other.lines.headD []).trim, kinds⟩ :=
    parse_eq_ok.mpr ⟨rfl, hkinds⟩
  refine ⟨_, hfound, ?_⟩
  rw [Kind.map_names, Kind.map_names, map_spelling_of_parse hfound, map_spelling_of_parse h]
  exact (hperm.map _).map _

lemma Distinct.of_perm {kinds others : List Kind} (h : Distinct kinds)
    (hperm : (others.map Kind.names).Perm (kinds.map Kind.names)) : Distinct others := by
  have htags := hperm.map Prod.fst
  have hclasses := hperm.map Prod.snd
  simp only [List.map_map] at htags hclasses
  exact ⟨htags.nodup_iff.mpr h.tags, hclasses.nodup_iff.mpr h.classNames⟩

end Schema

namespace Dispatcher

lemma map_names_branches (target : Target) (kinds : List Kind) :
    (ofKinds target kinds).branches =
      (kinds.map Kind.names).map fun names => (target.enumConstant names.1, names.2) := by
  rw [List.map_map]
  rfl

/-- The lines that declare the kinds do not matter. -/
lemma ofKinds_congr (target : Target) {kinds others : List Kind}
    (h : kinds.map Kind.content = others.map Kind.content) :
    ofKinds target kinds = ofKinds target others := by
  have hbranches : ∀ list : List Kind, ofKinds target list =
      ⟨(list.map Kind.content).map fun content => (target.enumConstant content.1, content.2.1),
        target.baseClass⟩ := by
    intro list
    rw [List.map_map]
    rfl
  rw [hbranches, hbranches, h]

lemma select_of_perm (target : Target) {kinds others : List Kind} (h : Schema.Distinct others)
    (hperm : (others.map Kind.names).Perm (kinds.map Kind.names)) (constant : Text) :
    (ofKinds target others).select constant = (ofKinds target kinds).select constant := by
  have hbranches : (ofKinds target others).branches.Perm (ofKinds target kinds).branches := by
    rw [map_names_branches, map_names_branches]
    exact hperm.map _
  rw [select, select, Assoc.lookup_perm hbranches (nodup_constants target h.tags)]
  rfl

/-- The text of a dispatcher can be read back, and what is read yields for every tag the class of the
first kind with the tag. If no name is repeated, then no two branches have the same constant or the same
class, each kind is reached, and records in another order make the same choice. -/
theorem dispatch_spec {text : Text} {schema : Schema} (h : (Schema.parse text).outcome = .ok schema)
    (target : Target) :
    ∃ d, read? target ((ofKinds target schema.kinds).code target) = some d ∧
      d.branches = schema.kinds.map (fun kind => (target.enumConstant kind.tag, kind.className)) ∧
      d.fallback = target.baseClass ∧
      (∀ tag, d.select (target.enumConstant tag) =
        match schema.find? tag with
        | some kind => kind.className
        | none => target.baseClass) ∧
      (schema.validate = .ok () →
        (d.branches.map Prod.fst).Nodup ∧ (d.branches.map Prod.snd).Nodup ∧
        (∀ kind ∈ schema.kinds,
          d.branches.lookup (target.enumConstant kind.tag) = some kind.className) ∧
        ∀ other, (Schema.records other).Perm (Schema.records text) → ∃ otherSchema otherD,
          (Schema.parse other).outcome = .ok otherSchema ∧ otherSchema.validate = .ok () ∧
          read? target ((ofKinds target otherSchema.kinds).code target) = some otherD ∧
          ∀ tag, otherD.select (target.enumConstant tag) = d.select (target.enumConstant tag)) := by
  have hread : ∀ {t : Text} {s : Schema}, (Schema.parse t).outcome = .ok s →
      read? target ((ofKinds target s.kinds).code target) = some (ofKinds target s.kinds) :=
    fun hs => read?_eq_some.mpr
      ⟨rfl, readable_of_wellFormed target (Schema.wellFormed_of_parse hs).kinds_wellFormed⟩
  refine ⟨_, hread h, rfl, rfl, select_enumConstant target schema, fun hvalid => ?_⟩
  have hdistinct := Schema.validate_eq_ok.mp hvalid
  have hconstants := nodup_constants target hdistinct.tags
  refine ⟨hconstants, ?_, fun kind hkind => ?_, fun other hperm => ?_⟩
  · rw [map_snd_branches]
    exact hdistinct.classNames
  · rw [Assoc.lookup_eq_some_iff_mem hconstants]
    exact List.mem_map_of_mem hkind
  · obtain ⟨found, hfound, hnames⟩ := Schema.exists_parse_of_perm h hperm
    have hother := hdistinct.of_perm hnames
    refine ⟨found, _, hfound, Schema.validate_eq_ok.mpr hother, hread hfound, fun tag => ?_⟩
    exact select_of_perm target hother hnames _

theorem dispatch_spec_swapped : ∃ d otherSchema otherD,
    read? {} ((ofKinds {} [⟨"A", "X", [], 2⟩, ⟨"B", "Y", [], 3⟩]).code {}) = some d ∧
      (Schema.parse "\nB Y\n\nA X").outcome = .ok otherSchema ∧
      read? {} ((ofKinds {} otherSchema.kinds).code {}) = some otherD ∧
      ∀ tag, otherD.select (Target.enumConstant {} tag) = d.select (Target.enumConstant {} tag) := by
  have hparse : (Schema.parse "h\nA X\nB Y\n").outcome =
      .ok ⟨"h", [⟨"A", "X", [], 2⟩, ⟨"B", "Y", [], 3⟩]⟩ := by
    decide +kernel
  have hperm : (Schema.records "\nB Y\n\nA X").Perm (Schema.records "h\nA X\nB Y\n") := by
    decide +kernel
  obtain ⟨d, hread, -, -, -, hvalid⟩ := dispatch_spec hparse {}
  obtain ⟨-, -, -, hothers⟩ := hvalid (by decide +kernel)
  obtain ⟨otherSchema, otherD, hfound, -, hreadOther, hselect⟩ := hothers _ hperm
  exact ⟨d, otherSchema, otherD, hread, hfound, hreadOther, hselect⟩

end Dispatcher
end DartNodes
