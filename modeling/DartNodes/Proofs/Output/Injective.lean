import DartNodes.Proofs.Output.Dispatch
import DartNodes.Proofs.Output.Parts

/-! Untyped code tells all kinds apart: two schemas have the same code only if their kinds are the same
but for the lines that declare them. -/
namespace DartNodes

namespace Layout

/-- The text of a field without a type. -/
def untypedField (field : Field) : Text := Text.unlines (fieldLines (fun _ => "var") field)

/-- The text of a class whose fields have no types. -/
def untypedClass (target : Target) (kind : Kind) : Text :=
  Text.unlines (classLines target (fun _ => "var") kind)

/-- What stands between the class name and the tag of a kind. -/
def betweenNames (target : Target) : Text :=
  " extends " ++ target.baseClass ++ " \x7b" ++ '\n' :: "  @override" ++ '\n' :: "  " ++ target.enumName ++
    ' ' :: target.tagField ++ " = " ++ target.enumName ++ "." ++ target.tagPrefix

/-- The end of a class. -/
def classEnd : Text := Text.unlines ["\x7d", ""]

/-- What all fields start with. -/
def fieldOpening : Text := "\n  @override\n  var "

lemma untypedField_bare_append (name rest : Text) :
    untypedField ⟨name, none⟩ ++ rest = fieldOpening ++ (name ++ ";" ++ '\n' :: rest) := by
  unfold fieldOpening
  simp [untypedField, fieldLines, fieldLine]

lemma untypedField_assigned_append (name initial rest : Text) :
    untypedField ⟨name, some initial⟩ ++ rest =
      fieldOpening ++ (name ++ ' ' :: ("= ".toList ++ (initial ++ ";" ++ '\n' :: rest))) := by
  unfold fieldOpening
  simp [untypedField, fieldLines, fieldLine]

lemma unlines_headLines (target : Target) (kind : Kind) :
    Text.unlines (headLines target kind) = "class ".toList ++ (kind.className ++
      (betweenNames target ++ (kind.tag ++ ";" ++ ['\n']))) := by
  unfold betweenNames
  simp only [headLines, constant, Text.unlines_cons, Text.unlines_nil, List.append_assoc,
    List.cons_append]

lemma untypedClass_append (target : Target) (kind : Kind) (rest : Text) :
    untypedClass target kind ++ rest = "class ".toList ++ (kind.className ++ (betweenNames target ++
      (kind.tag ++ ";" ++ '\n' :: (kind.fields.flatMap untypedField ++ (classEnd ++ rest))))) := by
  have hfields : Text.unlines (kind.fields.flatMap (fieldLines fun _ => "var")) =
      kind.fields.flatMap untypedField := by
    rw [Text.unlines_flatMap]
    rfl
  rw [untypedClass, classLines, Text.unlines_append, Text.unlines_append, hfields, unlines_headLines]
  simp only [List.append_assoc, List.cons_append, List.nil_append]
  rfl

/-- Words that are followed by a blank are told apart from what follows. -/
lemma word_append_inj {v w s t : Text} {c d : Char} (hv : ∀ a ∈ v, Text.isBlank a = false)
    (hw : ∀ a ∈ w, Text.isBlank a = false) (hc : Text.isBlank c = true) (hd : Text.isBlank d = true)
    (h : v ++ c :: s = w ++ d :: t) : v = w ∧ c = d ∧ s = t := by
  obtain ⟨hword, hrest⟩ :=
    Text.append_inj_of_endsWord hv hw (Text.endsWord_cons hc s) (Text.endsWord_cons hd t) h
  exact ⟨hword, List.cons.inj hrest⟩

lemma blankless_closed {w : Text} (hw : Text.IsWord w) : ∀ a ∈ w ++ ";", Text.isBlank a = false :=
  Dispatcher.blankless_append hw.2 (by decide)

/-- A line feed ends the name and its `;`, or a space ends the name. -/
lemma untypedField_bare_ne_assigned {name other : Text} (hname : Text.IsWord name)
    (hother : Text.IsWord other) (initial s t : Text) :
    untypedField ⟨name, none⟩ ++ s ≠ untypedField ⟨other, some initial⟩ ++ t := by
  intro h
  rw [untypedField_bare_append, untypedField_assigned_append] at h
  obtain ⟨-, hstop, -⟩ := word_append_inj (blankless_closed hname) hother.2
    (by decide) (by decide) (List.append_cancel_left h)
  exact absurd hstop (by decide)

/-- The text of a field and of what follows tells both. -/
lemma untypedField_append_inj {field other : Field} {s t : Text} (hfield : field.WellFormed)
    (hother : other.WellFormed) (h : untypedField field ++ s = untypedField other ++ t) :
    field = other ∧ s = t := by
  have hbreak : Text.isBlank '\n' = true := by decide
  have hspace : Text.isBlank ' ' = true := by decide
  obtain ⟨name, initial?⟩ := field
  obtain ⟨name', initial'?⟩ := other
  have hname : Text.IsWord name := hfield.name_isWord
  have hname' : Text.IsWord name' := hother.name_isWord
  cases initial? with
  | none =>
    cases initial'? with
    | none =>
      rw [untypedField_bare_append, untypedField_bare_append] at h
      obtain ⟨hclosed, -, hrest⟩ := word_append_inj (blankless_closed hname) (blankless_closed hname')
        hbreak hbreak (List.append_cancel_left h)
      exact ⟨by rw [List.append_cancel_right hclosed], hrest⟩
    | some initial' => exact absurd h (untypedField_bare_ne_assigned hname hname' initial' s t)
  | some initial =>
    cases initial'? with
    | none => exact absurd h.symm (untypedField_bare_ne_assigned hname' hname initial t s)
    | some initial' =>
      rw [untypedField_assigned_append, untypedField_assigned_append] at h
      obtain ⟨hnames, -, hvalue⟩ := word_append_inj hname.2 hname'.2 hspace hspace
        (List.append_cancel_left h)
      obtain ⟨hclosed, -, hrest⟩ := word_append_inj (blankless_closed (hfield.initial_isWord initial rfl))
        (blankless_closed (hother.initial_isWord initial' rfl)) hbreak hbreak
        (List.append_cancel_left hvalue)
      exact ⟨by rw [hnames, List.append_cancel_right hclosed], hrest⟩

lemma head?_untypedField (field : Field) (rest : Text) :
    (untypedField field ++ rest).head? = some '\n' := by
  rcases field with ⟨name, _ | initial⟩
  · rw [untypedField_bare_append]
    rfl
  · rw [untypedField_assigned_append]
    rfl

/-- A field starts with an empty line and the end of a class does not. -/
lemma untypedFields_cons_ne (field : Field) (fields : List Field) (s t : Text) :
    (field :: fields).flatMap untypedField ++ s ≠ classEnd ++ t := by
  intro h
  have hhead := congrArg List.head? h
  have hend : (classEnd ++ t).head? = some '\x7d' := rfl
  rw [List.flatMap_cons, List.append_assoc, head?_untypedField, hend] at hhead
  exact absurd hhead (by decide)

/-- The end of a class tells where its fields end. -/
lemma untypedFields_append_inj {fields others : List Field} {s t : Text}
    (hfields : ∀ field ∈ fields, field.WellFormed) (hothers : ∀ other ∈ others, other.WellFormed)
    (h : fields.flatMap untypedField ++ (classEnd ++ s) = others.flatMap untypedField ++ (classEnd ++ t)) :
    fields = others ∧ s = t := by
  induction fields generalizing others with
  | nil =>
    cases others with
    | nil => exact ⟨rfl, List.append_cancel_left h⟩
    | cons other others => exact absurd h.symm (untypedFields_cons_ne other others _ s)
  | cons field fields ih =>
    cases others with
    | nil => exact absurd h (untypedFields_cons_ne field fields _ t)
    | cons other others =>
      obtain ⟨hfield, hrest⟩ := List.forall_mem_cons.mp hfields
      obtain ⟨hother, hrest'⟩ := List.forall_mem_cons.mp hothers
      simp only [List.flatMap_cons, List.append_assoc] at h
      obtain ⟨rfl, htail⟩ := untypedField_append_inj hfield hother h
      obtain ⟨rfl, hst⟩ := ih hrest hrest' htail
      exact ⟨rfl, hst⟩

lemma endsWord_betweenNames (target : Target) (rest : Text) :
    Text.EndsWord (betweenNames target ++ rest) := by
  unfold betweenNames
  simp only [List.append_assoc]
  exact Text.endsWord_cons (by decide) _

/-- The text of a class and of what follows tells what follows, and all of the kind but its line. -/
theorem untypedClass_append_inj {target : Target} {kind other : Kind} {s t : Text}
    (hkind : kind.WellFormed) (hother : other.WellFormed)
    (h : untypedClass target kind ++ s = untypedClass target other ++ t) :
    kind.content = other.content ∧ s = t := by
  have hbreak : Text.isBlank '\n' = true := by decide
  rw [untypedClass_append, untypedClass_append] at h
  obtain ⟨hclass, hrest⟩ := Text.append_inj_of_endsWord hkind.className_isWord.2
    hother.className_isWord.2 (endsWord_betweenNames target _) (endsWord_betweenNames target _)
    (List.append_cancel_left h)
  obtain ⟨htag, -, hbody⟩ := word_append_inj (blankless_closed hkind.tag_isWord)
    (blankless_closed hother.tag_isWord) hbreak hbreak (List.append_cancel_left hrest)
  obtain ⟨hfields, hst⟩ :=
    untypedFields_append_inj hkind.fields_wellFormed hother.fields_wellFormed hbody
  refine ⟨?_, hst⟩
  rw [Kind.content, Kind.content, List.append_cancel_right htag, hclass, hfields]

/-- What is written behind classes of as many kinds is told, or else the longer list of kinds goes on. -/
lemma untypedClasses_append_inj {target : Target} {kinds others : List Kind} {s t : Text}
    (hkinds : ∀ kind ∈ kinds, kind.WellFormed) (hothers : ∀ other ∈ others, other.WellFormed)
    (hlength : kinds.length ≤ others.length)
    (h : kinds.flatMap (untypedClass target) ++ s = others.flatMap (untypedClass target) ++ t) :
    ∃ front back, others = front ++ back ∧ kinds.map Kind.content = front.map Kind.content ∧
      s = back.flatMap (untypedClass target) ++ t := by
  induction kinds generalizing others with
  | nil => exact ⟨[], others, rfl, rfl, h⟩
  | cons kind kinds ih =>
    cases others with
    | nil => simp at hlength
    | cons other others =>
      obtain ⟨hkind, hrest⟩ := List.forall_mem_cons.mp hkinds
      obtain ⟨hother, hrest'⟩ := List.forall_mem_cons.mp hothers
      simp only [List.flatMap_cons, List.append_assoc] at h
      obtain ⟨hcontent, htail⟩ := untypedClass_append_inj hkind hother h
      obtain ⟨front, back, rfl, hfront, hs⟩ :=
        ih hrest hrest' (Nat.le_of_succ_le_succ hlength) htail
      exact ⟨other :: front, back, rfl, by rw [List.map_cons, hcontent, hfront, List.map_cons], hs⟩

/-- The text of the dispatcher of some kinds. -/
def dispatcherText (target : Target) (kinds : List Kind) : Text :=
  Text.unlines (dispatcherLines target kinds)

lemma dispatcherText_congr (target : Target) {kinds others : List Kind}
    (h : kinds.map Kind.content = others.map Kind.content) :
    dispatcherText target kinds = dispatcherText target others := by
  rw [dispatcherText, dispatcherText, ← lines_ofKinds, ← lines_ofKinds,
    Dispatcher.ofKinds_congr target h]

/-- More kinds make a longer dispatcher. -/
lemma length_dispatcherText_le (target : Target) (front back : List Kind) :
    (dispatcherText target front).length ≤ (dispatcherText target (front ++ back)).length := by
  simp only [dispatcherText, dispatcherLines, List.map_append, List.cons_append, Text.unlines_cons,
    Text.unlines_append, List.length_append, List.length_cons]
  omega

lemma fill_parts_untyped (target : Target) (kinds : List Kind) :
    fill (fun _ => "var") (parts target kinds) =
      kinds.flatMap (untypedClass target) ++ dispatcherText target kinds := by
  simp only [parts, fill_append, fill_flatMap, fill_classParts, fill_cons, fill_nil, List.append_nil]
  rfl

lemma untypedClass_ne_nil (target : Target) (kind : Kind) : untypedClass target kind ≠ [] := by
  intro hnil
  have hclass := untypedClass_append target kind []
  rw [hnil] at hclass
  cases hclass

lemma content_eq_of_length_le {target : Target} {kinds others : List Kind}
    (hkinds : ∀ kind ∈ kinds, kind.WellFormed) (hothers : ∀ other ∈ others, other.WellFormed)
    (hlength : kinds.length ≤ others.length)
    (h : fill (fun _ => "var") (parts target kinds) = fill (fun _ => "var") (parts target others)) :
    kinds.map Kind.content = others.map Kind.content := by
  rw [fill_parts_untyped, fill_parts_untyped] at h
  obtain ⟨front, back, rfl, hfront, hrest⟩ := untypedClasses_append_inj hkinds hothers hlength h
  -- If classes were left, they would have to fit into a dispatcher that is no longer than the other one.
  have hback : back.flatMap (untypedClass target) = [] := by
    apply List.eq_nil_of_length_eq_zero
    have hle := length_dispatcherText_le target front back
    have heq := congrArg List.length hrest
    rw [dispatcherText_congr target hfront, List.length_append] at heq
    omega
  cases back with
  | nil => rw [hfront, List.append_nil]
  | cons kind back =>
    rw [List.flatMap_cons] at hback
    exact absurd (List.append_eq_nil_iff.mp hback).1 (untypedClass_ne_nil target kind)

/-- Kinds are told by their untyped code, whatever the names of the target are. -/
theorem content_eq_of_fill_untyped {target : Target} {kinds others : List Kind}
    (hkinds : ∀ kind ∈ kinds, kind.WellFormed) (hothers : ∀ other ∈ others, other.WellFormed)
    (h : fill (fun _ => "var") (parts target kinds) = fill (fun _ => "var") (parts target others)) :
    kinds.map Kind.content = others.map Kind.content := by
  rcases Nat.le_total kinds.length others.length with hle | hle
  · exact content_eq_of_length_le hkinds hothers hle h
  · exact (content_eq_of_length_le hothers hkinds hle h.symm).symm

end Layout

/-- Of two texts with the same untyped code, the kinds are the same but for the lines that declare them. -/
theorem content_eq_of_generate_untyped {base? otherBase? : Option Text} {text other : Text}
    {target : Target} {marker otherMarker code : Text}
    (h : (generate base? text .untyped target marker).outcome = .ok code)
    (hother : (generate otherBase? other .untyped target otherMarker).outcome = .ok code) :
    ∃ schema otherSchema, (Schema.parse text).outcome = .ok schema ∧
      (Schema.parse other).outcome = .ok otherSchema ∧
      schema.kinds.map Kind.content = otherSchema.kinds.map Kind.content := by
  obtain ⟨schema, hparse, -, rfl⟩ := outcome_generate_untyped.mp h
  obtain ⟨otherSchema, hotherParse, -, hcode⟩ := outcome_generate_untyped.mp hother
  refine ⟨schema, otherSchema, hparse, hotherParse, ?_⟩
  exact Layout.content_eq_of_fill_untyped (Schema.wellFormed_of_parse hparse).kinds_wellFormed
    (Schema.wellFormed_of_parse hotherParse).kinds_wellFormed (List.append_cancel_left hcode)

theorem content_eq_of_generate_untyped_respaced : ∃ code schema otherSchema,
    (generate none "h\nA X f=1 g\n" .untyped { interface := "class" } "m").outcome = .ok code ∧
      (generate none "\n\n A\tX  f=1 g" .untyped { interface := "class" } "").outcome = .ok code ∧
      (Schema.parse "h\nA X f=1 g\n").outcome = .ok schema ∧
      (Schema.parse "\n\n A\tX  f=1 g").outcome = .ok otherSchema ∧
      schema.kinds.map Kind.content = otherSchema.kinds.map Kind.content := by
  let code := Text.unlines (Layout.fileLines { interface := "class" } (fun _ => "var") .untyped
    [⟨"A", "X", [⟨"f", some "1".toList⟩, ⟨"g", none⟩], 2⟩])
  have h : (generate none "h\nA X f=1 g\n" .untyped { interface := "class" } "m").outcome =
      .ok code := by
    decide +kernel
  have hother : (generate none "\n\n A\tX  f=1 g" .untyped { interface := "class" } "").outcome =
      .ok code := by
    decide +kernel
  obtain ⟨schema, otherSchema, hparse, hotherParse, hcontent⟩ := content_eq_of_generate_untyped h hother
  exact ⟨code, schema, otherSchema, h, hother, hparse, hotherParse, hcontent⟩

end DartNodes
