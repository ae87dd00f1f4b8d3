import DartNodes.Proofs.Accessor.Behind
import DartNodes.Proofs.Text.Cut

/-! The lines that declare an accessor. -/
namespace DartNodes

/-- Names are made of some of the characters from `$` to `z`, none of which is blank. -/
lemma toNat_of_isNameChar {c : Char} (h : isNameChar c = true) : 36 ≤ c.toNat ∧ c.toNat ≤ 122 := by
  have hupper (h : c.isUpper = true) : 65 ≤ c.toNat ∧ c.toNat ≤ 90 := of_decide_eq_true h
  have hlower (h : c.isLower = true) : 97 ≤ c.toNat ∧ c.toNat ≤ 122 :=
    ⟨of_decide_eq_true (Bool.and_eq_true_iff.mp h).1, of_decide_eq_true (Bool.and_eq_true_iff.mp h).2⟩
  have hdigit (h : c.isDigit = true) : 48 ≤ c.toNat ∧ c.toNat ≤ 57 :=
    ⟨of_decide_eq_true (Bool.and_eq_true_iff.mp h).1, of_decide_eq_true (Bool.and_eq_true_iff.mp h).2⟩
  have halpha : c.isAlpha = (c.isUpper || c.isLower) := rfl
  simp only [isNameChar, Char.isAlphanum, halpha, Bool.or_eq_true, decide_eq_true_eq] at h
  rcases h with (((h | h) | h) | rfl) | rfl
  · have hrange := hupper h
    omega
  · have hrange := hlower h
    omega
  · have hrange := hdigit h
    omega
  · decide
  · decide

lemma isBlank_of_isNameChar {c : Char} (h : isNameChar c = true) : Text.isBlank c = false := by
  have hrange := toNat_of_isNameChar h
  rw [Bool.eq_false_iff]
  intro hblank
  simp only [Text.isBlank, Text.blankRanges, List.any_cons, List.any_nil, Bool.or_eq_true,
    Bool.and_eq_true, decide_eq_true_eq, Bool.false_eq_true, or_false] at hblank
  omega

namespace Accessor

/-- The rule of accessors, on a line without blanks at its ends. The line does not begin with `//`. Before
the first ` get ` stands the type. Behind it, and behind blanks, stands the name: the characters up to the
first that no name may hold, at least one. -/
inductive Rule (line : Text) : Accessor → Prop
  | mk {before gap name rest} (code : ¬ "//".toList <+: line)
      (first : line.FirstCut " get " before (gap ++ (name ++ rest)))
      (blank : ∀ c ∈ gap, Text.isBlank c = true) (named : name ≠ [])
      (run : ∀ c ∈ name, isNameChar c = true)
      (longest : ∀ c, rest.head? = some c → isNameChar c = false) : Rule line ⟨name, before.trim⟩

/-- The type is never missing: a line that begins with the mark begins with a blank. -/
lemma trim_ne_nil_of_firstCut {line before after : Text}
    (hline : ∀ c, line.head? = some c → Text.isBlank c = false)
    (h : line.FirstCut " get " before after) : before.trim ≠ [] := by
  rw [ne_eq, Text.trim_eq_nil]
  intro hblank
  cases before with
  | nil =>
    have hspace := hline ' ' (by rw [h.split]; rfl)
    exact absurd hspace (by decide)
  | cons c before =>
    have hhead := hline c (by rw [h.split]; rfl)
    rw [hblank c List.mem_cons_self] at hhead
    cases hhead

lemma takeWhile_trimStart {gap name rest : Text} (hgap : ∀ c ∈ gap, Text.isBlank c = true)
    (hname : ∀ c ∈ name, isNameChar c = true) (hne : name ≠ [])
    (hrest : ∀ c, rest.head? = some c → isNameChar c = false) :
    (gap ++ (name ++ rest)).trimStart.takeWhile isNameChar = name := by
  have hhead : ∀ c, (name ++ rest).head? = some c → Text.isBlank c = false := by
    intro c hc
    rw [List.head?_append_of_ne_nil _ hne] at hc
    exact isBlank_of_isNameChar (hname c (List.mem_of_head? hc))
  rw [Text.trimStart_append_blank hgap, Text.trimStart_eq_self hhead]
  exact Text.takeWhile_append_stop hname hrest

/-- The accessor that is read off a trimmed line is the one of the rule. -/
theorem ofLine?_eq_some {line : Text} {a : Accessor}
    (hline : ∀ c, line.head? = some c → Text.isBlank c = false) :
    ofLine? line = some a ↔ Rule line a := by
  constructor
  · intro h
    unfold ofLine? at h
    split at h
    · cases h
    · rename_i hcode
      split at h
      · cases h
      · rename_i before after hcut
        dsimp only at h
        split at h
        · cases h
        · rename_i hne
          cases h
          have hafter : after = after.takeWhile Text.isBlank ++
              (after.trimStart.takeWhile isNameChar ++ after.trimStart.dropWhile isNameChar) := by
            rw [List.takeWhile_append_dropWhile]
            exact List.takeWhile_append_dropWhile.symm
          have hfirst := Text.cut?_eq_some.mp hcut
          rw [hafter] at hfirst
          refine .mk (fun hp => hcode (List.isPrefixOf_iff_prefix.mpr hp)) hfirst
            (fun c hc => List.mem_takeWhile_imp hc) (fun hn => hne (.inl hn))
            (fun c hc => List.mem_takeWhile_imp hc) fun c hc => ?_
          exact Text.eq_false_of_head?_dropWhile hc
  · rintro ⟨code, first, blank, named, run, longest⟩
    have hcode : ¬ "//".toList.isPrefixOf line = true := fun hp => code (List.isPrefixOf_iff_prefix.mp hp)
    unfold ofLine?
    rw [if_neg hcode, Text.cut?_eq_some.mpr first]
    dsimp only
    rw [takeWhile_trimStart blank run named longest, if_neg]
    rintro (hname | htype)
    · exact named hname
    · exact trim_ne_nil_of_firstCut hline first htype

theorem declared?_eq_some {line : Text} {a : Accessor} :
    declared? line = some a ↔ Rule line.trim a :=
  ofLine?_eq_some fun _ => Text.head?_trim

example : declared? " T get get x" = some ⟨"get", "T"⟩ := by decide

end Accessor
end DartNodes
