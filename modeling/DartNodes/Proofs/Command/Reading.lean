import DartNodes.Command.Invocation
import DartNodes.Proofs.Outcome

/-! What the arguments of a command line can ask for. -/
namespace DartNodes.Command

namespace Reading

variable {r next last : Reading} {s : Setting}

/-- A later state of a reading has all the values of an earlier one, in front of others that their flags
take. -/
def Takes (r next : Reading) : Prop :=
  ∃ more, next.values = r.values ++ more ∧ ∀ p ∈ more, p.1.accepts p.2 = true

lemma Takes.of_eq (h : next.values = r.values) : Takes r next :=
  ⟨[], by rw [h, List.append_nil], by simp⟩

lemma Takes.trans (h : Takes r next) (hlast : Takes next last) : Takes r last := by
  obtain ⟨more, hmore, haccepts⟩ := h
  obtain ⟨others, hothers, halso⟩ := hlast
  refine ⟨more ++ others, by rw [hothers, hmore, List.append_assoc], fun p hp => ?_⟩
  rcases List.mem_append.mp hp with hp | hp
  · exact haccepts p hp
  · exact halso p hp

lemma takes_accept {value? : Option Text} (h : r.accept s value? = .ok next) : Takes r next := by
  unfold accept at h
  split at h
  · cases h
  · rename_i value
    split at h
    · cases h
    · split at h
      · rename_i haccepts
        cases h
        exact ⟨[(s, value)], rfl, by simpa using haccepts⟩
      · cases h

lemma takes_settle (h : r.settle = .ok next) : Takes r next := by
  unfold settle at h
  split at h
  · cases h
    exact .of_eq rfl
  · have hpending : Takes r { r with pending? := none } := .of_eq rfl
    exact hpending.trans (takes_accept h)

lemma takes_onSetting {value? : Option Text} (h : r.onSetting s value? = .ok next) : Takes r next := by
  obtain ⟨settled, hsettled, h⟩ := Outcome.bind_eq_ok.mp h
  refine (takes_settle hsettled).trans ?_
  cases value? with
  | none =>
    cases h
    exact .of_eq rfl
  | some value => exact takes_accept h

lemma takes_onSwitch {flag : Switch} (h : r.onSwitch flag = .ok next) : Takes r next := by
  obtain ⟨settled, hsettled, h⟩ := Outcome.bind_eq_ok.mp h
  refine (takes_settle hsettled).trans ?_
  cases flag with
  | help => cases h
  | version => cases h
  | verbose =>
    by_cases hverbose : settled.verbose = true
    · rw [if_pos hverbose] at h
      cases h
    · rw [if_neg hverbose] at h
      cases h
      exact .of_eq rfl

lemma takes_onLetters {argument letters : Text} (h : onLetters argument r letters = .ok next) :
    Takes r next := by
  induction letters generalizing r with
  | nil =>
    cases h
    exact .of_eq rfl
  | cons letter rest ih =>
    unfold onLetters at h
    split at h
    · cases h
    · obtain ⟨switched, hswitched, h⟩ := Outcome.bind_eq_ok.mp h
      exact (takes_onSwitch hswitched).trans (ih h)
    · split at h <;> exact takes_onSetting h

lemma takes_onLong {argument name : Text} {value? : Option Text}
    (h : onLong argument r name value? = .ok next) : Takes r next := by
  unfold onLong at h
  split at h
  · cases h
  · exact takes_onSetting h
  · exact takes_onSwitch h
  · cases h

lemma takes_onPlain {argument : Text} (h : onPlain argument r = .ok next) : Takes r next := by
  unfold onPlain at h
  split at h
  · cases h
    exact .of_eq rfl
  · cases h

/-- Whatever the arguments are, each value that is read is one that its flag takes. -/
theorem takes_onArguments {arguments : List Text} (h : r.onArguments arguments = .ok next) :
    Takes r next := by
  induction arguments generalizing r with
  | nil => exact takes_settle h
  | cons argument rest ih =>
    unfold onArguments at h
    split at h
    · cases rest with
      | nil => exact takes_settle h
      | cons => cases h
    · obtain ⟨read, hread, h⟩ := Outcome.bind_eq_ok.mp h
      exact (takes_onLong hread).trans (ih h)
    · obtain ⟨read, hread, h⟩ := Outcome.bind_eq_ok.mp h
      exact (takes_onLetters hread).trans (ih h)
    · obtain ⟨read, hread, h⟩ := Outcome.bind_eq_ok.mp h
      exact (takes_onPlain hread).trans (ih h)

/-- The first of the values that were given counts. -/
lemma value?_eq_head? (r : Reading) (s : Setting) : r.value? s = (r.valuesOf s).head? := by
  unfold value? valuesOf
  induction r.values with
  | nil => rfl
  | cons p rest ih =>
    obtain ⟨t, value⟩ := p
    rw [List.lookup_cons, List.filterMap_cons]
    by_cases h : t = s
    · simp [h]
    · simpa [h, beq_false_of_ne (Ne.symm h)] using ih

lemma mem_of_value? {value : Text} (h : r.value? s = some value) : (s, value) ∈ r.values := by
  obtain ⟨front, back, hvalues, -⟩ := List.lookup_eq_some_iff.mp h
  rw [hvalues]
  exact List.mem_append_right front List.mem_cons_self

end Reading
end DartNodes.Command
