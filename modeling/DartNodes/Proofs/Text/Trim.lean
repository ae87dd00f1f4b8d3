import DartNodes.Proofs.Text.Runs
import DartNodes.Text.Blank
import Mathlib.Data.List.DropRight

/-! Trimmed texts are those with no blank at either end. -/
namespace DartNodes.Text

lemma trimEnd_isPrefix (t : Text) : t.trimEnd <+: t := List.rdropWhile_prefix isBlank t

lemma head?_trimStart {t : Text} {c : Char} (h : t.trimStart.head? = some c) : isBlank c = false := by
  exact eq_false_of_head?_dropWhile h

lemma head?_trim {t : Text} {c : Char} (h : t.trim.head? = some c) : isBlank c = false := by
  obtain ⟨rest, hrest⟩ := trimEnd_isPrefix t.trimStart
  refine head?_trimStart (t := t) ?_
  rw [← hrest]
  cases hs : t.trimStart.trimEnd with
  | nil =>
    rw [trim, hs] at h
    cases h
  | cons d s =>
    rw [trim, hs] at h
    exact h

lemma getLast?_trim {t : Text} {c : Char} (h : t.trim.getLast? = some c) : isBlank c = false := by
  have hr : (trimStart t.trimStart.reverse).head? = some c := by
    rw [← List.getLast?_reverse]
    exact h
  exact head?_trimStart hr

lemma trimStart_eq_self {t : Text} (h : ∀ c, t.head? = some c → isBlank c = false) :
    t.trimStart = t := by
  cases t with
  | nil => rfl
  | cons c t => simp [trimStart, h c rfl]

lemma trimEnd_eq_self {t : Text} (h : ∀ c, t.getLast? = some c → isBlank c = false) :
    t.trimEnd = t := by
  have hr : trimStart t.reverse = t.reverse := trimStart_eq_self (by simpa using h)
  change (trimStart t.reverse).reverse = t
  rw [hr, List.reverse_reverse]

theorem trim_eq_self {t : Text} (hhead : ∀ c, t.head? = some c → isBlank c = false)
    (hlast : ∀ c, t.getLast? = some c → isBlank c = false) : t.trim = t := by
  rw [trim, trimStart_eq_self hhead, trimEnd_eq_self hlast]

@[simp] theorem trim_trim (t : Text) : t.trim.trim = t.trim :=
  trim_eq_self (fun _ => head?_trim) (fun _ => getLast?_trim)

/-- Trimming leaves nothing of blanks, and something of any other text. -/
lemma trim_eq_nil {t : Text} : t.trim = [] ↔ ∀ c ∈ t, isBlank c = true := by
  constructor
  · intro h
    have hstart : ∀ c ∈ t.trimStart, isBlank c = true := by
      simpa using List.dropWhile_eq_nil_iff.mp (List.reverse_eq_nil_iff.mp h)
    intro c hc
    rw [← List.takeWhile_append_dropWhile (p := isBlank) (l := t)] at hc
    rcases List.mem_append.mp hc with hc | hc
    · exact List.mem_takeWhile_imp hc
    · exact hstart c hc
  · intro h
    rw [trim, trimStart, List.dropWhile_eq_nil_iff.mpr h]
    rfl

/-- Blanks behind a text do not matter. -/
lemma trim_append_blank {s t : Text} (h : ∀ c ∈ t, isBlank c = true) : (s ++ t).trim = s.trim := by
  rw [trim, trim, trimStart, List.dropWhile_append]
  split
  · rename_i hs
    rw [trimStart, List.isEmpty_iff.mp hs, List.dropWhile_eq_nil_iff.mpr h]
  · exact trimEnd_append_blank h

/-- Trimming cuts a part out of a text. -/
lemma trim_isInfix (t : Text) : t.trim <:+: t :=
  (trimEnd_isPrefix t.trimStart).isInfix.trans (List.dropWhile_suffix isBlank).isInfix

lemma mem_of_mem_trim {t : Text} {c : Char} (h : c ∈ t.trim) : c ∈ t :=
  (trim_isInfix t).subset h

end DartNodes.Text
