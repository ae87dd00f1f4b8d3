import DartNodes.Assoc
import Mathlib.Data.List.Basic
import Mathlib.Data.List.Nodup

/-! New keys come last. Under distinct keys the order of the entries does not matter. -/
namespace DartNodes.Assoc

variable {κ ν : Type} [BEq κ] [LawfulBEq κ] {entries others : List (κ × ν)}

/-- A new key comes last. -/
lemma set_of_notMem {key : κ} (h : key ∉ keys entries) (value : ν) :
    set key value entries = entries ++ [(key, value)] := by
  induction entries with
  | nil => rfl
  | cons entry rest ih =>
    obtain ⟨hne, hrest⟩ := List.ne_and_not_mem_of_not_mem_cons h
    rw [set, if_neg (by simpa using Ne.symm hne), ih hrest]
    rfl

/-- The last value of a key is kept. -/
lemma set_set (key : κ) (value next : ν) (entries : List (κ × ν)) :
    set key next (set key value entries) = set key next entries := by
  induction entries with
  | nil => simp [set]
  | cons entry rest ih =>
    by_cases hkey : entry.1 = key
    · simp [set, hkey]
    · simp [set, hkey, ih]

/-- To give a key the value that it has changes nothing. -/
lemma set_of_lookup {key : κ} {value : ν} (h : entries.lookup key = some value) :
    set key value entries = entries := by
  induction entries with
  | nil => cases h
  | cons entry rest ih =>
    obtain ⟨k, v⟩ := entry
    by_cases hkey : k = key
    · subst hkey
      have hvalue : v = value := by simpa using h
      simp [set, hvalue]
    · have hne : (key == k) = false := by simpa using Ne.symm hkey
      rw [List.lookup_cons, hne] at h
      rw [set, if_neg (by simpa using hkey), ih h]

/-- Under distinct keys, every entry is found. -/
lemma lookup_eq_some_iff_mem (h : (keys entries).Nodup) {key : κ} {value : ν} :
    entries.lookup key = some value ↔ (key, value) ∈ entries := by
  rw [List.lookup_eq_some_iff]
  constructor
  · rintro ⟨before, after, rfl, -⟩
    simp
  · intro hmem
    obtain ⟨before, after, rfl⟩ := List.append_of_mem hmem
    refine ⟨before, after, rfl, fun entry hentry => ?_⟩
    rw [keys, List.map_append, List.map_cons, List.nodup_middle, List.nodup_cons] at h
    have hkey : entry.1 ∈ before.map Prod.fst := List.mem_map_of_mem hentry
    rw [bne_iff_ne]
    rintro rfl
    exact h.1 (List.mem_append_left _ hkey)

theorem lookup_perm (hperm : entries.Perm others) (h : (keys entries).Nodup) (key : κ) :
    entries.lookup key = others.lookup key := by
  have hothers : (keys others).Nodup := (hperm.map Prod.fst).nodup_iff.mp h
  ext value
  rw [lookup_eq_some_iff_mem h, lookup_eq_some_iff_mem hothers, hperm.mem_iff]

end DartNodes.Assoc
