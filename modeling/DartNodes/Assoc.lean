/-! Association lists that hold one entry for each key, in the order in which the keys first came. They follow
what is documented of `IndexMap`: a key that is there already keeps its place when it is given a new value, and
a new key comes last. -/
namespace DartNodes.Assoc

variable {κ ν : Type} [BEq κ] [LawfulBEq κ]

def keys (entries : List (κ × ν)) : List κ := entries.map Prod.fst

/-- Gives `key` the value `value`: where the key already stands, or else at the end. -/
def set (key : κ) (value : ν) : List (κ × ν) → List (κ × ν)
  | [] => [(key, value)]
  | (k, v) :: rest => if k == key then (k, value) :: rest else (k, v) :: set key value rest

theorem keys_set (key : κ) (value : ν) (entries : List (κ × ν)) :
    keys (set key value entries) =
      if key ∈ keys entries then keys entries else keys entries ++ [key] := by
  induction entries with
  | nil => simp [set, keys]
  | cons entry rest ih =>
    obtain ⟨k, v⟩ := entry
    by_cases hk : k = key
    · simp [set, keys, hk]
    · have hne : key ≠ k := fun h => hk h.symm
      have hcons : keys (set key value ((k, v) :: rest)) = k :: keys (set key value rest) := by
        simp [set, keys, hk]
      have hkeys : keys ((k, v) :: rest) = k :: keys rest := rfl
      rw [hcons, ih, hkeys]
      simp only [List.mem_cons, hne, false_or]
      split <;> rfl

theorem nodup_keys_set (key : κ) (value : ν) {entries : List (κ × ν)} (h : (keys entries).Nodup) :
    (keys (set key value entries)).Nodup := by
  rw [keys_set]
  split
  · exact h
  · rename_i hn
    rw [List.nodup_append]
    refine ⟨h, by simp, ?_⟩
    intro a ha b hb hab
    rw [List.mem_singleton] at hb
    exact hn (hb ▸ hab ▸ ha)

theorem lookup_set (key : κ) (value : ν) (query : κ) (entries : List (κ × ν)) :
    (set key value entries).lookup query =
      if query == key then some value else entries.lookup query := by
  induction entries with
  | nil => cases hq : query == key <;> simp [set, List.lookup_cons, hq]
  | cons entry rest ih =>
    obtain ⟨k, v⟩ := entry
    by_cases hk : k = key
    · subst hk
      cases hq : query == k <;> simp [set, List.lookup_cons, hq]
    · cases hq : query == k with
      | true =>
        have he : query = k := eq_of_beq hq
        simp [set, hk, he]
      | false => simp [set, List.lookup_cons, hk, hq, ih]

theorem lookup_eq_none_iff (query : κ) (entries : List (κ × ν)) :
    entries.lookup query = none ↔ query ∉ keys entries := by
  induction entries with
  | nil => simp [keys]
  | cons entry rest ih =>
    obtain ⟨k, v⟩ := entry
    cases hq : query == k with
    | true =>
      have he : query = k := eq_of_beq hq
      simp [keys, he]
    | false =>
      have hne : query ≠ k := fun h => by simp [h] at hq
      rw [List.lookup_cons, hq, ih]
      simp [keys, hne]

end DartNodes.Assoc
