import Mathlib

/-!
# Finite maps with an iteration order

A Go map is modelled by Mathlib's association lists without duplicate keys
(`AList`): looking up, writing and deleting go by key, and the order of the
entries stands for one iteration order of `range`. This module adds the
one-line reading rules (`lookup_insert_if`, `lookup_erase_if`) that the proofs
rewrite with, and what writes and deletes do to the list of keys.
-/

/-- A Go `map[κ]ν`. -/
abbrev GoMap (κ ν : Type) := AList (fun _ : κ => ν)

namespace GoMap

variable {κ ν : Type} [DecidableEq κ]

/-- Go's `len` of a map. -/
def len (m : GoMap κ ν) : ℕ := m.keys.length

/-- Reading a key after a write. -/
theorem lookup_insert_if (m : GoMap κ ν) (k k' : κ) (v : ν) :
    (m.insert k v).lookup k' = if k' = k then some v else m.lookup k' := by
  by_cases h : k' = k
  · subst h
    rw [if_pos rfl, AList.lookup_insert]
  · rw [if_neg h, AList.lookup_insert_ne h]

/-- Reading a key after a delete. -/
theorem lookup_erase_if (m : GoMap κ ν) (k k' : κ) :
    (m.erase k).lookup k' = if k' = k then none else m.lookup k' := by
  by_cases h : k' = k
  · subst h
    rw [if_pos rfl, AList.lookup_erase]
  · rw [if_neg h, AList.lookup_erase_ne h]

/-- A key is present exactly when its lookup succeeds. -/
theorem mem_iff_lookup (m : GoMap κ ν) (k : κ) : k ∈ m ↔ ∃ v, m.lookup k = some v := by
  rw [← AList.lookup_isSome, Option.isSome_iff_exists]

/-- Writing a new key puts it in front of the old ones. -/
theorem keys_insert_of_notMem {m : GoMap κ ν} {k : κ} (h : k ∉ m) (v : ν) :
    (m.insert k v).keys = k :: m.keys := by
  rw [AList.keys_insert, List.erase_of_not_mem (fun hk => h (AList.mem_keys.mpr hk))]

theorem len_insert_of_notMem {m : GoMap κ ν} {k : κ} (h : k ∉ m) (v : ν) :
    len (m.insert k v) = len m + 1 := by
  unfold len
  rw [keys_insert_of_notMem h, List.length_cons]

/-- Writing a key that is there keeps the number of keys. -/
theorem len_insert_of_mem {m : GoMap κ ν} {k : κ} (h : k ∈ m) (v : ν) :
    len (m.insert k v) = len m := by
  unfold len
  have hmem : k ∈ m.keys := AList.mem_keys.mp h
  have hpos : 0 < m.keys.length := List.length_pos_of_mem hmem
  rw [AList.keys_insert, List.length_cons, List.length_erase_of_mem hmem]
  omega

/-- A write adds at most one key. -/
theorem len_insert_le (m : GoMap κ ν) (k : κ) (v : ν) : len (m.insert k v) ≤ len m + 1 := by
  unfold len
  rw [AList.keys_insert, List.length_cons]
  exact Nat.succ_le_succ List.length_erase_le

/-- A map all of whose keys are in a list has at most as many keys. -/
theorem len_le_of_keys {m : GoMap κ ν} {ks : List κ} (h : ∀ k, m.lookup k ≠ none → k ∈ ks) :
    len m ≤ ks.length := by
  refine (List.subperm_of_subset m.keys_nodup fun k hk => h k ?_).length_le
  obtain ⟨v, hv⟩ := (mem_iff_lookup m k).mp (AList.mem_keys.mpr hk)
  rw [hv]
  simp

/-- Deleting a key, up to the order of the keys. -/
theorem keys_perm_cons_erase {m : GoMap κ ν} {k : κ} (h : k ∈ m) :
    m.keys.Perm (k :: (m.erase k).keys) := by
  rw [AList.keys_erase]
  exact List.perm_cons_erase (AList.mem_keys.mp h)

theorem len_erase_of_mem {m : GoMap κ ν} {k : κ} (h : k ∈ m) : len (m.erase k) + 1 = len m :=
  (keys_perm_cons_erase h).length_eq.symm

theorem len_erase_le (m : GoMap κ ν) (k : κ) : len (m.erase k) ≤ len m := by
  unfold len
  rw [AList.keys_erase]
  exact List.length_erase_le

theorem erase_insert_self (m : GoMap κ ν) (k : κ) (v : ν) : (m.insert k v).erase k = m.erase k := by
  apply AList.ext
  simp [AList.entries_insert, AList.erase]

/-- A map without keys is the empty map. -/
theorem eq_empty_of_lookup {m : GoMap κ ν} (h : ∀ k, m.lookup k = none) : m = ∅ := by
  apply AList.ext
  cases he : m.entries with
  | nil => rfl
  | cons e es =>
    have hmem : e.1 ∈ m := by
      rw [AList.mem_keys, AList.keys, he]
      exact List.mem_cons_self
    exact absurd hmem (AList.lookup_eq_none.mp (h e.1))

theorem keys_eq_nil_iff {m : GoMap κ ν} : m.keys = [] ↔ m = ∅ := by
  constructor
  · intro h
    apply eq_empty_of_lookup
    intro k
    rw [AList.lookup_eq_none, AList.mem_keys, h]
    exact List.not_mem_nil
  · rintro rfl
    exact AList.keys_empty

end GoMap
