import Rlqs.Lib.Separated
import Rlqs.Storage.Definitions

/-!
# RLQS storage — what a scoped key says about its bucket

`BucketKeyFromProto` writes the pairs of the bucket map in the order of their
keys, `0x00` inside a pair and `0x1e` between pairs; `DomainScopedKey` puts the
domain and `0x1f` in front. Nothing is escaped, so a scoped key determines its
domain and its bucket map only under a condition on what they contain
(`scopedKey_of_clean`) or on their lengths (`scopedKey_of_single_bytes`).
`scopedKey_canonical` says the first in both directions.
-/

namespace Rlqs

open Separated

/-- Two bucket maps with the same entries, in whatever order. -/
def SameBucket (id id' : BucketId) : Prop := ∀ k, id.bucket.lookup k = id'.bucket.lookup k

/-- The pairs of a bucket map in the order in which they are written. -/
def sortedPairs (id : BucketId) : List (Str × Str) :=
  (id.bucket.keys.insertionSort (· ≤ ·)).map fun k => (k, (id.bucket.lookup k).getD [])

theorem mem_sortedPairs {id : BucketId} {p : Str × Str} :
    p ∈ sortedPairs id ↔ id.bucket.lookup p.1 = some p.2 := by
  unfold sortedPairs
  rw [List.mem_map]
  constructor
  · rintro ⟨k, hk, rfl⟩
    rw [List.mem_insertionSort, ← AList.mem_keys, GoMap.mem_iff_lookup] at hk
    obtain ⟨v, hv⟩ := hk
    rw [hv]
    rfl
  · intro hp
    refine ⟨p.1, ?_, ?_⟩
    · rw [List.mem_insertionSort, ← AList.mem_keys, GoMap.mem_iff_lookup]
      exact ⟨p.2, hp⟩
    · rw [hp]
      rfl

theorem sortedPairs_ne_nil {id : BucketId} (h : GoMap.len id.bucket ≠ 0) : sortedPairs id ≠ [] := by
  intro hnil
  apply h
  have hlen := congrArg List.length hnil
  simpa [sortedPairs, GoMap.len] using hlen

/-- The written pairs determine the map. -/
theorem sameBucket_of_sortedPairs {id id' : BucketId} (h : sortedPairs id = sortedPairs id') :
    SameBucket id id' := by
  intro k
  have hiff : ∀ v, id.bucket.lookup k = some v ↔ id'.bucket.lookup k = some v := by
    intro v
    have hid : (k, v) ∈ sortedPairs id ↔ id.bucket.lookup k = some v := mem_sortedPairs
    have hid' : (k, v) ∈ sortedPairs id' ↔ id'.bucket.lookup k = some v := mem_sortedPairs
    rw [← hid, ← hid', h]
  exact Option.ext hiff

/-- The bucket key is the pairs, as records; an empty map has no pairs and the
empty key. -/
theorem bucketKeyFromProto_eq (id : BucketId) :
    bucketKeyFromProto (some id) = records nullByte recordSep (sortedPairs id) := by
  unfold bucketKeyFromProto records sortedPairs
  rw [List.map_map]
  by_cases hlen : GoMap.len id.bucket = 0
  · have hkeys : id.bucket.keys = [] := List.eq_nil_of_length_eq_zero hlen
    simp only [if_pos hlen, hkeys]
    rfl
  · simp only [if_neg hlen]
    rfl

/-- A non-empty map has a non-empty key. -/
theorem bucketKeyFromProto_ne_nil {id : BucketId} (h : GoMap.len id.bucket ≠ 0) :
    bucketKeyFromProto (some id) ≠ [] := by
  obtain ⟨p, ps, hps⟩ := List.exists_cons_of_ne_nil (sortedPairs_ne_nil h)
  rw [bucketKeyFromProto_eq, hps]
  exact records_cons_ne_nil

/-- The same entries make the same list of keys, up to order. -/
theorem SameBucket.keys_perm {id id' : BucketId} (h : SameBucket id id') :
    id.bucket.keys.Perm id'.bucket.keys := by
  rw [List.perm_ext_iff_of_nodup id.bucket.keys_nodup id'.bucket.keys_nodup]
  intro k
  rw [← AList.mem_keys, ← AList.mem_keys, GoMap.mem_iff_lookup, GoMap.mem_iff_lookup, h k]

theorem SameBucket.len {id id' : BucketId} (h : SameBucket id id') :
    GoMap.len id.bucket = GoMap.len id'.bucket := h.keys_perm.length_eq

/-- The written pairs do not depend on the iteration order of the map. -/
theorem SameBucket.sortedPairs {id id' : BucketId} (h : SameBucket id id') :
    sortedPairs id = sortedPairs id' := by
  have hsorted : id.bucket.keys.insertionSort (· ≤ ·) = id'.bucket.keys.insertionSort (· ≤ ·) := by
    have hperm := ((List.perm_insertionSort (· ≤ ·) id.bucket.keys).trans h.keys_perm).trans
      (List.perm_insertionSort (· ≤ ·) id'.bucket.keys).symm
    exact hperm.eq_of_pairwise' (List.pairwise_insertionSort _ _) (List.pairwise_insertionSort _ _)
  unfold Rlqs.sortedPairs
  rw [hsorted]
  apply List.map_congr_left
  intro k _
  rw [h k]

/-- `BucketKeyFromProto` does not depend on the iteration order of the map. -/
theorem SameBucket.key {id id' : BucketId} (h : SameBucket id id') :
    bucketKeyFromProto (some id) = bucketKeyFromProto (some id') := by
  rw [bucketKeyFromProto_eq, bucketKeyFromProto_eq, h.sortedPairs]

/-- The scoped key of a bucket in a domain. -/
def bucketScope (domain : Str) (id : BucketId) : BucketKey :=
  domainScopedKey domain (bucketKeyFromProto (some id))

theorem bucketScope_eq {domain : Str} {id : BucketId} (hd : domain ≠ []) :
    bucketScope domain id = domain ++ unitSep :: records nullByte recordSep (sortedPairs id) := by
  unfold bucketScope domainScopedKey
  rw [if_neg hd, bucketKeyFromProto_eq]

/-- No `0x1f` in the domain, no `0x00` in a key and no `0x1e` in a value. -/
def SeparatorFree (domain : Str) (id : BucketId) : Prop :=
  unitSep ∉ domain ∧ ∀ k v, id.bucket.lookup k = some v → nullByte ∉ k ∧ recordSep ∉ v

section Decode

variable {d d' : Str} {id id' : BucketId} (hd : d ≠ []) (hd' : d' ≠ [])

include hd hd'

/-- Domains without `0x1f` are read back from a scoped key, and so is the rest. -/
theorem scopedKey_cut {key key' : BucketKey} (hc : unitSep ∉ d) (hc' : unitSep ∉ d')
    (h : domainScopedKey d key = domainScopedKey d' key') : d = d' ∧ key = key' := by
  unfold domainScopedKey at h
  rw [if_neg hd, if_neg hd'] at h
  have hmark : ∀ (t : Str), ∀ x ∈ (unitSep :: t).head?, x = unitSep := by
    intro t x hx
    simpa [eq_comm] using hx
  obtain ⟨hdom, hrest⟩ := cut_unique hc hc' (hmark _) (hmark _) h
  exact ⟨hdom, (List.cons.inj hrest).2⟩

/-- Without separators in the wrong places, equal scoped keys come from the
same domain and the same bucket map. -/
theorem scopedKey_of_clean (hc : SeparatorFree d id) (hc' : SeparatorFree d' id')
    (h : bucketScope d id = bucketScope d' id') : d = d' ∧ SameBucket id id' := by
  obtain ⟨hdom, hkey⟩ := scopedKey_cut hd hd' hc.1 hc'.1 h
  rw [bucketKeyFromProto_eq, bucketKeyFromProto_eq] at hkey
  have hclean : ∀ {d : Str} {id : BucketId}, SeparatorFree d id →
      ∀ p ∈ sortedPairs id, Clean nullByte recordSep p := by
    intro d id hc p hp
    exact hc.2 p.1 p.2 (mem_sortedPairs.mp hp)
  exact ⟨hdom, sameBucket_of_sortedPairs (records_injective (hclean hc) (hclean hc') hkey)⟩

/-- With keys and values of one byte each, equal scoped keys come from the same
domain and the same bucket map, whatever bytes they are. -/
theorem scopedKey_of_single_bytes (hne : GoMap.len id.bucket ≠ 0)
    (hne' : GoMap.len id'.bucket ≠ 0)
    (hs : ∀ k v, id.bucket.lookup k = some v → k.length = 1 ∧ v.length = 1)
    (hs' : ∀ k v, id'.bucket.lookup k = some v → k.length = 1 ∧ v.length = 1)
    (h : bucketScope d id = bucketScope d' id') : d = d' ∧ SameBucket id id' := by
  rw [bucketScope_eq hd, bucketScope_eq hd'] at h
  obtain ⟨hdom, hpairs⟩ := prefixed_records_injective (m := 1) (n := 1)
    (show unitSep ≠ recordSep by decide) (fun p hp => hs p.1 p.2 (mem_sortedPairs.mp hp))
    (fun p hp => hs' p.1 p.2 (mem_sortedPairs.mp hp)) (sortedPairs_ne_nil hne)
    (sortedPairs_ne_nil hne') h
  exact ⟨hdom, sameBucket_of_sortedPairs hpairs⟩

/-- The scoped key is canonical: equal domains and equal maps, in whatever order
they are enumerated, have one key, and two that share a key are equal unless a
domain contains `0x1f`, a map key `0x00` or a map value `0x1e`. The maps may be
empty. -/
theorem scopedKey_canonical :
    (d = d' ∧ SameBucket id id' → bucketScope d id = bucketScope d' id') ∧
    (bucketScope d id = bucketScope d' id' →
      (d = d' ∧ SameBucket id id') ∨
      (unitSep ∈ d ∨ unitSep ∈ d') ∨
      (∃ k v, (id.bucket.lookup k = some v ∨ id'.bucket.lookup k = some v) ∧ nullByte ∈ k) ∨
      (∃ k v, (id.bucket.lookup k = some v ∨ id'.bucket.lookup k = some v) ∧ recordSep ∈ v)) := by
  constructor
  · rintro ⟨rfl, hsame⟩
    rw [bucketScope, bucketScope, hsame.key]
  · intro h
    by_contra hno
    simp only [not_or] at hno
    obtain ⟨hdiff, ⟨hdom, hdom'⟩, hkeys, hvals⟩ := hno
    have hfree : ∀ k v, id.bucket.lookup k = some v ∨ id'.bucket.lookup k = some v →
        nullByte ∉ k ∧ recordSep ∉ v := by
      intro k v hkv
      exact ⟨fun hk => hkeys ⟨k, v, hkv, hk⟩, fun hv => hvals ⟨k, v, hkv, hv⟩⟩
    have hc : SeparatorFree d id :=
      ⟨hdom, fun k v hkv => hfree k v (Or.inl hkv)⟩
    have hc' : SeparatorFree d' id' :=
      ⟨hdom', fun k v hkv => hfree k v (Or.inr hkv)⟩
    exact hdiff (scopedKey_of_clean hd hd' hc hc' h)

end Decode

/-- The map with `"a": "b"` and `"c": "d"`, enumerated in this order. -/
def pairId : BucketId := ⟨((∅ : GoMap Str Str).insert [99] [100]).insert [97] [98]⟩

/-- The same map, enumerated the other way round. -/
def swappedId : BucketId := ⟨((∅ : GoMap Str Str).insert [97] [98]).insert [99] [100]⟩

theorem sameBucket_swapped : SameBucket pairId swappedId := by
  intro k
  unfold pairId swappedId
  simp only [GoMap.lookup_insert_if]
  by_cases ha : k = [97]
  · subst ha
    rfl
  · rw [if_neg ha, if_neg ha]

/-- Two enumerations that differ as lists have one scoped key. -/
theorem scopedKey_canonical_two_orders :
    pairId.bucket.keys ≠ swappedId.bucket.keys ∧
    bucketScope [100] pairId = bucketScope [100] swappedId :=
  ⟨by decide, (scopedKey_canonical (by decide) (by decide)).1 ⟨rfl, sameBucket_swapped⟩⟩

end Rlqs
