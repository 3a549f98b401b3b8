import Rlqs.Lib.Trace
import Rlqs.Storage.Keys
import Rlqs.Main.Build

/-!
# RLQS admin — listing the buckets of a domain

`/debug/buckets?domain=d` reads the whole store and keeps the keys that start
with `d` and `0x1f`; what follows is shown as the bucket key. The storage
package writes the scoped keys and the admin package cuts them on its own, so
the two have to agree for every history of the store.

A bucket is recorded under `d` when `RecordUsage` has filed a report for it in
the domain `d` and its entry has not been deleted since (`RecordedUnder`).

* `get_storeAfter_iff` — an entry exists iff a report was filed under its key
  after the last call that deleted it;
* `mem_listing_iff` — what the handler shows;
* `debugBuckets_inverts_scoping` — every bucket recorded under `d` is shown once
  with its key and its counters, and whatever else is shown was recorded under
  another domain, where one of the two domains contains `0x1f`.
-/

namespace Rlqs

open Steps

-- ---------------------------------------------------------------------------
-- The handler
-- ---------------------------------------------------------------------------

/-- `bucketEntry`. -/
structure BucketEntry where
  key : Str
  allowed : UInt64
  denied : UInt64
deriving DecidableEq

/-- What the handler writes: the status and text of `http.Error`, or the slice
that it encodes. -/
inductive BucketsResponse where
  | error (status : ℕ) (body : String)
  | ok (result : List BucketEntry)

/-- `BucketLister`: of the two stores only the in-memory one has `All`. -/
def Store.lister : Store → Option (GoMap BucketKey UsageState)
  | .memory s => some s.all
  | .redis _ => none

/-- One turn of the loop over the buckets; `none` is its `continue`. -/
def bucketEntry (domain : Str) (k : BucketKey) (v : UsageState) : Option BucketEntry :=
  if domain ≠ [] then
    let head := domain ++ [unitSep]
    if k.length ≤ head.length ∨ k.take head.length ≠ head then none
    else some ⟨k.drop head.length, v.allowed, v.denied⟩
  else some ⟨k, v.allowed, v.denied⟩

/-- The loop over the map that `All` returned, in the order `order`. -/
def listing (all : GoMap BucketKey UsageState) (order : List BucketKey) (domain : Str) :
    List BucketEntry :=
  order.filterMap fun k => (all.lookup k).bind (bucketEntry domain k)

/-- `Handler.handleDebugBuckets`; `domain` is the query parameter, empty when it
is missing. -/
def handleDebugBuckets (store : Store) (order : List BucketKey) (domain : Str) :
    BucketsResponse :=
  match store.lister with
  | none => .error 501 "\x7b\"error\":\"bucket listing not supported by storage backend\"\x7d"
  | some all => .ok (listing all order domain)

-- ---------------------------------------------------------------------------
-- Histories of the store
-- ---------------------------------------------------------------------------

/-- A call of the in-memory store. -/
inductive BucketCall where
  | record (domain : Str) (report : UsageReport)
  | remove (domain : Str) (key : BucketKey)

/-- A domain is given, and a report names a bucket with a non-empty map. -/
def BucketCall.Proper : BucketCall → Prop
  | .record domain report =>
    domain ≠ [] ∧ ∃ id, report.bucketId = some id ∧ GoMap.len id.bucket ≠ 0
  | .remove domain _ => domain ≠ []

def BucketCall.run (s : MemoryStorage) : BucketCall → MemoryStorage
  | .record domain report => s.recordUsage domain report
  | .remove domain key => s.removeBucket domain key

/-- The store after some calls. -/
def storeAfter (cs : List BucketCall) : MemoryStorage :=
  cs.foldl BucketCall.run MemoryStorage.newMemoryStorage

/-- The call files a report under the scoped key `k`. -/
def BucketCall.files (k : BucketKey) : BucketCall → Prop
  | .record domain report => report.scopedKey domain = k
  | .remove _ _ => False

/-- The call deletes the entry with the scoped key `k`. -/
def BucketCall.deletes (k : BucketKey) : BucketCall → Prop
  | .record _ _ => False
  | .remove domain key => domainScopedKey domain key = k

/-- The call is a `RecordUsage` in the domain `d` for the bucket key `key`. -/
def BucketCall.recordsUnder (d : Str) (key : BucketKey) : BucketCall → Prop
  | .record domain report => domain = d ∧ bucketKeyFromProto report.bucketId = key
  | .remove _ _ => False

/-- The bucket was recorded under `d`, and its entry has not been deleted since. -/
def RecordedUnder (cs : List BucketCall) (d : Str) (key : BucketKey) : Prop :=
  Since (BucketCall.recordsUnder d key) (BucketCall.deletes (domainScopedKey d key)) cs

theorem storeAfter_append_one (cs : List BucketCall) (c : BucketCall) :
    storeAfter (cs ++ [c]) = c.run (storeAfter cs) := by
  unfold storeAfter
  rw [List.foldl_append]
  rfl

/-- An entry exists iff a report was filed under its key after the last call
that deleted it. -/
theorem get_storeAfter_iff (cs : List BucketCall) (k : BucketKey) :
    (∃ st, (storeAfter cs).get k = some st) ↔
      Since (BucketCall.files k) (BucketCall.deletes k) cs := by
  -- on the last call of the history
  induction cs using List.reverseRecOn with
  | nil =>
    constructor
    · rintro ⟨st, hst⟩
      simp [storeAfter, MemoryStorage.newMemoryStorage, MemoryStorage.get] at hst
    · intro hsince
      exact absurd hsince not_since_nil
  | append_singleton cs c ih =>
    rw [storeAfter_append_one, since_append_one, ← ih]
    cases c with
    | record domain report =>
      rw [BucketCall.run, MemoryStorage.get_recordUsage]
      by_cases hk : k = report.scopedKey domain
      · simp [BucketCall.files, hk]
      · simp [BucketCall.files, BucketCall.deletes, hk, Ne.symm hk]
    | remove domain key =>
      rw [BucketCall.run, MemoryStorage.get_removeBucket]
      by_cases hk : k = domainScopedKey domain key
      · simp [BucketCall.files, BucketCall.deletes, hk]
      · simp [BucketCall.files, BucketCall.deletes, hk, Ne.symm hk]

/-- A bucket recorded under `d` has an entry. -/
theorem RecordedUnder.get {cs : List BucketCall} {d : Str} {key : BucketKey}
    (h : RecordedUnder cs d key) : ∃ st, (storeAfter cs).get (domainScopedKey d key) = some st := by
  rw [get_storeAfter_iff]
  obtain ⟨before, c, after, rfl, hc, hafter⟩ := h
  refine ⟨before, c, after, rfl, ?_, hafter⟩
  cases c with
  | record domain report =>
    obtain ⟨rfl, rfl⟩ := hc
    exact rfl
  | remove domain key => exact hc

/-- Its key is not empty, since its map is not. -/
theorem RecordedUnder.key_ne_nil {cs : List BucketCall} (hcs : ∀ c ∈ cs, c.Proper) {d : Str}
    {key : BucketKey} (h : RecordedUnder cs d key) : key ≠ [] := by
  obtain ⟨before, c, after, rfl, hc, -⟩ := h
  have hproper := hcs c (by simp)
  cases c with
  | record domain report =>
    obtain ⟨-, id, hid, hlen⟩ := hproper
    obtain ⟨-, rfl⟩ := hc
    rw [hid]
    exact bucketKeyFromProto_ne_nil hlen
  | remove domain key => exact hc.elim

/-- Every entry belongs to a bucket that is recorded under some domain. -/
theorem recordedUnder_of_get {cs : List BucketCall} (hcs : ∀ c ∈ cs, c.Proper) {k : BucketKey}
    {st : UsageState} (h : (storeAfter cs).get k = some st) :
    ∃ d key, d ≠ [] ∧ domainScopedKey d key = k ∧ RecordedUnder cs d key := by
  obtain ⟨before, c, after, rfl, hc, hafter⟩ := (get_storeAfter_iff cs k).mp ⟨st, h⟩
  have hproper := hcs c (by simp)
  cases c with
  | record domain report =>
    refine ⟨domain, bucketKeyFromProto report.bucketId, hproper.1, hc, ?_⟩
    refine ⟨before, _, after, rfl, ⟨rfl, rfl⟩, ?_⟩
    have hkey : domainScopedKey domain (bucketKeyFromProto report.bucketId) = k := hc
    rw [hkey]
    exact hafter
  | remove domain key => exact hc.elim

-- ---------------------------------------------------------------------------
-- What is listed
-- ---------------------------------------------------------------------------

/-- The loop keeps the scoped keys of the domain and cuts the domain off. -/
theorem bucketEntry_eq_some {d : Str} (hd : d ≠ []) {k : BucketKey} {v : UsageState}
    {e : BucketEntry} : bucketEntry d k v = some e ↔
      e.key ≠ [] ∧ k = domainScopedKey d e.key ∧ e = ⟨e.key, v.allowed, v.denied⟩ := by
  have hscope : ∀ key, domainScopedKey d key = (d ++ [unitSep]) ++ key := by
    intro key
    unfold domainScopedKey
    rw [if_neg hd]
    simp
  unfold bucketEntry
  rw [if_pos hd, hscope]
  dsimp only
  generalize d ++ [unitSep] = head
  constructor
  · intro h
    split at h
    · simp at h
    · rename_i hcut
      rw [not_or, not_le, not_not] at hcut
      obtain ⟨hlen, htake⟩ := hcut
      obtain rfl := Option.some.inj h
      refine ⟨?_, ?_, rfl⟩
      · intro hnil
        have hdrop := congrArg List.length hnil
        rw [List.length_drop, List.length_nil] at hdrop
        omega
      · -- what was tested and what is left make up the key
        conv_lhs => rw [← List.take_append_drop head.length k, htake]
  · rintro ⟨hne, rfl, he⟩
    have hpos := List.length_pos_of_ne_nil hne
    rw [if_neg]
    · rw [List.drop_left, ← he]
    · rw [not_or, not_le, not_not, List.length_append, List.take_left]
      exact ⟨by omega, rfl⟩

section Listing

variable {s : MemoryStorage} {order : List BucketKey} {d : Str}

/-- What the handler shows for a domain. -/
theorem mem_listing_iff (hord : order.Perm s.all.keys) (hd : d ≠ []) {e : BucketEntry} :
    e ∈ listing s.all order d ↔ e.key ≠ [] ∧
      ∃ st, s.get (domainScopedKey d e.key) = some st ∧ e = ⟨e.key, st.allowed, st.denied⟩ := by
  unfold listing
  rw [List.mem_filterMap]
  constructor
  · rintro ⟨k, -, hk⟩
    obtain ⟨st, hst, he⟩ := Option.bind_eq_some_iff.mp hk
    obtain ⟨hne, rfl, heq⟩ := (bucketEntry_eq_some hd).mp he
    exact ⟨hne, st, hst, heq⟩
  · rintro ⟨hne, st, hst, heq⟩
    have hmem : domainScopedKey d e.key ∈ order := by
      rw [hord.mem_iff, ← AList.mem_keys, GoMap.mem_iff_lookup]
      exact ⟨st, hst⟩
    refine ⟨domainScopedKey d e.key, hmem, ?_⟩
    rw [Option.bind_eq_some_iff]
    exact ⟨st, hst, (bucketEntry_eq_some hd).mpr ⟨hne, rfl, heq⟩⟩

/-- No key is shown twice. -/
theorem nodup_listing (hord : order.Perm s.all.keys) (hd : d ≠ []) :
    ((listing s.all order d).map BucketEntry.key).Nodup := by
  unfold listing
  rw [List.map_filterMap]
  refine List.Nodup.filterMap ?_ (hord.nodup_iff.mpr s.all.keys_nodup)
  -- two scoped keys that leave the same key after the cut are the same
  have hback : ∀ {k key}, key ∈ Option.map BucketEntry.key
      ((s.all.lookup k).bind (bucketEntry d k)) → k = domainScopedKey d key := by
    intro k key hkey
    obtain ⟨e, he, rfl⟩ := Option.map_eq_some_iff.mp hkey
    obtain ⟨st, -, he⟩ := Option.bind_eq_some_iff.mp he
    exact ((bucketEntry_eq_some hd).mp he).2.1
  intro k k' key hk hk'
  rw [hback hk, hback hk']

end Listing

/-- The listing of a domain inverts the scoping. Every bucket recorded under `d`
is shown exactly once, with its bucket key and the counters of its entry; every
other line belongs to a bucket recorded under some `d'` with the same scoped
key, and `d` or `d'` contains `0x1f`. -/
theorem debugBuckets_inverts_scoping {cs : List BucketCall} (hcs : ∀ c ∈ cs, c.Proper) {d : Str}
    (hd : d ≠ []) {order : List BucketKey} (hord : order.Perm (storeAfter cs).all.keys) :
    ∃ result, handleDebugBuckets (.memory (storeAfter cs)) order d = .ok result ∧
      (∀ key, RecordedUnder cs d key →
        (result.map BucketEntry.key).count key = 1 ∧
        ∃ st, (storeAfter cs).get (domainScopedKey d key) = some st ∧
          (⟨key, st.allowed, st.denied⟩ : BucketEntry) ∈ result) ∧
      (∀ e ∈ result, ¬ RecordedUnder cs d e.key →
        ∃ d' key', RecordedUnder cs d' key' ∧
          domainScopedKey d' key' = domainScopedKey d e.key ∧ (unitSep ∈ d ∨ unitSep ∈ d')) := by
  refine ⟨_, rfl, ?_, ?_⟩
  · intro key hrec
    obtain ⟨st, hst⟩ := hrec.get
    have hmem : (⟨key, st.allowed, st.denied⟩ : BucketEntry) ∈
        listing (storeAfter cs).all order d :=
      (mem_listing_iff hord hd).mpr ⟨hrec.key_ne_nil hcs, st, hst, rfl⟩
    refine ⟨?_, st, hst, hmem⟩
    exact List.count_eq_one_of_mem (nodup_listing hord hd) (List.mem_map.mpr ⟨_, hmem, rfl⟩)
  · intro e he hnot
    obtain ⟨-, st, hst, -⟩ := (mem_listing_iff hord hd).mp he
    obtain ⟨d', key', hd', hkey, hrec⟩ := recordedUnder_of_get hcs hst
    refine ⟨d', key', hrec, hkey, ?_⟩
    by_contra hsep
    rw [not_or] at hsep
    -- without `0x1f` the key can be cut in one place only
    obtain ⟨rfl, rfl⟩ := scopedKey_cut hd' hd hsep.2 hsep.1 hkey
    exact hnot hrec

/-- A bucket is recorded under `d` and under `e`, and removed under `e`. -/
def sampleCalls : List BucketCall :=
  [.record [100] ⟨some sampleId, 3, 1, 0⟩, .record [101] ⟨some sampleId, 5, 0, 0⟩,
    .remove [101] (bucketKeyFromProto (some sampleId))]

theorem sampleCalls_proper : ∀ c ∈ sampleCalls, c.Proper := by
  have hlen : GoMap.len sampleId.bucket ≠ 0 := by decide
  simp [sampleCalls, BucketCall.Proper, hlen]

theorem sampleCalls_recorded :
    RecordedUnder sampleCalls [100] (bucketKeyFromProto (some sampleId)) := by
  refine ⟨[], _, _, rfl, ⟨rfl, rfl⟩, ?_⟩
  simp [BucketCall.deletes, domainScopedKey]

/-- The bucket is shown once in the listing of `d`. -/
theorem debugBuckets_inverts_scoping_sample :
    ∃ result, handleDebugBuckets (.memory (storeAfter sampleCalls))
        (storeAfter sampleCalls).all.keys [100] = .ok result ∧
      (result.map BucketEntry.key).count (bucketKeyFromProto (some sampleId)) = 1 := by
  obtain ⟨result, hresult, hlisted, -⟩ := debugBuckets_inverts_scoping sampleCalls_proper
    (show ([100] : Str) ≠ [] by decide) (List.Perm.refl (storeAfter sampleCalls).all.keys)
  exact ⟨result, hresult, (hlisted _ sampleCalls_recorded).1⟩

end Rlqs
