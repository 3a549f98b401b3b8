import Rlqs.Server.Calls
import Rlqs.Storage.Keys

/-!
# RLQS server — isolation of domains and buckets

The store and `bucketRefs` know a bucket only by its scoped key, so two
(domain, bucket) pairs are kept apart exactly as far as `DomainScopedKey` and
`BucketKeyFromProto` keep them apart. Validation bounds the number of entries
and the lengths of keys and values but admits every byte, the separators
included.

* `Call.Concerns` — the buckets a call may touch: those of the message and those
  the stream is subscribed to;
* `KeysDistinct`, `NonInterference` — isolation of the keys, and of whole runs,
  among the (domain, bucket) pairs of a class;
* `nonInterference_of_keysDistinct` — a call touches nothing but the scoped keys
  of the buckets it concerns, so isolated keys give isolated runs;
* `isolation` — pairs without misplaced separators are isolated under every
  configuration; all admitted pairs are isolated only when keys and values are
  limited to one byte.
-/

namespace Rlqs

open Interleave Steps Relation

-- ---------------------------------------------------------------------------
-- Isolation
-- ---------------------------------------------------------------------------

/-- The buckets a call is about. -/
def Call.Concerns (c : Call) (ss : StreamState) (id : BucketId) : Prop :=
  (∃ key, ss.subscriptions.lookup key = some id) ∨
    ∃ u ∈ c.request.bucketQuotaUsages, u.bucketId = some id

/-- Different domains, or different bucket maps. -/
def Different (d : Str) (id : BucketId) (d' : Str) (id' : BucketId) : Prop :=
  d ≠ d' ∨ ¬SameBucket id id'

/-- Different admitted pairs of the class `P` have different store keys. -/
def KeysDistinct (cfg : Limits) (P : Str → BucketId → Prop) : Prop :=
  ∀ d d' id id', d ≠ [] → d' ≠ [] → Admitted cfg id → Admitted cfg id' → P d id → P d' id' →
    Different d id d' id' → bucketScope d id ≠ bucketScope d' id'

/-- The reference count and the usage under a scoped key are the same. -/
def SameAt (k : BucketKey) (srv srv' : Server MemoryStorage) : Prop :=
  srv'.bucketRefs.lookup k = srv.bucketRefs.lookup k ∧ srv'.store.get k = srv.store.get k

/-- In every run, a call leaves alone the reference count and the usage of each
pair of the class `P` that differs from what the call concerns. -/
def NonInterference (cfg : Limits) (P : Str → BucketId → Prop) : Prop :=
  ∀ w w' i p ss c,
    (callMachine MemoryStorage cfg).Run Machine.free (freshServer .newMemoryStorage) w →
    w.procs[i]? = some p → p.stream = some ss →
    (callMachine MemoryStorage cfg).next w (.act i c) = some w' →
    ∀ d' id', d' ≠ [] → Admitted cfg id' → P d' id' →
      (∀ id, c.Concerns ss id → P (c.domain ss) id ∧ Different (c.domain ss) id d' id') →
      SameAt (bucketScope d' id') w.shared w'.shared

/-- Isolation among the pairs of a class. -/
structure Isolated (cfg : Limits) (P : Str → BucketId → Prop) : Prop where
  keys : KeysDistinct cfg P
  runs : NonInterference cfg P

-- ---------------------------------------------------------------------------
-- What a stream is subscribed to
-- ---------------------------------------------------------------------------

/-- Subscriptions are filed under the keys of admitted buckets of the class `P`,
and a bound domain is not empty. -/
structure Keyed (cfg : Limits) (P : BucketId → Prop) (ss : StreamState) : Prop where
  domain_ne : ss.domainBound = true → ss.domain ≠ []
  entry : ∀ key id, ss.subscriptions.lookup key = some id →
    key = bucketKeyFromProto (some id) ∧ Admitted cfg id ∧ P id

section Units

variable {σ : Type} [BucketStore σ] {cfg : Limits} {req : UsageReports} {P : BucketId → Prop}
  {c c' : Server σ × StreamState}

theorem Keyed.track (h : Keyed cfg P c.2)
    (hP : ∀ u ∈ req.bucketQuotaUsages, ∀ id, u.bucketId = some id → P id)
    (ht : Track cfg req c c') : Keyed cfg P c'.2 := by
  cases ht with
  | @bind srv ss ss' l hbind =>
    obtain ⟨hsubs, -, hkeep, hnew⟩ := bindDomain_ok hbind
    refine ⟨fun _ => ?_, fun key id hid => h.entry key id (by rw [← hsubs]; exact hid)⟩
    rcases Bool.eq_false_or_eq_true ss.domainBound with hb | hb
    · rw [hkeep hb]
      exact h.domain_ne hb
    · rw [(hnew hb).1]
      exact (hnew hb).2
  | again u hu hbound hsub => exact h
  | @first srv ss u id hu hid hadm hbound hsub =>
    refine ⟨h.domain_ne, fun key id' hkey => ?_⟩
    have hlook : (ss.subscriptions.insert u.key id).lookup key = some id' := hkey
    rw [GoMap.lookup_insert_if] at hlook
    split at hlook
    · rename_i hnew
      cases hlook
      refine ⟨?_, hadm, hP u hu id hid⟩
      rw [hnew, BucketQuotaUsage.key, hid]
    · exact h.entry key id' hlook

theorem Keyed.drop {G : BucketKey → Prop} (h : Keyed cfg P c.2) (hd : Drop G c c') :
    Keyed cfg P c'.2 := by
  obtain ⟨key, hgiven, hbound, hsub⟩ := hd
  rename_i srv ss
  refine ⟨h.domain_ne, fun key' id hkey => ?_⟩
  have hlook : (ss.subscriptions.erase key).lookup key' = some id := hkey
  rw [GoMap.lookup_erase_if] at hlook
  split at hlook
  · simp at hlook
  · exact h.entry key' id hlook

/-- A subscribed key is the key of an admitted bucket of the class. -/
theorem Keyed.of_mem {ss : StreamState} (h : Keyed cfg P ss) {key : BucketKey}
    (hmem : key ∈ ss.subscriptions) :
    ∃ id, key = bucketKeyFromProto (some id) ∧ Admitted cfg id ∧ P id := by
  obtain ⟨id, hid⟩ := (GoMap.mem_iff_lookup _ _).mp hmem
  exact ⟨id, h.entry key id hid⟩

end Units

/-- Every stream of a run is subscribed under the keys of admitted buckets. -/
theorem run_keyed {σ : Type} [BucketStore σ] {cfg : Limits} {store : σ}
    {ok : Pool (Server σ) Slot → Move Unit Call → Prop} {w : Pool (Server σ) Slot}
    (hrun : (callMachine σ cfg).Run ok (freshServer store) w) :
    ∀ p ∈ w.procs, p.Wf ∧ ∀ ss, p.stream = some ss → Keyed cfg (fun _ => True) ss := by
  refine Run.forall_procs (I := fun p => p.Wf ∧ ∀ ss, p.stream = some ss → Keyed cfg _ ss) hrun
    (fun p hp => nomatch hp) ?_ ?_
  · refine fun _ => ⟨?_, ?_⟩
    · rintro ss ⟨⟩ -
      rfl
    · rintro ss ⟨⟩
      exact ⟨(fun h => nomatch h), fun _ _ h => nomatch h⟩
  · rintro srv p c srv' p' ⟨hw, hkeyed⟩ hs
    obtain ⟨ss, mid, ss', hpss, htracks, hdrops, hp'⟩ := callStep_effect hw hs
    have hstart : (srv, ss).2.Wf ∧ Keyed cfg (fun _ => True) (srv, ss).2 :=
      ⟨hw ss hpss, hkeyed ss hpss⟩
    have hmid : mid.2.Wf ∧ Keyed cfg (fun _ => True) mid.2 :=
      star_keeps (I := fun c : Server σ × StreamState => c.2.Wf ∧ Keyed cfg _ c.2) hstart htracks
        fun c c' h ht => ⟨.track ht, h.2.track (fun _ _ _ _ => trivial) ht⟩
    have hend : ss'.Wf ∧ Keyed cfg (fun _ => True) ss' :=
      star_keeps (I := fun c : Server σ × StreamState => c.2.Wf ∧ Keyed cfg _ c.2) hmid hdrops
        fun c c' h hd => ⟨.drop hd, h.2.drop hd⟩
    have hstream : ∀ ss₂, p'.stream = some ss₂ → ss₂ = ss' := by
      intro ss₂ hss₂
      rcases hp' with hss' | ⟨rfl, -⟩
      · rw [hss'] at hss₂
        exact (Option.some.inj hss₂).symm
      · cases hss₂
    refine ⟨fun ss₂ hss₂ => ?_, fun ss₂ hss₂ => ?_⟩
    · rw [hstream ss₂ hss₂]
      exact hend.1
    · rw [hstream ss₂ hss₂]
      exact hend.2

-- ---------------------------------------------------------------------------
-- What a call leaves alone
-- ---------------------------------------------------------------------------

section Frame

variable {cfg : Limits} {req : UsageReports} {P : BucketId → Prop} {d : Str} {k : BucketKey}
  {srv : Server MemoryStorage} {c c' : Server MemoryStorage × StreamState}

/-- A call at work in domain `d` on buckets of the class `P` that has not
touched `k` since `srv`. -/
structure Confined (cfg : Limits) (req : UsageReports) (P : BucketId → Prop) (d : Str)
    (k : BucketKey) (srv : Server MemoryStorage) (c : Server MemoryStorage × StreamState) :
    Prop where
  keyed : Keyed cfg P c.2
  inDomain : InDomain req d c.2
  same : SameAt k srv c.1

theorem SameAt.record {s : Server MemoryStorage} (h : SameAt k srv s) {domain : Str}
    {r : UsageReport} (hne : k ≠ r.scopedKey domain) : SameAt k srv (s.record domain r) := by
  refine ⟨h.1, ?_⟩
  show (s.store.recordUsage domain r).get k = _
  rw [MemoryStorage.get_recordUsage, if_neg hne]
  exact h.2

theorem SameAt.subscribe {s : Server MemoryStorage} (h : SameAt k srv s) {k' : BucketKey}
    (hne : k ≠ k') : SameAt k srv (s.subscribe k') := by
  refine ⟨?_, h.2⟩
  show (addRef s.bucketRefs k').lookup k = _
  rw [lookup_addRef, if_neg hne]
  exact h.1

theorem SameAt.release {s : Server MemoryStorage} (h : SameAt k srv s) {domain : Str}
    {key : BucketKey} (hne : k ≠ domainScopedKey domain key) :
    SameAt k srv (s.release domain key) := by
  refine ⟨?_, ?_⟩
  · show (dropRef s.bucketRefs (domainScopedKey domain key)).1.lookup k = _
    rw [lookup_dropRef, if_neg hne]
    exact h.1
  · show (if (dropRef s.bucketRefs (domainScopedKey domain key)).2 then
      s.store.removeBucket domain key else s.store).get k = _
    split
    · rw [MemoryStorage.get_removeBucket, if_neg hne]
      exact h.2
    · exact h.2

/-- The scoped key of a bucket of the class, for a stream bound to `d`. -/
theorem Confined.scope_ne (h : Confined cfg req P d k srv c) (hbound : c.2.domainBound = true)
    (hk : d ≠ [] → ∀ id, Admitted cfg id → P id → bucketScope d id ≠ k) {id : BucketId}
    (hadm : Admitted cfg id) (hid : P id) :
    k ≠ domainScopedKey c.2.domain (bucketKeyFromProto (some id)) := by
  have hd : c.2.domain = d := h.inDomain.bound hbound
  have hne : d ≠ [] := by
    rw [← hd]
    exact h.keyed.domain_ne hbound
  rw [hd]
  exact (hk hne id hadm hid).symm

theorem Confined.track (h : Confined cfg req P d k srv c)
    (hk : d ≠ [] → ∀ id, Admitted cfg id → P id → bucketScope d id ≠ k)
    (hP : ∀ u ∈ req.bucketQuotaUsages, ∀ id, u.bucketId = some id → P id)
    (ht : Track cfg req c c') : Confined cfg req P d k srv c' := by
  refine ⟨h.keyed.track hP ht, h.inDomain.track ht, ?_⟩
  cases ht with
  | bind l hbind => exact h.same
  | again u hu hbound hsub =>
    obtain ⟨id, hkey, hadm, hid⟩ := h.keyed.of_mem hsub
    refine h.same.record ?_
    show k ≠ domainScopedKey _ u.key
    rw [hkey]
    exact h.scope_ne hbound hk hadm hid
  | @first s ss u id hu hid hadm hbound hsub =>
    have hkey : u.key = bucketKeyFromProto (some id) := by rw [BucketQuotaUsage.key, hid]
    have hne : k ≠ domainScopedKey ss.domain u.key := by
      rw [hkey]
      exact h.scope_ne hbound hk hadm (hP u hu id hid)
    exact (h.same.subscribe hne).record hne

theorem Confined.drop {G : BucketKey → Prop} (h : Confined cfg req P d k srv c)
    (hk : d ≠ [] → ∀ id, Admitted cfg id → P id → bucketScope d id ≠ k)
    (hd : Drop G c c') : Confined cfg req P d k srv c' := by
  refine ⟨h.keyed.drop hd, h.inDomain.drop hd, ?_⟩
  obtain ⟨key, hgiven, hbound, hsub⟩ := hd
  obtain ⟨id, hkey, hadm, hid⟩ := h.keyed.of_mem hsub
  refine h.same.release ?_
  rw [hkey]
  exact h.scope_ne hbound hk hadm hid

end Frame

/-- Keys that are kept apart keep the runs apart. -/
theorem nonInterference_of_keysDistinct {cfg : Limits} {P : Str → BucketId → Prop}
    (hkeys : KeysDistinct cfg P) : NonInterference cfg P := by
  intro w w' i p ss c hrun hp hss hn d' id' hd' hadm' hP' hdiff
  obtain ⟨hw, hkeyed⟩ := run_keyed hrun p (List.mem_of_getElem? hp)
  obtain ⟨a, hm, -⟩ | ⟨j, c₂, q, srv', p', hm, hq, hs, rfl⟩ := next_cases hn
  · simp at hm
  cases hm
  obtain rfl : p = q := Option.some.inj (hp.symm.trans hq)
  obtain ⟨ss₂, mid, ss', hpss, htracks, hdrops, -⟩ := callStep_effect hw hs
  obtain rfl : ss = ss₂ := Option.some.inj (hss.symm.trans hpss)
  -- during the call the stream works in one domain and on the concerned buckets
  have hk : c.domain ss ≠ [] → ∀ id, Admitted cfg id → c.Concerns ss id →
      bucketScope (c.domain ss) id ≠ bucketScope d' id' := by
    intro hd id hadm hid
    obtain ⟨hPid, hne⟩ := hdiff id hid
    exact hkeys _ d' id id' hd hd' hadm hadm' hPid hP' hne
  have hP : ∀ u ∈ c.request.bucketQuotaUsages, ∀ id, u.bucketId = some id → c.Concerns ss id :=
    fun u hu id hid => Or.inr ⟨u, hu, hid⟩
  have hstart : Confined cfg c.request (c.Concerns ss) (c.domain ss) (bucketScope d' id')
      w.shared (w.shared, ss) := by
    have hold := hkeyed ss hss
    refine ⟨⟨hold.domain_ne, fun key id hid => ?_⟩, c.inDomain ss, rfl, rfl⟩
    obtain ⟨hkey, hadm, -⟩ := hold.entry key id hid
    exact ⟨hkey, hadm, Or.inl ⟨key, hid⟩⟩
  have hmid := star_keeps hstart htracks fun _ _ h ht => h.track hk hP ht
  have hend := star_keeps hmid hdrops fun _ _ h hd => h.drop hk hd
  exact hend.same

-- ---------------------------------------------------------------------------
-- Which keys are kept apart
-- ---------------------------------------------------------------------------

/-- The pairs of an admitted bucket are not empty and within the limits. -/
theorem Admitted.pair {cfg : Limits} {id : BucketId} (h : Admitted cfg id) {k v : Str}
    (hkv : id.bucket.lookup k = some v) :
    k ≠ [] ∧ v ≠ [] ∧ (0 < cfg.maxBucketKeyLen → (k.length : Int) ≤ cfg.maxBucketKeyLen) ∧
      (0 < cfg.maxBucketValueLen → (v.length : Int) ≤ cfg.maxBucketValueLen) := by
  have hcheck := h.2
  unfold checkBucket at hcheck
  split at hcheck
  · simp at hcheck
  · exact checkPairs_none.mp hcheck ⟨k, v⟩ (AList.mem_lookup_iff.mp hkv)

/-- A bucket with one pair is admitted when the pair is within the limits. -/
theorem admitted_singleton {cfg : Limits} {k v : Str} (hk : k ≠ []) (hv : v ≠ [])
    (hkey : 0 < cfg.maxBucketKeyLen → (k.length : Int) ≤ cfg.maxBucketKeyLen)
    (hval : 0 < cfg.maxBucketValueLen → (v.length : Int) ≤ cfg.maxBucketValueLen) :
    Admitted cfg ⟨AList.singleton k v⟩ := by
  refine ⟨Nat.one_ne_zero, ?_⟩
  have hlen : GoMap.len (AList.singleton k v : GoMap Str Str) = 1 := rfl
  unfold checkBucket
  rw [if_neg (by rw [hlen]; omega), checkPairs_none]
  intro e he
  obtain rfl : e = ⟨k, v⟩ := List.mem_singleton.mp he
  exact ⟨hk, hv, hkey, hval⟩

theorem keysDistinct_separatorFree (cfg : Limits) : KeysDistinct cfg SeparatorFree := by
  intro d d' id id' hd hd' hadm hadm' hc hc' hdiff heq
  obtain ⟨hdom, hsame⟩ := scopedKey_of_clean hd hd' hc hc' heq
  rcases hdiff with hne | hne
  · exact hne hdom
  · exact hne hsame

theorem keysDistinct_of_one_byte {cfg : Limits} (hkey : cfg.maxBucketKeyLen = 1)
    (hval : cfg.maxBucketValueLen = 1) : KeysDistinct cfg fun _ _ => True := by
  intro d d' id id' hd hd' hadm hadm' _ _ hdiff heq
  have hone : ∀ {id : BucketId}, Admitted cfg id → ∀ k v, id.bucket.lookup k = some v →
      k.length = 1 ∧ v.length = 1 := by
    intro id hadm k v hkv
    obtain ⟨hk, hv, hkl, hvl⟩ := hadm.pair hkv
    have hkpos := List.length_pos_of_ne_nil hk
    have hvpos := List.length_pos_of_ne_nil hv
    have hkle := hkl (by omega)
    have hvle := hvl (by omega)
    omega
  obtain ⟨hdom, hsame⟩ := scopedKey_of_single_bytes hd hd' hadm.1 hadm'.1 (hone hadm)
    (hone hadm') heq
  rcases hdiff with hne | hne
  · exact hne hdom
  · exact hne hsame

/-- With room for a second byte in keys or values, two domains collide: the
separator moves from the end of the domain to the start of the key. -/
theorem one_byte_of_keysDistinct {cfg : Limits} (h : KeysDistinct cfg fun _ _ => True) :
    cfg.maxBucketKeyLen = 1 ∧ cfg.maxBucketValueLen = 1 := by
  have hdomains : ([100] : Str) ≠ [100, unitSep] := by decide
  have hkey : cfg.maxBucketKeyLen = 1 := by
    by_contra hlen
    refine h [100] [100, unitSep] ⟨AList.singleton [unitSep, 107] [118]⟩
      ⟨AList.singleton [107] [118]⟩ (by decide) (by decide)
      (admitted_singleton (by decide) (by decide) ?_ ?_)
      (admitted_singleton (by decide) (by decide) ?_ ?_)
      trivial trivial (Or.inl hdomains) (by decide)
    all_goals
      intro hpos
      simp only [List.length_cons, List.length_nil]
      omega
  refine ⟨hkey, ?_⟩
  by_contra hlen
  refine h [100] [100, unitSep] ⟨AList.singleton [unitSep] [nullByte, 118]⟩
    ⟨AList.singleton [nullByte] [118]⟩ (by decide) (by decide)
    (admitted_singleton (by decide) (by decide) ?_ ?_)
    (admitted_singleton (by decide) (by decide) ?_ ?_)
    trivial trivial (Or.inl hdomains) (by decide)
  all_goals
    intro hpos
    simp only [List.length_cons, List.length_nil]
    omega

/-- Isolation: pairs without misplaced separators are isolated whatever the
limits; all pairs that pass validation are isolated exactly when keys and
values are limited to one byte. -/
theorem isolation (cfg : Limits) :
    Isolated cfg SeparatorFree ∧
      (Isolated cfg (fun _ _ => True) ↔
        cfg.maxBucketKeyLen = 1 ∧ cfg.maxBucketValueLen = 1) := by
  have hclean := keysDistinct_separatorFree cfg
  refine ⟨⟨hclean, nonInterference_of_keysDistinct hclean⟩, fun h => ?_, fun hlen => ?_⟩
  · exact one_byte_of_keysDistinct h.keys
  · have hkeys := keysDistinct_of_one_byte hlen.1 hlen.2
    exact ⟨hkeys, nonInterference_of_keysDistinct hkeys⟩

-- ---------------------------------------------------------------------------
-- A collision under the default limits
-- ---------------------------------------------------------------------------

/-- The limits of the default configuration. -/
def defaultLimits : Limits := ⟨100, 1000, 100, 256, 1024⟩

/-- The bucket `{"b\x1fc": "v"}`, reported in domain `"a"`. -/
def shiftedId : BucketId := ⟨AList.singleton [98, unitSep, 99] [118]⟩

/-- The bucket `{"c": "v"}`, reported in domain `"a\x1fb"`. -/
def plainId : BucketId := ⟨AList.singleton [99] [118]⟩

/-- A stream of domain `"a\x1fb"` reports its bucket. A second stream opens. -/
def victimRuns : List (Move Unit Call) :=
  [.spawn (), .act 0 (.message [] (.ok []) none ⟨[97, unitSep, 98], [⟨some plainId, none, 5, 1⟩]⟩),
    .spawn ()]

/-- A message in domain `"a"` on the other bucket. -/
def intruder : Call := .message [] (.ok []) none ⟨[97], [⟨some shiftedId, none, 5, 1⟩]⟩

/-- The two buckets pass validation, belong to different domains and have one
store key: the report of the one is added to the usage of the other and counted
as a second reference on it. -/
theorem domains_share_a_key :
    Admitted defaultLimits shiftedId ∧ Admitted defaultLimits plainId ∧
      Different [97] shiftedId [97, unitSep, 98] plainId ∧
      bucketScope [97] shiftedId = bucketScope [97, unitSep, 98] plainId ∧
      ∃ w w', (callMachine MemoryStorage defaultLimits).Run Machine.free
          (freshServer .newMemoryStorage) w ∧
        (callMachine MemoryStorage defaultLimits).next w (.act 1 intruder) = some w' ∧
        refCount w.shared.bucketRefs (bucketScope [97, unitSep, 98] plainId) = 1 ∧
        w.shared.store.get (bucketScope [97, unitSep, 98] plainId) = some ⟨5, 1⟩ ∧
        refCount w'.shared.bucketRefs (bucketScope [97, unitSep, 98] plainId) = 2 ∧
        w'.shared.store.get (bucketScope [97, unitSep, 98] plainId) = some ⟨10, 2⟩ := by
  refine ⟨admitted_singleton (by decide) (by decide) (by decide) (by decide),
    admitted_singleton (by decide) (by decide) (by decide) (by decide), Or.inl (by decide),
    by decide, ?_⟩
  have hrun := run_exec_free (callMachine MemoryStorage defaultLimits).next
    (freshServer .newMemoryStorage) victimRuns (by decide)
  have hn := next_exec (callMachine MemoryStorage defaultLimits).next (fun _ _ => true)
    (freshServer .newMemoryStorage) victimRuns (.act 1 intruder) (by decide) (by decide)
  exact ⟨_, _, hrun, hn, by decide, by decide, by decide, by decide⟩

end Rlqs
