import Rlqs.Server.Session
import Rlqs.Server.Whole
import Rlqs.Storage.Keys

/-!
# RLQS server — how much memory the streams can take

The limits of the configuration are checked one message at a time. Here they are
turned into a bound on the whole process: in every run of the server with its
locks, pushes and reloads, the in-memory store and `bucketRefs` have at most
`max_buckets_per_stream` entries for each stream whose handler has not returned,
and the bucket part of every stored key is as short as the limits on entries,
keys and values make it (`memory_bounded`). Streams that have ended take nothing.

Every stored bucket is charged to a handler (`Handler.charged`): one that has it
in its subscriptions, or still has to release or to remove it. A bucket that is
being released stays charged until its removal has run, so a stream that abandons
and subscribes in turn is never charged for more than its limit.
-/

namespace Rlqs

open Interleave Steps Separated

-- ---------------------------------------------------------------------------
-- What a handler is charged for
-- ---------------------------------------------------------------------------

/-- The keys a handler is charged for: its subscriptions and, in a release, the
bucket it is about to release or to remove. -/
def Handler.charged (p : Handler) : List BucketKey :=
  match p.pc with
  | .decRef key (.abandon _ _ _) | .remove key (.abandon _ _ _) => key :: p.ss.subscriptions.keys
  | .decRef key (.cleanup todo) | .remove key (.cleanup todo) => key :: todo
  | .cleanup todo => todo
  | .done => []
  | _ => p.ss.subscriptions.keys

/-- The handler is charged for no more buckets than the limit allows, and for none
that `handleMessage` would reject. -/
structure Handler.Within (cfg : Limits) (p : Handler) : Prop where
  limit : 0 < cfg.maxBucketsPerStream → (p.charged.length : Int) ≤ cfg.maxBucketsPerStream
  admitted : ∀ key ∈ p.charged, ∃ id, Admitted cfg id ∧ bucketKeyFromProto (some id) = key

section Step

variable {σ : Type} [BucketStore σ] {cfg : Limits} {sh sh' : Shared σ} {p p' : Handler} {x : Input}

/-- The charges `new` after the charges `old`: none is new, or one, for which there
was room. -/
def Recharged (cfg : Limits) (old new : List BucketKey) : Prop :=
  new.Subperm old ∨ ∃ id, Admitted cfg id ∧
    (0 < cfg.maxBucketsPerStream → (old.length : Int) < cfg.maxBucketsPerStream) ∧
    new = bucketKeyFromProto (some id) :: old

theorem Recharged.same (cfg : Limits) (keys : List BucketKey) : Recharged cfg keys keys :=
  Or.inl (List.Subperm.refl keys)

/-- The step that tracks a subscription. -/
theorem trackStep_recharged (cfg : Limits) (p : Handler) (u : BucketQuotaUsage)
    (us : List BucketQuotaUsage) (reports : List UsageReport) :
    Recharged cfg p.ss.subscriptions.keys (trackStep cfg p u us reports).charged := by
  have hcharged : (trackStep cfg p u us reports).charged =
      (trackStep cfg p u us reports).ss.subscriptions.keys := by
    rcases trackStep_cases cfg p u us reports with
      ⟨-, ht⟩ | ht | ⟨id, -, -, -, ht⟩ | ⟨id, -, -, -, ht⟩ <;> rw [ht] <;> rfl
  have heffect := trackStep_stream cfg p u us reports
  rw [hcharged]
  generalize (trackStep cfg p u us reports).ss = ss, acceptedEvents cfg p.ss u = es at heffect ⊢
  cases heffect with
  | plain _ | again _ | ignored _ => exact .same cfg _
  | bound hbind =>
    rw [(bindDomain_ok hbind).1]
    exact .same cfg _
  | @subscribed id hadm hnew hroom =>
    exact Or.inr ⟨id, hadm, hroom, GoMap.keys_insert_of_notMem hnew id⟩
  | abandoned hmem =>
    have hperm := GoMap.keys_perm_cons_erase hmem
    exact Or.inl ((List.sublist_cons_self _ _).subperm.trans hperm.symm.subperm)

/-- An abandoned bucket leaves the subscriptions and is charged for its release. -/
theorem abandonStep_recharged (cfg : Limits) (p : Handler) (v : ℕ) (a : BucketAction)
    (rest all : List BucketAction) :
    Recharged cfg p.ss.subscriptions.keys (abandonStep p v a rest all).charged := by
  rcases abandonStep_cases p v a rest all with ht | ⟨-, hmem, ht⟩
  · rw [ht]
    exact .same cfg _
  · rw [ht]
    exact Or.inl (GoMap.keys_perm_cons_erase hmem).symm.subperm

/-- What a step does to the charges of its handler. -/
theorem handlerStep_recharged (h : handlerStep cfg sh p x = some (sh', p')) :
    Recharged cfg p.charged p'.charged := by
  unfold Handler.charged
  cases handlerStep_turn h with
  | @bound req l ss hpc hbind =>
    have hsubs : ss.subscriptions = p.ss.subscriptions := (bindDomain_ok hbind).1
    rw [hpc]
    rcases afterBind_cases cfg req with ha | ha | ha
    all_goals
      rw [ha]
      dsimp only
      rw [hsubs]
      exact .same cfg _
  | @usage u us reports hpc =>
    rw [hpc]
    exact trackStep_recharged cfg p u us reports
  | @action v a rest all hpc =>
    rw [hpc]
    exact abandonStep_recharged cfg p v a rest all
  | @decRef key k hpc =>
    rw [hpc]
    dsimp only
    -- a bucket to remove stays charged, another is charged no more
    by_cases hlast : (dropRef sh.bucketRefs (domainScopedKey p.ss.domain key)).2 = true
    · rw [if_pos hlast]
      cases k <;> exact .same cfg _
    · rw [if_neg hlast]
      cases k <;> exact Or.inl (List.sublist_cons_self _ _).subperm
  | @remove key k hpc =>
    rw [hpc]
    cases k <;> exact Or.inl (List.sublist_cons_self _ _).subperm
  | unregister hpc =>
    rw [hpc]
    dsimp only
    by_cases hbound : p.ss.domainBound = true
    · rw [if_pos hbound]
      exact .same cfg _
    · rw [if_neg hbound]
      exact Or.inl (List.nil_sublist _).subperm
  | picked hpc hkey =>
    rw [hpc]
    exact Or.inl (List.perm_cons_erase hkey).symm.subperm
  | _ hpc =>
    rw [hpc]
    exact .same cfg _

theorem newHandler_within (cfg : Limits) : newHandler.Within cfg where
  limit h := le_of_lt h
  admitted _ h := nomatch h

theorem Handler.Within.step (hw : p.Within cfg) (h : handlerStep cfg sh p x = some (sh', p')) :
    p'.Within cfg := by
  rcases handlerStep_recharged h with hsub | ⟨id, hadm, hroom, hnew⟩
  · refine ⟨fun hpos => ?_, fun key hkey => hw.admitted key (hsub.subset hkey)⟩
    have hold := hw.limit hpos
    have hle := hsub.length_le
    omega
  · refine ⟨fun hpos => ?_, fun key hkey => ?_⟩
    · have hlt := hroom hpos
      rw [hnew, List.length_cons]
      omega
    · rw [hnew] at hkey
      rcases List.mem_cons.mp hkey with rfl | hold
      · exact ⟨id, hadm, rfl⟩
      · exact hw.admitted key hold

end Step

-- ---------------------------------------------------------------------------
-- Every bucket is charged to a handler
-- ---------------------------------------------------------------------------

/-- The scoped keys of the handler's charges. -/
def Handler.scopedCharges (p : Handler) : List BucketKey :=
  p.charged.map (domainScopedKey p.ss.domain)

/-- What is held is charged. -/
theorem Handler.Wf.charged_of_held {p : Handler} (hw : p.Wf) {key : BucketKey}
    (h : key ∈ p.held) : key ∈ p.charged := by
  have hclaim : key ∈ p.claimed := hw.held_perm.mem_iff.mp h
  unfold Handler.claimed at hclaim
  unfold Handler.charged
  cases hpc : p.pc with
  | incRef key' u us reports =>
    rw [hpc] at hclaim
    exact List.mem_of_mem_erase hclaim
  | decRef key' k =>
    rw [hpc] at hclaim
    cases k <;> exact hclaim
  | remove key' k =>
    rw [hpc] at hclaim
    cases k <;> exact List.mem_cons_of_mem _ hclaim
  | _ =>
    rw [hpc] at hclaim
    exact hclaim

/-- What is about to be removed is charged. -/
theorem Handler.scopedCharges_of_removes {p : Handler} {k : BucketKey} (h : p.removes k = true) :
    k ∈ p.scopedCharges := by
  unfold Handler.removes at h
  cases hpc : p.pc with
  | remove key after =>
    simp only [hpc, PC.removing, decide_eq_true_eq] at h
    rw [← h]
    refine List.mem_map_of_mem ?_
    unfold Handler.charged
    rw [hpc]
    cases after <;> exact List.mem_cons_self
  | _ => simp [hpc, PC.removing] at h

/-- Only a bound stream is charged. -/
theorem Handler.Wf.bound_of_charged {p : Handler} (hw : p.Wf) {key : BucketKey}
    (h : key ∈ p.charged) : p.ss.domainBound = true := by
  by_contra hb
  rw [Bool.not_eq_true] at hb
  have hnone := hw.unbound hb
  unfold Handler.charged at h
  cases hpc : p.pc with
  | decRef _ _ | remove _ _ | cleanup _ =>
    have := hw.bound (by rw [hpc]; rfl)
    rw [hb] at this
    cases this
  | done =>
    rw [hpc] at h
    cases h
  | _ =>
    rw [hpc, hnone] at h
    cases h

/-- The two have one domain, once the stream is bound. -/
theorem FineHandler.Plays.domain_eq {cfg : Limits} {g : FineHandler} {q : Handler}
    (h : g.Plays cfg q) (hbound : q.ss.domainBound = true) : g.ss.domain = q.ss.domain := by
  obtain ⟨p, hst, v, sent, rfl⟩ := h
  exact hst.domain_eq hbound

section Run

variable {σ : Type} [BucketStore σ] {cfg : Limits} {store : σ} {x : Pool (Shared σ) Handler}

theorem run_within (hx : (serverMachine σ cfg).Run Machine.free (newServer store) x) :
    ∀ p ∈ x.procs, p.Within cfg :=
  Run.forall_procs hx (fun _ hp => nomatch hp) (fun _ => newHandler_within cfg)
    fun _ _ _ _ _ hw hs => hw.step hs

/-- Every reference is charged to a handler. -/
theorem run_refs_charged (hx : (serverMachine σ cfg).Run Machine.free (newServer store) x)
    {k : BucketKey} (hk : x.shared.bucketRefs.lookup k ≠ none) :
    k ∈ x.procs.flatMap Handler.scopedCharges := by
  have hpos := ((run_refs_pos hx).lookup_ne_none k).mp hk
  rw [run_refCount hx k] at hpos
  have hsome : ¬∀ p ∈ x.procs, p.heldAt k = 0 := by
    intro hzero
    rw [(tally_eq_zero_iff _ _).mpr hzero] at hpos
    exact lt_irrefl _ hpos
  push Not at hsome
  obtain ⟨p, hp, hheld⟩ := hsome
  obtain ⟨key, hkey, hscope⟩ := List.countP_pos_iff.mp (Nat.pos_of_ne_zero hheld)
  have hcharged := (run_wf hx p hp).charged_of_held hkey
  rw [← of_decide_eq_true hscope]
  exact List.mem_flatMap.mpr ⟨p, hp, List.mem_map_of_mem hcharged⟩

/-- Every stored bucket is charged to a handler. -/
theorem run_store_charged {x : Pool (Shared MemoryStorage) Handler}
    (hx : (serverMachine MemoryStorage cfg).Run Machine.free
      (newServer MemoryStorage.newMemoryStorage) x)
    {k : BucketKey} (hk : x.shared.store.get k ≠ none) :
    k ∈ x.procs.flatMap Handler.scopedCharges := by
  rcases run_covered hx k hk with href | ⟨q, hq, hrem⟩
  · exact run_refs_charged hx href
  · exact List.mem_flatMap.mpr ⟨q, hq, Handler.scopedCharges_of_removes hrem⟩

end Run

-- ---------------------------------------------------------------------------
-- The bound
-- ---------------------------------------------------------------------------

/-- The bucket part of a key, with limits on entries, keys and values. -/
theorem WithinLimits.key_length {cfg : Limits} {id : BucketId} (h : WithinLimits cfg id)
    (hentries : 0 < cfg.maxBucketEntries) (hkeys : 0 < cfg.maxBucketKeyLen)
    (hvalues : 0 < cfg.maxBucketValueLen) :
    ((bucketKeyFromProto (some id)).length : Int) ≤
      cfg.maxBucketEntries * (cfg.maxBucketKeyLen + cfg.maxBucketValueLen + 2) := by
  obtain ⟨hlen, hpairs⟩ := h
  have hpair : ∀ q ∈ sortedPairs id, q.1.length ≤ cfg.maxBucketKeyLen.toNat ∧
      q.2.length ≤ cfg.maxBucketValueLen.toNat := by
    intro q hq
    obtain ⟨hk, hv⟩ := hpairs q.1 q.2 (mem_sortedPairs.mp hq)
    have hk := hk hkeys
    have hv := hv hvalues
    omega
  have hrecords : (records nullByte recordSep (sortedPairs id)).length ≤ _ :=
    records_length_le hpair
  have hcount : (sortedPairs id).length = GoMap.len id.bucket := by
    simp [sortedPairs, GoMap.len]
  rw [bucketKeyFromProto_eq]
  rw [hcount] at hrecords
  calc ((records nullByte recordSep (sortedPairs id)).length : Int)
      ≤ (GoMap.len id.bucket : Int) *
          (cfg.maxBucketKeyLen.toNat + cfg.maxBucketValueLen.toNat + 2 : ℕ) := by
        exact_mod_cast hrecords
    _ = (GoMap.len id.bucket : Int) * (cfg.maxBucketKeyLen + cfg.maxBucketValueLen + 2) := by
        congr 1
        omega
    _ ≤ cfg.maxBucketEntries * (cfg.maxBucketKeyLen + cfg.maxBucketValueLen + 2) :=
        mul_le_mul_of_nonneg_right (hlen hentries) (by omega)

/-- The streams whose handler has not returned. -/
def LockWorld.openStreams {σ : Type} (w : LockWorld σ) : ℕ :=
  w.handlers.countP fun g => !g.finished

/-- The charges of all handlers. -/
theorem charges_le {cfg : Limits} {gs : List FineHandler} {qs : List Handler}
    (h : List.Forall₂ (FineHandler.Plays cfg) gs qs) (hlimit : 0 < cfg.maxBucketsPerStream)
    (hw : ∀ q ∈ qs, q.Within cfg) :
    ((qs.flatMap Handler.scopedCharges).length : Int) ≤
      cfg.maxBucketsPerStream * (gs.countP fun g => !g.finished : ℕ) := by
  induction h with
  | nil => simp
  | @cons g q gs qs hgq _ ih =>
    have hrest := ih fun q' hq' => hw q' (List.mem_cons_of_mem q hq')
    rw [List.flatMap_cons, List.length_append, List.countP_cons]
    cases hfin : g.finished with
    | true =>
      -- a handler that has returned is charged for nothing
      have hnone : q.scopedCharges = [] := by
        rw [Handler.scopedCharges, Handler.charged, (hgq.finished hfin).2]
        rfl
      rw [hnone]
      simpa using hrest
    | false =>
      have hq := (hw q List.mem_cons_self).limit hlimit
      have hlen : q.scopedCharges.length = q.charged.length := List.length_map _
      rw [hlen, if_pos (by simp)]
      push_cast
      rw [mul_add, mul_one]
      omega

/-- **Memory is bounded by the streams.** With a limit on the buckets of a stream,
in every run of the server with its locks, pushes, reloads and in-memory store: the
store has at most that many buckets for each stream whose handler has not returned,
and so has `bucketRefs` when no handler is inside `s.mu`; and every stored key is
that of a bucket id that passed the checks, scoped to the domain of such a stream,
where with limits on the entries of a bucket and on the lengths of its keys and
values the bucket part is no longer than they allow. -/
theorem memory_bounded {w : LockWorld MemoryStorage} (cfg : Limits)
    (hlimit : 0 < cfg.maxBucketsPerStream)
    (h : Run (LockWorld.next cfg) free (newLockWorld MemoryStorage.newMemoryStorage) w) :
    (w.shared.store.len : Int) ≤ cfg.maxBucketsPerStream * w.openStreams ∧
    ((∀ g ∈ w.handlers, .mu ∉ g.pc.holds g.self) →
      (GoMap.len w.shared.bucketRefs : Int) ≤ cfg.maxBucketsPerStream * w.openStreams) ∧
    (∀ k, w.shared.store.get k ≠ none →
      ∃ g ∈ w.handlers, g.finished = false ∧ ∃ id, Admitted cfg id ∧
        k = domainScopedKey g.ss.domain (bucketKeyFromProto (some id)) ∧
        (0 < cfg.maxBucketEntries → 0 < cfg.maxBucketKeyLen → 0 < cfg.maxBucketValueLen →
          ((bucketKeyFromProto (some id)).length : Int) ≤
            cfg.maxBucketEntries * (cfg.maxBucketKeyLen + cfg.maxBucketValueLen + 2))) := by
  obtain ⟨x, hx, hplays, hstore, -, -, hrefs⟩ := LockWorld.run_handlers h
  have hwithin := run_within hx
  have hcharges := charges_le hplays hlimit hwithin
  rw [← hstore]
  refine ⟨?_, fun hfree => ?_, fun k hk => ?_⟩
  · have hlen := GoMap.len_le_of_keys fun k hk => run_store_charged hx (k := k) hk
    exact le_trans (Int.ofNat_le.mpr hlen) hcharges
  · rw [← hrefs hfree]
    have hlen := GoMap.len_le_of_keys fun k hk => run_refs_charged hx (k := k) hk
    exact le_trans (Int.ofNat_le.mpr hlen) hcharges
  · obtain ⟨q, hq, hmem⟩ := List.mem_flatMap.mp (run_store_charged hx hk)
    obtain ⟨key, hkey, rfl⟩ := List.mem_map.mp hmem
    obtain ⟨i, hi⟩ := List.getElem?_of_mem hq
    obtain ⟨g, hg, hgq⟩ : ∃ g, w.handlers[i]? = some g ∧ g.Plays cfg q :=
      forall₂_getElem? hplays.flip hi
    have hopen : g.finished = false := by
      by_contra hfin
      rw [Bool.not_eq_false] at hfin
      rw [Handler.charged, (hgq.finished hfin).2] at hkey
      cases hkey
    have hdomain : g.ss.domain = q.ss.domain :=
      hgq.domain_eq ((run_wf hx q hq).bound_of_charged hkey)
    obtain ⟨id, hadm, rfl⟩ := (hwithin q hq).admitted key hkey
    exact ⟨g, List.mem_of_getElem? hg, hopen, id, hadm, by rw [hdomain],
      hadm.withinLimits.key_length⟩

/-- The smallest limits under which the sample bucket is admitted. -/
def tightLimits : Limits := ⟨1, 1, 1, 1, 1⟩

/-- The sample bucket's key in the store. -/
def sampleStored : BucketKey :=
  domainScopedKey sampleReq.domain (bucketKeyFromProto (some sampleId))

/-- The bound is reached, and the stored key is the stream's own. -/
theorem memory_bounded_reached :
    ∃ w, Run (LockWorld.next tightLimits) free
        (newLockWorld MemoryStorage.newMemoryStorage) w ∧
      w.shared.store.len = 1 ∧ w.openStreams = 1 ∧ w.shared.store.get sampleStored ≠ none ∧
      (w.shared.store.len : Int) ≤ tightLimits.maxBucketsPerStream * w.openStreams ∧
      (∃ g ∈ w.handlers, g.finished = false ∧ ∃ id, Admitted tightLimits id ∧
        sampleStored = domainScopedKey g.ss.domain (bucketKeyFromProto (some id)) ∧
        ((bucketKeyFromProto (some id)).length : Int) ≤ 4) := by
  have hrun := run_exec_free (LockWorld.next tightLimits)
    (newLockWorld MemoryStorage.newMemoryStorage) reportedMoves (by decide)
  obtain ⟨hlen, -, hkeys⟩ := memory_bounded tightLimits (by decide) hrun
  refine ⟨_, hrun, by decide, by decide, by decide, hlen, ?_⟩
  obtain ⟨g, hg, hopen, id, hadm, hk, hbound⟩ := hkeys sampleStored (by decide)
  exact ⟨g, hg, hopen, id, hadm, hk, hbound (by decide) (by decide) (by decide)⟩

end Rlqs
