import Rlqs.Server.Calls
import Rlqs.Storage.Redis

/-!
# RLQS server — several instances over one Redis

Instances that share a Redis share its hashes and nothing else: `bucketRefs`,
the streams and the fallback belong to one instance. A step is one call of one
stream of one instance, on the hashes as the instances left them. Redis is
always reachable; the clock of every instance is arbitrary.

The comment on `cleanupStream` says that counting references prevents data loss
when several instances share Redis. An instance counts only its own streams, so
its last reference on a bucket may go while streams of other instances are
still subscribed to it (`entry_deleted_under_subscriber`).

* `cluster` — the instances over one Redis;
* `Call.givesUp` — the buckets a call may give up its subscription on;
* `sparesOthers` — a step gives up no bucket as its instance's last subscriber
  while a stream of another instance is subscribed to it;
* `subscribed_entry_kept` — in runs of such steps the Redis entry of a bucket is
  kept as long as some stream of some instance is subscribed to it.
-/

namespace Rlqs

open Interleave Steps Relation

-- ---------------------------------------------------------------------------
-- A store whose Redis always answers
-- ---------------------------------------------------------------------------

/-- A `RedisStorage` with a reachable Redis and the clock it reads. -/
structure RedisLink where
  storage : RedisStorage
  clock : ℕ → Nanos
  reads : ℕ

def RedisLink.env (l : RedisLink) : Env := ⟨l.clock l.reads, .reached, .reached⟩

instance : BucketStore RedisLink where
  recordUsage l domain report :=
    let (storage, err) := l.storage.recordUsage l.env domain report
    ({ l with storage := storage, reads := l.reads + 1 }, err)
  removeBucket l domain key :=
    let (storage, err) := l.storage.removeBucket l.env domain key
    ({ l with storage := storage, reads := l.reads + 1 }, err)

-- ---------------------------------------------------------------------------
-- Instances over one Redis
-- ---------------------------------------------------------------------------

/-- What an instance is started with. -/
structure InstanceConfig where
  limits : Limits
  redis : RedisConfig
  clock : ℕ → Nanos

/-- An instance: its limits, its server and its streams. The hashes in its
store are those it saw last. -/
structure Instance where
  limits : Limits
  pool : Pool (Server RedisLink) Slot

/-- The instance, with the hashes as they are now. -/
def Instance.attach (inst : Instance) (r : Redis) : Pool (Server RedisLink) Slot :=
  { inst.pool with shared := { inst.pool.shared with
      store := { inst.pool.shared.store with
        storage := { inst.pool.shared.store.storage with redis := r } } } }

/-- The hashes an instance left. -/
def hashesOf (srv : Server RedisLink) : Redis := srv.store.storage.redis

/-- The instances over one Redis, one call at a time. -/
def cluster : Machine Redis Instance InstanceConfig (Move Unit Call) where
  init a := ⟨a.limits, freshServer ⟨newRedisStorage a.redis emptyRedis, a.clock, 0⟩⟩
  step r inst m :=
    ((callMachine RedisLink inst.limits).next (inst.attach r) m).map fun pool =>
      (hashesOf pool.shared, { inst with pool := pool })

/-- The subscriptions of the instance's streams with scoped key `k`. -/
def Instance.subscribedAt (k : BucketKey) (inst : Instance) : ℕ :=
  tally (Slot.subscribedAt k) inst.pool.procs

/-- The subscriptions with scoped key `k` on all instances. -/
def subscribers (w : Pool Redis Instance) (k : BucketKey) : ℕ :=
  tally (Instance.subscribedAt k) w.procs

/-- The bucket keys a call may give up: what the engine abandons among the
stream's subscriptions and the buckets of the message, or every subscription. -/
def Call.givesUp (ss : StreamState) : Call → List BucketKey
  | .message _ reply _ req => (abandonedKeys reply).filter fun key =>
      key ∈ ss.subscriptions ∨ key ∈ req.bucketQuotaUsages.map BucketQuotaUsage.key
  | .close _ => ss.subscriptions.keys

/-- For every bucket that the step gives up, another stream of the same instance
is subscribed to it, or no stream of another instance is. -/
def sparesOthers (w : Pool Redis Instance) :
    Move InstanceConfig (Move Unit Call) → Bool
  | .act i (.act j c) =>
    match w.procs[i]? with
    | none => true
    | some inst =>
      match inst.pool.procs[j]?.bind Slot.stream with
      | none => true
      | some ss => (c.givesUp ss).all fun key =>
          let k := domainScopedKey (c.domain ss) key
          decide (ss.subscribedAt k < inst.subscribedAt k) ||
            decide (subscribers w k = inst.subscribedAt k)
  | _ => true

/-- The entry of `k` was not deleted, and its fields are still there. -/
structure Redis.Kept (k : BucketKey) (r r' : Redis) : Prop where
  deleted : r'.deleted.count k = r.deleted.count k
  fields : ∀ f, (r.hashes k f).isSome = true → (r'.hashes k f).isSome = true

-- ---------------------------------------------------------------------------
-- What the store's calls keep
-- ---------------------------------------------------------------------------

section Store

variable {k : BucketKey} {r₀ r : Redis}

theorem Redis.Kept.refl (k : BucketKey) (r : Redis) : Redis.Kept k r r := ⟨rfl, fun _ h => h⟩

/-- Only the `DEL` of `k` does not keep the entry of `k`. -/
theorem Redis.Kept.exec (h : Redis.Kept k r₀ r) {c : Command}
    (hc : ∀ k', c = .del k' → k' ≠ k) : Redis.Kept k r₀ (r.exec c).1 := by
  cases c with
  | hIncrBy k' f' n =>
    simp only [Redis.exec]
    split
    · refine ⟨h.deleted, fun f hf => ?_⟩
      simp only [Redis.write]
      split
      · rfl
      · exact h.fields f hf
    · exact h
  | expire k' ttl => exact ⟨h.deleted, h.fields⟩
  | del k' =>
    have hne : k' ≠ k := hc k' rfl
    refine ⟨?_, fun f hf => ?_⟩
    · show (r.deleted ++ [k']).count k = _
      rw [List.count_append, h.deleted, List.count_singleton, if_neg (by simpa using hne)]
      rfl
    · show (if k = k' then none else r.hashes k f).isSome = true
      rw [if_neg (Ne.symm hne)]
      exact h.fields f hf

theorem Redis.Kept.execAll {cmds : List Command} :
    (∀ k', Command.del k' ∈ cmds → k' ≠ k) → ∀ {r : Redis}, Redis.Kept k r₀ r →
      Redis.Kept k r₀ (r.execAll cmds).1 := by
  induction cmds with
  | nil => exact fun _ r h => h
  | cons c cmds ih =>
    intro hcmds r h
    refine ih (fun k' hk' => hcmds k' (List.mem_cons_of_mem c hk')) (h.exec ?_)
    rintro k' rfl
    exact hcmds k' List.mem_cons_self

theorem del_notMem_recordCommands (key : BucketKey) (ttl : Nanos) (rep : UsageReport)
    (k' : BucketKey) : Command.del k' ∉ recordCommands key ttl rep := by
  simp [recordCommands]

theorem del_notMem_flushCommands (ttl : Nanos) (entries : GoMap BucketKey UsageState)
    (k' : BucketKey) : Command.del k' ∉ flushCommands ttl entries := by
  intro h
  obtain ⟨e, -, he⟩ := List.mem_flatMap.mp h
  simp only [entryCommands, counterCommand, List.mem_append, List.mem_singleton] at he
  rcases he with (he | he) | he
  · split at he
    · cases List.mem_singleton.mp he
    · simp at he
  · split at he
    · cases List.mem_singleton.mp he
    · simp at he
  · simp at he

theorem Redis.Kept.runPipeline {cmds : List Command} (h : Redis.Kept k r₀ r)
    (hcmds : ∀ k', Command.del k' ∈ cmds → k' ≠ k) (o : Outcome) :
    Redis.Kept k r₀ (r.runPipeline cmds o).1 := by
  cases o with
  | reached => exact Redis.Kept.execAll hcmds h
  | failed ran e =>
    refine Redis.Kept.execAll (fun k' hk' => hcmds k' ?_) h
    obtain ⟨⟨c, b⟩, hmem, hsome⟩ := List.mem_filterMap.mp hk'
    cases b with
    | false => cases hsome
    | true =>
      cases hsome
      exact (List.of_mem_zip hmem).1

theorem Redis.Kept.recover {s : RedisStorage} (h : Redis.Kept k r₀ s.redis) (o : Outcome) :
    Redis.Kept k r₀ (s.recoverFromFallback o).redis := by
  show Redis.Kept k r₀ (s.flushFallback o).redis
  simp only [RedisStorage.flushFallback]
  split
  · exact h
  · exact h.runPipeline (fun k' hk' => absurd hk' (del_notMem_flushCommands _ _ k')) o

/-- `RecordUsage` keeps every entry. -/
theorem Redis.Kept.recordUsage {s : RedisStorage} (h : Redis.Kept k r₀ s.redis) (env : Env)
    (domain : Str) (rep : UsageReport) :
    Redis.Kept k r₀ (s.recordUsage env domain rep).1.redis := by
  have hatt : ∀ s₁ err, s.tryRedisRecordUsage (rep.scopedKey domain) rep env.attempt = (s₁, err) →
      Redis.Kept k r₀ s₁.redis := by
    intro s₁ err heq
    rw [(RedisStorage.pipeline_eq heq).1]
    exact h.runPipeline (fun k' hk' => absurd hk' (del_notMem_recordCommands _ _ rep k')) _
  have htripped : ∀ s₁ : RedisStorage, Redis.Kept k r₀ s₁.redis →
      Redis.Kept k r₀ (s₁.recordTripped domain rep).1.redis := by
    intro s₁ h₁
    unfold RedisStorage.recordTripped
    split
    · exact h₁
    · exact h₁
  rcases RedisStorage.recordUsage_cases s env domain rep with
    ⟨-, s₁, heq, hres⟩ | ⟨-, s₁, e, heq, hres⟩ | ⟨-, -, s₁, heq, hres⟩ | ⟨-, -, s₁, e, heq, hres⟩ |
    ⟨-, -, hres⟩
  · rw [hres]
    exact hatt s₁ _ heq
  · rw [hres]
    exact hatt s₁ _ heq
  · rw [hres]
    exact (hatt s₁ _ heq).recover env.flush
  · rw [hres]
    exact htripped s₁ (hatt s₁ _ heq)
  · rw [hres]
    exact htripped s h

/-- `RemoveBucket` keeps every entry but that of its own key. -/
theorem Redis.Kept.removeBucket {s : RedisStorage} (h : Redis.Kept k r₀ s.redis) (env : Env)
    {domain : Str} {key : BucketKey} (hne : domainScopedKey domain key ≠ k) :
    Redis.Kept k r₀ (s.removeBucket env domain key).1.redis := by
  have hatt : ∀ s₁ err, s.pipeline [.del (domainScopedKey domain key)] env.attempt = (s₁, err) →
      Redis.Kept k r₀ s₁.redis := by
    intro s₁ err heq
    rw [(RedisStorage.pipeline_eq heq).1]
    refine h.runPipeline (fun k' hk' => ?_) _
    cases List.mem_singleton.mp hk'
    exact hne
  rcases RedisStorage.removeBucket_cases s env domain key with
    ⟨-, s₁, heq, hres⟩ | ⟨-, s₁, e, heq, hres⟩ | ⟨-, -, s₁, heq, hres⟩ | ⟨-, -, s₁, e, heq, hres⟩ |
    ⟨-, -, hres⟩
  · rw [hres]
    exact hatt s₁ _ heq
  · rw [hres]
    exact hatt s₁ _ heq
  · rw [hres]
    exact (hatt s₁ _ heq).recover env.flush
  · rw [hres]
    exact hatt s₁ _ heq
  · rw [hres]
    exact h

end Store

-- ---------------------------------------------------------------------------
-- What a call of one instance keeps
-- ---------------------------------------------------------------------------

section Calls

variable {k : BucketKey} {r₀ : Redis} {cfg : Limits} {req : UsageReports}
  {c c' : Server RedisLink × StreamState}

theorem kept_record {srv : Server RedisLink} (h : Redis.Kept k r₀ (hashesOf srv)) (domain : Str)
    (rep : UsageReport) : Redis.Kept k r₀ (hashesOf (srv.record domain rep)) :=
  h.recordUsage srv.store.env domain rep

theorem kept_track (h : Redis.Kept k r₀ (hashesOf c.1)) (ht : Track cfg req c c') :
    Redis.Kept k r₀ (hashesOf c'.1) := by
  cases ht with
  | bind l hbind => exact h
  | again u hu hbound hsub => exact kept_record h _ _
  | @first srv ss u id hu hid hadm hbound hsub =>
    have hsubscribe : Redis.Kept k r₀
        (hashesOf (srv.subscribe (domainScopedKey ss.domain u.key))) := h
    exact kept_record hsubscribe _ _

/-- A release keeps the entry of `k`, or drops the instance's last reference on
`k`. -/
theorem kept_release {srv : Server RedisLink} (h : Redis.Kept k r₀ (hashesOf srv)) (domain : Str)
    (key : BucketKey) :
    Redis.Kept k r₀ (hashesOf (srv.release domain key)) ∨
      domainScopedKey domain key = k ∧ refCount (srv.release domain key).bucketRefs k = 0 := by
  by_cases hremove : (dropRef srv.bucketRefs (domainScopedKey domain key)).2 = true
  · by_cases hk : domainScopedKey domain key = k
    · refine Or.inr ⟨hk, ?_⟩
      have hnone := (dropRef_removed_iff _ _).mp hremove
      show ((dropRef srv.bucketRefs (domainScopedKey domain key)).1.lookup k).getD 0 = 0
      rw [← hk, hnone]
      rfl
    · left
      have hstore : (srv.release domain key).store =
          (BucketStore.removeBucket srv.store domain key).1 := if_pos hremove
      unfold hashesOf
      rw [hstore]
      exact h.removeBucket srv.store.env hk
  · left
    have hstore : (srv.release domain key).store = srv.store := if_neg hremove
    unfold hashesOf
    rw [hstore]
    exact h

/-- Every subscription is an old one or one of the message. -/
def Origin (ss : StreamState) (req : UsageReports) (ss' : StreamState) : Prop :=
  ∀ key ∈ ss'.subscriptions,
    key ∈ ss.subscriptions ∨ key ∈ req.bucketQuotaUsages.map BucketQuotaUsage.key

theorem Origin.track {ss : StreamState} (h : Origin ss req c.2) (ht : Track cfg req c c') :
    Origin ss req c'.2 := by
  cases ht with
  | bind l hbind =>
    intro key hkey
    refine h key ?_
    rw [← (bindDomain_ok hbind).1]
    exact hkey
  | again u hu hbound hsub => exact h
  | first u id hu hid hadm hbound hsub =>
    intro key hkey
    rcases (AList.mem_insert _).mp hkey with rfl | hold
    · exact Or.inr (List.mem_map_of_mem hu)
    · exact h key hold

theorem Origin.drop {ss : StreamState} {G : BucketKey → Prop} (h : Origin ss req c.2)
    (hd : Drop G c c') : Origin ss req c'.2 := by
  obtain ⟨key, hgiven, hbound, hsub⟩ := hd
  intro key' hkey'
  exact h key' (AList.mem_erase.mp hkey').2

theorem Call.mem_givesUp {call : Call} {ss : StreamState} {key : BucketKey}
    (hdrops : call.Drops ss key)
    (horigin : key ∈ ss.subscriptions ∨
      key ∈ call.request.bucketQuotaUsages.map BucketQuotaUsage.key) :
    key ∈ call.givesUp ss := by
  cases call with
  | message label reply sendErr req =>
    exact List.mem_filter.mpr ⟨hdrops, decide_eq_true horigin⟩
  | close order => exact AList.mem_keys.mp hdrops

/-- The state of a call in its drops: the entry of `k` is still there, or the
instance has no reference on `k` left and the call gives `k` up. -/
structure Dropping (k : BucketKey) (r₀ : Redis) (call : Call) (ss : StreamState)
    (n : BucketKey → ℕ) (c : Server RedisLink × StreamState) : Prop where
  counted : Counted n c
  inDomain : InDomain call.request (call.domain ss) c.2
  origin : Origin ss call.request c.2
  entry : Redis.Kept k r₀ (hashesOf c.1) ∨ refCount c.1.bucketRefs k = 0 ∧
    ∃ key ∈ call.givesUp ss, domainScopedKey (call.domain ss) key = k

theorem Dropping.drop {call : Call} {ss : StreamState} {n : BucketKey → ℕ}
    (h : Dropping k r₀ call ss n c) (hd : Drop (call.Drops ss) c c') :
    Dropping k r₀ call ss n c' := by
  refine ⟨h.counted.drop hd, h.inDomain.drop hd, h.origin.drop hd, ?_⟩
  obtain ⟨key, hgiven, hbound, hsub⟩ := hd
  rename_i srv ss₁
  have hdomain : ss₁.domain = call.domain ss := h.inDomain.bound hbound
  have hgives : key ∈ call.givesUp ss := Call.mem_givesUp hgiven (h.origin key hsub)
  rcases h.entry with hkept | ⟨hzero, hgone⟩
  · rcases kept_release hkept ss₁.domain key with hkept | ⟨hk, hzero⟩
    · exact Or.inl hkept
    · exact Or.inr ⟨hzero, key, hgives, hdomain ▸ hk⟩
  · -- no reference on `k` is left, so this release is not on `k`
    right
    refine ⟨?_, hgone⟩
    have href : 1 ≤ refCount srv.bucketRefs (domainScopedKey ss₁.domain key) :=
      h.counted.referenced hsub
    have hne : k ≠ domainScopedKey ss₁.domain key := by
      rintro rfl
      have : refCount srv.bucketRefs (domainScopedKey ss₁.domain key) = 0 := hzero
      omega
    show refCount (dropRef srv.bucketRefs (domainScopedKey ss₁.domain key)).1 k = 0
    rw [refCount_dropRef_ne hne]
    exact hzero

/-- A step of a settled instance keeps the entry of `k`, or is a call that gives
up `k` and leaves the instance without a subscription on it. -/
theorem next_kept {w w' : Pool (Server RedisLink) Slot} {m : Move Unit Call} (hw : Settled w)
    (hn : (callMachine RedisLink cfg).next w m = some w') (k : BucketKey) :
    Settled w' ∧
    (Redis.Kept k (hashesOf w.shared) (hashesOf w'.shared) ∨
      tally (Slot.subscribedAt k) w'.procs = 0 ∧
      ∃ j call p p' ss, m = .act j call ∧ w.procs[j]? = some p ∧ p.stream = some ss ∧
        w'.procs = w.procs.set j p' ∧
        ∃ key ∈ call.givesUp ss, domainScopedKey (call.domain ss) key = k) := by
  obtain ⟨hw', ⟨a, -, hshared⟩ |
    ⟨j, call, p, p', ss, n, mid, ss', hm, hp, hss, hprocs, hstart, htracks, hdrops⟩⟩ :=
    next_effect hw hn
  · rw [hshared]
    exact ⟨hw', Or.inl (Redis.Kept.refl k _)⟩
  refine ⟨hw', ?_⟩
  -- the tracks delete nothing
  have hmid : Dropping k (hashesOf w.shared) call ss n mid := by
    have hall := star_keeps
      (I := fun c : Server RedisLink × StreamState => (Counted n c ∧
        InDomain call.request (call.domain ss) c.2) ∧ Origin ss call.request c.2 ∧
        Redis.Kept k (hashesOf w.shared) (hashesOf c.1))
      ⟨⟨hstart, call.inDomain ss⟩, fun _ h => Or.inl h, Redis.Kept.refl k _⟩ htracks
      fun _ _ h ht => ⟨⟨h.1.1.track ht, h.1.2.track ht⟩, h.2.1.track ht, kept_track h.2.2 ht⟩
    exact ⟨hall.1.1, hall.1.2, hall.2.1, Or.inl hall.2.2⟩
  have hend := star_keeps hmid hdrops fun _ _ h hd => h.drop hd
  rcases hend.entry with hkept | ⟨hzero, hgives⟩
  · exact Or.inl hkept
  · refine Or.inr ⟨?_, j, call, p, p', ss, hm, hp, hss, hprocs, hgives⟩
    have hcount := hw'.count k
    rw [show refCount w'.shared.bucketRefs k = 0 from hzero] at hcount
    omega

end Calls

-- ---------------------------------------------------------------------------
-- Whole runs of the cluster
-- ---------------------------------------------------------------------------

/-- The hashes do not matter for the counting. -/
theorem Settled.attach {inst : Instance} (h : Settled inst.pool) (r : Redis) :
    Settled (inst.attach r) := ⟨h.wf, h.count, h.pos⟩

/-- On every instance of a run, `bucketRefs` counts the instance's own
subscriptions. -/
theorem cluster_settled {ok : Pool Redis Instance → Move InstanceConfig (Move Unit Call) → Prop}
    {r : Redis} {w : Pool Redis Instance} (hrun : cluster.Run ok ⟨r, []⟩ w) :
    ∀ inst ∈ w.procs, Settled inst.pool := by
  refine Run.forall_procs hrun (fun p hp => nomatch hp) (fun a => freshServer_settled _) ?_
  intro r inst m r' inst' hI hs
  obtain ⟨pool, hpool, heq⟩ := Option.map_eq_some_iff.mp hs
  cases heq
  exact (next_effect (hI.attach r) hpool).1

/-- One step that meets the condition keeps the entry of every bucket that some
stream of some instance is subscribed to after it. -/
theorem next_entry_kept {r : Redis} {w w' : Pool Redis Instance}
    {ok : Pool Redis Instance → Move InstanceConfig (Move Unit Call) → Prop}
    {m : Move InstanceConfig (Move Unit Call)} (hrun : cluster.Run ok ⟨r, []⟩ w)
    (hspares : sparesOthers w m = true) (hn : cluster.next w m = some w') {k : BucketKey}
    (hsub : 0 < subscribers w' k) : Redis.Kept k w.shared w'.shared := by
  obtain ⟨a, -, rfl⟩ | ⟨i, x, inst, r', inst', rfl, hinst, hs, rfl⟩ := next_cases hn
  · exact Redis.Kept.refl k _
  obtain ⟨pool, hpool, heq⟩ := Option.map_eq_some_iff.mp hs
  cases heq
  have hsettled := (cluster_settled hrun inst (List.mem_of_getElem? hinst)).attach w.shared
  obtain ⟨-, hkept | ⟨hlocal, j, call, p, p', ss, rfl, hp, hss, hprocs, key, hkey, hk⟩⟩ :=
    next_kept hsettled hpool k
  · exact hkept
  -- the instance has no subscription on `k` left; the condition rules out both
  -- another local subscriber before the call and a remote one
  exfalso
  have hslot : inst.pool.procs[j]?.bind Slot.stream = some ss := by
    rw [show inst.pool.procs[j]? = some p from hp]
    exact hss
  simp only [sparesOthers, hinst, hslot, List.all_eq_true] at hspares
  have hcond := hspares key hkey
  rw [hk, Bool.or_eq_true, decide_eq_true_iff, decide_eq_true_iff] at hcond
  rcases hcond with hother | hremote
  · have hset := tally_set (Slot.subscribedAt k) p' hp
    have hacct : p.subscribedAt k = ss.subscribedAt k := by
      unfold Slot.subscribedAt
      rw [hss]
    rw [← hprocs, hlocal, hacct] at hset
    have htally : inst.subscribedAt k = tally (Slot.subscribedAt k) (inst.attach w.shared).procs :=
      rfl
    omega
  · have hset := tally_set (Instance.subscribedAt k) { inst with pool := pool } hinst
    have hnew : Instance.subscribedAt k { inst with pool := pool } = 0 := hlocal
    have htotal : subscribers w k = tally (Instance.subscribedAt k) w.procs := rfl
    have hsub' : 0 < tally (Instance.subscribedAt k) (w.procs.set i { inst with pool := pool }) :=
      hsub
    omega

theorem Redis.Kept.trans {k : BucketKey} {r₁ r₂ r₃ : Redis} (h : Redis.Kept k r₁ r₂)
    (h' : Redis.Kept k r₂ r₃) : Redis.Kept k r₁ r₃ :=
  ⟨h'.deleted.trans h.deleted, fun f hf => h'.fields f (h.fields f hf)⟩

/-- A step that meets the condition and leaves `k` with a subscriber on some
instance. -/
def SubscribedStep (k : BucketKey) (w w' : Pool Redis Instance) : Prop :=
  Step cluster.next (fun w m => sparesOthers w m = true) w w' ∧ 0 < subscribers w' k

/-- **The Redis entry of a bucket with subscribers is kept.** In every run of
any number of instances over one Redis in which no step gives up a bucket as the
last subscriber of its instance while a stream of another instance is
subscribed to it: over every stretch `w`, …, `w'` of the run during which some
stream of some instance is subscribed to `k`, no `DEL` on `k` is executed and no
field of the entry is lost. -/
theorem subscribed_entry_kept {r : Redis} {w w' : Pool Redis Instance}
    (hrun : cluster.Run (fun w m => sparesOthers w m = true) ⟨r, []⟩ w) (k : BucketKey)
    (hstretch : ReflTransGen (SubscribedStep k) w w') : Redis.Kept k w.shared w'.shared := by
  -- along the stretch: the run so far, and the entry kept since `w`
  have hinv : cluster.Run (fun w m => sparesOthers w m = true) ⟨r, []⟩ w' ∧
      Redis.Kept k w.shared w'.shared := by
    refine star_keeps (I := fun x => cluster.Run _ ⟨r, []⟩ x ∧ Redis.Kept k w.shared x.shared)
      ⟨hrun, Redis.Kept.refl k _⟩ hstretch ?_
    rintro x y ⟨hx, hkept⟩ ⟨⟨m, hspares, hn⟩, hsub⟩
    exact ⟨hx.tail ⟨m, hspares, hn⟩, hkept.trans (next_entry_kept hx hspares hn hsub)⟩
  exact hinv.2

-- ---------------------------------------------------------------------------
-- Two instances
-- ---------------------------------------------------------------------------

/-- An instance without limits whose clock stands still. -/
def plainInstance : InstanceConfig := ⟨noLimits, ⟨0, 0⟩, fun _ => 0⟩

/-- A report of the sample bucket by stream `j` of instance `i`. -/
def clusterReport (i j : ℕ) : Move InstanceConfig (Move Unit Call) :=
  .act i (.act j (.message [] (.ok []) none sampleReq))

/-- Stream `0` of instance `0` ends. -/
def clusterClose : Move InstanceConfig (Move Unit Call) :=
  .act 0 (.act 0 (.close [bucketKeyFromProto (some sampleId)]))

/-- One stream on each of two instances reports the sample bucket. -/
def twoInstances : List (Move InstanceConfig (Move Unit Call)) :=
  [.spawn plainInstance, .spawn plainInstance, .act 0 (.spawn ()), .act 1 (.spawn ()),
    clusterReport 0 0, clusterReport 1 0]

/-- And a second stream of instance `0` does, too. -/
def threeStreams : List (Move InstanceConfig (Move Unit Call)) :=
  twoInstances ++ [.act 0 (.spawn ()), clusterReport 0 1]

/-- The stream of instance `0` ends: the entry is deleted, with the usage the
stream of instance `1` reported, while that stream is subscribed to it. -/
theorem entry_deleted_under_subscriber :
    ∃ w w', cluster.Run Machine.free ⟨emptyRedis, []⟩ w ∧ cluster.next w clusterClose = some w' ∧
      0 < subscribers w' sampleKey ∧
      w.shared.hashes sampleKey .allowed = some 10 ∧ w'.shared.hashes sampleKey .allowed = none ∧
      w'.shared.deleted = [sampleKey] := by
  have hrun := run_exec_free cluster.next ⟨emptyRedis, []⟩ twoInstances (by decide)
  have hn := next_exec cluster.next (fun _ _ => true) ⟨emptyRedis, []⟩ twoInstances clusterClose
    (by decide) (by decide)
  exact ⟨_, _, hrun, hn, by decide, by decide, by decide, by decide⟩

/-- With a second stream of instance `0` subscribed to the bucket, the entry
stays. -/
theorem subscribed_entry_kept_sample :
    ∃ w w', cluster.Run (fun w m => sparesOthers w m = true) ⟨emptyRedis, []⟩ w ∧
      cluster.next w clusterClose = some w' ∧ 0 < subscribers w' sampleKey ∧
      w.shared.hashes sampleKey .allowed = some 15 ∧ Redis.Kept sampleKey w.shared w'.shared := by
  have hrun := run_exec cluster.next sparesOthers ⟨emptyRedis, []⟩ threeStreams (by decide)
  have hn := next_exec cluster.next sparesOthers ⟨emptyRedis, []⟩ threeStreams clusterClose
    (by decide) (by decide)
  refine ⟨_, _, hrun, hn, by decide, by decide, ?_⟩
  exact subscribed_entry_kept hrun sampleKey
    (ReflTransGen.single ⟨⟨clusterClose, by decide, hn⟩, by decide⟩)

end Rlqs
