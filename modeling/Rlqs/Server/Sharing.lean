import Rlqs.Server.Cluster
import Rlqs.Server.Whole
import Rlqs.Storage.Fleet

/-!
# RLQS server — instances over one Redis, step by step

The instances of `Server.Cluster` take whole calls one after another. Here their
handlers take atomic steps, those of all streams of all instances in any order, over
the one Redis they share. What each call finds is arbitrary: the clock of the
instance, a Redis that does not answer, a stream whose context has been cancelled. A
call that fails trips the breaker of its instance (`RedisStorage.recordUsage_cases`,
`RedisStorage.removeBucket_cases`), and what is proved here is about runs in which no
breaker trips.

An instance may delete a bucket that streams of another instance still use, since it
counts its own references only (`entry_deleted_under_subscriber`). What never happens
is the opposite, a bucket that stays: whoever wrote it last holds a reference on it, and
drops it with a removal.

* `nodes` — the handlers of all instances;
* `Covers` — the instance has a reference on the bucket, or a removal on its way;
* `nodes_leave_nothing` — once every stream of every instance has ended and no breaker
  has tripped, Redis is empty.
-/

namespace Rlqs

open Interleave Steps

-- ---------------------------------------------------------------------------
-- The instances
-- ---------------------------------------------------------------------------

/-- The store of an instance: its call number `n` finds the clock and Redis as `calls n`
says. -/
structure RedisPort where
  storage : RedisStorage
  calls : ℕ → Env
  made : ℕ

def RedisPort.env (l : RedisPort) : Env := l.calls l.made

instance redisPortStore : BucketStore RedisPort where
  recordUsage l domain report :=
    let (storage, err) := l.storage.recordUsage l.env domain report
    ({ l with storage := storage, made := l.made + 1 }, err)
  removeBucket l domain key :=
    let (storage, err) := l.storage.removeBucket l.env domain key
    ({ l with storage := storage, made := l.made + 1 }, err)

/-- What an instance is started with, and what its calls will find. -/
structure NodeConfig where
  limits : Limits
  redis : RedisConfig
  calls : ℕ → Env

/-- An instance with its handlers. The hashes in its store are those it saw last. -/
structure Node where
  limits : Limits
  pool : Pool (Shared RedisPort) Handler

/-- The instance, with the hashes as they are now. -/
def Node.attach (node : Node) (r : Redis) : Pool (Shared RedisPort) Handler :=
  { node.pool with shared := { node.pool.shared with
      store := { node.pool.shared.store with
        storage := { node.pool.shared.store.storage with redis := r } } } }

/-- The handlers of all instances over one Redis. -/
def nodes : Machine Redis Node NodeConfig (Move Unit Input) where
  init a := ⟨a.limits, newServer ⟨newRedisStorage a.redis emptyRedis, a.calls, 0⟩⟩
  step r node m :=
    ((serverMachine RedisPort node.limits).next (node.attach r) m).map fun pool =>
      (pool.shared.store.storage.redis, { node with pool := pool })

/-- No breaker is open. -/
def untripped (w : Pool Redis Node) : Bool :=
  w.procs.all fun node => !node.pool.shared.store.storage.tripped

-- ---------------------------------------------------------------------------
-- Handlers over another store
-- ---------------------------------------------------------------------------

section OtherStore

variable {σ τ : Type} [BucketStore σ] [BucketStore τ] {cfg : Limits}

/-- The same server over another store. -/
def Shared.over (sh : Shared σ) (store : τ) : Shared τ :=
  ⟨sh.bucketRefs, store, sh.engine, sh.activeStreams, sh.activeBuckets⟩

/-- A handler never looks at what the store holds. -/
theorem handlerStep_over {sh sh' : Shared σ} {p p' : Handler} {x : Input}
    (h : handlerStep cfg sh p x = some (sh', p')) (store : τ) :
    ∃ store' : τ, handlerStep cfg (sh.over store) p x = some (sh'.over store', p') := by
  cases handlerStep_turn h with
  | bindFailed hpc hbind | bound hpc hbind =>
    exact ⟨store, by simp only [handlerStep, hpc, hbind, Shared.over]⟩
  | @record u us reports hpc =>
    exact ⟨(BucketStore.recordUsage store p.ss.domain u.toReport).1, by
      simp only [handlerStep, hpc, Shared.over]⟩
  | @remove key l hpc =>
    exact ⟨(BucketStore.removeBucket store p.ss.domain key).1, by
      simp only [handlerStep, hpc, Shared.over]⟩
  | decRef hpc =>
    refine ⟨store, ?_⟩
    simp only [handlerStep, hpc, Shared.over]
    rfl
  | picked hpc hkey => exact ⟨store, by simp only [handlerStep, hpc, if_pos hkey, Shared.over]⟩
  | _ hpc => exact ⟨store, by simp only [handlerStep, hpc, Shared.over]⟩

end OtherStore

/-- What an instance has done, its handlers may have done over an in-memory store. -/
def Node.Played (node : Node) : Prop :=
  ∃ store, (serverMachine MemoryStorage node.limits).Run Machine.free
    (newServer MemoryStorage.newMemoryStorage) ⟨node.pool.shared.over store, node.pool.procs⟩

theorem Node.Played.next {node : Node} (h : node.Played) {r : Redis} {m : Move Unit Input}
    {pool : Pool (Shared RedisPort) Handler}
    (hn : (serverMachine RedisPort node.limits).next (node.attach r) m = some pool) :
    ({ node with pool := pool } : Node).Played := by
  obtain ⟨store, hrun⟩ := h
  rcases next_cases hn with ⟨a, rfl, rfl⟩ | ⟨i, x, p, sh', p', rfl, hp, hs, rfl⟩
  · exact ⟨store, hrun.tail ⟨.spawn a, trivial, rfl⟩⟩
  · obtain ⟨store', hs'⟩ := handlerStep_over hs store
    exact ⟨store', hrun.tail ⟨.act i x, trivial, next_act hp hs'⟩⟩

-- ---------------------------------------------------------------------------
-- What the store calls leave in Redis
-- ---------------------------------------------------------------------------

section Calls

variable {l : RedisPort} {domain : Str} {k : BucketKey}

/-- `RecordUsage` on a closed breaker writes its own key only. -/
theorem has_recordUsage (hclosed : l.storage.tripped = false) {report : UsageReport}
    (hk : k ≠ report.scopedKey domain) :
    (BucketStore.recordUsage l domain report).1.storage.redis.has k = l.storage.redis.has k := by
  have hframe : ∀ s₁ err, l.storage.tryRedisRecordUsage (report.scopedKey domain) report
      l.env.attempt = (s₁, err) → s₁.redis.has k = l.storage.redis.has k := by
    intro s₁ err heq
    rw [(RedisStorage.pipeline_eq heq).1]
    dsimp only
    rw [Redis.runPipeline_fst]
    refine Redis.has_congr (Redis.execAll_frame _ fun c hc => ?_)
    rw [recordCommands_key c ((l.env.attempt.executed_sublist _).subset hc)]
    exact Ne.symm hk
  rcases RedisStorage.recordUsage_cases l.storage l.env domain report with
    ⟨-, s₁, heq, hres⟩ | ⟨-, s₁, e, heq, hres⟩ | ⟨ht, -⟩ | ⟨ht, -⟩ | ⟨ht, -⟩
  · show (l.storage.recordUsage l.env domain report).1.redis.has k = _
    rw [hres]
    exact hframe s₁ none heq
  · show (l.storage.recordUsage l.env domain report).1.redis.has k = _
    rw [hres]
    exact hframe s₁ (some e) heq
  · rw [hclosed] at ht
    cases ht
  · rw [hclosed] at ht
    cases ht
  · rw [hclosed] at ht
    cases ht

/-- `RemoveBucket` on a closed breaker deletes its key, or trips the breaker. -/
theorem has_removeBucket (hclosed : l.storage.tripped = false) (key : BucketKey)
    (hkept : (BucketStore.removeBucket l domain key).1.storage.tripped = false) :
    (BucketStore.removeBucket l domain key).1.storage.redis.has k =
      (decide (k ≠ domainScopedKey domain key) && l.storage.redis.has k) := by
  show (l.storage.removeBucket l.env domain key).1.redis.has k = _
  replace hkept : (l.storage.removeBucket l.env domain key).1.tripped = false := hkept
  rcases RedisStorage.removeBucket_cases l.storage l.env domain key with
    ⟨-, s₁, heq, hres⟩ | ⟨-, s₁, e, -, hres⟩ | ⟨ht, -⟩ | ⟨ht, -⟩ | ⟨ht, -⟩
  · obtain ⟨rfl, herr⟩ := RedisStorage.pipeline_eq heq
    rw [hres]
    -- a `Del` without an error has been executed
    cases ho : l.env.attempt with
    | failed ran e =>
      rw [ho] at herr
      cases herr
    | reached =>
      by_cases hk : k = domainScopedKey domain key
      · simp [Redis.has, Redis.runPipeline, Redis.execAll, Redis.exec, hk]
      · simp [Redis.has, Redis.runPipeline, Redis.execAll, Redis.exec, hk]
  · rw [hres] at hkept
    cases hkept
  · rw [hclosed] at ht
    cases ht
  · rw [hclosed] at ht
    cases ht
  · rw [hclosed] at ht
    cases ht

end Calls

-- ---------------------------------------------------------------------------
-- Every stored bucket is covered
-- ---------------------------------------------------------------------------

section Covers

variable {cfg : Limits} {w : Pool (Shared RedisPort) Handler} {i : ℕ} {p p' : Handler} {x : Input}
  {sh' : Shared RedisPort} {k : BucketKey}

/-- The instance has a reference on the bucket, or a removal of it on its way. -/
def Covers (k : BucketKey) (w : Pool (Shared RedisPort) Handler) : Prop :=
  w.shared.bucketRefs.lookup k ≠ none ∨ ∃ q ∈ w.procs, q.removes k = true

/-- A handler gives a bucket up by its removal only. -/
theorem Covers.step (h : Covers k w) (hp : w.procs[i]? = some p)
    (hs : handlerStep cfg w.shared p x = some (sh', p')) :
    Covers k ⟨sh', w.procs.set i p'⟩ ∨
      ∃ key l, p.pc = .remove key l ∧ k = domainScopedKey p.ss.domain key := by
  cases handlerStep_cases hs with
  | quiet hrefs _ _ _ hnot _ =>
    left
    unfold Covers
    rw [hrefs]
    exact h.imp_right (removes_of_set hp (Handler.removes_false hnot k))
  | @counted key u us reports hpc =>
    left
    rcases h with href | hrem
    · left
      rw [lookup_addRef]
      split
      · simp
      · exact href
    · exact Or.inr (removes_of_set hp (Handler.removes_false (by rw [hpc]; rfl) k) hrem)
  | @recorded u us reports hpc =>
    exact Or.inl (h.imp_right (removes_of_set hp (Handler.removes_false (by rw [hpc]; rfl) k)))
  | @released key l hpc =>
    left
    by_cases hkey : k = domainScopedKey p.ss.domain key
    · -- either an entry remains, or this handler goes on to remove the bucket
      cases hflag : (dropRef w.shared.bucketRefs (domainScopedKey p.ss.domain key)).2 with
      | true =>
        right
        refine ⟨_, List.mem_of_getElem? (i := i) (List.getElem?_set_self ?_), ?_⟩
        · exact (List.getElem?_eq_some_iff.mp hp).1
        · simp [Handler.removes, PC.removing, hkey]
      | false =>
        left
        intro hnone
        rw [hkey, ← dropRef_removed_iff, hflag] at hnone
        cases hnone
    · rcases h with href | hrem
      · left
        rw [lookup_dropRef, if_neg hkey]
        exact href
      · exact Or.inr (removes_of_set hp (Handler.removes_false (by rw [hpc]; rfl) k) hrem)
  | @removed key l hpc =>
    by_cases hkey : k = domainScopedKey p.ss.domain key
    · exact Or.inr ⟨key, l, hpc, hkey⟩
    · have hnot : p.removes k = false := by
        simp [Handler.removes, PC.removing, hpc, Ne.symm hkey]
      exact Or.inl (h.imp_right (removes_of_set hp hnot))

/-- A bucket that is in Redis after a step of a handler was there before, and the step
is not its removal; or the step has recorded for it. -/
theorem has_step (hclosed : w.shared.store.storage.tripped = false)
    (hs : handlerStep cfg w.shared p x = some (sh', p'))
    (hkept : sh'.store.storage.tripped = false)
    (h : sh'.store.storage.redis.has k = true) :
    (w.shared.store.storage.redis.has k = true ∧
      ∀ key l, p.pc = .remove key l → k ≠ domainScopedKey p.ss.domain key) ∨
    ∃ u us reports, p.pc = .record u us reports ∧ k = u.toReport.scopedKey p.ss.domain := by
  cases handlerStep_cases hs with
  | quiet _ hstore _ _ hnot _ =>
    rw [hstore] at h
    refine Or.inl ⟨h, fun key l hpc => ?_⟩
    rw [hpc] at hnot
    cases hnot
  | counted hpc | released hpc =>
    refine Or.inl ⟨h, fun key l hpc' => ?_⟩
    rw [hpc] at hpc'
    cases hpc'
  | @recorded u us reports hpc =>
    by_cases hk : k = u.toReport.scopedKey p.ss.domain
    · exact Or.inr ⟨u, us, reports, hpc, hk⟩
    · left
      refine ⟨(has_recordUsage hclosed hk).symm.trans h, fun key l hpc' => ?_⟩
      rw [hpc] at hpc'
      cases hpc'
  | @removed key l hpc =>
    have hrest := (has_removeBucket hclosed key hkept).symm.trans h
    rw [Bool.and_eq_true, decide_eq_true_eq] at hrest
    refine Or.inl ⟨hrest.2, fun key' l' hpc' => ?_⟩
    rw [hpc] at hpc'
    cases hpc'
    exact hrest.1

end Covers

/-- While no breaker is open, every bucket in Redis is covered by some instance. -/
structure Shelved (w : Pool Redis Node) : Prop where
  played : ∀ node ∈ w.procs, node.Played
  covered : untripped w = true → ∀ k, w.shared.has k = true →
    ∃ node ∈ w.procs, Covers k node.pool

/-- A stream that records for a bucket has counted it. -/
theorem Node.Played.counted {node : Node} (h : node.Played) {p : Handler}
    (hp : p ∈ node.pool.procs) {u : BucketQuotaUsage} {us : List BucketQuotaUsage}
    {reports : List UsageReport} (hpc : p.pc = .record u us reports) :
    node.pool.shared.bucketRefs.lookup (u.toReport.scopedKey p.ss.domain) ≠ none := by
  obtain ⟨store, hrun⟩ := h
  exact run_lookup_of_held hrun hp ((run_wf hrun p hp).tracked_held hpc)

/-- What a step of one instance leaves covered. -/
theorem covered_step {node : Node} (hplayed : node.Played) {r : Redis} {m : Move Unit Input}
    {pool : Pool (Shared RedisPort) Handler}
    (hclosed : node.pool.shared.store.storage.tripped = false)
    (hn : (serverMachine RedisPort node.limits).next (node.attach r) m = some pool)
    (hkept : pool.shared.store.storage.tripped = false) {k : BucketKey}
    (hk : pool.shared.store.storage.redis.has k = true) :
    Covers k pool ∨ r.has k = true ∧ ¬ Covers k node.pool := by
  rcases next_cases hn with ⟨a, -, rfl⟩ | ⟨i, x, p, sh', p', -, hp, hs, rfl⟩
  · by_cases hcov : Covers k node.pool
    · refine Or.inl (hcov.imp_right ?_)
      rintro ⟨q, hq, hrem⟩
      exact ⟨q, List.mem_append_left _ hq, hrem⟩
    · exact Or.inr ⟨hk, hcov⟩
  · have hopen : (node.attach r).shared.store.storage.tripped = false := hclosed
    rcases has_step hopen hs hkept hk with ⟨hbefore, hnot⟩ | ⟨u, us, reports, hpc, rfl⟩
    · by_cases hcov : Covers k (node.attach r)
      · rcases hcov.step hp hs with hcov' | ⟨key, l, hpc, hkey⟩
        · exact Or.inl hcov'
        · exact absurd hkey (hnot key l hpc)
      · exact Or.inr ⟨hbefore, hcov⟩
    · -- the reporting stream holds the bucket it records for
      left
      have hcounted := hplayed.counted (List.mem_of_getElem? hp) hpc
      have hcov : Covers (u.toReport.scopedKey p.ss.domain) (node.attach r) := Or.inl hcounted
      rcases hcov.step hp hs with hcov' | ⟨key, l, hpc', -⟩
      · exact hcov'
      · rw [hpc] at hpc'
        cases hpc'

theorem untripped_mem {w : Pool Redis Node} (h : untripped w = true) {node : Node}
    (hnode : node ∈ w.procs) : node.pool.shared.store.storage.tripped = false := by
  simpa using List.all_eq_true.mp h node hnode

theorem Shelved.next {w w' : Pool Redis Node} {m : Move NodeConfig (Move Unit Input)}
    (h : Shelved w) (hclosed : untripped w = true) (hn : nodes.next w m = some w') :
    Shelved w' := by
  rcases next_cases hn with ⟨a, -, rfl⟩ | ⟨i, m, node, r', node', -, hnode, hs, rfl⟩
  · refine ⟨fun node hnode => ?_, fun _ k hk => ?_⟩
    · rcases List.mem_append.mp hnode with hnode | hnode
      · exact h.played node hnode
      · rw [List.mem_singleton.mp hnode]
        exact ⟨MemoryStorage.newMemoryStorage, Relation.ReflTransGen.refl⟩
    · obtain ⟨node, hnode, hcov⟩ := h.covered hclosed k hk
      exact ⟨node, List.mem_append_left _ hnode, hcov⟩
  · have hmem := List.mem_of_getElem? hnode
    obtain ⟨pool, hpool, heq⟩ := Option.map_eq_some_iff.mp hs
    cases heq
    refine ⟨fun q hq => ?_, fun hclosed' k hk => ?_⟩
    · rcases mem_set_cases hq with rfl | hq
      · exact (h.played node hmem).next hpool
      · exact h.played q hq
    · have hthere : ({ node with pool := pool } : Node) ∈
          w.procs.set i { node with pool := pool } :=
        List.mem_set (List.getElem?_eq_some_iff.mp hnode).1 _
      rcases covered_step (h.played node hmem) (untripped_mem hclosed hmem) hpool
        (untripped_mem hclosed' hthere) hk with hcov | ⟨hbefore, hnot⟩
      · exact ⟨_, hthere, hcov⟩
      · -- another instance covers it
        rcases (exists_mem_set { node with pool := pool } (fun q => Covers k q.pool) hnode).mpr
          (Or.inr (h.covered hclosed k hbefore)) with hcov | hother
        · exact absurd hcov hnot
        · exact hother

/-- **No bucket is left in the shared Redis.** Any number of instances over one Redis,
any number of streams on each, any engines and messages, and every interleaving of the
atomic steps of all handlers, in which no call of any instance fails so that its breaker
trips: once every handler of every instance has returned, Redis holds nothing, and no
instance has a reference left. -/
theorem nodes_leave_nothing {w : Pool Redis Node}
    (h : nodes.Run (fun w _ => untripped w = true) ⟨emptyRedis, []⟩ w)
    (hclosed : untripped w = true)
    (hdone : ∀ node ∈ w.procs, ∀ p ∈ node.pool.procs, p.pc.finished = true) :
    (∀ k, w.shared.has k = false) ∧ ∀ node ∈ w.procs, node.pool.shared.bucketRefs = ∅ := by
  have hinv : Shelved w := by
    refine Run.invariant h ⟨(fun node hnode => nomatch hnode), (fun _ k hk => nomatch hk)⟩ ?_
    intro v m v' _ hI hok hn
    exact hI.next hok hn
  have hrefs : ∀ node ∈ w.procs, ∀ k, node.pool.shared.bucketRefs.lookup k = none := by
    intro node hnode k
    obtain ⟨store, hrun⟩ := hinv.played node hnode
    exact run_refs_done hrun (fun p hp => PC.eq_done (hdone node hnode p hp)) k
  refine ⟨fun k => ?_, fun node hnode => GoMap.eq_empty_of_lookup (hrefs node hnode)⟩
  cases hk : w.shared.has k with
  | false => rfl
  | true =>
    obtain ⟨node, hnode, href | ⟨q, hq, hrem⟩⟩ := hinv.covered hclosed k hk
    · exact absurd (hrefs node hnode k) href
    · rw [Handler.removes_false (by rw [PC.eq_done (hdone node hnode q hq)]; rfl)] at hrem
      cases hrem

/-- A stream that is open sends the sample report once more. -/
def againMoves (i : ℕ) : List (Move Unit Input) :=
  [.act i (.recv sampleReq), .act i (.label []), .act i .tick, .act i .tick, .act i .tick,
    .act i .tick, .act i (.reply (.ok []))]

/-- A stream ends, and its cleanup runs to its end. -/
def endMoves (i : ℕ) : List (Move Unit Input) :=
  hangupMoves i ++ [.act i .tick, .act i .tick]

/-- Two instances with a stream each, which report the same bucket. The first stream
ends, and with it the bucket goes from Redis; the second stream reports again. -/
def sharedBucket : List (Move NodeConfig (Move Unit Input)) :=
  .spawn ⟨noLimits, ⟨0, 0⟩, fun _ => ⟨0, .reached, .reached⟩⟩ ::
    .spawn ⟨noLimits, ⟨0, 0⟩, fun _ => ⟨0, .reached, .reached⟩⟩ ::
    ((.spawn () :: reportMoves 0).map (Move.act 0) ++
      (.spawn () :: reportMoves 0).map (Move.act 1) ++
      (endMoves 0).map (Move.act 0) ++ (againMoves 0).map (Move.act 1))

/-- Then the second stream ends too. -/
theorem nodes_leave_nothing_shared :
    ∃ w w', nodes.Run (fun w _ => untripped w = true) ⟨emptyRedis, []⟩ w ∧
      w.shared.has sampleKey = true ∧ nodes.Run (fun w _ => untripped w = true) w w' ∧
      w'.procs.length = 2 ∧ (∀ node ∈ w'.procs, ∀ p ∈ node.pool.procs, p.pc.finished = true) ∧
      ∀ k, w'.shared.has k = false := by
  have hrun := run_exec nodes.next (fun w _ => untripped w) ⟨emptyRedis, []⟩ sharedBucket
    (by decide)
  have hrun' := run_exec nodes.next (fun w _ => untripped w)
    ((exec nodes.next (fun w _ => untripped w) ⟨emptyRedis, []⟩ sharedBucket).get (by decide))
    ((endMoves 0).map (Move.act 1)) (by decide)
  exact ⟨_, _, hrun, by decide, hrun', by decide, by decide,
    (nodes_leave_nothing (hrun.trans hrun') (by decide) (by decide)).1⟩

end Rlqs
