import Rlqs.Server.Sections
import Rlqs.Server.Gauges
import Rlqs.Server.Removal

/-!
# RLQS server — the handlers inside the whole server

`Server/RefCount.lean`, `Server/Gauges.lean` and `Server/Removal.lean` are about the
handlers alone, one section a step. Here their invariants are carried to the server
with its locks, with engines installed at any time and pushes running beside the
handlers. A push adds responses to a stream, and a new engine changes the number that
a handler loads; no step reads either, so every run of the whole server has beside it
a run of the handlers alone that differs in these only (`LockWorld.run_handlers`).

* `nothing_left` — once every stream has ended, the references, the gauges and the
  in-memory store are empty again, and before that no gauge is ever negative.
-/

namespace Rlqs

open Interleave Steps Mutex

-- ---------------------------------------------------------------------------
-- What no step reads
-- ---------------------------------------------------------------------------

def After.relabel (v : ℕ) : After → After
  | .abandon _ rest all => .abandon v rest all
  | .cleanup todo => .cleanup todo

/-- The control point with another engine loaded. -/
def PC.relabel (v : ℕ) : PC → PC
  | .process _ reports => .process v reports
  | .actions _ todo all => .actions v todo all
  | .decRef key k => .decRef key (k.relabel v)
  | .remove key k => .remove key (k.relabel v)
  | .gaugeDec _ todo all => .gaugeDec v todo all
  | .send _ all => .send v all
  | pc => pc

/-- The handler with another engine loaded and other responses sent. -/
def Handler.relabel (v : ℕ) (sent : List (ℕ × List BucketAction)) (p : Handler) : Handler :=
  { p with pc := p.pc.relabel v, sent := sent }

theorem After.relabel_resume (v : ℕ) (k : After) : (k.relabel v).resume = k.resume.relabel v := by
  cases k <;> rfl

variable {σ : Type} [BucketStore σ] {cfg : Limits} {store : σ}

theorem trackStep_relabel (v : ℕ) (sent : List (ℕ × List BucketAction)) (p : Handler)
    (u : BucketQuotaUsage) (us : List BucketQuotaUsage) (reports : List UsageReport) :
    trackStep cfg (p.relabel v sent) u us reports =
      (trackStep cfg p u us reports).relabel v sent := by
  unfold trackStep
  cases checkUsage cfg u with
  | skip | reject e => rfl
  | accept id =>
    simp only [Handler.relabel]
    cases trackSubscription cfg p.ss (bucketKeyFromProto (some id)) id with
    | error e => rfl
    | ok r =>
      obtain ⟨ss, existed⟩ := r
      cases existed <;> rfl

theorem abandonStep_relabel (v w : ℕ) (sent : List (ℕ × List BucketAction)) (p : Handler)
    (a : BucketAction) (rest all : List BucketAction) :
    abandonStep (p.relabel v sent) v a rest all =
      (abandonStep p w a rest all).relabel v sent := by
  unfold abandonStep
  cases a.bucketAction with
  | abandon =>
    show (if bucketKeyFromProto a.bucketId ∈ p.ss.subscriptions then _ else _) =
      Handler.relabel v sent (if bucketKeyFromProto a.bucketId ∈ p.ss.subscriptions then _ else _)
    split <;> rfl
  | _ => rfl

/-- A step with other labels is the same step, with other labels after it. -/
theorem handlerStep_relabel {sh sh' : Shared σ} {p p' : Handler} {x : Input}
    (h : handlerStep cfg sh p x = some (sh', p')) (e v : ℕ) (sent : List (ℕ × List BucketAction)) :
    ∃ v' sent', handlerStep cfg { sh with engine := e } (p.relabel v sent) x =
      some ({ sh' with engine := e }, p'.relabel v' sent') := by
  cases handlerStep_turn h with
  | bindFailed hpc hbind =>
    exact ⟨v, sent, by simp only [handlerStep, Handler.relabel, PC.relabel, hpc, hbind]⟩
  | @bound req l ss hpc hbind =>
    have hafter : (afterBind cfg req).relabel v = afterBind cfg req := by
      rcases afterBind_cases cfg req with ha | ha | ha <;> rw [ha] <;> rfl
    refine ⟨v, sent, ?_⟩
    simp only [handlerStep, Handler.relabel, hpc, hafter]
    simp only [PC.relabel, hbind]
  | @usage u us reports hpc =>
    refine ⟨v, sent, ?_⟩
    rw [← trackStep_relabel]
    simp only [handlerStep, Handler.relabel, PC.relabel, hpc]
  | load hpc =>
    exact ⟨e, sent, by simp only [handlerStep, Handler.relabel, PC.relabel, hpc]⟩
  | @action w a rest all hpc =>
    refine ⟨v, sent, ?_⟩
    rw [← abandonStep_relabel]
    simp only [handlerStep, Handler.relabel, PC.relabel, hpc]
  | @decRef key k hpc =>
    refine ⟨v, sent, ?_⟩
    simp only [handlerStep, Handler.relabel, hpc, apply_ite (PC.relabel v), ← After.relabel_resume]
    simp only [PC.relabel]
  | @remove key k hpc =>
    refine ⟨v, sent, ?_⟩
    simp only [handlerStep, Handler.relabel, hpc, ← After.relabel_resume]
    simp only [PC.relabel]
  | @sent u all hpc =>
    exact ⟨v, sent ++ [(v, all)], by simp only [handlerStep, Handler.relabel, PC.relabel, hpc]⟩
  | @unregister hpc =>
    refine ⟨v, sent, ?_⟩
    simp only [handlerStep, Handler.relabel, hpc, apply_ite (PC.relabel v)]
    simp only [PC.relabel]
  | picked hpc hkey =>
    exact ⟨v, sent, by simp only [handlerStep, Handler.relabel, PC.relabel, hpc, if_pos hkey,
      After.relabel]⟩
  | _ hpc => exact ⟨v, sent, by simp only [handlerStep, Handler.relabel, PC.relabel, hpc]⟩

-- ---------------------------------------------------------------------------
-- The handlers alone
-- ---------------------------------------------------------------------------

/-- The same handler but for the engine loaded and the responses sent. -/
def Handler.Alike (p q : Handler) : Prop := ∃ v sent, q = p.relabel v sent

/-- The handlers of `a`, alone. -/
structure World.Handlers (a : World σ) (x : Pool (Shared σ) Handler) : Prop where
  shared : ∃ e, x.shared = { a.pool.shared with engine := e }
  procs : List.Forall₂ Handler.Alike a.pool.procs x.procs

/-- A push changes no handler but for its responses. -/
theorem pushStep_alike {engine : Engine} {v : ℕ} {hs hs' qs : List Handler} {pc pc' : PushPC}
    {x : PushInput} (h : pushStep engine v hs pc x = some (hs', pc'))
    (hp : List.Forall₂ Handler.Alike hs qs) : List.Forall₂ Handler.Alike hs' qs := by
  cases pushStep_cases h with
  | @sent i actions todo p hi =>
    obtain ⟨q, hq, v', sent, rfl⟩ := forall₂_getElem? hp hi
    have hset : List.Forall₂ Handler.Alike (hs.set i { p with sent := p.sent ++ [(v, actions)] })
        (qs.set i (p.relabel v' sent)) := forall₂_set hp i ⟨v', sent, rfl⟩
    obtain ⟨hlt, hget⟩ := List.getElem?_eq_some_iff.mp hq
    rwa [← hget, List.set_getElem_self] at hset
  | _ => exact hp

/-- One move of the world, as at most one step of the handlers alone. -/
theorem World.Handlers.step {a a' : World σ} {m : AnyMove} {x : Pool (Shared σ) Handler}
    (hx : a.Handlers x) (hn : a.anyNext cfg m = some a') :
    ∃ x', (serverMachine σ cfg).Run Machine.free x x' ∧ a'.Handlers x' := by
  obtain ⟨e, he⟩ := hx.shared
  rcases World.anyNext_cases hn with ⟨-, rfl, -⟩ | ⟨i, y, p, sh', p', -, hp, hs, rfl, -⟩ |
    ⟨-, rfl, -⟩ | ⟨j, r, y, q, hs', pc', -, -, hs, rfl, -⟩ |
    ⟨j, q, i, actions, todo, -, -, -, rfl, -⟩
  · exact ⟨⟨x.shared, x.procs ++ [newHandler]⟩,
      Relation.ReflTransGen.single ⟨.spawn (), trivial, rfl⟩, ⟨e, he⟩,
      List.rel_append hx.procs (.cons ⟨0, [], rfl⟩ .nil)⟩
  · obtain ⟨q, hq, v, sent, rfl⟩ := forall₂_getElem? hx.procs hp
    obtain ⟨v', sent', hstep⟩ := handlerStep_relabel hs e v sent
    rw [← he] at hstep
    refine ⟨⟨_, x.procs.set i (p'.relabel v' sent')⟩,
      Relation.ReflTransGen.single ⟨.act i y, trivial, next_act hq hstep⟩, ⟨e, rfl⟩,
      forall₂_set hx.procs i ⟨v', sent', rfl⟩⟩
  · exact ⟨x, Relation.ReflTransGen.refl, ⟨e, he⟩, hx.procs⟩
  · exact ⟨x, Relation.ReflTransGen.refl, ⟨e, he⟩, pushStep_alike hs hx.procs⟩
  · exact ⟨x, Relation.ReflTransGen.refl, ⟨e, he⟩, hx.procs⟩

theorem World.run_handlers {a : World σ} (h : Run (World.anyNext cfg) free (newWorld store) a) :
    ∃ x, (serverMachine σ cfg).Run Machine.free (newServer store) x ∧ a.Handlers x := by
  refine Run.simulation (R := World.Handlers) h ⟨⟨0, rfl⟩, .nil⟩ ?_
  intro a m a' x _ hx _ hn
  exact hx.step hn

/-- The handler `q` stands for `h`. -/
def FineHandler.Plays (cfg : Limits) (h : FineHandler) (q : Handler) : Prop :=
  ∃ p, h.Stands cfg p ∧ p.Alike q

/-- Outside the sections the two are at the same point. -/
theorem FineHandler.Plays.out {h : FineHandler} {q : Handler} (hq : h.Plays cfg q) {pc : PC}
    (hpc : h.pc = .out pc) : ∃ v sent, q = (h.at pc).relabel v sent := by
  obtain ⟨p, hst, v, sent, rfl⟩ := hq
  simp only [FineHandler.Stands, hpc] at hst
  exact ⟨v, sent, by rw [hst]⟩

/-- Beside every run of the whole server runs a run of the handlers alone. -/
theorem LockWorld.run_handlers {w : LockWorld σ}
    (h : Run (LockWorld.next cfg) free (newLockWorld store) w) :
    ∃ x, (serverMachine σ cfg).Run Machine.free (newServer store) x ∧
      List.Forall₂ (FineHandler.Plays cfg) w.handlers x.procs ∧
      x.shared.store = w.shared.store ∧ x.shared.activeStreams = w.shared.activeStreams ∧
      x.shared.activeBuckets = w.shared.activeBuckets ∧
      ((∀ h ∈ w.handlers, .mu ∉ h.pc.holds h.self) →
        x.shared.bucketRefs = w.shared.bucketRefs) := by
  obtain ⟨a, ha, hs, -⟩ := (newLockWorld_sections cfg store).run newLockWorld_locked h
  obtain ⟨x, hx, ⟨e, he⟩, hprocs⟩ := World.run_handlers ha
  refine ⟨x, hx, forall₂_trans hs.handlers hprocs fun h p q hst halike => ⟨p, hst, halike⟩, ?_⟩
  rw [he, hs.shared]
  exact ⟨rfl, rfl, rfl, hs.refs_free⟩

-- ---------------------------------------------------------------------------
-- Accounts
-- ---------------------------------------------------------------------------

/-- The handler has not begun, waits in `Recv`, or has returned. -/
def FineHandler.resting (h : FineHandler) : Bool :=
  match h.pc with
  | .out pc => pc.resting
  | _ => false

def FineHandler.finished (h : FineHandler) : Bool :=
  match h.pc with
  | .out pc => pc.finished
  | _ => false

/-- How many subscriptions of a registered stream have the scoped key `k`. -/
def FineHandler.subscribedAt (k : BucketKey) (h : FineHandler) : ℕ :=
  (h.at .recv).subscribedAt k

/-- The subscriptions of a registered stream with label `l`. -/
def FineHandler.bucketsAt (l : Str) (h : FineHandler) : ℕ := (h.at .recv).bucketsAt l

theorem FineHandler.resting_out {h : FineHandler} (hrest : h.resting = true) :
    ∃ pc, h.pc = .out pc ∧ pc.resting = true := by
  unfold FineHandler.resting at hrest
  split at hrest
  · rename_i pc hpc
    exact ⟨pc, hpc, hrest⟩
  · simp at hrest

/-- A resting handler is as it is alone. -/
theorem FineHandler.Plays.resting {h : FineHandler} {q : Handler} (hq : h.Plays cfg q)
    (hrest : h.resting = true) :
    .mu ∉ h.pc.holds h.self ∧ q.pc.resting = true ∧ q.ss = h.ss ∧ q.registered = h.registered := by
  obtain ⟨pc, hpc, hres⟩ := FineHandler.resting_out hrest
  obtain ⟨v, sent, rfl⟩ := hq.out hpc
  refine ⟨by rw [hpc]; exact List.not_mem_nil, ?_, rfl, rfl⟩
  cases pc <;> first | rfl | cases hres

section Accounts

variable {w : LockWorld σ} {x : Pool (Shared σ) Handler}

omit [BucketStore σ] in
/-- When every handler rests, the handlers alone rest, with the same streams. -/
theorem plays_resting (h : List.Forall₂ (FineHandler.Plays cfg) w.handlers x.procs)
    (hrest : ∀ g ∈ w.handlers, g.resting = true) :
    List.Forall₂ (fun g q => q.pc.resting = true ∧ q.ss = g.ss ∧ q.registered = g.registered)
      w.handlers x.procs :=
  forall₂_imp_mem h fun g hg _ hq => (hq.resting (hrest g hg)).2

omit [BucketStore σ] in
theorem forall_resting (h : List.Forall₂ (FineHandler.Plays cfg) w.handlers x.procs)
    (hrest : ∀ g ∈ w.handlers, g.resting = true) : ∀ q ∈ x.procs, q.pc.resting = true := by
  intro q hq
  obtain ⟨i, hi⟩ := List.getElem?_of_mem hq
  obtain ⟨g, -, hres, -⟩ := forall₂_getElem? (plays_resting h hrest).flip hi
  exact hres

/-- The references of resting handlers. -/
theorem refCount_resting (hx : (serverMachine σ cfg).Run Machine.free (newServer store) x)
    (h : List.Forall₂ (FineHandler.Plays cfg) w.handlers x.procs)
    (hrest : ∀ g ∈ w.handlers, g.resting = true) (k : BucketKey) :
    refCount x.shared.bucketRefs k = tally (FineHandler.subscribedAt k) w.handlers := by
  have hres := forall_resting h hrest
  have hsettled : ∀ q ∈ x.procs, q.heldAt k = q.subscribedAt k := by
    intro q hq
    refine (run_wf hx q hq).heldAt_settled ?_ k
    have := hres q hq
    cases hpc : q.pc <;> rw [hpc] at this <;> first | rfl | cases this
  rw [run_refCount hx k, tally_congr hsettled]
  congr 1
  refine tally_forall₂ (plays_resting h hrest) fun g q hq => ?_
  rw [FineHandler.subscribedAt, Handler.subscribedAt, Handler.subscribedAt, hq.2.1, hq.2.2]
  rfl

/-- **The server keeps its accounts.** With the locks, pushes, new engines and calls of
`StreamStats` at any time: neither gauge is ever negative; and whenever no handler
is in mid-operation, `bucketRefs` at every scoped key is the number of
subscriptions of registered streams with that key, `ActiveBuckets` at every label is
their number by label, and `ActiveStreams` is the number of registered streams. -/
theorem server_accounts (cfg : Limits) (store : σ)
    (h : Run (LockWorld.next cfg) free (newLockWorld store) w) :
    (∀ l, 0 ≤ w.shared.activeBuckets l) ∧ 0 ≤ w.shared.activeStreams ∧
    ((∀ g ∈ w.handlers, g.resting = true) →
      (∀ k, refCount w.shared.bucketRefs k = tally (FineHandler.subscribedAt k) w.handlers) ∧
      (∀ l, w.shared.activeBuckets l = tally (FineHandler.bucketsAt l) w.handlers) ∧
      w.shared.activeStreams = tally (fun g => if g.registered then 1 else 0) w.handlers) := by
  obtain ⟨x, hx, hplays, -, hstreams, hbuckets, hrefs⟩ := LockWorld.run_handlers h
  rw [← hstreams, ← hbuckets]
  refine ⟨fun l => ?_, ?_, fun hrest => ⟨fun k => ?_, fun l => ?_, ?_⟩⟩
  · rw [run_activeBuckets hx l]
    omega
  · rw [run_activeStreams hx]
    omega
  · rw [← hrefs fun g hg => ?_]
    · exact refCount_resting hx hplays hrest k
    · obtain ⟨pc, hpc, -⟩ := FineHandler.resting_out (hrest g hg)
      rw [hpc]
      exact List.not_mem_nil
  · have hres := forall_resting hplays hrest
    rw [run_activeBuckets hx l,
      tally_congr fun q hq => (run_wf hx q hq).gaugedAt_resting (hres q hq) l]
    congr 1
    refine tally_forall₂ (plays_resting hplays hrest) fun g q hq => ?_
    rw [FineHandler.bucketsAt, Handler.bucketsAt, Handler.bucketsAt, hq.2.1, hq.2.2]
    rfl
  · have hres := forall_resting hplays hrest
    rw [run_activeStreams hx, tally_congr fun q hq => (run_wf hx q hq).counted_resting (hres q hq)]
    congr 1
    refine tally_forall₂ (plays_resting hplays hrest) fun g q hq => ?_
    rw [hq.2.2]

end Accounts

-- ---------------------------------------------------------------------------
-- When every stream has ended
-- ---------------------------------------------------------------------------

/-- A handler that has returned, alone. -/
theorem FineHandler.Plays.finished {h : FineHandler} {q : Handler} (hq : h.Plays cfg q)
    (hdone : h.finished = true) : h.resting = true ∧ q.pc = .done := by
  unfold FineHandler.finished at hdone
  split at hdone
  · rename_i pc hpc
    obtain rfl := PC.eq_done hdone
    obtain ⟨v, sent, rfl⟩ := hq.out hpc
    exact ⟨by rw [FineHandler.resting, hpc]; rfl, rfl⟩
  · simp at hdone

section Done

variable {x : Pool (Shared σ) Handler}

/-- Handlers that have returned hold no reference. -/
theorem run_refs_done (hx : (serverMachine σ cfg).Run Machine.free (newServer store) x)
    (hdone : ∀ q ∈ x.procs, q.pc = .done) (k : BucketKey) :
    x.shared.bucketRefs.lookup k = none := by
  have hheld : ∀ q ∈ x.procs, q.heldAt k = 0 := by
    intro q hq
    have hperm := (run_wf hx q hq).held_perm
    unfold Handler.claimed at hperm
    rw [hdone q hq] at hperm
    rw [Handler.heldAt, hperm.eq_nil, List.countP_nil]
  by_contra hk
  have hpos := ((run_refs_pos hx).lookup_ne_none k).mp hk
  rw [run_refCount hx k, (tally_eq_zero_iff _ _).mpr hheld] at hpos
  exact lt_irrefl _ hpos

/-- Handlers that have returned are counted in no gauge. -/
theorem run_gauges_done (hx : (serverMachine σ cfg).Run Machine.free (newServer store) x)
    (hdone : ∀ q ∈ x.procs, q.pc = .done) :
    x.shared.activeStreams = 0 ∧ ∀ l, x.shared.activeBuckets l = 0 := by
  refine ⟨?_, fun l => ?_⟩
  · rw [run_activeStreams hx, (tally_eq_zero_iff _ _).mpr, Nat.cast_zero]
    intro q hq
    rw [Handler.counted, hdone q hq]
  · rw [run_activeBuckets hx l, (tally_eq_zero_iff _ _).mpr, Nat.cast_zero]
    intro q hq
    rw [Handler.gaugedAt, Handler.gauged, hdone q hq]
    exact ite_self 0

end Done

section Ended

variable {w : LockWorld MemoryStorage} {x : Pool (Shared MemoryStorage) Handler}

/-- The in-memory store without references and removals on their way. -/
theorem run_store_done (hx : (serverMachine MemoryStorage cfg).Run Machine.free
      (newServer MemoryStorage.newMemoryStorage) x)
    (hdone : ∀ q ∈ x.procs, q.pc = .done) : x.shared.store.buckets = ∅ := by
  refine GoMap.eq_empty_of_lookup fun k => ?_
  by_contra hk
  rcases run_covered hx k hk with href | ⟨q, hq, hrem⟩
  · exact href (run_refs_done hx hdone k)
  · rw [Handler.removes_false (by rw [hdone q hq]; rfl)] at hrem
    simp at hrem

/-- **Nothing is left.** Whatever the scheduler, the clients, the engines and the
reloads did: once every stream has ended and every handler has returned, with the
in-memory store, `bucketRefs` and the store are empty and both gauges are back at
zero. -/
theorem nothing_left (cfg : Limits)
    (h : Run (LockWorld.next cfg) free (newLockWorld MemoryStorage.newMemoryStorage) w)
    (hdone : ∀ g ∈ w.handlers, g.finished = true) :
    w.shared.bucketRefs = ∅ ∧ w.shared.store.buckets = ∅ ∧ w.shared.activeStreams = 0 ∧
      ∀ l, w.shared.activeBuckets l = 0 := by
  obtain ⟨x, hx, hplays, hstore, hstreams, hbuckets, hrefs⟩ := LockWorld.run_handlers h
  have hfin : List.Forall₂ (fun g q => g.resting = true ∧ q.pc = .done) w.handlers x.procs :=
    forall₂_imp_mem hplays fun g hg q hq => hq.finished (hdone g hg)
  have hx_done : ∀ q ∈ x.procs, q.pc = .done := by
    intro q hq
    obtain ⟨i, hi⟩ := List.getElem?_of_mem hq
    obtain ⟨g, -, -, hpc⟩ := forall₂_getElem? hfin.flip hi
    exact hpc
  have hrefs' : x.shared.bucketRefs = w.shared.bucketRefs := by
    refine hrefs fun g hg => ?_
    obtain ⟨i, hi⟩ := List.getElem?_of_mem hg
    obtain ⟨q, -, hrest, -⟩ := forall₂_getElem? hfin hi
    obtain ⟨pc, hpc, -⟩ := FineHandler.resting_out hrest
    rw [hpc]
    exact List.not_mem_nil
  rw [← hrefs', ← hstore, ← hstreams, ← hbuckets]
  exact ⟨GoMap.eq_empty_of_lookup (run_refs_done hx hx_done), run_store_done hx hx_done,
    run_gauges_done hx hx_done⟩

end Ended

-- ---------------------------------------------------------------------------
-- A run from beginning to end
-- ---------------------------------------------------------------------------

/-- Stream 0 reports the sample bucket while an engine is installed. -/
def reportedMoves : List LockMove :=
  .connect :: List.replicate 4 (.handler 0 .tick) ++ [.handler 0 (.recv sampleReq)] ++
    List.replicate 3 (.handler 0 .tick) ++ [.handler 0 (.label [])] ++
    List.replicate 17 (.handler 0 .tick) ++ [.swap, .handler 0 (.reply (.ok []))]

/-- The push of the new engine goes over the stream. -/
def pushedMoves : List LockMove :=
  [.push 0 .tick, .push 0 (.stream 0), .push 0 .tick, .push 0 .tick, .push 0 .tick, .push 0 .tick,
   .push 0 (.bucket (bucketKeyFromProto (some sampleId))), .push 0 .tick, .push 0 .tick,
   .push 0 (.reply (.ok []))]

/-- The stream ends. -/
def endedMoves : List LockMove :=
  .handler 0 .hangup :: List.replicate 4 (.handler 0 .tick) ++
    [.handler 0 (.pick (bucketKeyFromProto (some sampleId)))] ++
    List.replicate 8 (.handler 0 .tick)

theorem server_accounts_reported :
    ∃ w, Run (LockWorld.next noLimits) free (newLockWorld MemoryStorage.newMemoryStorage) w ∧
      (∀ g ∈ w.handlers, g.resting = true) ∧ w.pushes.length = 1 ∧
      refCount w.shared.bucketRefs sampleKey = 1 ∧
      refCount w.shared.bucketRefs sampleKey =
        tally (FineHandler.subscribedAt sampleKey) w.handlers := by
  have hrun := run_exec_free (LockWorld.next noLimits)
    (newLockWorld MemoryStorage.newMemoryStorage) reportedMoves (by decide)
  obtain ⟨-, -, hrest⟩ := server_accounts _ _ hrun
  exact ⟨_, hrun, by decide, by decide, by decide, (hrest (by decide)).1 sampleKey⟩

theorem nothing_left_reported :
    ∃ w, Run (LockWorld.next noLimits) free (newLockWorld MemoryStorage.newMemoryStorage) w ∧
      w.handlers.length = 1 ∧ (∀ g ∈ w.handlers, g.finished = true) ∧
      w.shared.bucketRefs = ∅ ∧ w.shared.store.buckets = ∅ := by
  have hrun := run_exec_free (LockWorld.next noLimits)
    (newLockWorld MemoryStorage.newMemoryStorage) (reportedMoves ++ pushedMoves ++ endedMoves)
    (by decide)
  have hleft := nothing_left _ hrun (by decide)
  exact ⟨_, hrun, by decide, by decide, hleft.1, hleft.2.1⟩

end Rlqs
