import Rlqs.Server.Exclusion

/-!
# RLQS server — data races

Which memory the next step of a goroutine reads and writes is not listed here but read
off the steps of `Server/Locks.lean`. A `Patch` gives one piece of memory other contents
and leaves the rest of the server alone. A goroutine writes the memory if, for some
contents of it, one of its next steps changes them (`LockWorld.Writes`), and reads it if
other contents make one of its next steps do something else to the rest of the server
(`LockWorld.Reads`).

Writes are made under the lock of the memory (`Writes.guarded`), and so are reads, but for
those of a handler in its own `streamState` (`Reads.guarded`), which no other goroutine
writes.

* `no_data_race` — no two goroutines are about to access the same memory with one of them
  writing it, and no two are inside `stream.Send` of one stream.
-/

namespace Rlqs

open Interleave Steps Mutex

variable {σ : Type} [BucketStore σ] {cfg : Limits} {w w' : LockWorld σ} {store : σ}

-- ---------------------------------------------------------------------------
-- Memory
-- ---------------------------------------------------------------------------

/-- The memory that the goroutines share without further synchronisation:
`s.streams`, `s.bucketRefs`, the fields of a `streamState`, and a gRPC stream,
which does not allow two calls of `Send` at once. -/
inductive Memory where
  | streams
  | bucketRefs
  | stream (i : ℕ)
  | wire (i : ℕ)
  deriving DecidableEq

/-- The lock under which the memory is written. -/
def Memory.guard : Memory → Lock
  | .streams | .bucketRefs => .mu
  | .stream i => .ss i
  | .wire i => .send i

/-- Other contents for one piece of memory. -/
inductive Patch where
  | streams (registered : ℕ → Bool)
  | bucketRefs (refs : BucketRefs)
  | stream (i : ℕ) (ss : StreamState)
  | wire (i : ℕ) (sent : List (ℕ × List BucketAction))

def Patch.memory : Patch → Memory
  | .streams _ => .streams
  | .bucketRefs _ => .bucketRefs
  | .stream i _ => .stream i
  | .wire i _ => .wire i

def Patch.shared (p : Patch) (sh : Shared σ) : Shared σ :=
  match p with
  | .bucketRefs refs => { sh with bucketRefs := refs }
  | _ => sh

def Patch.handler (p : Patch) (i : ℕ) (h : FineHandler) : FineHandler :=
  match p with
  | .streams registered => { h with registered := registered i }
  | .bucketRefs _ => h
  | .stream j ss => if j = i then { h with ss := ss } else h
  | .wire j sent => if j = i then { h with sent := sent } else h

/-- The server with other contents in one piece of memory. -/
def LockWorld.patch (w : LockWorld σ) (p : Patch) : LockWorld σ :=
  { w with shared := p.shared w.shared, handlers := w.handlers.mapIdx p.handler }

/-- The memory has the same contents in both states. -/
def LockWorld.SameAt (v v' : LockWorld σ) : Memory → Prop
  | .streams => streamsOf v'.handlers = streamsOf v.handlers
  | .bucketRefs => v'.shared.bucketRefs = v.shared.bucketRefs
  | .stream i => v'.handlers[i]?.map FineHandler.ss = v.handlers[i]?.map FineHandler.ss
  | .wire i => v'.handlers[i]?.map FineHandler.sent = v.handlers[i]?.map FineHandler.sent

/-- For some contents of the memory, a next step of the goroutine changes them. -/
def LockWorld.Writes (cfg : Limits) (w : LockWorld σ) (g : Goroutine) (mem : Memory) : Prop :=
  ∃ (p : Patch) (m : LockMove) (v' : LockWorld σ), p.memory = mem ∧ m.goroutine = some g ∧
    (w.patch p).next cfg m = some v' ∧ ¬ (w.patch p).SameAt v' mem

/-- With other contents of the memory, a next step of the goroutine is possible where it
was not, or not where it was, or leads to a state that differs elsewhere too. -/
def LockWorld.Reads (cfg : Limits) (w : LockWorld σ) (g : Goroutine) (mem : Memory) : Prop :=
  ∃ (p : Patch) (m : LockMove), p.memory = mem ∧ m.goroutine = some g ∧
    ¬ Option.Rel (fun u v => ∃ q : Patch, q.memory = mem ∧ v = u.patch q)
      (w.next cfg m) ((w.patch p).next cfg m)

-- ---------------------------------------------------------------------------
-- Patches
-- ---------------------------------------------------------------------------

section Patch

variable {p : Patch} {i : ℕ} {h : FineHandler}

omit [BucketStore σ]

/-- No patch moves a handler. -/
theorem Patch.handler_at (p : Patch) (i : ℕ) (h : FineHandler) :
    (p.handler i h).self = h.self ∧ (p.handler i h).pc = h.pc ∧ (p.handler i h).held = h.held := by
  cases p with
  | streams registered => exact ⟨rfl, rfl, rfl⟩
  | bucketRefs refs => exact ⟨rfl, rfl, rfl⟩
  | stream j _ | wire j _ =>
    by_cases hij : j = i
    · simp [Patch.handler, hij]
    · simp [Patch.handler, hij]

theorem Patch.handler_registered (hp : p.memory ≠ .streams) :
    (p.handler i h).registered = h.registered := by
  cases p with
  | streams registered => exact absurd rfl hp
  | bucketRefs refs => rfl
  | stream j _ | wire j _ =>
    by_cases hij : j = i
    · simp [Patch.handler, hij]
    · simp [Patch.handler, hij]

theorem Patch.handler_ss (hp : p.memory ≠ .stream i) : (p.handler i h).ss = h.ss := by
  cases p with
  | streams registered => rfl
  | bucketRefs refs => rfl
  | stream j ss =>
    have hij : j ≠ i := fun hij => hp (congrArg Memory.stream hij)
    simp [Patch.handler, hij]
  | wire j sent =>
    by_cases hij : j = i
    · simp [Patch.handler, hij]
    · simp [Patch.handler, hij]

/-- A response sent on a stream that the patch does not name. -/
theorem Patch.handler_sent (hp : p.memory ≠ .wire i) (sent : List (ℕ × List BucketAction)) :
    p.handler i { h with sent := sent } = { p.handler i h with sent := sent } ∧
      (p.handler i h).sent = h.sent := by
  cases p with
  | streams registered => exact ⟨rfl, rfl⟩
  | bucketRefs refs => exact ⟨rfl, rfl⟩
  | stream j ss =>
    by_cases hij : j = i
    · simp [Patch.handler, hij]
    · simp [Patch.handler, hij]
  | wire j sent' =>
    have hij : j ≠ i := fun hij => hp (congrArg Memory.wire hij)
    simp [Patch.handler, hij]

theorem LockWorld.patch_getElem? (w : LockWorld σ) (p : Patch) (i : ℕ) :
    (w.patch p).handlers[i]? = w.handlers[i]?.map (p.handler i) := List.getElem?_mapIdx

/-- The goroutines are where they were. -/
theorem LockWorld.patch_thread (w : LockWorld σ) (p : Patch) (g : Goroutine) :
    (w.patch p).thread g = w.thread g := by
  cases g with
  | handler i =>
    simp only [LockWorld.thread, LockWorld.patch_getElem?, Option.map_map]
    congr 1
    funext h
    obtain ⟨hself, hpc, -⟩ := p.handler_at i h
    simp only [Function.comp, FineHandler.thread, hself, hpc]
  | push j => rfl
  | stats j => rfl

theorem LockWorld.patch_self (w : LockWorld σ) (p : Patch)
    (hself : ∀ (i : ℕ) (h : FineHandler), w.handlers[i]? = some h → h.self = i) :
    ∀ (i : ℕ) (h : FineHandler), (w.patch p).handlers[i]? = some h → h.self = i := by
  intro i h hh
  rw [LockWorld.patch_getElem?] at hh
  obtain ⟨h₀, hh₀, rfl⟩ := Option.map_eq_some_iff.mp hh
  rw [(p.handler_at i h₀).1]
  exact hself i h₀ hh₀

theorem streamsOf_patch {hs : List FineHandler} (hp : p.memory ≠ .streams) :
    streamsOf (hs.mapIdx p.handler) = streamsOf hs := by
  unfold streamsOf
  rw [List.length_mapIdx]
  congr 1
  funext i
  rw [List.getElem?_mapIdx]
  cases hs[i]? with
  | none => rfl
  | some h => simp [Patch.handler_registered hp]

/-- The contents that a patch has replaced can be put back. -/
theorem LockWorld.patch_restore (w : LockWorld σ) (p : Patch) :
    ∃ q : Patch, q.memory = p.memory ∧ (w.patch p).patch q = w := by
  -- it is enough to put every handler back
  have hback : ∀ q : Patch, q.shared (p.shared w.shared) = w.shared →
      (∀ i h, w.handlers[i]? = some h → q.handler i (p.handler i h) = h) →
      (w.patch p).patch q = w := by
    intro q hshared hhandlers
    have hlist : (w.handlers.mapIdx p.handler).mapIdx q.handler = w.handlers := by
      refine List.ext_getElem? fun i => ?_
      rw [List.getElem?_mapIdx, List.getElem?_mapIdx]
      cases hh : w.handlers[i]? with
      | none => rfl
      | some h => simp [hhandlers i h hh]
    unfold LockWorld.patch
    rw [hshared, hlist]
  cases p with
  | streams registered =>
    refine ⟨.streams fun i => (w.handlers[i]?.map FineHandler.registered).getD false, rfl,
      hback _ rfl fun i h hh => ?_⟩
    simp [Patch.handler, hh]
  | bucketRefs refs => exact ⟨.bucketRefs w.shared.bucketRefs, rfl, hback _ rfl fun _ _ _ => rfl⟩
  | stream j ss =>
    refine ⟨.stream j ((w.handlers[j]?.map FineHandler.ss).getD ss), rfl,
      hback _ rfl fun i h hh => ?_⟩
    by_cases hij : j = i
    · subst hij
      simp [Patch.handler, hh]
    · simp [Patch.handler, hij]
  | wire j sent =>
    refine ⟨.wire j ((w.handlers[j]?.map FineHandler.sent).getD sent), rfl,
      hback _ rfl fun i h hh => ?_⟩
    by_cases hij : j = i
    · subst hij
      simp [Patch.handler, hh]
    · simp [Patch.handler, hij]

end Patch

-- ---------------------------------------------------------------------------
-- Steps do not depend on memory whose lock is not held
-- ---------------------------------------------------------------------------

section Handlers

variable {sh sh' : Shared σ} {locks locks' : Lock → Bool} {h h' : FineHandler} {x : Input}

theorem fineStep_outside {pc : PC} (hpc : h.pc = .out pc) (hsec : sectionOf cfg h.self pc = none) :
    fineStep cfg sh locks h x =
      (handlerStep cfg sh (h.at pc) x).map fun c => (c.1, locks, c.2.fine h.self) := by
  simp only [fineStep, hpc, hsec]

/-- Without `s.mu` and `ss.sendMu` a handler looks neither at the references and
`s.streams` nor at the gRPC stream. -/
theorem fineStep_elsewhere (hs : fineStep cfg sh locks h x = some (sh', locks', h'))
    (hmu : .mu ∉ h.pc.holds h.self) (hsend : .send h.self ∉ h.pc.holds h.self)
    (refs : BucketRefs) (registered : Bool) (sent : List (ℕ × List BucketAction)) :
    fineStep cfg { sh with bucketRefs := refs } locks
        { h with registered := registered, sent := sent } x =
      some ({ sh' with bucketRefs := refs }, locks',
        { h' with registered := registered, sent := sent }) := by
  cases fineStep_turn hs with
  | @lock pc l first hpc hsec hfree => simp [fineStep, hpc, hsec, hfree]
  | @outside pc x sh' p' hpc hsec hstep =>
    have hstep' := outside_elsewhere hsec hstep refs registered sent
    rw [fineStep_outside (h := { h with registered := registered, sent := sent }) hpc hsec]
    exact congrArg (Option.map _) hstep'
  | unlock hpc => simp [fineStep, hpc]
  | inner hturn =>
    cases hturn with
    | register hpc | incRead hpc | incWrite hpc | decRead hpc | decWrite hpc | last hpc
    | notLast hpc | decDelete hpc | unregister hpc => simp [hpc, FinePC.holds] at hmu
    | sent hpc | sendFailed hpc => simp [hpc, FinePC.holds] at hsend
    | bindBound hpc hb => simp [fineStep, innerStep, hpc, hb]
    | bindEmpty hpc hb hd | bindFirst hpc hb hd => simp [fineStep, innerStep, hpc, hb, hd]
    | bindMismatch hpc hd => simp only [fineStep, innerStep, hpc, if_pos hd, Option.map_some]
    | bound hpc hd => simp only [fineStep, innerStep, hpc, if_neg hd, Option.map_some]
    | known hpc hkey | unknown hpc hkey | subscribed hpc hkey | notSubscribed hpc hkey =>
      simp [fineStep, innerStep, hpc, hkey]
    | full hpc hfull => simp only [fineStep, innerStep, hpc, if_pos hfull, Option.map_some]
    | room hpc hroom => simp only [fineStep, innerStep, hpc, if_neg hroom, Option.map_some]
    | _ hpc => simp [fineStep, innerStep, hpc]

/-- Without `s.mu` a handler looks neither at the references nor at `s.streams`. -/
theorem fineStep_without_mu (hs : fineStep cfg sh locks h x = some (sh', locks', h'))
    (hmu : .mu ∉ h.pc.holds h.self) (refs : BucketRefs) (registered : Bool) :
    fineStep cfg { sh with bucketRefs := refs } locks { h with registered := registered } x =
      some ({ sh' with bucketRefs := refs }, locks', { h' with registered := registered }) := by
  by_cases hsend : .send h.self ∈ h.pc.holds h.self
  · cases fineStep_turn hs with
    | lock hpc | outside hpc => simp [hpc, FinePC.holds] at hsend
    | unlock hpc => simp [fineStep, hpc]
    | inner hturn =>
      cases hturn with
      | sent hpc | sendFailed hpc => simp [fineStep, innerStep, hpc]
      | _ hpc => simp [hpc, FinePC.holds] at hsend
  · have hstep := fineStep_elsewhere hs hmu hsend refs registered h.sent
    refine hstep.trans ?_
    rw [← (fineStep_turn hs).keeps_sent hsend]

/-- Without `ss.sendMu` a handler does not look at the gRPC stream. -/
theorem fineStep_without_sendMu (hs : fineStep cfg sh locks h x = some (sh', locks', h'))
    (hsend : .send h.self ∉ h.pc.holds h.self) (sent : List (ℕ × List BucketAction)) :
    fineStep cfg sh locks { h with sent := sent } x =
      some (sh', locks', { h' with sent := sent }) := by
  by_cases hmu : .mu ∈ h.pc.holds h.self
  · cases fineStep_turn hs with
    | lock hpc | outside hpc => simp [hpc, FinePC.holds] at hmu
    | unlock hpc => simp [fineStep, hpc]
    | inner hturn =>
      cases hturn with
      | register hpc | incRead hpc | incWrite hpc | decRead hpc | decWrite hpc | decDelete hpc
      | unregister hpc => simp [fineStep, innerStep, hpc, FineHandler.scoped]
      | last hpc hlast | notLast hpc hlast =>
        unfold FineHandler.scoped at hlast
        simp [fineStep, innerStep, hpc, FineHandler.scoped, hlast]
      | _ hpc => simp [hpc, FinePC.holds] at hmu
  · have hstep := fineStep_elsewhere hs hmu hsend sh.bucketRefs h.registered sent
    obtain ⟨hrefs, hreg⟩ := (fineStep_turn hs).keeps_mu hmu
    refine hstep.trans ?_
    rw [← hrefs, ← hreg]

/-- A step of a handler does not depend on memory whose lock it does not hold, but for
its own stream. -/
theorem fineStep_patch (hs : fineStep cfg sh locks h x = some (sh', locks', h')) {p : Patch}
    (hguard : p.memory.guard ∉ h.pc.holds h.self) (hown : p.memory ≠ .stream h.self) :
    fineStep cfg (p.shared sh) locks (p.handler h.self h) x =
      some (p.shared sh', locks', p.handler h.self h') := by
  cases p with
  | streams registered =>
    have hstep := fineStep_without_mu hs hguard sh.bucketRefs (registered h.self)
    have hsame : { sh' with bucketRefs := sh.bucketRefs } = sh' := by
      rw [← ((fineStep_turn hs).keeps_mu hguard).1]
    rw [hsame] at hstep
    exact hstep
  | bucketRefs refs =>
    have hstep := fineStep_without_mu hs hguard refs h.registered
    have hsame : { h' with registered := h.registered } = h' := by
      rw [← ((fineStep_turn hs).keeps_mu hguard).2]
    rw [hsame] at hstep
    exact hstep
  | stream j ss =>
    have hij : j ≠ h.self := fun hij => hown (congrArg Memory.stream hij)
    simpa [Patch.shared, Patch.handler, hij] using hs
  | wire j sent =>
    by_cases hij : j = h.self
    · subst hij
      simpa [Patch.shared, Patch.handler] using fineStep_without_sendMu hs hguard sent
    · simpa [Patch.shared, Patch.handler, hij] using hs

end Handlers

section Others

variable {hs hs' : List FineHandler} {locks locks' : Lock → Bool} {p : Patch}

theorem mapIdx_set (f : ℕ → FineHandler → FineHandler) (hs : List FineHandler) (i : ℕ)
    (h : FineHandler) : (hs.set i h).mapIdx f = (hs.mapIdx f).set i (f i h) := by
  refine List.ext_getElem? fun j => ?_
  rw [List.getElem?_mapIdx, List.getElem?_set, List.getElem?_set, List.getElem?_mapIdx,
    List.length_mapIdx]
  by_cases hij : i = j
  · subst hij
    by_cases hi : i < hs.length
    · simp [hi]
    · simp [hi]
  · simp [hij]

/-- A step of a push does not depend on memory whose lock it does not hold. -/
theorem finePushStep_patch (v : ℕ) {pc : FinePushPC} (x : FinePushInput)
    (hguard : p.memory.guard ∉ pc.holds) :
    finePushStep v (hs.mapIdx p.handler) locks pc x =
      (finePushStep v hs locks pc x).map fun c => (c.1.mapIdx p.handler, c.2) := by
  have hget : ∀ i, (hs.mapIdx p.handler)[i]? = hs[i]?.map (p.handler i) :=
    fun i => List.getElem?_mapIdx
  cases pc with
  | out pc =>
    simp only [finePushStep]
    split
    · split
      · split <;> rfl
      · rfl
    · split <;> rfl
  | leave l pc => cases x <;> rfl
  | listing got =>
    have hstreams : streamsOf (hs.mapIdx p.handler) = streamsOf hs :=
      streamsOf_patch fun heq => hguard (by rw [heq]; exact List.mem_singleton_self _)
    cases x with
    | tick | stream i =>
      simp only [finePushStep, innerPushStep, hstreams]
      split <;> rfl
    | _ => rfl
  | collectTest i todo =>
    have hss : ∀ h, (p.handler i h).ss = h.ss := fun h => Patch.handler_ss fun heq =>
      hguard (by rw [heq]; exact List.mem_singleton_self _)
    cases x with
    | tick =>
      simp only [finePushStep, innerPushStep, hget]
      cases hs[i]? with
      | none => rfl
      | some h =>
        simp only [Option.map_some, hss]
        split <;> rfl
    | _ => rfl
  | collecting i domain got reports todo =>
    have hss : ∀ h, (p.handler i h).ss = h.ss := fun h => Patch.handler_ss fun heq =>
      hguard (by rw [heq]; exact List.mem_singleton_self _)
    cases x with
    | tick =>
      simp only [finePushStep, innerPushStep, hget]
      cases hs[i]? with
      | none => rfl
      | some h =>
        simp only [Option.map_some, hss]
        split <;> rfl
    | bucket key =>
      simp only [finePushStep, innerPushStep, hget]
      cases hs[i]? with
      | none => rfl
      | some h =>
        simp only [Option.map_some, Option.bind_some, hss]
        split
        · rfl
        · split <;> rfl
    | _ => rfl
  | sending i actions todo =>
    have hsent : ∀ h s, p.handler i { h with sent := s } = { p.handler i h with sent := s } ∧
        (p.handler i h).sent = h.sent := fun h s => Patch.handler_sent (fun heq =>
      hguard (by rw [heq]; exact List.mem_singleton_self _)) s
    cases x with
    | sent e =>
      simp only [finePushStep, innerPushStep, hget]
      cases hs[i]? with
      | none => cases e <;> rfl
      | some h =>
        cases e with
        | none =>
          simp only [Option.map_some, mapIdx_set, (hsent h []).2]
          rw [(hsent h (h.sent ++ [(v, actions)])).1]
        | some e => rfl
    | _ => rfl

/-- Nor does a step of `StreamStats`. -/
theorem statsStep_patch {pc : StatsPC} (x : StatsInput) (hguard : p.memory.guard ∉ pc.holds) :
    statsStep (hs.mapIdx p.handler) locks pc x = statsStep hs locks pc x := by
  cases pc with
  | listing stats =>
    have hstreams : streamsOf (hs.mapIdx p.handler) = streamsOf hs :=
      streamsOf_patch fun heq => hguard (by rw [heq]; exact List.mem_singleton_self _)
    cases x <;> simp only [statsStep, hstreams]
  | reading i stats =>
    have hss : ∀ h, (p.handler i h).ss = h.ss := fun h => Patch.handler_ss fun heq =>
      hguard (by rw [heq]; exact List.mem_cons_self)
    cases x with
    | tick =>
      have hget : (hs.mapIdx p.handler)[i]? = hs[i]?.map (p.handler i) := List.getElem?_mapIdx
      simp only [statsStep, hget]
      cases hs[i]? with
      | none => rfl
      | some h => simp only [Option.map_some, hss]
    | stream j => rfl
  | _ => cases x <;> rfl

end Others

-- ---------------------------------------------------------------------------
-- Accesses are guarded
-- ---------------------------------------------------------------------------

section Accesses

variable {g : Goroutine} {t : Thread} {m : LockMove} {p : Patch}

/-- The step of a goroutine with other contents in memory whose lock it does not hold. -/
theorem LockWorld.next_patch (hself : ∀ (i : ℕ) (h : FineHandler), w.handlers[i]? = some h →
      h.self = i) (hm : m.goroutine = some g) (ht : w.thread g = some t)
    (hguard : p.memory.guard ∉ t.holds) (hown : ∀ i, g = .handler i → p.memory ≠ .stream i)
    (hn : w.next cfg m = some w') : (w.patch p).next cfg m = some (w'.patch p) := by
  cases m with
  | connect | swap | call => cases hm
  | handler i x =>
    cases hm
    simp only [LockWorld.next] at hn ⊢
    cases hh : w.handlers[i]? with
    | none =>
      rw [hh] at hn
      cases hn
    | some h =>
      rw [hh] at hn
      obtain ⟨⟨sh', locks', h'⟩, hstep, rfl⟩ := Option.map_eq_some_iff.mp hn
      have hi := hself i h hh
      obtain rfl : h.thread = t := Option.some.inj ((LockWorld.thread_handler hh).symm.trans ht)
      have hpatched := fineStep_patch hstep (p := p) hguard (hi ▸ hown i rfl)
      rw [hi] at hpatched
      rw [LockWorld.patch_getElem?, hh]
      simp only [Option.map_some]
      rw [show (w.patch p).shared = p.shared w.shared from rfl,
        show (w.patch p).locks = w.locks from rfl, hpatched, Option.map_some]
      simp only [LockWorld.patch, mapIdx_set]
  | push j x =>
    cases hm
    simp only [LockWorld.next] at hn ⊢
    cases hq : w.pushes[j]? with
    | none =>
      rw [hq] at hn
      cases hn
    | some q =>
      rw [hq] at hn
      obtain ⟨⟨hs', locks', pc'⟩, hstep, rfl⟩ := Option.map_eq_some_iff.mp hn
      obtain rfl : q.thread = t := Option.some.inj ((LockWorld.thread_push hq).symm.trans ht)
      rw [show (w.patch p).pushes = w.pushes from rfl, hq]
      simp only [LockWorld.patch]
      rw [finePushStep_patch q.version x hguard, hstep]
      rfl
  | stats j x =>
    cases hm
    simp only [LockWorld.next] at hn ⊢
    cases hpc : w.stats[j]? with
    | none =>
      rw [hpc] at hn
      cases hn
    | some pc =>
      rw [hpc] at hn
      obtain ⟨⟨locks', pc'⟩, hstep, rfl⟩ := Option.map_eq_some_iff.mp hn
      obtain rfl : Thread.stats pc = t :=
        Option.some.inj ((LockWorld.thread_stats hpc).symm.trans ht)
      rw [show (w.patch p).stats = w.stats from rfl, hpc]
      simp only [LockWorld.patch]
      rw [statsStep_patch x hguard, hstep]
      rfl

/-- A goroutine reads memory under its lock, but for a handler in its own stream. -/
theorem LockWorld.Reads.guarded {mem : Memory} (hw : w.Locked) (ht : w.thread g = some t)
    (h : w.Reads cfg g mem) : mem.guard ∈ t.holds ∨ ∃ i, g = .handler i ∧ mem = .stream i := by
  obtain ⟨p, m, rfl, hm, hdiffers⟩ := h
  by_contra hno
  push Not at hno
  obtain ⟨hguard, hown⟩ := hno
  refine hdiffers ?_
  cases hn : w.next cfg m with
  | some w' =>
    rw [LockWorld.next_patch hw.self hm ht hguard hown hn]
    exact .some ⟨p, rfl, rfl⟩
  | none =>
    cases hn' : (w.patch p).next cfg m with
    | none => exact .none
    | some v' =>
      -- with the contents put back the step would be possible before
      exfalso
      obtain ⟨q, hq, hback⟩ := w.patch_restore p
      have hstep := LockWorld.next_patch (p := q) (w.patch_self p hw.self) hm
        ((w.patch_thread p g).trans ht) (hq ▸ hguard) (hq ▸ hown) hn'
      rw [hback, hn] at hstep
      cases hstep

theorem getElem?_set_map {α : Type} {hs : List FineHandler} {i j : ℕ} {h h' : FineHandler}
    {f : FineHandler → α} (hh : hs[i]? = some h) (hf : i = j → f h' = f h) :
    (hs.set i h')[j]?.map f = hs[j]?.map f := by
  rw [List.getElem?_set]
  split
  · rename_i hij
    rw [if_pos (List.getElem?_eq_some_iff.mp hh).1, ← hij, hh]
    exact congrArg some (hf hij)
  · rfl

/-- What a step of a goroutine changes, it changes under the lock; and a handler changes
no other stream. -/
theorem LockWorld.next_sameAt (hself : ∀ (i : ℕ) (h : FineHandler), w.handlers[i]? = some h →
      h.self = i) (hm : m.goroutine = some g) (ht : w.thread g = some t)
    (hn : w.next cfg m = some w') (mem : Memory) :
    w.SameAt w' mem ∨ mem.guard ∈ t.holds ∧ ∀ i, mem = .stream i → g = .handler i := by
  cases LockWorld.next_turn hn with
  | connect | swap | call => cases hm
  | @handler i x h h' sh' locks' hh hturn =>
    cases hm
    obtain rfl : h.thread = t := Option.some.inj ((LockWorld.thread_handler hh).symm.trans ht)
    have hi := hself i h hh
    by_cases hguard : mem.guard ∈ h.thread.holds
    · cases mem with
      | stream j =>
        by_cases hij : i = j
        · exact Or.inr ⟨hguard, fun k hk => by rw [hij, Memory.stream.inj hk]⟩
        · exact Or.inl (getElem?_set_map hh fun heq => absurd heq hij)
      | _ => exact Or.inr ⟨hguard, fun k hk => nomatch hk⟩
    · left
      cases mem with
      | streams => exact streamsOf_set hh (hturn.keeps_mu hguard).2
      | bucketRefs => exact (hturn.keeps_mu hguard).1
      | stream j =>
        refine getElem?_set_map hh fun hij => hturn.keeps_ss ?_
        rw [← hij, ← hi] at hguard
        exact hguard
      | wire j =>
        refine getElem?_set_map hh fun hij => hturn.keeps_sent ?_
        rw [← hij, ← hi] at hguard
        exact hguard
  | @push j x q hs' locks' pc' hq hturn =>
    cases hm
    obtain rfl : q.thread = t := Option.some.inj ((LockWorld.thread_push hq).symm.trans ht)
    rcases hturn.handlers with rfl | ⟨i, actions, todo, h, hpc, hh, -, rfl⟩
    · left
      cases mem <;> rfl
    · -- a response sent
      cases mem with
      | streams => exact Or.inl (streamsOf_set hh rfl)
      | bucketRefs => exact Or.inl rfl
      | stream k => exact Or.inl (getElem?_set_map hh fun _ => rfl)
      | wire k =>
        by_cases hik : i = k
        · refine Or.inr ⟨?_, fun _ hk => nomatch hk⟩
          show .send k ∈ q.pc.holds
          rw [hpc, hik]
          exact List.mem_singleton_self _
        · exact Or.inl (getElem?_set_map hh fun heq => absurd heq hik)
  | stats hpc hturn =>
    left
    cases mem <;> rfl

/-- A goroutine writes memory under its lock, and only its own handler writes a stream. -/
theorem LockWorld.Writes.guarded {mem : Memory} (hw : w.Locked) (ht : w.thread g = some t)
    (h : w.Writes cfg g mem) :
    mem.guard ∈ t.holds ∧ ∀ i, mem = .stream i → g = .handler i := by
  obtain ⟨p, m, v', -, hm, hn, hchanged⟩ := h
  exact (LockWorld.next_sameAt (w.patch_self p hw.self) hm ((w.patch_thread p g).trans ht) hn
    mem).resolve_left hchanged

/-- A goroutine that takes a step is there. -/
theorem LockWorld.exists_thread (hm : m.goroutine = some g) (hn : w.next cfg m = some w') :
    ∃ t, w.thread g = some t := by
  cases LockWorld.next_turn hn with
  | connect | swap | call => cases hm
  | handler hh hturn =>
    cases hm
    exact ⟨_, LockWorld.thread_handler hh⟩
  | push hq hturn =>
    cases hm
    exact ⟨_, LockWorld.thread_push hq⟩
  | stats hpc hturn =>
    cases hm
    exact ⟨_, LockWorld.thread_stats hpc⟩

theorem LockWorld.Writes.exists_thread {mem : Memory} (h : w.Writes cfg g mem) :
    ∃ t, w.thread g = some t := by
  obtain ⟨p, m, v', -, hm, hn, -⟩ := h
  obtain ⟨t, ht⟩ := LockWorld.exists_thread hm hn
  exact ⟨t, (w.patch_thread p g).symm.trans ht⟩

theorem LockWorld.Reads.exists_thread {mem : Memory} (h : w.Reads cfg g mem) :
    ∃ t, w.thread g = some t := by
  obtain ⟨p, m, -, hm, hdiffers⟩ := h
  cases hn : w.next cfg m with
  | some w' => exact LockWorld.exists_thread hm hn
  | none =>
    cases hn' : (w.patch p).next cfg m with
    | none =>
      rw [hn, hn'] at hdiffers
      exact absurd .none hdiffers
    | some v' =>
      obtain ⟨t, ht⟩ := LockWorld.exists_thread hm hn'
      exact ⟨t, (w.patch_thread p g).symm.trans ht⟩

end Accesses

-- ---------------------------------------------------------------------------
-- No data race
-- ---------------------------------------------------------------------------

/-- **No data race.** In every run, whatever the scheduler does, there are no two
goroutines and no memory such that a next step of one of them writes the memory and a
next step of the other writes or reads it, although a handler reads its own
`streamState` without `ss.mu`; and no two are inside `Send` on the same gRPC stream. -/
theorem no_data_race (cfg : Limits) (store : σ)
    (h : Run (LockWorld.next cfg) free (newLockWorld store) w) {g g' : Goroutine} (hne : g ≠ g') :
    (∀ mem, w.Writes cfg g mem → ¬ w.Writes cfg g' mem ∧ ¬ w.Reads cfg g' mem) ∧
    ∀ t t' i, w.thread g = some t → w.thread g' = some t' → t.sending = some i →
      t'.sending ≠ some i := by
  have hw := run_locked h
  refine ⟨fun mem hwrites => ?_, fun t t' i ht ht' hs hs' => ?_⟩
  · obtain ⟨t, ht⟩ := hwrites.exists_thread
    obtain ⟨hheld, hown⟩ := hwrites.guarded hw ht
    refine ⟨fun hwrites' => ?_, fun hreads => ?_⟩
    · obtain ⟨t', ht'⟩ := hwrites'.exists_thread
      exact hw.exclusive hne ht ht' hheld (hwrites'.guarded hw ht').1
    · obtain ⟨t', ht'⟩ := hreads.exists_thread
      rcases hreads.guarded hw ht' with hheld' | ⟨i, rfl, rfl⟩
      · exact hw.exclusive hne ht ht' hheld hheld'
      · -- the unlocked read of a handler: the writer is the same handler
        exact hne (hown i rfl)
  · have hheld : .send i ∈ t.holds := by simp [Thread.holds_of_sending hs]
    have hheld' : .send i ∈ t'.holds := by simp [Thread.holds_of_sending hs']
    exact hw.exclusive hne ht ht' hheld hheld'

/-- Other contents of a stream that show elsewhere are read. -/
theorem LockWorld.reads_of_shared {g : Goroutine} {m : LockMove} (hm : m.goroutine = some g)
    (i : ℕ) (ss : StreamState) (hdiffers : (w.next cfg m).map LockWorld.shared ≠
      ((w.patch (.stream i ss)).next cfg m).map LockWorld.shared) :
    w.Reads cfg g (.stream i) := by
  refine ⟨.stream i ss, m, rfl, hm, fun hrel => hdiffers ?_⟩
  generalize w.next cfg m = o, (w.patch (.stream i ss)).next cfg m = o' at hrel
  cases hrel with
  | none => rfl
  | some hpatch =>
    obtain ⟨q, hq, rfl⟩ := hpatch
    cases q with
    | stream j ss' => rfl
    | _ => cases hq

/-- Stream 0 is about to raise the gauge for its first bucket, outside any section. -/
def gauging : List LockMove :=
  List.flatten [[.connect], ticks 0 4, [.handler 0 (.recv sampleReq)], ticks 0 3,
    [.handler 0 (.label [])], ticks 0 13]

/-- A handler writes its stream while a call of `StreamStats` waits for it, and later
reads it with `ss.mu` free. -/
theorem no_data_race_contended :
    (∃ w, Run (LockWorld.next noLimits) free (newLockWorld MemoryStorage.newMemoryStorage) w ∧
      w.threads = [.handler 0 (.bindDomain sampleReq), .stats (.visiting 0 [])] ∧
      w.Writes noLimits (.handler 0) (.stream 0) ∧
      ¬ w.Writes noLimits (.stats 0) (.stream 0) ∧ ¬ w.Reads noLimits (.stats 0) (.stream 0)) ∧
    ∃ u, Run (LockWorld.next noLimits) free (newLockWorld MemoryStorage.newMemoryStorage) u ∧
      u.locks (.ss 0) = false ∧ u.Reads noLimits (.handler 0) (.stream 0) := by
  have hrun := run_exec_free (LockWorld.next noLimits)
    (newLockWorld MemoryStorage.newMemoryStorage) contended (by decide)
  have hrun' := run_exec_free (LockWorld.next noLimits)
    (newLockWorld MemoryStorage.newMemoryStorage) gauging (by decide)
  have hwrites : LockWorld.Writes noLimits ((exec (LockWorld.next noLimits) (fun _ _ => true)
      (newLockWorld MemoryStorage.newMemoryStorage) contended).get (by decide))
      (.handler 0) (.stream 0) :=
    ⟨.stream 0 newStream, .handler 0 .tick, _, rfl, rfl, rfl, fun hsame =>
      absurd (congrArg (Option.map StreamState.domain) hsame) (by decide)⟩
  have hne : Goroutine.handler 0 ≠ .stats 0 := by decide
  obtain ⟨hnone, -⟩ := no_data_race noLimits _ hrun hne
  refine ⟨⟨_, hrun, rfl, hwrites, hnone _ hwrites⟩, _, hrun', rfl, ?_⟩
  refine LockWorld.reads_of_shared (m := .handler 0 .tick) rfl 0
    { newStream with metricDomain := [0] } fun heq => ?_
  have hgauge := congrArg (Option.map fun sh => sh.activeBuckets []) heq
  revert hgauge
  decide

end Rlqs
