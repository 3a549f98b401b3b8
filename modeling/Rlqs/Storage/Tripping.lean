import Rlqs.Storage.Partial
import Rlqs.Storage.Recorders

/-!
# RLQS storage — what trips the circuit breaker

All streams share one `RedisStorage`, and each calls it with its own context. An
error of a Redis call can mean that the server is unreachable, that the caller's
context is done, or that the server refused a command; the calls do not tell them
apart, and the first error of any kind switches every stream to the fallback.

`RecordUsage` calls are the processes of `recordStep`; `RemoveBucket` calls are
modelled here in the same way (`removeStep`). A `Caller` is a call of either kind
with the error its own Redis call returned, as a ghost.

* `removeBucket_alone` — a `RemoveBucket` call that nobody interrupts does what
  `removeBucket` says;
* `callerStep_trips` — the breaker is only tripped by a call whose own Redis call
  failed;
* `trips_only_unreachable` — the condition under which only an unreachable server
  trips it, and that it is needed;
* `cancelled_call_trips` — one client hangs up.
-/

namespace Rlqs

open Interleave Steps

-- ---------------------------------------------------------------------------
-- RemoveBucket, one operation at a time
-- ---------------------------------------------------------------------------

/-- The control points of a `RemoveBucket` call. -/
inductive RemovePC where
  | start
  | check
  | retry
  | snapshot
  | flush (entries : GoMap BucketKey UsageState)
  | clear (entries : GoMap BucketKey UsageState)
  | reset
  | direct
  | trip
  | update
  | returned

/-- A `RemoveBucket` call in progress. -/
structure Remover where
  pc : RemovePC
  domain : Str
  key : BucketKey

def Remover.scopedKey (p : Remover) : BucketKey := domainScopedKey p.domain p.key

/-- One operation of a call. -/
def removeStep (s : RedisStorage) (p : Remover) (x : RecordInput) :
    Option (RedisStorage × Remover) :=
  match p.pc, x with
  | .start, .tick => some (s, { p with pc := if s.tripped then .check else .direct })
  | .check, .clock now => some (s, { p with pc := if s.shouldRetry now then .retry else .update })
  | .retry, .redis o =>
    let (s, err) := s.pipeline [.del p.scopedKey] o
    some (s, { p with pc := if err.isNone then .snapshot else .update })
  | .snapshot, .tick =>
    let entries := s.fallback.all
    some (s, { p with pc := if GoMap.len entries = 0 then .reset else .flush entries })
  | .flush entries, .redis o =>
    let (s, err) := s.pipeline (flushCommands s.keyTTL entries) o
    let line : LogLine := match err with
      | some e => .flushFailed entries e
      | none => .flushed (GoMap.len entries)
    some ({ s with log := s.log ++ [line] }, { p with pc := .clear entries })
  | .clear _, .tick => some ({ s with fallback := s.fallback.clear }, { p with pc := .reset })
  | .reset, .tick => some ({ s with tripped := false }, { p with pc := .returned })
  | .direct, .redis o =>
    let (s, err) := s.pipeline [.del p.scopedKey] o
    some (s, { p with pc := if err.isNone then .returned else .trip })
  | .trip, .clock now => some (s.trip now, { p with pc := .update })
  | .update, .tick => some ((s.fallbackRemove p.domain p.key).1, { p with pc := .returned })
  | _, _ => none

-- ---------------------------------------------------------------------------
-- Calls of both kinds
-- ---------------------------------------------------------------------------

inductive StoreProc where
  | record (p : Recorder)
  | remove (p : Remover)

namespace StoreProc

/-- The call found the breaker closed and is about to call Redis. -/
def atDirect : StoreProc → Bool
  | .record p => match p.pc with
    | .direct => true
    | _ => false
  | .remove p => match p.pc with
    | .direct => true
    | _ => false

/-- The call is about to retry Redis. -/
def atRetry : StoreProc → Bool
  | .record p => match p.pc with
    | .retry => true
    | _ => false
  | .remove p => match p.pc with
    | .retry => true
    | _ => false

/-- The call is about to trip the breaker. -/
def atTrip : StoreProc → Bool
  | .record p => match p.pc with
    | .trip => true
    | _ => false
  | .remove p => match p.pc with
    | .trip => true
    | _ => false

/-- The call's own pipeline. -/
def commands (s : RedisStorage) : StoreProc → List Command
  | .record p => recordCommands p.key s.keyTTL p.report
  | .remove p => [.del p.scopedKey]

def step (s : RedisStorage) (p : StoreProc) (x : RecordInput) : Option (RedisStorage × StoreProc) :=
  match p with
  | .record p => (recordStep s p x).map fun c => (c.1, .record c.2)
  | .remove p => (removeStep s p x).map fun c => (c.1, .remove c.2)

/-- An operation of a call is one of its kind. -/
theorem step_cases {s s' : RedisStorage} {c c' : StoreProc} {x : RecordInput}
    (h : c.step s x = some (s', c')) :
    (∃ p p', c = .record p ∧ c' = .record p' ∧ recordStep s p x = some (s', p')) ∨
    (∃ p p', c = .remove p ∧ c' = .remove p' ∧ removeStep s p x = some (s', p')) := by
  cases c with
  | record p =>
    obtain ⟨⟨s₁, p'⟩, hstep, heq⟩ := Option.map_eq_some_iff.mp h
    cases heq
    exact Or.inl ⟨p, p', rfl, rfl, hstep⟩
  | remove p =>
    obtain ⟨⟨s₁, p'⟩, hstep, heq⟩ := Option.map_eq_some_iff.mp h
    cases heq
    exact Or.inr ⟨p, p', rfl, rfl, hstep⟩

end StoreProc

/-- A call of either kind. `outcome` is a ghost: the error that its own Redis call
returned, if it has made one that failed. -/
structure Caller where
  proc : StoreProc
  outcome : Option RedisError

/-- What a stream asks for. -/
inductive StoreRequest where
  | record (domain : Str) (report : UsageReport)
  | remove (domain : Str) (key : BucketKey)

/-- The ghost after an operation. -/
def Caller.outcomeAfter (c : Caller) (s : RedisStorage) : RecordInput → Option RedisError
  | .redis o =>
    if c.proc.atDirect || c.proc.atRetry then (s.redis.runPipeline (c.proc.commands s) o).2
    else c.outcome
  | _ => c.outcome

theorem Caller.outcomeAfter_direct {c : Caller} {s : RedisStorage} {o : Outcome}
    (h : c.proc.atDirect = true) :
    c.outcomeAfter s (.redis o) = (s.redis.runPipeline (c.proc.commands s) o).2 :=
  if_pos (by simp [h])

def callerStep (s : RedisStorage) (c : Caller) (x : RecordInput) : Option (RedisStorage × Caller) :=
  (c.proc.step s x).map fun r => (r.1, ⟨r.2, c.outcomeAfter s x⟩)

/-- Any number of calls of both kinds on one store. -/
def callerMachine : Machine RedisStorage Caller StoreRequest RecordInput where
  init
    | .record domain report => ⟨.record ⟨.start, domain, report⟩, none⟩
    | .remove domain key => ⟨.remove ⟨.start, domain, key⟩, none⟩
  step := callerStep

-- ---------------------------------------------------------------------------
-- What an operation does to the breaker
-- ---------------------------------------------------------------------------

/-- The flag is set by the operation `trip`, and a call gets there from a failed
Redis call on a closed breaker. -/
def Trips (s : RedisStorage) (p : StoreProc) (x : RecordInput) (s' : RedisStorage)
    (p' : StoreProc) : Prop :=
  (s'.tripped = true → s.tripped = true ∨ p.atTrip = true) ∧
  (p'.atTrip = true → p.atDirect = true ∧ ∃ o, x = .redis o ∧
    ((s.redis.runPipeline (p.commands s) o).2).isSome = true)

/-- An operation that neither sets the flag nor leads to `trip`. -/
theorem Trips.of_quiet {s s' : RedisStorage} {p p' : StoreProc} {x : RecordInput}
    (hflag : s'.tripped = true → s.tripped = true) (hpc : p'.atTrip = false) :
    Trips s p x s' p' := by
  refine ⟨fun h => Or.inl (hflag h), fun h => ?_⟩
  simp [hpc] at h

/-- A call on a closed breaker goes on to `trip` if its Redis call failed. -/
theorem recorder_atTrip (err : Option RedisError) (domain : Str) (report : UsageReport) :
    (StoreProc.record ⟨if err.isNone then .returned else .trip, domain, report⟩).atTrip =
      err.isSome := by
  cases err <;> rfl

theorem remover_atTrip (err : Option RedisError) (domain : Str) (key : BucketKey) :
    (StoreProc.remove ⟨if err.isNone then .returned else .trip, domain, key⟩).atTrip =
      err.isSome := by
  cases err <;> rfl

theorem recordStep_trips {s s' : RedisStorage} {p p' : Recorder} {x : RecordInput}
    (h : recordStep s p x = some (s', p')) : Trips s (.record p) x s' (.record p') := by
  cases recordStep_turn h with
  | reset hpc => exact Trips.of_quiet (fun h => nomatch h) rfl
  | retried hpc hatt | retryFailed hpc hatt | direct hpc hatt =>
    obtain rfl := congrArg Prod.fst hatt
    exact Trips.of_quiet id rfl
  | @directFailed o s₁ e hpc hatt =>
    obtain rfl := congrArg Prod.fst hatt
    refine ⟨fun h => Or.inl h, fun _ => ⟨by simp [StoreProc.atDirect, hpc], o, rfl, ?_⟩⟩
    have herr : (s.redis.runPipeline (recordCommands p.key s.keyTTL p.report) o).2 = some e :=
      congrArg Prod.snd hatt
    rw [StoreProc.commands, herr]
    rfl
  | trip hpc => exact ⟨fun _ => Or.inr (by simp [StoreProc.atTrip, hpc]), fun h => nomatch h⟩
  | _ => exact Trips.of_quiet id rfl

theorem removeStep_trips {s s' : RedisStorage} {p p' : Remover} {x : RecordInput}
    (h : removeStep s p x = some (s', p')) : Trips s (.remove p) x s' (.remove p') := by
  unfold removeStep at h
  split at h
  case h_1 hpc =>
    cases h
    refine Trips.of_quiet id ?_
    cases s.tripped <;> rfl
  case h_2 now hpc =>
    cases h
    refine Trips.of_quiet id ?_
    cases s.shouldRetry now <;> rfl
  case h_3 o hpc =>
    cases h
    refine Trips.of_quiet id ?_
    show (StoreProc.remove ⟨if (s.redis.runPipeline _ o).2.isNone then _ else _, _, _⟩).atTrip = _
    cases (s.redis.runPipeline [.del p.scopedKey] o).2 <;> rfl
  case h_4 hpc =>
    cases h
    refine Trips.of_quiet id ?_
    by_cases hlen : GoMap.len s.fallback.all = 0
    · simp [StoreProc.atTrip, hlen]
    · simp [StoreProc.atTrip, hlen]
  case h_5 entries o hpc =>
    cases h
    exact Trips.of_quiet id rfl
  case h_6 entries hpc =>
    cases h
    exact Trips.of_quiet id rfl
  case h_7 hpc =>
    cases h
    exact Trips.of_quiet (fun h => nomatch h) rfl
  case h_8 o hpc =>
    cases h
    refine ⟨fun h => Or.inl h, fun h => ⟨by simp [StoreProc.atDirect, hpc], o, rfl, ?_⟩⟩
    exact (remover_atTrip _ p.domain p.key).symm.trans h
  case h_9 now hpc =>
    cases h
    refine ⟨fun _ => Or.inr (by simp [StoreProc.atTrip, hpc]), fun h => nomatch h⟩
  case h_10 hpc =>
    cases h
    exact Trips.of_quiet id rfl
  case h_11 => cases h

theorem callerStep_trips {s s' : RedisStorage} {c c' : Caller} {x : RecordInput}
    (h : callerStep s c x = some (s', c')) :
    Trips s c.proc x s' c'.proc ∧ c'.outcome = c.outcomeAfter s x := by
  obtain ⟨⟨s₁, p₁⟩, hstep, heq⟩ := Option.map_eq_some_iff.mp h
  cases heq
  refine ⟨?_, rfl⟩
  rcases StoreProc.step_cases hstep with ⟨p, p', hp, rfl, hrecord⟩ | ⟨p, p', hp, rfl, hremove⟩
  · rw [hp]
    exact recordStep_trips hrecord
  · rw [hp]
    exact removeStep_trips hremove

-- ---------------------------------------------------------------------------
-- Errors of a Redis call
-- ---------------------------------------------------------------------------

/-- What a call on a closed breaker must meet: its pipeline is executed without an
overflow, or the server is unreachable. -/
def CleanOutcome (s : RedisStorage) (p : StoreProc) : Outcome → Prop
  | .failed _ e => e = .unreachable
  | .reached => match p with
    | .record p => ∀ f, FitsInt64 (s.redis.count p.key f + int64 (p.report.amount f))
    | .remove _ => True

/-- A server that answers does not say that it is unreachable. -/
theorem Redis.execAll_error {cmds : List Command} {e : RedisError} :
    ∀ {r : Redis}, (r.execAll cmds).2 = some e → e ≠ .unreachable := by
  induction cmds with
  | nil => exact fun h => nomatch h
  | cons c cs ih =>
    intro r h
    rw [Redis.execAll_cons, Option.or_eq_some_iff] at h
    rcases h with hc | ⟨-, hcs⟩
    · cases c with
      | hIncrBy k f n =>
        by_cases hfits : FitsInt64 (r.count k f + n)
        · simp [Redis.exec_hIncrBy_fits hfits] at hc
        · rw [Redis.exec_hIncrBy_overflow hfits] at hc
          cases hc
          simp
      | expire k ttl => simp [Redis.exec] at hc
      | del k => simp [Redis.exec] at hc
    · exact ih hcs

/-- The error of a call is none or `unreachable` if and only if it is clean. -/
theorem cleanOutcome_iff (s : RedisStorage) (p : StoreProc) (o : Outcome) :
    CleanOutcome s p o ↔
      ∀ e, (s.redis.runPipeline (p.commands s) o).2 = some e → e = .unreachable := by
  cases o with
  | failed ran e =>
    show e = .unreachable ↔ ∀ e', some e = some e' → e' = .unreachable
    simp
  | reached =>
    -- an answer of the server is never `unreachable`, so there must be no error
    have hnone : (∀ e, (s.redis.runPipeline (p.commands s) .reached).2 = some e →
        e = .unreachable) ↔ (s.redis.execAll (p.commands s)).2 = none := by
      constructor
      · intro h
        cases herr : (s.redis.execAll (p.commands s)).2 with
        | none => rfl
        | some e => exact absurd (h e herr) (Redis.execAll_error herr)
      · intro h e he
        have he' : (s.redis.execAll (p.commands s)).2 = some e := he
        simp [h] at he'
    rw [hnone]
    cases p with
    | record p => exact (recordCommands_reached s.redis p.key s.keyTTL p.report).symm
    | remove p => simp [CleanOutcome, StoreProc.commands, Redis.execAll, Redis.exec]

-- ---------------------------------------------------------------------------
-- Runs
-- ---------------------------------------------------------------------------

/-- The guard: a call that found the breaker closed gets a clean outcome. -/
def OnlyUnreachable (w : Pool RedisStorage Caller) : Move StoreRequest RecordInput → Prop
  | .spawn _ => True
  | .act i x => ∀ c o, w.procs[i]? = some c → c.proc.atDirect = true → x = .redis o →
    CleanOutcome w.shared c.proc o

/-- A call that is about to trip the breaker has found the server unreachable. -/
theorem about_to_trip {s₀ : RedisStorage} {w : Pool RedisStorage Caller}
    (hrun : callerMachine.Run OnlyUnreachable ⟨s₀, []⟩ w) :
    ∀ c ∈ w.procs, c.proc.atTrip = true → c.outcome = some .unreachable := by
  refine Run.invariant (I := fun w => ∀ c ∈ w.procs, c.proc.atTrip = true →
    c.outcome = some .unreachable) hrun (fun c hc => nomatch hc) ?_
  intro w m w' _ hI hok hn
  rcases next_cases hn with ⟨a, -, rfl⟩ | ⟨i, x, c, s', c', rfl, hc, hs, rfl⟩
  · intro q hq htrip
    rcases List.mem_append.mp hq with hq | hq
    · exact hI q hq htrip
    · rw [List.mem_singleton.mp hq] at htrip
      cases a <;> simp [callerMachine, StoreProc.atTrip] at htrip
  · intro q hq htrip
    rcases mem_set_cases hq with rfl | hq
    · obtain ⟨⟨-, htrips⟩, houtcome⟩ := callerStep_trips hs
      obtain ⟨hdirect, o, rfl, hsome⟩ := htrips htrip
      obtain ⟨e, he⟩ := Option.isSome_iff_exists.mp hsome
      have hclean := (cleanOutcome_iff _ _ _).mp (hok c o hc hdirect rfl)
      rw [houtcome, Caller.outcomeAfter_direct hdirect, he, hclean e he]
    · exact hI q hq htrip

-- ---------------------------------------------------------------------------
-- RemoveBucket alone
-- ---------------------------------------------------------------------------

/-- `RemoveBucket` calls only. -/
def removeMachine : Machine RedisStorage Remover (Str × BucketKey) RecordInput where
  init a := ⟨.start, a.1, a.2⟩
  step := removeStep

section Alone

variable (domain : Str) (key : BucketKey)

theorem removeStep_recovering : Recovering removeMachine ⟨.snapshot, domain, key⟩
    (⟨.flush ·, domain, key⟩) (⟨.clear ·, domain, key⟩) ⟨.reset, domain, key⟩
    ⟨.returned, domain, key⟩ where
  snapshot s := by
    by_cases hlen : GoMap.len s.fallback.all = 0 <;> simp [removeMachine, removeStep, hlen]
  flush _ _ _ := rfl
  clear _ _ := rfl
  reset _ := rfl

/-- A call that nobody interrupts does what `removeBucket` says. -/
theorem removeBucket_alone (s : RedisStorage) (env : Env) :
    removeMachine.Alone (s, removeMachine.init (domain, key))
      ((s.removeBucket env domain key).1, ⟨.returned, domain, key⟩) := by
  have hstart : ∀ pc, (if s.tripped then RemovePC.check else .direct) = pc →
      ∃ x, removeMachine.step s ⟨.start, domain, key⟩ x = some (s, ⟨pc, domain, key⟩) := by
    rintro pc rfl
    exact ⟨.tick, rfl⟩
  have hcheck : ∀ pc, (if s.shouldRetry env.now then RemovePC.retry else .update) = pc →
      ∃ x, removeMachine.step s ⟨.check, domain, key⟩ x = some (s, ⟨pc, domain, key⟩) := by
    rintro pc rfl
    exact ⟨.clock env.now, rfl⟩
  have hdel : ∀ s₁ err, s.pipeline [.del (domainScopedKey domain key)] env.attempt = (s₁, err) →
      (∃ x, removeMachine.step s ⟨.retry, domain, key⟩ x =
        some (s₁, ⟨if err.isNone then .snapshot else .update, domain, key⟩)) ∧
      (∃ x, removeMachine.step s ⟨.direct, domain, key⟩ x =
        some (s₁, ⟨if err.isNone then .returned else .trip, domain, key⟩)) := by
    intro s₁ err heq
    refine ⟨⟨.redis env.attempt, ?_⟩, ⟨.redis env.attempt, ?_⟩⟩
    · simp [removeMachine, removeStep, Remover.scopedKey, heq]
    · simp [removeMachine, removeStep, Remover.scopedKey, heq]
  have hupdate : ∀ s₁, removeMachine.Alone (s₁, ⟨.update, domain, key⟩)
      ((s₁.fallbackRemove domain key).1, ⟨.returned, domain, key⟩) :=
    fun s₁ => Relation.ReflTransGen.single ⟨.tick, rfl⟩
  rcases RedisStorage.removeBucket_cases s env domain key with
    ⟨ht, s₁, heq, hres⟩ | ⟨ht, s₁, e, heq, hres⟩ | ⟨ht, hr, s₁, heq, hres⟩ |
    ⟨ht, hr, s₁, e, heq, hres⟩ | ⟨ht, hr, hres⟩
  · rw [hres]
    exact (Relation.ReflTransGen.single (hstart .direct (by simp [ht]))).tail (hdel s₁ none heq).2
  · rw [hres]
    refine Relation.ReflTransGen.head (hstart .direct (by simp [ht])) ?_
    refine Relation.ReflTransGen.head (hdel s₁ (some e) heq).2 ?_
    refine Relation.ReflTransGen.head (b := (s₁.trip env.now, ⟨.update, domain, key⟩))
      ⟨.clock env.now, rfl⟩ ?_
    exact hupdate (s₁.trip env.now)
  · rw [hres]
    refine Relation.ReflTransGen.head (hstart .check (by simp [ht])) ?_
    refine Relation.ReflTransGen.head (hcheck .retry (by simp [hr])) ?_
    exact Relation.ReflTransGen.head (hdel s₁ none heq).1
      ((removeStep_recovering domain key).alone s₁ env.flush)
  · rw [hres]
    refine Relation.ReflTransGen.head (hstart .check (by simp [ht])) ?_
    refine Relation.ReflTransGen.head (hcheck .retry (by simp [hr])) ?_
    exact Relation.ReflTransGen.head (hdel s₁ (some e) heq).1 (hupdate s₁)
  · rw [hres]
    refine Relation.ReflTransGen.head (hstart .check (by simp [ht])) ?_
    exact Relation.ReflTransGen.head (hcheck .update (by simp [hr])) (hupdate s)

/-- The steps of a `RemoveBucket` call are steps of a caller. -/
theorem caller_of_remove {c c' : RedisStorage × Remover} (h : removeMachine.Alone c c')
    (e : Option RedisError) :
    ∃ e', callerMachine.Alone (c.1, ⟨.remove c.2, e⟩) (c'.1, ⟨.remove c'.2, e'⟩) := by
  induction h with
  | refl => exact ⟨e, Relation.ReflTransGen.refl⟩
  | @tail d d' _ hstep ih =>
    obtain ⟨e', hrun⟩ := ih
    obtain ⟨x, hx⟩ := hstep
    refine ⟨(Caller.mk (.remove d.2) e').outcomeAfter d.1 x, hrun.tail ⟨x, ?_⟩⟩
    have hremove : removeStep d.1 d.2 x = some d' := hx
    simp [callerMachine, callerStep, StoreProc.step, hremove]

end Alone

-- ---------------------------------------------------------------------------
-- The condition is needed
-- ---------------------------------------------------------------------------

/-- The Redis call on a closed breaker, as an operation. -/
theorem step_direct {s : RedisStorage} {p : StoreProc} (h : p.atDirect = true) (o : Outcome) :
    ∃ p', p.step s (.redis o) =
        some ({ s with redis := (s.redis.runPipeline (p.commands s) o).1 }, p') ∧
      p'.atTrip = (s.redis.runPipeline (p.commands s) o).2.isSome := by
  cases p with
  | record p =>
    obtain ⟨pc, domain, report⟩ := p
    cases pc with
    | direct =>
      exact ⟨_, rfl, recorder_atTrip _ domain report⟩
    | _ => simp [StoreProc.atDirect] at h
  | remove p =>
    obtain ⟨pc, domain, key⟩ := p
    cases pc with
    | direct =>
      exact ⟨_, rfl, remover_atTrip _ domain key⟩
    | _ => simp [StoreProc.atDirect] at h

/-- The operation `trip`. -/
theorem step_trip {s : RedisStorage} {p : StoreProc} (h : p.atTrip = true) :
    ∃ s' p', p.step s (.clock 0) = some (s', p') ∧ s'.tripped = true := by
  cases p with
  | record p =>
    obtain ⟨pc, domain, report⟩ := p
    cases pc with
    | trip => exact ⟨s.trip 0, _, rfl, rfl⟩
    | _ => simp [StoreProc.atTrip] at h
  | remove p =>
    obtain ⟨pc, domain, key⟩ := p
    cases pc with
    | trip => exact ⟨s.trip 0, _, rfl, rfl⟩
    | _ => simp [StoreProc.atTrip] at h

/-- From every pool the other calls can close the breaker: a `RemoveBucket` call
comes when a retry is due, and reaches Redis. -/
theorem can_close (w : Pool RedisStorage Caller) :
    ∃ w', callerMachine.Run Machine.free w w' ∧ w'.shared.tripped = false ∧
      ∀ (i : ℕ) c, w.procs[i]? = some c → w'.procs[i]? = some c := by
  cases ht : w.shared.tripped with
  | false => exact ⟨w, Relation.ReflTransGen.refl, ht, fun _ _ h => h⟩
  | true =>
    let env : Env := ⟨w.shared.lastAttempt + w.shared.retryInterval, .reached, .reached⟩
    have hdue : w.shared.shouldRetry env.now = true := by
      refine decide_eq_true ?_
      show w.shared.retryInterval ≤
        w.shared.lastAttempt + w.shared.retryInterval - w.shared.lastAttempt
      rw [add_sub_cancel_left]
    obtain ⟨e', halone⟩ := caller_of_remove (removeBucket_alone [] [] w.shared env) none
    -- the new call is the last process of the pool
    have hlast : (w.procs ++ [callerMachine.init (.remove [] [])])[w.procs.length]? =
        some (callerMachine.init (.remove [] [])) := by simp
    have hrun := run_of_alone (w := ⟨w.shared, w.procs ++ [callerMachine.init (.remove [] [])]⟩)
      hlast halone
    refine ⟨_, Relation.ReflTransGen.head ⟨.spawn (.remove [] []), trivial, rfl⟩ hrun, ?_, ?_⟩
    · obtain ⟨-, hnone | ⟨a, ha, -, -, -, hfailed, -⟩⟩ :=
        (StoreCall.remove env [] []).run_attempt w.shared
      · have hwait := hnone.2.2.1
        simp [StoreCall.env, hdue] at hwait
      · have ha' : (StoreCall.remove env [] []).attempt w.shared =
            some ⟨env.now, w.shared.tripped, false⟩ := by
          unfold StoreCall.attempt StoreCall.attempts StoreCall.env
          rw [if_pos (by simp [hdue])]
          rfl
        rw [ha] at ha'
        cases ha'
        exact hfailed
    · intro i c hc
      have hlt := (List.getElem?_eq_some_iff.mp hc).1
      show ((w.procs ++ [callerMachine.init (.remove [] [])]).set w.procs.length _)[i]? = some c
      rw [List.getElem?_set_ne (by omega), List.getElem?_append_left hlt]
      exact hc

/-- **What trips the breaker.** For any number of streams and any interleaving of
their calls: as long as every call that found the breaker closed either gets
through without an overflow or finds the server unreachable, the flag only goes
from false to true in a call whose Redis call said `unreachable`. The condition is
needed: after any other error of a call that found the breaker closed, a run goes
on so that this very call sets the flag. -/
theorem trips_only_unreachable {s₀ : RedisStorage} {w : Pool RedisStorage Caller}
    (hrun : callerMachine.Run OnlyUnreachable ⟨s₀, []⟩ w) :
    (∀ m w', callerMachine.next w m = some w' → w.shared.tripped = false →
      w'.shared.tripped = true →
      ∃ i x c, m = .act i x ∧ w.procs[i]? = some c ∧ c.outcome = some .unreachable) ∧
    (∀ (i : ℕ) o c, w.procs[i]? = some c → c.proc.atDirect = true →
      ¬ CleanOutcome w.shared c.proc o →
      ∃ w₁ w₂ w₃ x c₂, callerMachine.next w (.act i (.redis o)) = some w₁ ∧
        callerMachine.Run Machine.free w₁ w₂ ∧ callerMachine.next w₂ (.act i x) = some w₃ ∧
        w₂.shared.tripped = false ∧ w₃.shared.tripped = true ∧
        w₂.procs[i]? = some c₂ ∧ c₂.outcome ≠ some .unreachable) := by
  refine ⟨fun m w' hn hclosed hopen => ?_, fun i o c hc hdirect hdirty => ?_⟩
  · rcases next_cases hn with ⟨a, -, rfl⟩ | ⟨i, x, c, s', c', rfl, hc, hs, rfl⟩
    · simp [hclosed] at hopen
    · obtain ⟨⟨hflag, -⟩, -⟩ := callerStep_trips hs
      rcases hflag hopen with h | htrip
      · simp [hclosed] at h
      · exact ⟨i, x, c, rfl, hc, about_to_trip hrun c (List.mem_of_getElem? hc) htrip⟩
  · obtain ⟨p', hstep, htrip⟩ := step_direct (s := w.shared) hdirect o
    rw [cleanOutcome_iff, not_forall] at hdirty
    obtain ⟨e, he⟩ := hdirty
    rw [Classical.not_imp] at he
    obtain ⟨herr, hother⟩ := he
    rw [herr] at htrip
    have hfails : callerMachine.step w.shared c (.redis o) = some ({ w.shared with
        redis := (w.shared.redis.runPipeline (c.proc.commands w.shared) o).1 },
        ⟨p', some e⟩) := by
      show callerStep w.shared c (.redis o) = _
      unfold callerStep
      rw [hstep, Caller.outcomeAfter_direct hdirect, herr]
      rfl
    have hnext := next_act hc hfails
    have hlt := (List.getElem?_eq_some_iff.mp hc).1
    obtain ⟨w₂, hrun₂, hclosed, hkept⟩ := can_close ⟨{ w.shared with
        redis := (w.shared.redis.runPipeline (c.proc.commands w.shared) o).1 },
      w.procs.set i ⟨p', some e⟩⟩
    have hc₂ := hkept i ⟨p', some e⟩ (List.getElem?_set_self hlt)
    obtain ⟨s₃, p₃, hstep₃, hopen⟩ := step_trip (s := w₂.shared) (p := p') htrip
    refine ⟨_, w₂, ⟨s₃, w₂.procs.set i ⟨p₃, some e⟩⟩, .clock 0, _, hnext, hrun₂, ?_, hclosed, hopen,
      hc₂, ?_⟩
    · refine next_act hc₂ ?_
      show callerStep w₂.shared ⟨p', some e⟩ (.clock 0) = _
      unfold callerStep
      rw [hstep₃]
      rfl
    · intro heq
      exact hother (Option.some.inj heq)

/-- A move in which Redis, if it is called, is unreachable. -/
def redisDown (_ : Pool RedisStorage Caller) : Move StoreRequest RecordInput → Bool
  | .act _ (.redis .reached) => false
  | .act _ (.redis (.failed _ e)) => e = .unreachable
  | _ => true

theorem onlyUnreachable_of_redisDown (w : Pool RedisStorage Caller)
    (m : Move StoreRequest RecordInput) (h : redisDown w m = true) : OnlyUnreachable w m := by
  cases m with
  | spawn a => trivial
  | act i x =>
    rintro c o - - rfl
    cases o with
    | reached => simp [redisDown] at h
    | failed ran e =>
      have hdown : e = .unreachable := of_decide_eq_true h
      exact hdown

/-- A report is under way, its Redis call returns the error, and it is about to
trip the breaker. -/
def failedReport (e : RedisError) : List (Move StoreRequest RecordInput) :=
  [.spawn (.record [100] sampleReport), .act 0 .tick, .act 0 (.redis (.failed [] e))]

/-- Redis is down, and the call that finds out trips the breaker. -/
theorem unreachable_call_trips :
    ∃ w w' c, callerMachine.Run OnlyUnreachable ⟨newRedisStorage ⟨0, 0⟩ emptyRedis, []⟩ w ∧
      callerMachine.next w (.act 0 (.clock 0)) = some w' ∧ w.shared.tripped = false ∧
      w'.shared.tripped = true ∧ w.procs[0]? = some c ∧ c.outcome = some .unreachable := by
  have hrun := run_exec_of callerMachine.next onlyUnreachable_of_redisDown
    ⟨newRedisStorage ⟨0, 0⟩ emptyRedis, []⟩ (failedReport .unreachable) rfl
  have hnext := next_exec callerMachine.next redisDown
    ⟨newRedisStorage ⟨0, 0⟩ emptyRedis, []⟩ (failedReport .unreachable) (.act 0 (.clock 0)) rfl rfl
  obtain ⟨i, x, c, hm, hc, houtcome⟩ := (trips_only_unreachable hrun).1 _ _ hnext rfl rfl
  cases hm
  exact ⟨_, _, c, hrun, hnext, rfl, rfl, hc, houtcome⟩

/-- A client hangs up during its report: the context of its call is done, and the
breaker is tripped for all streams although Redis is reachable. -/
theorem cancelled_call_trips :
    ∃ w w' c, callerMachine.Run Machine.free ⟨newRedisStorage ⟨0, 0⟩ emptyRedis, []⟩ w ∧
      callerMachine.next w (.act 0 (.clock 0)) = some w' ∧ w.shared.tripped = false ∧
      w'.shared.tripped = true ∧ w.procs[0]? = some c ∧ c.outcome = some .contextDone :=
  ⟨_, _, _, run_exec_free callerMachine.next ⟨newRedisStorage ⟨0, 0⟩ emptyRedis, []⟩
      (failedReport .contextDone) rfl,
    next_exec callerMachine.next (fun _ _ => true) ⟨newRedisStorage ⟨0, 0⟩ emptyRedis, []⟩
      (failedReport .contextDone) (.act 0 (.clock 0)) rfl rfl, rfl, rfl, rfl, rfl⟩

end Rlqs
