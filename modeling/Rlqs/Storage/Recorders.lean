import Rlqs.Lib.Interleave
import Rlqs.Storage.Redis

/-!
# RLQS storage — concurrent `RecordUsage` calls

Every stream's handler calls `RedisStorage.RecordUsage`, so the calls overlap.
Here a call is a process that takes one operation at a time: the read of
`tripped`, the retry check, the Redis pipeline, `fallback.All`, the flush
pipeline, `fallback.Clear`, the write of `tripped`, `fallback.Len`,
`fallback.Get`, `trip` and the update of the fallback.

* `recordMachine` — any number of calls on one store;
* `recordUsage_alone` — a call that nobody interrupts does what `recordUsage`
  says;
* `recordStep_turn` — everything an operation can do, outcome by outcome;
* `recordStep_cases` — what it does to the server, the fallback and the accounts.
-/

namespace Rlqs

open Interleave Steps

-- ---------------------------------------------------------------------------
-- A call, one operation at a time
-- ---------------------------------------------------------------------------

/-- The control points of a call; each names the operation it is about to do. -/
inductive RecordPC where
  | start
  | check
  | retry
  | snapshot
  | flush (entries : GoMap BucketKey UsageState)
  | clear (entries : GoMap BucketKey UsageState)
  | reset
  | capLen
  | capGet
  | direct
  | trip
  | update
  | returned

/-- A `RecordUsage` call in progress. -/
structure Recorder where
  pc : RecordPC
  domain : Str
  report : UsageReport

def Recorder.key (p : Recorder) : BucketKey := p.report.scopedKey p.domain

/-- What the environment decides in a step. -/
inductive RecordInput where
  | tick
  | clock (now : Nanos)
  | redis (o : Outcome)

/-- One operation of a call. -/
def recordStep (s : RedisStorage) (p : Recorder) (x : RecordInput) :
    Option (RedisStorage × Recorder) :=
  match p.pc, x with
  | .start, .tick => some (s, { p with pc := if s.tripped then .check else .direct })
  | .check, .clock now => some (s, { p with pc := if s.shouldRetry now then .retry else .capLen })
  | .retry, .redis o =>
    let (s, err) := s.tryRedisRecordUsage p.key p.report o
    some (s, { p with pc := if err.isNone then .snapshot else .capLen })
  | .snapshot, .tick =>
    let entries := s.fallback.all
    some (s, { p with pc := if GoMap.len entries = 0 then .reset else .flush entries })
  | .flush entries, .redis o =>
    let (s, err) := s.pipeline (flushCommands s.keyTTL entries) o
    let line : LogLine := match err with
      | some e => .flushFailed entries e
      | none => .flushed (GoMap.len entries)
    some ({ s with log := s.log ++ [line] }, { p with pc := .clear entries })
  | .clear _, .tick => some ({ s with fallback := s.fallback.clear }, { p with pc := .reset })
  | .reset, .tick => some ({ s with tripped := false }, { p with pc := .returned })
  | .capLen, .tick =>
    some (s, { p with
      pc := if 0 < s.maxFallbackKeys ∧ s.maxFallbackKeys ≤ (s.fallback.len : Int) then .capGet
        else .update })
  | .capGet, .tick =>
    if (s.fallback.get p.key).isNone then
      some ({ s with log := s.log ++ [.dropping p.key p.report] }, { p with pc := .returned })
    else some (s, { p with pc := .update })
  | .direct, .redis o =>
    let (s, err) := s.tryRedisRecordUsage p.key p.report o
    some (s, { p with pc := if err.isNone then .returned else .trip })
  | .trip, .clock now => some (s.trip now, { p with pc := .update })
  | .update, .tick => some ((s.fallbackRecord p.domain p.report).1, { p with pc := .returned })
  | _, _ => none

/-- Any number of `RecordUsage` calls on one store. -/
def recordMachine : Machine RedisStorage Recorder (Str × UsageReport) RecordInput where
  init a := ⟨.start, a.1, a.2⟩
  step := recordStep

-- ---------------------------------------------------------------------------
-- A call that runs alone
-- ---------------------------------------------------------------------------

/-- What the store is after a flush of a snapshot, whatever becomes of it. -/
def RedisStorage.afterFlush (s : RedisStorage) (entries : GoMap BucketKey UsageState)
    (o : Outcome) : RedisStorage :=
  let (s, err) := s.pipeline (flushCommands s.keyTTL entries) o
  let line : LogLine := match err with
    | some e => .flushFailed entries e
    | none => .flushed (GoMap.len entries)
  { s with log := s.log ++ [line] }

/-- A process that goes through recovery: its five control points from the snapshot on,
and the steps between them. -/
structure Recovering {P A : Type} (M : Machine RedisStorage P A RecordInput)
    (snapshot : P) (flush clear : GoMap BucketKey UsageState → P) (reset returned : P) : Prop where
  snapshot : ∀ s, M.step s snapshot .tick = some (s,
    if GoMap.len s.fallback.all = 0 then reset else flush s.fallback.all)
  flush : ∀ s entries o, M.step s (flush entries) (.redis o) =
    some (s.afterFlush entries o, clear entries)
  clear : ∀ s entries, M.step s (clear entries) .tick =
    some ({ s with fallback := s.fallback.clear }, reset)
  reset : ∀ s, M.step s reset .tick = some ({ s with tripped := false }, returned)

/-- Recovery, of a call of either kind. -/
theorem Recovering.alone {P A : Type} {M : Machine RedisStorage P A RecordInput}
    {snapshot reset returned : P} {flush clear : GoMap BucketKey UsageState → P}
    (h : Recovering M snapshot flush clear reset returned) (s : RedisStorage) (o : Outcome) :
    M.Alone (s, snapshot) (s.recoverFromFallback o, returned) := by
  have hsnap := h.snapshot s
  unfold RedisStorage.recoverFromFallback RedisStorage.flushFallback
  by_cases hlen : GoMap.len s.fallback.all = 0
  · rw [if_pos hlen] at hsnap
    simp only [if_pos hlen]
    refine Relation.ReflTransGen.head ⟨.tick, hsnap⟩ ?_
    exact Relation.ReflTransGen.single ⟨.tick, h.reset s⟩
  · rw [if_neg hlen] at hsnap
    simp only [if_neg hlen]
    refine Relation.ReflTransGen.head ⟨.tick, hsnap⟩ ?_
    refine Relation.ReflTransGen.head ⟨.redis o, h.flush s s.fallback.all o⟩ ?_
    refine Relation.ReflTransGen.head ⟨.tick, h.clear _ s.fallback.all⟩ ?_
    exact Relation.ReflTransGen.single ⟨.tick, h.reset _⟩

section Alone

variable (domain : Str) (r : UsageReport)

theorem recordStep_recovering : Recovering recordMachine ⟨.snapshot, domain, r⟩
    (⟨.flush ·, domain, r⟩) (⟨.clear ·, domain, r⟩) ⟨.reset, domain, r⟩ ⟨.returned, domain, r⟩ where
  snapshot s := by
    by_cases hlen : GoMap.len s.fallback.all = 0 <;> simp [recordMachine, recordStep, hlen]
  flush _ _ _ := rfl
  clear _ _ := rfl
  reset _ := rfl

/-- The steps of a tripped call that did not reach Redis. -/
theorem recordTripped_alone (s : RedisStorage) :
    recordMachine.Alone (s, ⟨.capLen, domain, r⟩)
      ((s.recordTripped domain r).1, ⟨.returned, domain, r⟩) := by
  unfold RedisStorage.recordTripped RedisStorage.atCapacity
  by_cases hfull : 0 < s.maxFallbackKeys ∧ s.maxFallbackKeys ≤ (s.fallback.len : Int)
  · refine Relation.ReflTransGen.head (b := (s, ⟨.capGet, domain, r⟩)) ⟨.tick, ?_⟩ ?_
    · simp [recordMachine, recordStep, hfull]
    · cases hget : (s.fallback.get (r.scopedKey domain)).isNone with
      | true =>
        refine Relation.ReflTransGen.single ⟨.tick, ?_⟩
        simp [recordMachine, recordStep, Recorder.key, hget, hfull]
      | false =>
        refine Relation.ReflTransGen.head (b := (s, ⟨.update, domain, r⟩)) ⟨.tick, ?_⟩ ?_
        · simp [recordMachine, recordStep, Recorder.key, hget]
        · refine Relation.ReflTransGen.single ⟨.tick, ?_⟩
          simp [recordMachine, recordStep]
  · refine Relation.ReflTransGen.head (b := (s, ⟨.update, domain, r⟩)) ⟨.tick, ?_⟩ ?_
    · simp [recordMachine, recordStep, hfull]
    · have hflag : (decide (0 < s.maxFallbackKeys) &&
        decide (s.maxFallbackKeys ≤ (s.fallback.len : Int)))
          = false := by
        rw [← Bool.decide_and]
        exact decide_eq_false hfull
      rw [hflag]
      exact Relation.ReflTransGen.single ⟨.tick, rfl⟩

/-- A call that nobody interrupts does what `recordUsage` says. -/
theorem recordUsage_alone (s : RedisStorage) (env : Env) :
    recordMachine.Alone (s, recordMachine.init (domain, r))
      ((s.recordUsage env domain r).1, ⟨.returned, domain, r⟩) := by
  -- the steps on the way to the five ends of a call
  have hstart : ∀ pc, (if s.tripped then RecordPC.check else .direct) = pc →
      ∃ x, recordMachine.step s ⟨.start, domain, r⟩ x = some (s, ⟨pc, domain, r⟩) := by
    rintro pc rfl
    exact ⟨.tick, rfl⟩
  have hcheck : ∀ pc, (if s.shouldRetry env.now then RecordPC.retry else .capLen) = pc →
      ∃ x, recordMachine.step s ⟨.check, domain, r⟩ x = some (s, ⟨pc, domain, r⟩) := by
    rintro pc rfl
    exact ⟨.clock env.now, rfl⟩
  have hretry : ∀ s₁ err, s.tryRedisRecordUsage (r.scopedKey domain) r env.attempt = (s₁, err) →
      ∃ x, recordMachine.step s ⟨.retry, domain, r⟩ x =
        some (s₁, ⟨if err.isNone then .snapshot else .capLen, domain, r⟩) := by
    intro s₁ err heq
    refine ⟨.redis env.attempt, ?_⟩
    simp [recordMachine, recordStep, Recorder.key, heq]
  have hdirect : ∀ s₁ err, s.tryRedisRecordUsage (r.scopedKey domain) r env.attempt = (s₁, err) →
      ∃ x, recordMachine.step s ⟨.direct, domain, r⟩ x =
        some (s₁, ⟨if err.isNone then .returned else .trip, domain, r⟩) := by
    intro s₁ err heq
    refine ⟨.redis env.attempt, ?_⟩
    simp [recordMachine, recordStep, Recorder.key, heq]
  rcases RedisStorage.recordUsage_cases s env domain r with
    ⟨ht, s₁, heq, hres⟩ | ⟨ht, s₁, e, heq, hres⟩ | ⟨ht, hr, s₁, heq, hres⟩ |
    ⟨ht, hr, s₁, e, heq, hres⟩ | ⟨ht, hr, hres⟩
  · rw [hres]
    exact ((Relation.ReflTransGen.single (hstart .direct (by simp [ht]))).tail
      (hdirect s₁ none heq))
  · rw [hres]
    refine Relation.ReflTransGen.head (hstart .direct (by simp [ht])) ?_
    refine Relation.ReflTransGen.head (hdirect s₁ (some e) heq) ?_
    refine Relation.ReflTransGen.head (b := (s₁.trip env.now, ⟨.update, domain, r⟩))
      ⟨.clock env.now, rfl⟩ ?_
    exact Relation.ReflTransGen.single ⟨.tick, rfl⟩
  · rw [hres]
    refine Relation.ReflTransGen.head (hstart .check (by simp [ht])) ?_
    refine Relation.ReflTransGen.head (hcheck .retry (by simp [hr])) ?_
    exact Relation.ReflTransGen.head (hretry s₁ none heq)
      ((recordStep_recovering domain r).alone s₁ env.flush)
  · rw [hres]
    refine Relation.ReflTransGen.head (hstart .check (by simp [ht])) ?_
    refine Relation.ReflTransGen.head (hcheck .retry (by simp [hr])) ?_
    exact Relation.ReflTransGen.head (hretry s₁ (some e) heq) (recordTripped_alone domain r s₁)
  · rw [hres]
    refine Relation.ReflTransGen.head (hstart .check (by simp [ht])) ?_
    exact Relation.ReflTransGen.head (hcheck .capLen (by simp [hr]))
      (recordTripped_alone domain r s)

end Alone

-- ---------------------------------------------------------------------------
-- Control points
-- ---------------------------------------------------------------------------

/-- The call has returned. -/
def RecordPC.done : RecordPC → Bool
  | .returned => true
  | _ => false

/-- The snapshot of a call between its `All` and its `Clear`. -/
def RecordPC.snapped : RecordPC → Option (GoMap BucketKey UsageState)
  | .flush entries => some entries
  | .clear entries => some entries
  | _ => none

/-- The snapshot has been flushed and not been cleared yet. -/
def RecordPC.flushed : RecordPC → Bool
  | .clear _ => true
  | _ => false

/-- The report has not been written yet, to Redis or to the fallback. -/
def RecordPC.pending : RecordPC → Bool
  | .start | .check | .retry | .capLen | .capGet | .direct | .trip | .update => true
  | _ => false

-- ---------------------------------------------------------------------------
-- What an operation can do
-- ---------------------------------------------------------------------------

/-- Everything an operation can do, outcome by outcome. -/
inductive RecordTurn (s : RedisStorage) (p : Recorder) :
    RecordInput → RedisStorage → Recorder → Prop
  | tripped (hpc : p.pc = .start) (ht : s.tripped = true) :
      RecordTurn s p .tick s { p with pc := .check }
  | closed (hpc : p.pc = .start) (ht : s.tripped = false) :
      RecordTurn s p .tick s { p with pc := .direct }
  | retryDue {now : Nanos} (hpc : p.pc = .check) (hr : s.shouldRetry now = true) :
      RecordTurn s p (.clock now) s { p with pc := .retry }
  | retryLater {now : Nanos} (hpc : p.pc = .check) (hr : s.shouldRetry now = false) :
      RecordTurn s p (.clock now) s { p with pc := .capLen }
  | retried {o : Outcome} {s₁ : RedisStorage} (hpc : p.pc = .retry)
      (hatt : s.tryRedisRecordUsage p.key p.report o = (s₁, none)) :
      RecordTurn s p (.redis o) s₁ { p with pc := .snapshot }
  | retryFailed {o : Outcome} {s₁ : RedisStorage} {e : RedisError} (hpc : p.pc = .retry)
      (hatt : s.tryRedisRecordUsage p.key p.report o = (s₁, some e)) :
      RecordTurn s p (.redis o) s₁ { p with pc := .capLen }
  | nothingToFlush (hpc : p.pc = .snapshot) (hlen : GoMap.len s.fallback.all = 0) :
      RecordTurn s p .tick s { p with pc := .reset }
  | snapshot (hpc : p.pc = .snapshot) (hlen : GoMap.len s.fallback.all ≠ 0) :
      RecordTurn s p .tick s { p with pc := .flush s.fallback.all }
  | flush {entries : GoMap BucketKey UsageState} {o : Outcome} {line : LogLine}
      (hpc : p.pc = .flush entries) :
      RecordTurn s p (.redis o)
        { (s.pipeline (flushCommands s.keyTTL entries) o).1 with
          log := (s.pipeline (flushCommands s.keyTTL entries) o).1.log ++ [line] }
        { p with pc := .clear entries }
  | clear {entries : GoMap BucketKey UsageState} (hpc : p.pc = .clear entries) :
      RecordTurn s p .tick { s with fallback := s.fallback.clear } { p with pc := .reset }
  | reset (hpc : p.pc = .reset) :
      RecordTurn s p .tick { s with tripped := false } { p with pc := .returned }
  | full (hpc : p.pc = .capLen)
      (hcap : 0 < s.maxFallbackKeys ∧ s.maxFallbackKeys ≤ (s.fallback.len : Int)) :
      RecordTurn s p .tick s { p with pc := .capGet }
  | roomLeft (hpc : p.pc = .capLen)
      (hcap : ¬ (0 < s.maxFallbackKeys ∧ s.maxFallbackKeys ≤ (s.fallback.len : Int))) :
      RecordTurn s p .tick s { p with pc := .update }
  | dropped (hpc : p.pc = .capGet) (hget : (s.fallback.get p.key).isNone = true) :
      RecordTurn s p .tick { s with log := s.log ++ [.dropping p.key p.report] }
        { p with pc := .returned }
  | known (hpc : p.pc = .capGet) (hget : (s.fallback.get p.key).isNone = false) :
      RecordTurn s p .tick s { p with pc := .update }
  | direct {o : Outcome} {s₁ : RedisStorage} (hpc : p.pc = .direct)
      (hatt : s.tryRedisRecordUsage p.key p.report o = (s₁, none)) :
      RecordTurn s p (.redis o) s₁ { p with pc := .returned }
  | directFailed {o : Outcome} {s₁ : RedisStorage} {e : RedisError} (hpc : p.pc = .direct)
      (hatt : s.tryRedisRecordUsage p.key p.report o = (s₁, some e)) :
      RecordTurn s p (.redis o) s₁ { p with pc := .trip }
  | trip {now : Nanos} (hpc : p.pc = .trip) :
      RecordTurn s p (.clock now) (s.trip now) { p with pc := .update }
  | update (hpc : p.pc = .update) :
      RecordTurn s p .tick (s.fallbackRecord p.domain p.report).1 { p with pc := .returned }

theorem recordStep_turn {s s' : RedisStorage} {p p' : Recorder} {x : RecordInput}
    (h : recordStep s p x = some (s', p')) : RecordTurn s p x s' p' := by
  unfold recordStep at h
  split at h
  case h_1 hpc =>
    cases h
    cases ht : s.tripped with
    | true => exact .tripped hpc ht
    | false => exact .closed hpc ht
  case h_2 now hpc =>
    cases h
    cases hr : s.shouldRetry now with
    | true => exact .retryDue hpc hr
    | false => exact .retryLater hpc hr
  case h_3 o hpc =>
    rcases hatt : s.tryRedisRecordUsage p.key p.report o with ⟨s₁, err⟩
    rw [hatt] at h
    cases h
    cases err with
    | none => exact .retried hpc hatt
    | some e => exact .retryFailed hpc hatt
  case h_4 hpc =>
    cases h
    by_cases hlen : GoMap.len s.fallback.all = 0
    · simp only [if_pos hlen]
      exact .nothingToFlush hpc hlen
    · simp only [if_neg hlen]
      exact .snapshot hpc hlen
  case h_5 entries o hpc =>
    cases h
    exact .flush hpc
  case h_6 entries hpc =>
    cases h
    exact .clear hpc
  case h_7 hpc =>
    cases h
    exact .reset hpc
  case h_8 hpc =>
    cases h
    by_cases hcap : 0 < s.maxFallbackKeys ∧ s.maxFallbackKeys ≤ (s.fallback.len : Int)
    · simp only [if_pos hcap]
      exact .full hpc hcap
    · simp only [if_neg hcap]
      exact .roomLeft hpc hcap
  case h_9 hpc =>
    split at h
    · rename_i hget
      cases h
      exact .dropped hpc hget
    · rename_i hget
      cases h
      exact .known hpc (Bool.eq_false_iff.mpr hget)
  case h_10 o hpc =>
    rcases hatt : s.tryRedisRecordUsage p.key p.report o with ⟨s₁, err⟩
    rw [hatt] at h
    cases h
    cases err with
    | none => exact .direct hpc hatt
    | some e => exact .directFailed hpc hatt
  case h_11 now hpc =>
    cases h
    exact .trip hpc
  case h_12 hpc =>
    cases h
    exact .update hpc
  case h_13 => cases h

/-- Everything an operation does to the server, the fallback and the accounts. -/
inductive RecordEffect (s : RedisStorage) (p : Recorder) (x : RecordInput) :
    RedisStorage → RecordPC → Prop where
  | quiet {s' pc} (hredis : s'.redis = s.redis) (hfallback : s'.fallback = s.fallback)
      (hpend : pc.pending = p.pc.pending) (hsnap : p.pc.snapped = none) (hsnap' : pc.snapped = none)
      (hcap : pc = .capGet → p.pc = .capLen ∧ s.maxFallbackKeys ≤ (s.fallback.len : Int)) :
      RecordEffect s p x s' pc
  | attempted {o s' err pc} (hpc : p.pc = .retry ∨ p.pc = .direct) (hx : x = .redis o)
      (hatt : s.tryRedisRecordUsage p.key p.report o = (s', err))
      (hpend : pc.pending = err.isSome) (hsnap' : pc.snapped = none) (hcap : pc ≠ .capGet) :
      RecordEffect s p x s' pc
  | snapped (hpc : p.pc = .snapshot) : RecordEffect s p x s (.flush s.fallback.all)
  | flushed {entries o s'} (hpc : p.pc = .flush entries) (hx : x = .redis o)
      (hredis : s'.redis = (s.redis.runPipeline (flushCommands s.keyTTL entries) o).1)
      (hfallback : s'.fallback = s.fallback) : RecordEffect s p x s' (.clear entries)
  | cleared {entries} (hpc : p.pc = .clear entries) :
      RecordEffect s p x { s with fallback := s.fallback.clear } .reset
  | capped {s' pc} (hpc : p.pc = .capGet) : RecordEffect s p x s' pc
  | updated (hpc : p.pc = .update) :
      RecordEffect s p x (s.fallbackRecord p.domain p.report).1 .returned

/-- Every operation is one of the effects, and moves only the control point. -/
theorem recordStep_cases {s s' : RedisStorage} {p p' : Recorder} {x : RecordInput}
    (h : recordStep s p x = some (s', p')) :
    p' = { p with pc := p'.pc } ∧ RecordEffect s p x s' p'.pc := by
  cases recordStep_turn h with
  | retried hpc hatt | retryFailed hpc hatt =>
    exact ⟨rfl, .attempted (Or.inl hpc) rfl hatt rfl rfl (fun h => nomatch h)⟩
  | snapshot hpc hlen => exact ⟨rfl, .snapped hpc⟩
  | flush hpc => exact ⟨rfl, .flushed hpc rfl rfl rfl⟩
  | clear hpc => exact ⟨rfl, .cleared hpc⟩
  | full hpc hcap =>
    exact ⟨rfl, .quiet rfl rfl (by rw [hpc]; rfl) (by rw [hpc]; rfl) rfl fun _ => ⟨hpc, hcap.2⟩⟩
  | dropped hpc hget | known hpc hget => exact ⟨rfl, .capped hpc⟩
  | direct hpc hatt | directFailed hpc hatt =>
    exact ⟨rfl, .attempted (Or.inr hpc) rfl hatt rfl rfl (fun h => nomatch h)⟩
  | update hpc => exact ⟨rfl, .updated hpc⟩
  -- the other operations only read, or write the flag
  | _ hpc =>
    exact ⟨rfl, .quiet rfl rfl (by rw [hpc]; rfl) (by rw [hpc]; rfl) rfl (fun h => nomatch h)⟩

end Rlqs
