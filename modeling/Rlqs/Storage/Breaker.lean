import Rlqs.Storage.Conservation

/-!
# RLQS storage — the circuit breaker over whole sequences of calls

`RecordUsage` and `RemoveBucket` calls one after another, with any clock and any
outcome of every pipeline: reached, or failed after any part of it was executed
(`Env`). Both calls go through the breaker in the same five ways (`run_cases`),
and everything below is read off them.

* `breaker_invariant` — with the breaker closed the fallback is empty, its size
  never exceeds `maxFallbackKeys`, and a report whose key it holds is kept. The
  call that trips the breaker does not look at the size; the bound holds because
  the fallback is empty then.
* `retry_spacing` — with a clock that does not go back, the first retry comes
  `retryInterval` after the call that tripped the breaker. A failed retry does
  not refresh `lastAttempt`, so the next attempt after it is the next call,
  whenever that comes; all attempts are spaced if and only if no call comes
  sooner.
-/

namespace Rlqs

-- ---------------------------------------------------------------------------
-- The ways through a call
-- ---------------------------------------------------------------------------

namespace StoreCall

/-- The call's own pipeline. -/
def commands (c : StoreCall) (s : RedisStorage) : List Command :=
  match c with
  | .record _ domain report => recordCommands (report.scopedKey domain) s.keyTTL report
  | .remove _ domain key => [.del (domainScopedKey domain key)]

/-- The call runs its own pipeline: the breaker is closed, or a retry is due. -/
def attempts (c : StoreCall) (s : RedisStorage) : Bool :=
  !s.tripped || s.shouldRetry c.env.now

theorem attempts_of_closed {c : StoreCall} {s : RedisStorage} (h : s.tripped = false) :
    c.attempts s = true := by
  simp [attempts, h]

theorem attempts_of_retry {c : StoreCall} {s : RedisStorage}
    (h : s.shouldRetry c.env.now = true) : c.attempts s = true := by
  simp [attempts, h]

/-- The error of the call's own pipeline, if the call runs it. -/
def err (c : StoreCall) (s : RedisStorage) : Option RedisError :=
  (s.redis.runPipeline (c.commands s) c.env.attempt).2

/-- The state after the call's own pipeline. -/
def attempted (c : StoreCall) (s : RedisStorage) : RedisStorage :=
  { s with redis := (s.redis.runPipeline (c.commands s) c.env.attempt).1 }

/-- The call goes to the fallback without looking at its size. -/
def toFallback (c : StoreCall) (s : RedisStorage) : RedisStorage :=
  match c with
  | .record _ domain report => (s.fallbackRecord domain report).1
  | .remove _ domain key => (s.fallbackRemove domain key).1

/-- The end of a tripped call that did not reach Redis. -/
def whileTripped (c : StoreCall) (s : RedisStorage) : RedisStorage :=
  match c with
  | .record _ domain report => (s.recordTripped domain report).1
  | .remove _ domain key => (s.fallbackRemove domain key).1

/-- Both calls are one program around their pipeline and their fallback. -/
theorem run_eq (c : StoreCall) (s : RedisStorage) :
    c.run s =
      if s.tripped then
        if s.shouldRetry c.env.now then
          match c.err s with
          | none => (c.attempted s).recoverFromFallback c.env.flush
          | some _ => c.whileTripped (c.attempted s)
        else c.whileTripped s
      else
        match c.err s with
        | none => c.attempted s
        | some _ => c.toFallback ((c.attempted s).trip c.env.now) := by
  cases c with
  | record env domain report =>
    have hpipe : s.tryRedisRecordUsage (report.scopedKey domain) report env.attempt =
      ((record env domain report).attempted s, (record env domain report).err s) := rfl
    unfold run RedisStorage.recordUsage
    dsimp only
    rw [hpipe]
    cases (record env domain report).err s <;> cases s.tripped <;>
      cases hr : s.shouldRetry env.now <;> simp [StoreCall.env, hr, toFallback, whileTripped]
  | remove env domain key =>
    have hpipe : s.pipeline [.del (domainScopedKey domain key)] env.attempt =
      ((remove env domain key).attempted s, (remove env domain key).err s) := rfl
    unfold run RedisStorage.removeBucket
    dsimp only
    rw [hpipe]
    cases (remove env domain key).err s <;> cases s.tripped <;>
      cases hr : s.shouldRetry env.now <;> simp [StoreCall.env, hr, toFallback, whileTripped]

/-- The five ways through a call. -/
theorem run_cases (c : StoreCall) (s : RedisStorage) :
    (s.tripped = false ∧ c.err s = none ∧ c.run s = c.attempted s) ∨
    (s.tripped = false ∧ (c.err s).isSome = true ∧
      c.run s = c.toFallback ((c.attempted s).trip c.env.now)) ∨
    (s.tripped = true ∧ s.shouldRetry c.env.now = true ∧ c.err s = none ∧
      c.run s = (c.attempted s).recoverFromFallback c.env.flush) ∨
    (s.tripped = true ∧ s.shouldRetry c.env.now = true ∧ (c.err s).isSome = true ∧
      c.run s = c.whileTripped (c.attempted s)) ∨
    (s.tripped = true ∧ s.shouldRetry c.env.now = false ∧ c.run s = c.whileTripped s) := by
  rw [run_eq]
  cases s.tripped <;> cases s.shouldRetry c.env.now <;> cases c.err s <;> simp

/-- What the parts of a call do to the breaker: only `trip` and the recovery touch
it. -/
theorem whileTripped_breaker (c : StoreCall) (s : RedisStorage) :
    (c.whileTripped s).tripped = s.tripped ∧ (c.whileTripped s).lastAttempt = s.lastAttempt ∧
    (c.whileTripped s).retryInterval = s.retryInterval ∧
    (c.whileTripped s).maxFallbackKeys = s.maxFallbackKeys := by
  cases c with
  | record env domain report =>
    unfold whileTripped RedisStorage.recordTripped
    dsimp only
    split
    · exact ⟨rfl, rfl, rfl, rfl⟩
    · exact ⟨rfl, rfl, rfl, rfl⟩
  | remove env domain key => exact ⟨rfl, rfl, rfl, rfl⟩

theorem toFallback_breaker (c : StoreCall) (s : RedisStorage) :
    (c.toFallback s).tripped = s.tripped ∧ (c.toFallback s).lastAttempt = s.lastAttempt ∧
    (c.toFallback s).retryInterval = s.retryInterval ∧
    (c.toFallback s).maxFallbackKeys = s.maxFallbackKeys := by
  cases c with
  | record env domain report => exact ⟨rfl, rfl, rfl, rfl⟩
  | remove env domain key => exact ⟨rfl, rfl, rfl, rfl⟩

end StoreCall

theorem RedisStorage.recover_breaker (s : RedisStorage) (o : Outcome) :
    (s.recoverFromFallback o).tripped = false ∧
    (s.recoverFromFallback o).lastAttempt = s.lastAttempt ∧
    (s.recoverFromFallback o).retryInterval = s.retryInterval ∧
    (s.recoverFromFallback o).maxFallbackKeys = s.maxFallbackKeys ∧
    (s.recoverFromFallback o).fallback.len = 0 := by
  unfold recoverFromFallback flushFallback
  dsimp only
  by_cases hlen : GoMap.len s.fallback.all = 0
  · rw [if_pos hlen]
    exact ⟨rfl, rfl, rfl, rfl, hlen⟩
  · rw [if_neg hlen]
    exact ⟨rfl, rfl, rfl, rfl, rfl⟩

-- ---------------------------------------------------------------------------
-- The size of the fallback
-- ---------------------------------------------------------------------------

/-- A report adds a key only if its key is new. -/
theorem MemoryStorage.len_recordUsage (s : MemoryStorage) (domain : Str) (r : UsageReport) :
    (s.recordUsage domain r).len =
      if (s.get (r.scopedKey domain)).isSome then s.len else s.len + 1 := by
  show (s.update (r.scopedKey domain) r.numRequestsAllowed r.numRequestsDenied).len = _
  unfold MemoryStorage.update MemoryStorage.len MemoryStorage.get
  cases hst : s.buckets.lookup (r.scopedKey domain) with
  | none => exact GoMap.len_insert_of_notMem (AList.lookup_eq_none.mp hst) _
  | some st =>
    have hmem : r.scopedKey domain ∈ s.buckets := (GoMap.mem_iff_lookup _ _).mpr ⟨st, hst⟩
    exact GoMap.len_insert_of_mem hmem _

theorem MemoryStorage.len_removeBucket_le (s : MemoryStorage) (domain : Str) (key : BucketKey) :
    (s.removeBucket domain key).len ≤ s.len :=
  GoMap.len_erase_le s.buckets _

/-- What the breaker promises about the fallback. -/
structure FallbackBounded (maxKeys : Int) (s : RedisStorage) : Prop where
  maxKeys_eq : s.maxFallbackKeys = maxKeys
  empty : s.tripped = false → s.fallback.len = 0
  bounded : (s.fallback.len : Int) ≤ maxKeys

section Bounded

variable {maxKeys : Int} {s : RedisStorage}

/-- A tripped call writes to the fallback within its capacity. -/
theorem FallbackBounded.whileTripped (h : FallbackBounded maxKeys s) (hpos : 0 < maxKeys)
    (c : StoreCall) : ((c.whileTripped s).fallback.len : Int) ≤ maxKeys := by
  have hbound := h.bounded
  cases c with
  | record env domain report =>
    unfold StoreCall.whileTripped RedisStorage.recordTripped
    dsimp only
    split
    · exact hbound
    · rename_i hroom
      show ((s.fallback.recordUsage domain report).len : Int) ≤ maxKeys
      rw [MemoryStorage.len_recordUsage]
      split
      · exact hbound
      · rename_i hnew
        -- there is room, since the key is new
        have hlt : (s.fallback.len : Int) < maxKeys := by
          rw [Bool.not_eq_true, Option.isSome_eq_false_iff] at hnew
          simp only [RedisStorage.atCapacity, hnew, Bool.and_true, Bool.and_eq_true,
            decide_eq_true_eq, h.maxKeys_eq, not_and, not_le] at hroom
          exact hroom hpos
        push_cast
        omega
  | remove env domain key =>
    have hle := s.fallback.len_removeBucket_le domain key
    show ((s.fallback.removeBucket domain key).len : Int) ≤ maxKeys
    omega

/-- The call that trips the breaker finds the fallback empty. -/
theorem toFallback_len_le (hempty : s.fallback.len = 0) (c : StoreCall) :
    (c.toFallback s).fallback.len ≤ 1 := by
  cases c with
  | record env domain report =>
    show (s.fallback.recordUsage domain report).len ≤ 1
    rw [MemoryStorage.len_recordUsage]
    split
    · omega
    · omega
  | remove env domain key =>
    have hle := s.fallback.len_removeBucket_le domain key
    show (s.fallback.removeBucket domain key).len ≤ 1
    omega

/-- Every call keeps the promise. -/
theorem FallbackBounded.call (h : FallbackBounded maxKeys s) (hpos : 0 < maxKeys)
    (c : StoreCall) : FallbackBounded maxKeys (c.run s) := by
  have hattempted : FallbackBounded maxKeys (c.attempted s) := ⟨h.maxKeys_eq, h.empty, h.bounded⟩
  rcases c.run_cases s with ⟨-, -, hres⟩ | ⟨ht, -, hres⟩ | ⟨-, -, -, hres⟩ | ⟨ht, -, -, hres⟩ |
    ⟨ht, -, hres⟩
  · rw [hres]
    exact hattempted
  · rw [hres]
    obtain ⟨htripped, -, -, hmax⟩ := c.toFallback_breaker ((c.attempted s).trip c.env.now)
    have hlen := toFallback_len_le (s := (c.attempted s).trip c.env.now) (h.empty ht) c
    refine ⟨hmax.trans h.maxKeys_eq, fun hclosed => ?_, by omega⟩
    rw [htripped] at hclosed
    simp [RedisStorage.trip] at hclosed
  · rw [hres]
    obtain ⟨-, -, -, hmax, hlen⟩ := (c.attempted s).recover_breaker c.env.flush
    exact ⟨hmax.trans h.maxKeys_eq, fun _ => hlen, by omega⟩
  · rw [hres]
    obtain ⟨htripped, -, -, hmax⟩ := c.whileTripped_breaker (c.attempted s)
    refine ⟨hmax.trans h.maxKeys_eq, fun hclosed => ?_, hattempted.whileTripped hpos c⟩
    have ht₁ : (c.attempted s).tripped = true := ht
    simp [htripped, ht₁] at hclosed
  · rw [hres]
    obtain ⟨htripped, -, -, hmax⟩ := c.whileTripped_breaker s
    refine ⟨hmax.trans h.maxKeys_eq, fun hclosed => ?_, h.whileTripped hpos c⟩
    simp [htripped, ht] at hclosed

end Bounded

/-- So it is kept over every run of calls on a new store. -/
theorem fallbackBounded_calls (cfg : RedisConfig) (redis : Redis) (cs : List StoreCall) :
    FallbackBounded (newRedisStorage cfg redis).maxFallbackKeys
      (runCalls (newRedisStorage cfg redis) cs) := by
  have hpos : 0 < (newRedisStorage cfg redis).maxFallbackKeys := by
    show (0 : Int) < if cfg.maxFallbackKeys ≤ 0 then defaultMaxFallback else cfg.maxFallbackKeys
    split
    · decide
    · omega
  induction cs using List.reverseRecOn with
  | nil => exact ⟨rfl, fun _ => rfl, le_of_lt hpos⟩
  | append_singleton cs c ih =>
    rw [runCalls_append_one]
    exact ih.call hpos c

/-- A report whose key the fallback holds is never dropped: Redis takes it, or the
fallback adds it to its entry. -/
theorem held_key_kept {s : RedisStorage} (env : Env) (domain : Str) (report : UsageReport)
    (hheld : (s.fallback.get (report.scopedKey domain)).isSome = true) :
    (s.recordUsage env domain report).1.log.countP LogLine.isDropping =
      s.log.countP LogLine.isDropping ∧
    ((StoreCall.record env domain report).attempts s = true ∧
        (StoreCall.record env domain report).err s = none ∨
      (s.recordUsage env domain report).1.fallback = s.fallback.recordUsage domain report) := by
  -- both the state before and the state after the pipeline hold the key
  have hkept : ∀ s' : RedisStorage, s'.fallback = s.fallback → s'.log = s.log →
      (s'.recordTripped domain report).1.log = s.log ∧
      (s'.recordTripped domain report).1.fallback = s.fallback.recordUsage domain report := by
    intro s' hfallback hlog
    have hroom : s'.atCapacity (report.scopedKey domain) = false := by
      unfold RedisStorage.atCapacity
      rw [hfallback, Option.isNone_eq_false_iff.mpr hheld, Bool.and_false]
    unfold RedisStorage.recordTripped
    rw [if_neg (by simp [hroom])]
    refine ⟨hlog, ?_⟩
    show s'.fallback.recordUsage domain report = _
    rw [hfallback]
  show ((StoreCall.record env domain report).run s).log.countP LogLine.isDropping = _ ∧
    (_ ∨ ((StoreCall.record env domain report).run s).fallback = _)
  rcases (StoreCall.record env domain report).run_cases s with
    ⟨ht, herr, hres⟩ | ⟨-, -, hres⟩ | ⟨-, hr, herr, hres⟩ | ⟨-, -, -, hres⟩ | ⟨-, -, hres⟩
  · rw [hres]
    exact ⟨rfl, Or.inl ⟨StoreCall.attempts_of_closed ht, herr⟩⟩
  · rw [hres]
    exact ⟨rfl, Or.inr rfl⟩
  · rw [hres, recover_isDropping]
    exact ⟨rfl, Or.inl ⟨StoreCall.attempts_of_retry hr, herr⟩⟩
  · rw [hres]
    obtain ⟨hlog, hfallback⟩ := hkept ((StoreCall.record env domain report).attempted s) rfl rfl
    exact ⟨congrArg _ hlog, Or.inr hfallback⟩
  · rw [hres]
    obtain ⟨hlog, hfallback⟩ := hkept s rfl rfl
    exact ⟨congrArg _ hlog, Or.inr hfallback⟩

/-- **The breaker and its fallback.** After every sequence of calls on a new
store, with any clock and any outcome of every pipeline: a closed breaker has an
empty fallback, the fallback is within the configured size, and the next report
is not dropped if the fallback holds its key. -/
theorem breaker_invariant (cfg : RedisConfig) (redis : Redis) (calls : List StoreCall) :
    let s := runCalls (newRedisStorage cfg redis) calls
    s.maxFallbackKeys = (if cfg.maxFallbackKeys ≤ 0 then 10000 else cfg.maxFallbackKeys) ∧
    (s.tripped = false → s.fallback.len = 0) ∧
    (s.fallback.len : Int) ≤ s.maxFallbackKeys ∧
    ∀ env domain report, (s.fallback.get (report.scopedKey domain)).isSome = true →
      (s.recordUsage env domain report).1.log.countP LogLine.isDropping =
        s.log.countP LogLine.isDropping ∧
      ((StoreCall.record env domain report).attempts s = true ∧
          (StoreCall.record env domain report).err s = none ∨
        (s.recordUsage env domain report).1.fallback = s.fallback.recordUsage domain report) := by
  have h := fallbackBounded_calls cfg redis calls
  exact ⟨h.maxKeys_eq, h.empty, h.maxKeys_eq ▸ h.bounded, held_key_kept⟩

/-- A report of the sample bucket at a time, with Redis up or down. -/
def reportAt (now : Nanos) (up : Bool) : StoreCall :=
  .record ⟨now, upDown up, .reached⟩ [100] sampleReport

/-- A fallback for one key takes every report of that key. -/
theorem breaker_invariant_full_fallback :
    let s := runCalls (newRedisStorage ⟨0, 1⟩ emptyRedis) [reportAt 0 false]
    (s.fallback.len : Int) = s.maxFallbackKeys ∧
      (s.fallback.get (sampleReport.scopedKey [100])).isSome = true ∧
      (s.recordUsage ⟨1, upDown false, upDown false⟩ [100] sampleReport).1.log.countP
        LogLine.isDropping = 0 ∧
      (s.recordUsage ⟨1, upDown false, upDown false⟩ [100] sampleReport).1.fallback =
        s.fallback.recordUsage [100] sampleReport := by
  obtain ⟨-, -, -, hkept⟩ := breaker_invariant ⟨0, 1⟩ emptyRedis [reportAt 0 false]
  obtain ⟨hlog, ⟨hattempts, -⟩ | hfallback⟩ :=
    hkept ⟨1, upDown false, upDown false⟩ [100] sampleReport (by decide)
  · -- the retry is not due
    exact absurd hattempts (by decide)
  · exact ⟨by decide, by decide, hlog, hfallback⟩

-- ---------------------------------------------------------------------------
-- Attempts and their times
-- ---------------------------------------------------------------------------

/-- A pipeline that a call ran for itself: when, whether the breaker was tripped,
and whether it failed. -/
structure Attempt where
  now : Nanos
  retry : Bool
  failed : Bool
  deriving DecidableEq

/-- The attempt of a call, if it makes one. -/
def StoreCall.attempt (c : StoreCall) (s : RedisStorage) : Option Attempt :=
  if c.attempts s then some ⟨c.env.now, s.tripped, (c.err s).isSome⟩ else none

theorem StoreCall.attempt_now {c : StoreCall} {s : RedisStorage} {a : Attempt}
    (ha : c.attempt s = some a) : a.now = c.env.now := by
  unfold attempt at ha
  split at ha
  · cases ha
    rfl
  · simp at ha

/-- The attempts of some calls, in order. -/
def attemptsOf (s : RedisStorage) : List StoreCall → List Attempt
  | [] => []
  | c :: cs => (c.attempt s).toList ++ attemptsOf (c.run s) cs

theorem attemptsOf_append_one (s : RedisStorage) (cs : List StoreCall) (c : StoreCall) :
    attemptsOf s (cs ++ [c]) = attemptsOf s cs ++ (c.attempt (runCalls s cs)).toList := by
  induction cs generalizing s with
  | nil => simp [attemptsOf, runCalls]
  | cons c' cs ih =>
    rw [List.cons_append, attemptsOf, attemptsOf, ih, List.append_assoc]
    rfl

/-- What a call does to the breaker, by its attempt. -/
theorem StoreCall.run_attempt (c : StoreCall) (s : RedisStorage) :
    (c.run s).retryInterval = s.retryInterval ∧
    ((c.attempt s = none ∧ s.tripped = true ∧ s.shouldRetry c.env.now = false ∧
        (c.run s).tripped = true ∧ (c.run s).lastAttempt = s.lastAttempt) ∨
      (∃ a, c.attempt s = some a ∧ a.now = c.env.now ∧ a.retry = s.tripped ∧
        (s.tripped = true → s.shouldRetry c.env.now = true) ∧ (c.run s).tripped = a.failed ∧
        (a.failed = true → (c.run s).lastAttempt =
          if s.tripped then s.lastAttempt else c.env.now))) := by
  rcases c.run_cases s with ⟨ht, herr, hres⟩ | ⟨ht, herr, hres⟩ | ⟨ht, hr, herr, hres⟩ |
    ⟨ht, hr, herr, hres⟩ | ⟨ht, hr, hres⟩
  all_goals rw [hres]
  · refine ⟨rfl, Or.inr ⟨_, if_pos (by simp [attempts, ht]), rfl, rfl, by simp [ht], ?_, ?_⟩⟩
    · simp [attempted, ht, herr]
    · simp [herr]
  · obtain ⟨htripped, hlast, hinterval, -⟩ := c.toFallback_breaker ((c.attempted s).trip c.env.now)
    refine ⟨hinterval, Or.inr ⟨_, if_pos (by simp [attempts, ht]), rfl, rfl, by simp [ht], ?_, ?_⟩⟩
    · rw [htripped, herr]
      rfl
    · intro _
      rw [hlast, ht]
      rfl
  · obtain ⟨htripped, -, hinterval, -, -⟩ := (c.attempted s).recover_breaker c.env.flush
    refine ⟨hinterval, Or.inr ⟨_, if_pos (by simp [attempts, hr]), rfl, rfl, fun _ => hr, ?_, ?_⟩⟩
    · rw [htripped, herr]
      rfl
    · simp [herr]
  · obtain ⟨htripped, hlast, hinterval, -⟩ := c.whileTripped_breaker (c.attempted s)
    refine ⟨hinterval, Or.inr ⟨_, if_pos (by simp [attempts, hr]), rfl, rfl, fun _ => hr, ?_, ?_⟩⟩
    · rw [htripped, herr]
      exact ht
    · intro _
      rw [hlast, ht]
      rfl
  · obtain ⟨htripped, hlast, hinterval, -⟩ := c.whileTripped_breaker s
    refine ⟨hinterval, Or.inl ⟨if_neg (by simp [attempts, ht, hr]), ht, hr, ?_, hlast⟩⟩
    rw [htripped, ht]

/-- The breaker against the attempts made so far: it is tripped if the last one
failed, and `lastAttempt` is the time of the call that tripped it. -/
structure Remembers (s : RedisStorage) (as : List Attempt) : Prop where
  closed : s.tripped = false → ∀ a, as.getLast? = some a → a.failed = false
  tripped : s.tripped = true → ∃ a, as.getLast? = some a ∧ a.failed = true ∧
    (a.retry = false → s.lastAttempt = a.now) ∧
    (a.retry = true → s.retryInterval ≤ a.now - s.lastAttempt)

/-- The invariant is kept by every call. -/
theorem Remembers.call {s : RedisStorage} {as : List Attempt} (h : Remembers s as)
    (c : StoreCall) : Remembers (c.run s) (as ++ (c.attempt s).toList) := by
  obtain ⟨hinterval, hnone | ⟨a, ha, hnow, hretry, hdue, htripped, hlast⟩⟩ := c.run_attempt s
  · obtain ⟨ha, ht, -, htripped, hlast⟩ := hnone
    rw [ha, Option.toList_none, List.append_nil]
    refine ⟨fun hclosed => ?_, fun _ => ?_⟩
    · simp [htripped] at hclosed
    · rw [hlast, hinterval]
      exact h.tripped ht
  · rw [ha, Option.toList_some]
    refine ⟨fun hclosed b hb => ?_, fun hopen => ?_⟩
    · rw [List.getLast?_concat, Option.some.injEq] at hb
      rw [← hb, ← htripped]
      exact hclosed
    · refine ⟨a, List.getLast?_concat, htripped ▸ hopen, fun hfirst => ?_, fun hagain => ?_⟩
      · rw [hlast (htripped ▸ hopen), hnow, if_neg (by rw [← hretry, hfirst]; simp)]
      · have ht : s.tripped = true := hretry ▸ hagain
        rw [hlast (htripped ▸ hopen), if_pos ht, hinterval, hnow]
        exact of_decide_eq_true (hdue ht)

section Spacing

variable {s : RedisStorage} {as : List Attempt} {c : StoreCall} {a b : Attempt}

/-- After the call that tripped the breaker the interval is kept. -/
theorem Remembers.first_retry (h : Remembers s as) (hlast : as.getLast? = some a)
    (hfailed : a.failed = true) (hfirst : a.retry = false) (hb : c.attempt s = some b) :
    s.retryInterval ≤ b.now - a.now := by
  have ht : s.tripped = true := by
    by_contra hclosed
    have hok := h.closed (Bool.eq_false_iff.mpr hclosed) a hlast
    simp [hfailed] at hok
  obtain ⟨a', hlast', -, htime, -⟩ := h.tripped ht
  obtain rfl : a = a' := Option.some.inj (hlast.symm.trans hlast')
  obtain ⟨-, hnone | ⟨_, -, -, -, hdue, -, -⟩⟩ := c.run_attempt s
  · simp [hnone.1] at hb
  · rw [StoreCall.attempt_now hb, ← htime hfirst]
    exact of_decide_eq_true (hdue ht)

/-- After a failed retry every call is an attempt. -/
theorem Remembers.retry_again (h : Remembers s as) (hlast : as.getLast? = some a)
    (hagain : a.retry = true) (hclock : a.now ≤ c.env.now) :
    c.attempt s ≠ none := by
  intro hnone
  obtain ⟨-, ⟨-, ht, hwait, -, -⟩ | ⟨b, hb, -⟩⟩ := c.run_attempt s
  · obtain ⟨a', hlast', -, -, htime⟩ := h.tripped ht
    obtain rfl : a = a' := Option.some.inj (hlast.symm.trans hlast')
    have hpassed : s.retryInterval ≤ c.env.now - s.lastAttempt :=
      le_trans (htime hagain) (Int.sub_le_sub_right hclock _)
    exact of_decide_eq_false hwait hpassed
  · simp [hb] at hnone

theorem remembers_calls (hclosed : s.tripped = false) (cs : List StoreCall) :
    Remembers (runCalls s cs) (attemptsOf s cs) ∧
      (runCalls s cs).retryInterval = s.retryInterval := by
  induction cs using List.reverseRecOn with
  | nil =>
    refine ⟨⟨fun _ a ha => ?_, fun hopen => ?_⟩, rfl⟩
    · simp [attemptsOf] at ha
    · simp [runCalls, hclosed] at hopen
  | append_singleton cs c ih =>
    rw [runCalls_append_one, attemptsOf_append_one]
    exact ⟨ih.1.call c, (c.run_attempt (runCalls s cs)).1.trans ih.2⟩

theorem attemptsOf_now (cs : List StoreCall) (ha : a ∈ attemptsOf s cs) :
    ∃ c ∈ cs, c.env.now = a.now := by
  induction cs generalizing s with
  | nil => simp [attemptsOf] at ha
  | cons c cs ih =>
    rcases List.mem_append.mp ha with ha | ha
    · exact ⟨c, List.mem_cons_self, (StoreCall.attempt_now (Option.mem_toList.mp ha)).symm⟩
    · obtain ⟨c', hc', hnow⟩ := ih ha
      exact ⟨c', List.mem_cons_of_mem c hc', hnow⟩

theorem isChain_append_toList {R : Attempt → Attempt → Prop} (o : Option Attempt) :
    (as ++ o.toList).IsChain R ↔
      as.IsChain R ∧ ∀ b, o = some b → ∀ a, as.getLast? = some a → R a b := by
  cases o with
  | none => simp
  | some b => simp [List.isChain_append]

/-- No call comes sooner than the interval after a failed retry. -/
def Patient (s : RedisStorage) (calls : List StoreCall) : Prop :=
  ∀ pre c, pre ++ [c] <+: calls → ∀ a, (attemptsOf s pre).getLast? = some a →
    a.retry = true → a.failed = true → s.retryInterval ≤ c.env.now - a.now

theorem patient_append_one (cs : List StoreCall) (c : StoreCall) :
    Patient s (cs ++ [c]) ↔ Patient s cs ∧ ∀ a, (attemptsOf s cs).getLast? = some a →
      a.retry = true → a.failed = true → s.retryInterval ≤ c.env.now - a.now := by
  constructor
  · intro h
    refine ⟨fun pre c' hpre => ?_, h cs c (List.prefix_refl _)⟩
    exact h pre c' (hpre.trans (List.prefix_append cs [c]))
  · rintro ⟨hbefore, hlast⟩ pre c' hpre
    rcases List.prefix_concat_iff.mp hpre with heq | hpre
    · obtain ⟨rfl, hc⟩ := List.append_inj' heq rfl
      obtain rfl : c' = c := List.singleton_inj.mp hc
      exact hlast
    · exact hbefore pre c' hpre

/-- **Retry spacing.** For every sequence of calls with clock readings that do not
go back, from a closed breaker: the first retry of an outage comes at least
`retryInterval` after the call that tripped the breaker; and all consecutive
attempts of all outages are spaced like that if and only if no call comes sooner
than `retryInterval` after a failed retry. -/
theorem retry_spacing (hclosed : s.tripped = false) {calls : List StoreCall}
    (hclock : (calls.map fun c => c.env.now).Pairwise (· ≤ ·)) :
    (attemptsOf s calls).IsChain
      (fun a b => a.failed = true → a.retry = false → s.retryInterval ≤ b.now - a.now) ∧
    ((attemptsOf s calls).IsChain (fun a b => a.failed = true → s.retryInterval ≤ b.now - a.now) ↔
      Patient s calls) := by
  induction calls using List.reverseRecOn with
  | nil =>
    refine ⟨List.IsChain.nil, fun _ pre c hpre => ?_, fun _ => List.IsChain.nil⟩
    simp at hpre
  | append_singleton cs c ih =>
    rw [List.map_append, List.pairwise_append] at hclock
    obtain ⟨hbefore, -, hlater⟩ := hclock
    obtain ⟨hfirst, hall⟩ := ih hbefore
    obtain ⟨hmem, hinterval⟩ := remembers_calls hclosed cs
    rw [attemptsOf_append_one, isChain_append_toList, isChain_append_toList, patient_append_one,
      ← hall]
    refine ⟨⟨hfirst, fun b hb a ha hfailed hretry => ?_⟩, and_congr_right fun _ => ⟨?_, ?_⟩⟩
    · exact hinterval ▸ hmem.first_retry ha hfailed hretry hb
    · -- after a failed retry this call is the next attempt
      intro hnext a ha hagain hfailed
      obtain ⟨c', hc', hnow⟩ := attemptsOf_now cs (List.mem_of_getLast? ha)
      have hle : a.now ≤ c.env.now :=
        hnow ▸ hlater _ (List.mem_map_of_mem hc') _ (List.mem_singleton_self _)
      obtain ⟨b, hb⟩ := Option.ne_none_iff_exists'.mp (hmem.retry_again ha hagain hle)
      rw [← StoreCall.attempt_now hb]
      exact hnext b hb a ha hfailed
    · intro hpatient b hb a ha hfailed
      cases hretry : a.retry with
      | false => exact hinterval ▸ hmem.first_retry ha hfailed hretry hb
      | true =>
        rw [StoreCall.attempt_now hb]
        exact hpatient a ha hretry hfailed

end Spacing

/-- Redis goes down; one retry fails after five seconds, the next one succeeds
five seconds later. -/
theorem patient_retries :
    Patient (newRedisStorage ⟨0, 0⟩ emptyRedis)
      [reportAt 0 false, reportAt 5000000000 false, reportAt 10000000000 true] ∧
    (attemptsOf (newRedisStorage ⟨0, 0⟩ emptyRedis)
      [reportAt 0 false, reportAt 5000000000 false, reportAt 10000000000 true]).IsChain
        (fun a b => a.failed = true → 5000000000 ≤ b.now - a.now) := by
  have hpatient : Patient (newRedisStorage ⟨0, 0⟩ emptyRedis)
      (([] ++ [reportAt 0 false]) ++ [reportAt 5000000000 false] ++
        [reportAt 10000000000 true]) := by
    rw [patient_append_one, patient_append_one, patient_append_one]
    refine ⟨⟨⟨fun pre c hpre => ?_, ?_⟩, ?_⟩, ?_⟩
    · simp at hpre
    · exact fun a ha => nomatch ha
    · intro a ha
      obtain rfl : (⟨0, false, true⟩ : Attempt) = a := Option.some.inj ha
      simp
    · intro a ha
      obtain rfl : (⟨5000000000, true, true⟩ : Attempt) = a := Option.some.inj ha
      decide
  exact ⟨hpatient, (retry_spacing rfl (by decide)).2.mpr hpatient⟩

/-- The retry after five seconds fails, and a report one nanosecond later goes to
Redis again. -/
theorem retry_after_a_nanosecond :
    ([reportAt 0 false, reportAt 5000000000 false, reportAt 5000000001 false].map
      fun c => c.env.now).Pairwise (· ≤ ·) ∧
    attemptsOf (newRedisStorage ⟨0, 0⟩ emptyRedis)
      [reportAt 0 false, reportAt 5000000000 false, reportAt 5000000001 false] =
        [⟨0, false, true⟩, ⟨5000000000, true, true⟩, ⟨5000000001, true, true⟩] ∧
    ¬ (attemptsOf (newRedisStorage ⟨0, 0⟩ emptyRedis)
      [reportAt 0 false, reportAt 5000000000 false, reportAt 5000000001 false]).IsChain
        (fun a b => a.failed = true → 5000000000 ≤ b.now - a.now) := by
  have hattempts : attemptsOf (newRedisStorage ⟨0, 0⟩ emptyRedis)
      [reportAt 0 false, reportAt 5000000000 false, reportAt 5000000001 false] =
        [⟨0, false, true⟩, ⟨5000000000, true, true⟩, ⟨5000000001, true, true⟩] := rfl
  refine ⟨by decide, hattempts, fun hchain => ?_⟩
  rw [hattempts, List.isChain_cons_cons, List.isChain_cons_cons] at hchain
  have hspaced := hchain.2.1 rfl
  revert hspaced
  decide

end Rlqs
