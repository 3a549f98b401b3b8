import Rlqs.Storage.Partial
import Rlqs.Storage.Recorders

/-!
# RLQS storage — counters that only grow

`Allowed` and `Denied` are running totals. A client chooses the counts it reports,
any `uint64`. `MemoryStorage.Update` adds them modulo 2^64; the Redis store
converts them to `int64`, on the direct path and again for the sums that a flush
carries over, so that a count of 2^63 or more is subtracted.

* `recordUsage_forward_iff` — the in-memory store;
* `landed_nonneg_iff` — one increment of a pipeline on a counter in range;
* `recordStep_forward_iff` — one operation of a `RecordUsage` call in progress;
* `counters_forward` — any number of interleaved calls and their flushes, from the
  empty store on.
-/

namespace Rlqs

open Interleave Steps

-- ---------------------------------------------------------------------------
-- The in-memory store
-- ---------------------------------------------------------------------------

/-- No counter has decreased. -/
def MemoryStorage.Forward (s s' : MemoryStorage) : Prop := ∀ k f, s.count k f ≤ s'.count k f

theorem recordUsage_forward_iff (s : MemoryStorage) (domain : Str) (report : UsageReport) :
    s.Forward (s.recordUsage domain report) ↔
      ∀ f, s.count (report.scopedKey domain) f + (report.amount f).toNat < 2 ^ 64 := by
  constructor
  · intro h f
    have hle := h (report.scopedKey domain) f
    have hcount := s.count_lt (report.scopedKey domain) f
    have hamount := (report.amount f).toNat_lt
    rw [MemoryStorage.count_recordUsage, if_pos rfl] at hle
    by_contra hwrap
    -- a wrapped sum is smaller than either summand, unless the other one is zero
    omega
  · intro h k f
    rw [MemoryStorage.count_recordUsage]
    split
    · rename_i hk
      rw [hk, Nat.mod_eq_of_lt (h f)]
      omega
    · exact le_refl _

-- ---------------------------------------------------------------------------
-- Pipelines
-- ---------------------------------------------------------------------------

/-- No counter has decreased. -/
def Redis.Forward (r r' : Redis) : Prop := ∀ k f, r.count k f ≤ r'.count k f

/-- Counters as they should be: not negative, and within 64 bits. -/
def Redis.InRange (r : Redis) : Prop := ∀ k f, 0 ≤ r.count k f ∧ r.count k f < 2 ^ 63

/-- An increment on a counter in range goes forward, unless it is executed with an
amount that `int64` makes negative. -/
theorem landed_nonneg_iff {r : Redis} (hrange : r.InRange) (o : Outcome) (cmds : List Command)
    (k : BucketKey) (f : Field) (u : UInt64) :
    0 ≤ landed r o cmds k f (int64 u) ↔
      (.hIncrBy k f (int64 u) ∈ o.executed cmds → u.toNat < 2 ^ 63) := by
  obtain ⟨hlow, hhigh⟩ := hrange k f
  have hlt := u.toNat_lt
  unfold landed
  by_cases hran : .hIncrBy k f (int64 u) ∈ o.executed cmds
  · simp only [hran, true_and, forall_const]
    rcases int64_cases u with ⟨hsmall, h⟩ | ⟨hlarge, h⟩
    · rw [h]
      refine ⟨fun _ => hsmall, fun _ => ?_⟩
      split
      · omega
      · exact le_refl 0
    · have hfits : FitsInt64 (r.count k f + int64 u) := by
        constructor
        · omega
        · omega
      rw [if_pos hfits, h]
      omega
  · simp [hran]

/-- No pipeline takes a counter beyond 64 bits. -/
theorem Redis.execAll_lt {cmds : List Command} :
    ∀ {r : Redis}, (∀ k f, r.count k f < 2 ^ 63) →
      ∀ k f, (r.execAll cmds).1.count k f < 2 ^ 63 := by
  induction cmds with
  | nil => exact fun h => h
  | cons c cs ih =>
    intro r h
    rw [Redis.execAll_cons]
    refine ih fun k f => ?_
    cases hc : c.touches k f with
    | false =>
      rw [Redis.exec_untouched r hc]
      exact h k f
    | true =>
      cases c with
      | hIncrBy k' f' n =>
        simp only [Command.touches, decide_eq_true_eq] at hc
        obtain ⟨rfl, rfl⟩ := hc
        have hlt := h k' f'
        rw [Redis.exec_hIncrBy_count]
        split
        · rename_i hfits
          exact hfits.2
        · omega
      | expire k' ttl => exact h k f
      | del k' =>
        simp only [Command.touches, decide_eq_true_eq] at hc
        simp [Redis.exec, Redis.count, hc]

/-- The pipeline of a report. -/
theorem record_forward_iff {r : Redis} (hrange : r.InRange) (o : Outcome) (key : BucketKey)
    (ttl : Nanos) (report : UsageReport) :
    r.Forward (r.runPipeline (recordCommands key ttl report) o).1 ↔
      ∀ f, .hIncrBy key f (int64 (report.amount f)) ∈ o.executed (recordCommands key ttl report) →
        (report.amount f).toNat < 2 ^ 63 := by
  constructor
  · intro h f
    rw [← landed_nonneg_iff hrange]
    have hle := h key f
    rw [executed_count (recordCommands_touching key ttl report f)] at hle
    omega
  · intro h k f
    by_cases hk : k = key
    · subst hk
      have hnonneg := (landed_nonneg_iff hrange o (recordCommands k ttl report) k f _).mpr (h f)
      rw [executed_count (recordCommands_touching k ttl report f)]
      omega
    · rw [executed_untouched (recordCommands_untouching hk ttl report f)]

/-- The pipeline of a flush. -/
theorem flush_forward_iff {r : Redis} (hrange : r.InRange) (o : Outcome) (ttl : Nanos)
    (entries : GoMap BucketKey UsageState) :
    r.Forward (r.runPipeline (flushCommands ttl entries) o).1 ↔
      ∀ k f, .hIncrBy k f (int64 (MemoryStorage.counter ⟨entries⟩ k f)) ∈
          o.executed (flushCommands ttl entries) →
        MemoryStorage.count ⟨entries⟩ k f < 2 ^ 63 := by
  refine forall_congr' fun k => forall_congr' fun f => ?_
  rw [flush_count, ← MemoryStorage.toNat_counter, ← landed_nonneg_iff hrange]
  omega

-- ---------------------------------------------------------------------------
-- One operation of a call
-- ---------------------------------------------------------------------------

/-- The counters of Redis have not decreased; those of the fallback have not
either, or it was cleared. -/
def RedisStorage.Forward (s s' : RedisStorage) : Prop :=
  s.redis.Forward s'.redis ∧ (s.fallback.Forward s'.fallback ∨ s'.fallback = s.fallback.clear)

/-- The numbers of an operation fit: increments that Redis executes are below 2^63,
and the fallback's sum is below 2^64. -/
def OperationFits (s : RedisStorage) (p : Recorder) (x : RecordInput) : Prop :=
  match p.pc, x with
  | .retry, .redis o | .direct, .redis o =>
    ∀ f, .hIncrBy p.key f (int64 (p.report.amount f)) ∈
        o.executed (recordCommands p.key s.keyTTL p.report) →
      (p.report.amount f).toNat < 2 ^ 63
  | .flush entries, .redis o =>
    ∀ k f, .hIncrBy k f (int64 (MemoryStorage.counter ⟨entries⟩ k f)) ∈
        o.executed (flushCommands s.keyTTL entries) →
      MemoryStorage.count ⟨entries⟩ k f < 2 ^ 63
  | .update, .tick =>
    ∀ f, s.fallback.count p.key f + (p.report.amount f).toNat < 2 ^ 64
  | _, _ => True

/-- An operation that touches neither. -/
theorem RedisStorage.Forward.of_same {s s' : RedisStorage} (hredis : s'.redis = s.redis)
    (hfallback : s'.fallback = s.fallback) : s.Forward s' := by
  refine ⟨fun k f => ?_, Or.inl fun k f => ?_⟩
  · rw [hredis]
  · rw [hfallback]

/-- An operation on Redis alone. -/
theorem RedisStorage.forward_iff_redis {s s' : RedisStorage}
    (hfallback : s'.fallback = s.fallback) : s.Forward s' ↔ s.redis.Forward s'.redis := by
  refine ⟨fun h => h.1, fun h => ⟨h, Or.inl fun k f => ?_⟩⟩
  rw [hfallback]

/-- The update of the fallback. -/
theorem update_forward_iff (s : RedisStorage) (domain : Str) (report : UsageReport) :
    s.Forward (s.fallbackRecord domain report).1 ↔
      ∀ f, s.fallback.count (report.scopedKey domain) f + (report.amount f).toNat < 2 ^ 64 := by
  rw [← recordUsage_forward_iff]
  constructor
  · rintro ⟨-, hforward | hcleared⟩
    · exact hforward
    · -- an update leaves an entry behind
      have hget : (s.fallback.recordUsage domain report).get (report.scopedKey domain) =
          s.fallback.clear.get (report.scopedKey domain) :=
        congrArg (fun m : MemoryStorage => m.get (report.scopedKey domain)) hcleared
      rw [MemoryStorage.get_recordUsage, if_pos rfl] at hget
      exact absurd hget (fun h => nomatch h)
  · exact fun h => ⟨fun k f => le_refl _, Or.inl h⟩

/-- One operation goes forward exactly if its numbers fit. -/
theorem recordStep_forward_iff {s s' : RedisStorage} {p p' : Recorder} {x : RecordInput}
    (hrange : s.redis.InRange) (h : recordStep s p x = some (s', p')) :
    s.Forward s' ↔ OperationFits s p x := by
  -- most operations change neither the server's data nor the fallback
  have hquiet : s'.redis = s.redis → s'.fallback = s.fallback → (s.Forward s' ↔ True) :=
    fun hredis hfallback => iff_true_intro (RedisStorage.Forward.of_same hredis hfallback)
  unfold OperationFits
  cases recordStep_turn h with
  | retried hpc hatt | retryFailed hpc hatt | direct hpc hatt | directFailed hpc hatt =>
    rw [hpc]
    obtain rfl := congrArg Prod.fst hatt
    refine Iff.trans (RedisStorage.forward_iff_redis rfl) ?_
    exact record_forward_iff hrange _ p.key s.keyTTL p.report
  | @flush entries o line hpc =>
    rw [hpc]
    refine Iff.trans (RedisStorage.forward_iff_redis rfl) ?_
    exact flush_forward_iff hrange o s.keyTTL entries
  | clear hpc =>
    rw [hpc]
    exact iff_true_intro ⟨fun k f => le_refl _, Or.inr rfl⟩
  | update hpc =>
    rw [hpc]
    exact update_forward_iff s p.domain p.report
  | _ hpc =>
    rw [hpc]
    exact hquiet rfl rfl

/-- An operation leaves the server's data alone or runs one pipeline on it. -/
theorem recordStep_redis {s s' : RedisStorage} {p p' : Recorder} {x : RecordInput}
    (h : recordStep s p x = some (s', p')) :
    s'.redis = s.redis ∨ ∃ cmds o, s'.redis = (s.redis.runPipeline cmds o).1 := by
  cases recordStep_turn h with
  | retried _ hatt | retryFailed _ hatt | direct _ hatt | directFailed _ hatt =>
    obtain rfl := congrArg Prod.fst hatt
    exact Or.inr ⟨_, _, rfl⟩
  | flush => exact Or.inr ⟨_, _, rfl⟩
  | _ => exact Or.inl rfl

-- ---------------------------------------------------------------------------
-- Runs
-- ---------------------------------------------------------------------------

/-- The guard: every operation's numbers fit. -/
def NumbersFit (w : Pool RedisStorage Recorder) : Move (Str × UsageReport) RecordInput → Prop
  | .spawn _ => True
  | .act i x => ∀ p, w.procs[i]? = some p → OperationFits w.shared p x

/-- A move goes forward exactly if it meets the guard. -/
theorem next_forward_iff {w w' : Pool RedisStorage Recorder}
    {m : Move (Str × UsageReport) RecordInput} (hrange : w.shared.redis.InRange)
    (hn : recordMachine.next w m = some w') : w.shared.Forward w'.shared ↔ NumbersFit w m := by
  rcases next_cases hn with ⟨a, rfl, rfl⟩ | ⟨i, x, p, s', p', rfl, hp, hs, rfl⟩
  · exact iff_true_intro (RedisStorage.Forward.of_same rfl rfl)
  · refine (recordStep_forward_iff hrange hs).trans ?_
    show OperationFits w.shared p x ↔ ∀ q, w.procs[i]? = some q → OperationFits w.shared q x
    simp [hp]

/-- In a guarded run from the empty store no counter of Redis is negative. -/
theorem inRange_of_run {cfg : RedisConfig} {w : Pool RedisStorage Recorder}
    (hrun : recordMachine.Run NumbersFit ⟨newRedisStorage cfg emptyRedis, []⟩ w) :
    w.shared.redis.InRange := by
  refine Run.invariant (I := fun w => w.shared.redis.InRange) hrun ?_ ?_
  · intro k f
    show (0 : Int) ≤ 0 ∧ (0 : Int) < 2 ^ 63
    decide
  intro w m w' _ hrange hok hn k f
  have hforward := (next_forward_iff hrange hn).mpr hok
  refine ⟨le_trans (hrange k f).1 (hforward.1 k f), ?_⟩
  rcases next_cases hn with ⟨a, rfl, rfl⟩ | ⟨i, x, p, s', p', rfl, hp, hs, rfl⟩
  · exact (hrange k f).2
  · rcases recordStep_redis hs with hsame | ⟨cmds, o, hpipe⟩
    · rw [hsame]
      exact (hrange k f).2
    · rw [hpipe, Redis.runPipeline_fst]
      exact Redis.execAll_lt (fun k f => (hrange k f).2) k f

/-- **Counters never go backwards, as long as the numbers fit.** The in-memory store
goes forward with a report exactly if the sums stay below 2^64. For any number of
interleaved `RecordUsage` calls and their flushes on the Redis store, from empty and
with any outcome of every pipeline: as long as every increment that Redis executes
is below 2^63 and every sum of the fallback below 2^64, no counter of Redis is
negative and no operation decreases a counter; and an operation that does not meet
this decreases one. -/
theorem counters_forward (s : MemoryStorage) (domain : Str) (report : UsageReport)
    {cfg : RedisConfig} {w : Pool RedisStorage Recorder}
    (hrun : recordMachine.Run NumbersFit ⟨newRedisStorage cfg emptyRedis, []⟩ w) :
    (s.Forward (s.recordUsage domain report) ↔
      ∀ f, s.count (report.scopedKey domain) f + (report.amount f).toNat < 2 ^ 64) ∧
    (∀ k f, 0 ≤ w.shared.redis.count k f) ∧
    ∀ m w', recordMachine.next w m = some w' → (w.shared.Forward w'.shared ↔ NumbersFit w m) := by
  have hrange := inRange_of_run hrun
  exact ⟨recordUsage_forward_iff s domain report, fun k f => (hrange k f).1,
    fun m w' hn => next_forward_iff hrange hn⟩

/-- A report of 5 and 1 on its way to Redis: the operation that writes it goes
forward. -/
theorem small_report_forward :
    ∃ w w', recordMachine.Run NumbersFit ⟨newRedisStorage ⟨0, 0⟩ emptyRedis, []⟩ w ∧
      recordMachine.next w (.act 0 (.redis .reached)) = some w' ∧
      w.shared.Forward w'.shared ∧ w'.shared.redis.count sampleKey .allowed = 5 := by
  have hrun : recordMachine.Run NumbersFit ⟨newRedisStorage ⟨0, 0⟩ emptyRedis, []⟩
      ⟨newRedisStorage ⟨0, 0⟩ emptyRedis, [⟨.direct, [100], sampleReport⟩]⟩ := by
    refine Relation.ReflTransGen.head ⟨.spawn ([100], sampleReport), trivial, rfl⟩ ?_
    refine Relation.ReflTransGen.single ⟨.act 0 .tick, fun p hp => ?_, rfl⟩
    cases hp
    trivial
  refine ⟨_, _, hrun, rfl, ?_, by decide⟩
  have hforward := (counters_forward MemoryStorage.newMemoryStorage [100] sampleReport hrun).2.2
  refine (hforward (.act 0 (.redis .reached)) _ rfl).mpr fun p hp => ?_
  cases hp
  rintro f -
  cases f <;> decide

/-- One report of 2^63 makes the counter in Redis negative; in the in-memory store
2^64 - 1 and one more are zero. -/
theorem large_count_goes_back :
    ((newRedisStorage ⟨0, 0⟩ emptyRedis).recordUsage ⟨0, .reached, .reached⟩ [100]
      ⟨some sampleId, 9223372036854775808, 0, 0⟩).1.redis.count sampleKey .allowed =
        -9223372036854775808 ∧
    (MemoryStorage.newMemoryStorage.recordUsage [100]
      ⟨some sampleId, 18446744073709551615, 0, 0⟩).count sampleKey .allowed =
        18446744073709551615 ∧
    ((MemoryStorage.newMemoryStorage.recordUsage [100]
      ⟨some sampleId, 18446744073709551615, 0, 0⟩).recordUsage [100]
      ⟨some sampleId, 1, 0, 0⟩).count sampleKey .allowed = 0 := by
  decide

end Rlqs
