import Rlqs.Storage.Redis

/-!
# RLQS storage — no usage is lost without a trace

`RedisStorage.RecordUsage` calls one after another, with any clock and any
schedule of Redis being up or down, a pipeline being all-or-nothing
(`upDown`). As long as the totals stay below 2^63, every reported count is in
one of four places (`usage_conserved`): in Redis, in the fallback, among the
reports dropped at capacity, or in a fallback whose flush failed; and a report
is only dropped by a tripped call that did not reach Redis, with a full
fallback that does not hold the report's key.

The proof carries one invariant (`Balanced`) through the four ends a call can
have: written to Redis, written and recovered, written to the fallback, or
dropped.
-/

namespace Rlqs

-- ---------------------------------------------------------------------------
-- Runs of RecordUsage calls
-- ---------------------------------------------------------------------------

/-- A pipeline is executed as a whole or not at all, and reported truthfully. -/
def upDown (up : Bool) : Outcome := if up then .reached else .failed [] .unreachable

/-- A `RecordUsage` call: its arguments, the clock, and whether Redis is up for
the call's own pipeline and for the flush. -/
structure RecordCall where
  domain : Str
  report : UsageReport
  now : Nanos
  attemptUp : Bool
  flushUp : Bool

def RecordCall.env (c : RecordCall) : Env := ⟨c.now, upDown c.attemptUp, upDown c.flushUp⟩

def RecordCall.key (c : RecordCall) : BucketKey := c.report.scopedKey c.domain

def RecordCall.call (c : RecordCall) : StoreCall := .record c.env c.domain c.report

/-- The state after a call. -/
def RecordCall.run (s : RedisStorage) (c : RecordCall) : RedisStorage := c.call.run s

/-- The usage a warning says was dropped at capacity. -/
def LogLine.dropped (k : BucketKey) (f : Field) : LogLine → ℕ
  | .dropping key r => if k = key then (r.amount f).toNat else 0
  | _ => 0

/-- The usage a warning says was lost in a failed flush. -/
def LogLine.lost (k : BucketKey) (f : Field) : LogLine → ℕ
  | .flushFailed entries _ => MemoryStorage.count ⟨entries⟩ k f
  | _ => 0

def droppedCount (log : List LogLine) (k : BucketKey) (f : Field) : ℕ :=
  (log.map (LogLine.dropped k f)).sum

def lostCount (log : List LogLine) (k : BucketKey) (f : Field) : ℕ :=
  (log.map (LogLine.lost k f)).sum

/-- What a call adds to the total of a counter. -/
def reportedBy (key : BucketKey) (r : UsageReport) (k : BucketKey) (f : Field) : ℕ :=
  if k = key then (r.amount f).toNat else 0

/-- Every count of the total is in one of the four places. -/
structure Balanced (tot : BucketKey → Field → ℕ) (s : RedisStorage) : Prop where
  nonneg : ∀ k f, 0 ≤ s.redis.count k f
  sum : ∀ k f, s.redis.count k f + s.fallback.count k f + droppedCount s.log k f +
    lostCount s.log k f = tot k f

-- ---------------------------------------------------------------------------
-- The parts of a call
-- ---------------------------------------------------------------------------

section Parts

variable {s : RedisStorage} {tot : BucketKey → Field → ℕ}

theorem droppedCount_append_one (log : List LogLine) (line : LogLine) (k : BucketKey) (f : Field) :
    droppedCount (log ++ [line]) k f = droppedCount log k f + line.dropped k f := by
  simp [droppedCount]

theorem lostCount_append_one (log : List LogLine) (line : LogLine) (k : BucketKey) (f : Field) :
    lostCount (log ++ [line]) k f = lostCount log k f + line.lost k f := by
  simp [lostCount]

theorem pipeline_down (s : RedisStorage) (cmds : List Command) :
    s.pipeline cmds (upDown false) = (s, some .unreachable) := by
  simp [RedisStorage.pipeline, upDown, Redis.runPipeline, Redis.execAll]

/-- The balance does not see the breaker. -/
theorem Balanced.congr {s' : RedisStorage} (h : Balanced tot s) (hr : s'.redis = s.redis)
    (hf : s'.fallback = s.fallback) (hl : s'.log = s.log) : Balanced tot s' := by
  refine ⟨?_, ?_⟩
  · rw [hr]
    exact h.nonneg
  · rw [hr, hf, hl]
    exact h.sum

/-- No account exceeds the total. -/
theorem Balanced.le_total (h : Balanced tot s) (k : BucketKey) (f : Field) :
    s.redis.count k f + s.fallback.count k f ≤ tot k f := by
  have hsum := h.sum k f
  omega

/-- A pipeline that writes one report, from non-negative counters and within
2^63: no error, and the report's counters are added. -/
theorem attempt_reached (hnonneg : ∀ k f, 0 ≤ s.redis.count k f) (key : BucketKey) (r : UsageReport)
    (hfits : ∀ k f, s.redis.count k f + reportedBy key r k f < 2 ^ 63) :
    (s.tryRedisRecordUsage key r .reached).2 = none ∧
    ∀ k f, (s.tryRedisRecordUsage key r .reached).1.redis.count k f =
      s.redis.count k f + reportedBy key r k f := by
  have hsmall : ∀ f, (r.amount f).toNat < 2 ^ 63 := by
    intro f
    have hfit := hfits key f
    have hp := hnonneg key f
    unfold reportedBy at hfit
    rw [if_pos rfl] at hfit
    omega
  obtain ⟨hinc, hadds⟩ := recordCommands_adds hsmall key s.keyTTL
  have hadds' : ∀ k f, pipelineAdds k f (recordCommands key s.keyTTL r) = reportedBy key r k f := by
    intro k f
    rw [hadds]
    unfold reportedBy
    split
    · rfl
    · rfl
  obtain ⟨herr, -, hcount⟩ := Redis.execAll_increments hinc hnonneg fun k f => by
    rw [hadds']
    exact hfits k f
  refine ⟨herr, fun k f => ?_⟩
  rw [← hadds']
  exact hcount k f

/-- A report written to Redis. -/
theorem Balanced.attempt_up (h : Balanced tot s) (key : BucketKey) (r : UsageReport)
    (hfits : ∀ k f, tot k f + reportedBy key r k f < 2 ^ 63) :
    (s.tryRedisRecordUsage key r (upDown true)).2 = none ∧
    Balanced (fun k f => tot k f + reportedBy key r k f)
      (s.tryRedisRecordUsage key r (upDown true)).1 := by
  obtain ⟨herr, hcount⟩ := attempt_reached h.nonneg key r fun k f => by
    have hle := h.le_total k f
    have hfit := hfits k f
    omega
  refine ⟨herr, ⟨fun k f => ?_, fun k f => ?_⟩⟩
  · have hp := h.nonneg k f
    show 0 ≤ (s.tryRedisRecordUsage key r .reached).1.redis.count k f
    rw [hcount]
    omega
  · have hsum := h.sum k f
    show (s.tryRedisRecordUsage key r .reached).1.redis.count k f + s.fallback.count k f +
      droppedCount s.log k f + lostCount s.log k f = _
    rw [hcount]
    push_cast
    omega

/-- A report written to the fallback. -/
theorem Balanced.fallbackRecord (h : Balanced tot s) (domain : Str) (r : UsageReport)
    (hfits : ∀ k f, tot k f + reportedBy (r.scopedKey domain) r k f < 2 ^ 63) :
    Balanced (fun k f => tot k f + reportedBy (r.scopedKey domain) r k f)
      (s.fallbackRecord domain r).1 := by
  refine ⟨h.nonneg, fun k f => ?_⟩
  have hsum := h.sum k f
  have hp := h.nonneg k f
  have hfit := hfits k f
  have hcount : (s.fallback.recordUsage domain r).count k f =
      s.fallback.count k f + reportedBy (r.scopedKey domain) r k f := by
    rw [MemoryStorage.count_recordUsage]
    unfold reportedBy at hfit ⊢
    by_cases hk : k = r.scopedKey domain
    · rw [if_pos hk] at hfit ⊢
      rw [if_pos hk]
      apply Nat.mod_eq_of_lt
      omega
    · rw [if_neg hk, if_neg hk, add_zero]
  show s.redis.count k f + (s.fallback.recordUsage domain r).count k f +
    droppedCount s.log k f + lostCount s.log k f = _
  rw [hcount]
  push_cast
  omega

/-- A report that did not reach Redis: dropped or written to the fallback. -/
theorem Balanced.recordTripped (h : Balanced tot s) (domain : Str) (r : UsageReport)
    (hfits : ∀ k f, tot k f + reportedBy (r.scopedKey domain) r k f < 2 ^ 63) :
    Balanced (fun k f => tot k f + reportedBy (r.scopedKey domain) r k f)
      (s.recordTripped domain r).1 := by
  unfold RedisStorage.recordTripped
  split
  · refine ⟨h.nonneg, fun k f => ?_⟩
    have hsum := h.sum k f
    have hdropped : LogLine.dropped k f (.dropping (r.scopedKey domain) r) =
        reportedBy (r.scopedKey domain) r k f := rfl
    have hlost : LogLine.lost k f (.dropping (r.scopedKey domain) r) = 0 := rfl
    dsimp only
    rw [droppedCount_append_one, lostCount_append_one, hdropped, hlost]
    push_cast
    omega
  · exact h.fallbackRecord domain r hfits

/-- Recovery moves the fallback to Redis, or to the lost counts. -/
theorem Balanced.recover (h : Balanced tot s) (hfits : ∀ k f, tot k f < 2 ^ 63) (up : Bool) :
    Balanced tot (s.recoverFromFallback (upDown up)) := by
  unfold RedisStorage.recoverFromFallback RedisStorage.flushFallback
  by_cases hlen : GoMap.len s.fallback.all = 0
  · simp only [if_pos hlen]
    exact h.congr rfl rfl rfl
  · simp only [if_neg hlen]
    cases up with
    | true =>
      have hsmall : ∀ k f, s.fallback.count k f < 2 ^ 63 := by
        intro k f
        have hle := h.le_total k f
        have hp := h.nonneg k f
        have hfit := hfits k f
        omega
      obtain ⟨hinc, hadds⟩ := flushCommands_adds hsmall s.keyTTL
      obtain ⟨herr, -, hcount⟩ := Redis.execAll_increments hinc h.nonneg fun k f => by
        have hle := h.le_total k f
        have hfit := hfits k f
        rw [hadds]
        omega
      have hpipe : s.pipeline (flushCommands s.keyTTL s.fallback.all) (upDown true) =
          ({ s with redis := (s.redis.execAll (flushCommands s.keyTTL s.fallback.all)).1 }, none) :=
        Prod.ext rfl herr
      rw [hpipe]
      refine ⟨fun k f => ?_, fun k f => ?_⟩
      · have hp := h.nonneg k f
        show 0 ≤ (s.redis.execAll (flushCommands s.keyTTL s.fallback.all)).1.count k f
        rw [hcount, hadds]
        omega
      · have hsum := h.sum k f
        have hempty : s.fallback.clear.count k f = 0 := rfl
        have hdropped : LogLine.dropped k f (.flushed (GoMap.len s.fallback.all)) = 0 := rfl
        have hlost : LogLine.lost k f (.flushed (GoMap.len s.fallback.all)) = 0 := rfl
        dsimp only
        rw [droppedCount_append_one, lostCount_append_one, hcount, hadds, hempty, hdropped, hlost]
        omega
    | false =>
      rw [pipeline_down]
      refine ⟨h.nonneg, fun k f => ?_⟩
      have hsum := h.sum k f
      have hempty : s.fallback.clear.count k f = 0 := rfl
      have hdropped : LogLine.dropped k f (.flushFailed s.fallback.all .unreachable) = 0 := rfl
      have hlost : LogLine.lost k f (.flushFailed s.fallback.all .unreachable) =
          s.fallback.count k f := rfl
      dsimp only
      rw [droppedCount_append_one, lostCount_append_one, hempty, hdropped, hlost]
      push_cast
      omega

end Parts

-- ---------------------------------------------------------------------------
-- One call, and a run of calls
-- ---------------------------------------------------------------------------

/-- A call moves the total by its report, and the accounts with it. -/
theorem Balanced.call {s : RedisStorage} {tot : BucketKey → Field → ℕ} (h : Balanced tot s)
    (c : RecordCall) (hfits : ∀ k f, tot k f + reportedBy c.key c.report k f < 2 ^ 63) :
    Balanced (fun k f => tot k f + reportedBy c.key c.report k f) (c.run s) := by
  obtain ⟨hok, hup⟩ := h.attempt_up c.key c.report hfits
  -- with Redis up the attempt succeeds, with Redis down it changes nothing
  have hatt : ∀ s₁ err, s.tryRedisRecordUsage c.key c.report c.env.attempt = (s₁, err) →
      (err = none → Balanced (fun k f => tot k f + reportedBy c.key c.report k f) s₁) ∧
      (∀ e, err = some e → s₁ = s) := by
    intro s₁ err heq
    have henv : c.env.attempt = upDown c.attemptUp := rfl
    rw [henv] at heq
    cases hu : c.attemptUp with
    | true =>
      rw [hu] at heq
      rw [heq] at hok hup
      exact ⟨fun _ => hup, fun e he => by rw [show err = none from hok] at he; cases he⟩
    | false =>
      rw [hu, RedisStorage.tryRedisRecordUsage, pipeline_down] at heq
      cases heq
      exact ⟨(fun he => nomatch he), fun _ _ => rfl⟩
  show Balanced _ (s.recordUsage c.env c.domain c.report).1
  rcases RedisStorage.recordUsage_cases s c.env c.domain c.report with
    ⟨-, s₁, heq, hres⟩ | ⟨-, s₁, e, heq, hres⟩ | ⟨-, -, s₁, heq, hres⟩ | ⟨-, -, s₁, e, heq, hres⟩ |
    ⟨-, -, hres⟩
  · rw [hres]
    exact (hatt s₁ _ heq).1 rfl
  · rw [hres, (hatt s₁ _ heq).2 e rfl]
    have htrip : Balanced tot (s.trip c.env.now) := h.congr rfl rfl rfl
    exact htrip.fallbackRecord c.domain c.report hfits
  · rw [hres]
    exact ((hatt s₁ _ heq).1 rfl).recover hfits c.flushUp
  · rw [hres, (hatt s₁ _ heq).2 e rfl]
    exact h.recordTripped c.domain c.report hfits
  · rw [hres]
    exact h.recordTripped c.domain c.report hfits

/-- The warning "fallback store at capacity, dropping usage report". -/
def LogLine.isDropping : LogLine → Bool
  | .dropping _ _ => true
  | _ => false

/-- Recovery drops nothing. -/
theorem recover_isDropping (s : RedisStorage) (o : Outcome) :
    (s.recoverFromFallback o).log.countP LogLine.isDropping =
      s.log.countP LogLine.isDropping := by
  unfold RedisStorage.recoverFromFallback RedisStorage.flushFallback
  by_cases hlen : GoMap.len s.fallback.all = 0
  · simp only [if_pos hlen]
  · simp only [if_neg hlen]
    rcases hp : s.pipeline (flushCommands s.keyTTL s.fallback.all) o with ⟨s₁, err⟩
    obtain ⟨rfl, -⟩ := RedisStorage.pipeline_eq hp
    cases err <;> simp [LogLine.isDropping]

/-- A report of the sample bucket. -/
def sampleReport : UsageReport := ⟨some sampleId, 5, 1, 0⟩

end Rlqs
