import Rlqs.Storage.Fleet
import Rlqs.Storage.Recovery

/-!
# RLQS storage — no instance loses or doubles usage

Conservation for all instances together, at every moment of every interleaving:
what was reported to any of them is in Redis, with an instance (on its way, in its
fallback, dropped at capacity, or lost in a failed flush), was removed, or went
with a key whose time was over. The instances need no coordination among each
other; inside one instance no call updates the fallback, or takes a snapshot that
holds usage, while another call is between its `All` and its `Clear`
(`separate`), which is the condition of `recovery_exact`. Of the server only
`RedisServer.Stores` is assumed: when keys expire does not matter here.

* `Replica.held` — what an instance has not brought to Redis;
* `Keeps` — what one operation does: whatever it adds to Redis it takes from its
  own account, for whatever Redis held before;
* `replicas_conserve` — the sum over all accounts.
-/

namespace Rlqs

open Interleave Steps

-- ---------------------------------------------------------------------------
-- The accounts
-- ---------------------------------------------------------------------------

/-- The instance's calls, with a removal taken for the record of no usage. -/
def Replica.view (rep : Replica) : Pool RedisStorage Recorder :=
  ⟨rep.shared, rep.procs.map StoreProc.recorder⟩

/-- What a store with its calls has not brought to Redis: still on its way, only in
the fallback, dropped at capacity, or lost in a failed flush. -/
def heldAt (k : BucketKey) (f : Field) (rep : Pool RedisStorage Recorder) : ℕ :=
  tally (Recorder.pendingAt k f) rep.procs + unflushed rep k f +
    droppedCount rep.shared.log k f + lostCount rep.shared.log k f

def Replica.held (k : BucketKey) (f : Field) (rep : Replica) : ℕ := heldAt k f rep.view

/-- What was reported to an instance. -/
def Replica.reportedAt (k : BucketKey) (f : Field) (rep : Replica) : ℕ :=
  tally (Recorder.reportedAt k f) rep.view.procs

/-- A removal from the fallback that is about to find something there. -/
def StoreProc.forgets (s : RedisStorage) : StoreProc → Bool
  | .record _ => false
  | .remove p => match p.pc with
    | .update => (s.fallback.get p.scopedKey).isSome
    | _ => false

/-- The move does not update the fallback, or take a snapshot that holds usage, while
another call of the instance is between its `All` and its `Clear`. -/
def separate (rep : Replica) : Move StoreRequest RecordInput → Bool
  | .spawn _ => true
  | .act i x =>
    noOverlap rep.view (.act i x) && match rep.procs[i]? with
      | none => true
      | some c => !c.forgets rep.shared || !otherSnapped rep.view i

/-- What an operation needs: no counter is negative, the counts fit, and the
snapshots hold what the fallback holds. -/
structure Sound (rep : Pool RedisStorage Recorder) : Prop where
  nonneg : ∀ k f, 0 ≤ rep.shared.redis.count k f
  fits : ∀ k f, rep.shared.redis.count k f + heldAt k f rep < 2 ^ 63
  snaps : Snaps rep.procs rep.shared.fallback.count

/-- What it keeps: Redis and the instance together hold what they held, but for what
is `gone`. -/
structure Keeps (gone : BucketKey → Field → ℕ) (rep rep' : Pool RedisStorage Recorder) : Prop where
  nonneg : ∀ k f, 0 ≤ rep'.shared.redis.count k f
  sum : ∀ k f, rep'.shared.redis.count k f + heldAt k f rep' + gone k f =
    rep.shared.redis.count k f + heldAt k f rep
  snaps : Snaps rep'.procs rep'.shared.fallback.count

section Step

variable {rep : Pool RedisStorage Recorder} {i : ℕ} {p : Recorder} {s' : RedisStorage}
  {pc : RecordPC} {gone : BucketKey → Field → ℕ}

/-- The rule for the parts: only the account of the moving call, what only the
fallback holds, and the log may move. -/
theorem Keeps.of_move (hp : rep.procs[i]? = some p) (hnonneg : ∀ k f, 0 ≤ s'.redis.count k f)
    (hmove : ∀ k f, s'.redis.count k f + Recorder.pendingAt k f { p with pc := pc } +
        unflushed ⟨s', rep.procs.set i { p with pc := pc }⟩ k f +
        droppedCount s'.log k f + lostCount s'.log k f + gone k f =
      rep.shared.redis.count k f + p.pendingAt k f + unflushed rep k f +
        droppedCount rep.shared.log k f + lostCount rep.shared.log k f)
    (hsnaps : Snaps (rep.procs.set i { p with pc := pc }) s'.fallback.count) :
    Keeps gone rep ⟨s', rep.procs.set i { p with pc := pc }⟩ := by
  refine ⟨hnonneg, fun k f => ?_, hsnaps⟩
  have hkeep := hmove k f
  have hpend := tally_set (Recorder.pendingAt k f) { p with pc := pc } hp
  unfold heldAt
  dsimp only
  omega

/-- The same where nothing goes. -/
theorem Keeps.of_balance (hp : rep.procs[i]? = some p) (hnonneg : ∀ k f, 0 ≤ s'.redis.count k f)
    (hmove : ∀ k f, s'.redis.count k f + Recorder.pendingAt k f { p with pc := pc } +
        unflushed ⟨s', rep.procs.set i { p with pc := pc }⟩ k f +
        droppedCount s'.log k f + lostCount s'.log k f =
      rep.shared.redis.count k f + p.pendingAt k f + unflushed rep k f +
        droppedCount rep.shared.log k f + lostCount rep.shared.log k f)
    (hsnaps : Snaps (rep.procs.set i { p with pc := pc }) s'.fallback.count) :
    Keeps 0 rep ⟨s', rep.procs.set i { p with pc := pc }⟩ :=
  Keeps.of_move hp hnonneg (fun k f => (add_zero _).trans (hmove k f)) hsnaps

/-- An operation on the control point and the breaker only. -/
theorem Sound.quiet (h : Sound rep) (hp : rep.procs[i]? = some p)
    (hredis : s'.redis = rep.shared.redis) (hfallback : s'.fallback = rep.shared.fallback)
    (hlog : s'.log = rep.shared.log) (hpend : pc.pending = p.pc.pending)
    (hsnap : p.pc.snapped = none) (hsnap' : pc.snapped = none) :
    Keeps 0 rep ⟨s', rep.procs.set i { p with pc := pc }⟩ := by
  have hflushed : pc.flushed = p.pc.flushed := by
    rw [RecordPC.flushed_of_snapped hsnap, RecordPC.flushed_of_snapped hsnap']
  refine Keeps.of_balance hp ?_ (fun k f => ?_) ?_
  · rw [hredis]
    exact h.nonneg
  · have hown : Recorder.pendingAt k f { p with pc := pc } = p.pendingAt k f := by
      unfold Recorder.pendingAt
      rw [hpend]
      rfl
    rw [unflushed_kept hp hflushed hfallback, hredis, hlog, hown]
  · rw [hfallback]
    exact h.snaps.keep_none hp hsnap'

/-- A pipeline that reaches Redis adds the report and returns no error. -/
theorem Sound.attempt (h : Sound rep) (hp : rep.procs[i]? = some p)
    (hpending : p.pc.pending = true) :
    (rep.shared.tryRedisRecordUsage p.key p.report .reached).2 = none ∧
    ∀ k f, (rep.shared.tryRedisRecordUsage p.key p.report .reached).1.redis.count k f =
      rep.shared.redis.count k f + p.reportedAt k f := by
  refine attempt_reached h.nonneg p.key p.report fun k f => ?_
  have hfit := h.fits k f
  have hle := le_tally (Recorder.pendingAt k f) (List.mem_of_getElem? hp)
  rw [Recorder.pendingAt_of_pending hpending] at hle
  unfold heldAt at hfit
  unfold Recorder.reportedAt at hle
  omega

/-- A pipeline that went through has written the report. -/
theorem Sound.wrote (h : Sound rep) (hp : rep.procs[i]? = some p) {o : Outcome}
    (hpending : p.pc.pending = true) (hsnap : p.pc.snapped = none)
    (hatt : rep.shared.tryRedisRecordUsage p.key p.report o = (s', none))
    (hpend' : pc.pending = false) (hsnap' : pc.snapped = none) :
    Keeps 0 rep ⟨s', rep.procs.set i { p with pc := pc }⟩ := by
  cases o with
  | failed ran e => cases (RedisStorage.pipeline_eq hatt).2
  | reached =>
    have hcount := (h.attempt hp hpending).2
    rw [hatt] at hcount
    have hfallback : s'.fallback = rep.shared.fallback := by rw [(RedisStorage.pipeline_eq hatt).1]
    have hlog : s'.log = rep.shared.log := by rw [(RedisStorage.pipeline_eq hatt).1]
    have hflushed : pc.flushed = p.pc.flushed := by
      rw [RecordPC.flushed_of_snapped hsnap, RecordPC.flushed_of_snapped hsnap']
    refine Keeps.of_balance hp (fun k f => ?_) (fun k f => ?_)
      (by rw [hfallback]; exact h.snaps.keep_none hp hsnap')
    · have hnn := h.nonneg k f
      rw [hcount]
      omega
    · rw [unflushed_kept hp hflushed hfallback, hlog, hcount,
        Recorder.pendingAt_of_pending hpending,
        Recorder.pendingAt_of_not (p := { p with pc := pc }) hpend']
      omega

/-- A pipeline that failed changed nothing. -/
theorem Sound.failed (h : Sound rep) (hp : rep.procs[i]? = some p) {o : Outcome}
    {s₁ : RedisStorage} {e : RedisError} (hpending : p.pc.pending = true)
    (hsnap : p.pc.snapped = none) (hall : RecordInput.whole (.redis o) = true)
    (hatt : rep.shared.tryRedisRecordUsage p.key p.report o = (s₁, some e))
    (hpend' : pc.pending = true) (hsnap' : pc.snapped = none) :
    Keeps 0 rep ⟨s₁, rep.procs.set i { p with pc := pc }⟩ := by
  cases o with
  | reached =>
    have hok := (h.attempt hp hpending).1
    rw [hatt] at hok
    cases hok
  | failed ran e' =>
    obtain rfl : ran = [] := List.isEmpty_iff.mp hall
    obtain ⟨rfl, -⟩ := RedisStorage.pipeline_eq hatt
    have hsame : (rep.shared.redis.runPipeline
        (recordCommands p.key rep.shared.keyTTL p.report) (.failed [] e')).1 =
          rep.shared.redis := by
      simp [Redis.runPipeline, Redis.execAll]
    exact h.quiet hp hsame rfl rfl (by rw [hpend', hpending]) hsnap hsnap'

/-- A snapshot. -/
theorem Sound.snapped (h : Sound rep) (hp : rep.procs[i]? = some p) (hpc : p.pc = .snapshot)
    (hguard : rep.shared.fallback.idle = true ∨ otherSnapped rep i = false) :
    Keeps 0 rep ⟨rep.shared, rep.procs.set i { p with pc := .flush rep.shared.fallback.all }⟩ := by
  refine Keeps.of_balance hp h.nonneg (fun k f => ?_) ?_
  · rw [unflushed_kept hp (by rw [hpc]; rfl) rfl, Recorder.pendingAt_of_not rfl,
      Recorder.pendingAt_of_not (p := p) (by rw [hpc]; rfl)]
  · refine h.snaps.take rep.shared.fallback.all rfl (fun _ _ => rfl) ?_
    rcases hguard with hidle | hother
    · exact Or.inl (MemoryStorage.count_of_idle hidle)
    · exact Or.inr (otherSnapped_false hother)

/-- A flush, whatever becomes of it: what only the fallback held is in Redis, or
in the log as lost. -/
theorem Sound.flushed (h : Sound rep) (hp : rep.procs[i]? = some p)
    {entries : GoMap BucketKey UsageState} (hpc : p.pc = .flush entries) {o : Outcome}
    (hall : RecordInput.whole (.redis o) = true) {rep' : Pool RedisStorage Recorder}
    (hs : recordStep rep.shared p (.redis o) = some (rep'.shared, { p with pc := .clear entries }))
    (hprocs : rep'.procs = rep.procs.set i { p with pc := .clear entries }) : Keeps 0 rep rep' := by
  obtain ⟨s', procs'⟩ := rep'
  dsimp only at hs hprocs
  subst hprocs
  have hsame : ∀ k f, MemoryStorage.count ⟨entries⟩ k f = rep.shared.fallback.count k f :=
    h.snaps.same i p entries hp (by rw [hpc]; rfl)
  have hun := h.snaps.unflushed_eq hp hpc
  obtain ⟨herr, hcount⟩ := flush_reached h.nonneg rep.shared.keyTTL fun k f => by
    have hfit := h.fits k f
    unfold heldAt at hfit
    rw [hun] at hfit
    rw [hsame]
    omega
  have hany : anyFlushed (rep.procs.set i { p with pc := .clear entries }) = true := by
    refine List.any_eq_true.mpr ⟨{ p with pc := .clear entries }, ?_, rfl⟩
    exact List.mem_set (List.getElem?_eq_some_iff.mp hp).1 _
  have hzero : ∀ k f, unflushed ⟨s', rep.procs.set i { p with pc := .clear entries }⟩ k f = 0 := by
    intro k f
    unfold unflushed
    rw [if_pos hany]
  have hsnaps : Snaps (rep.procs.set i { p with pc := .clear entries })
      rep.shared.fallback.count := by
    refine h.snaps.keep hp fun e he => ?_
    rw [hpc]
    exact he
  simp only [recordStep, hpc] at hs
  cases o with
  | reached =>
    have hpipe : rep.shared.pipeline (flushCommands rep.shared.keyTTL entries) .reached =
        ({ rep.shared with
            redis := (rep.shared.redis.execAll (flushCommands rep.shared.keyTTL entries)).1 },
          none) := Prod.ext rfl herr
    rw [hpipe] at hs
    cases hs
    refine Keeps.of_balance hp (fun k f => ?_) (fun k f => ?_) hsnaps
    · have hnn := h.nonneg k f
      dsimp only
      rw [hcount]
      omega
    · have hdropped : LogLine.dropped k f (.flushed (GoMap.len entries)) = 0 := rfl
      have hlost : LogLine.lost k f (.flushed (GoMap.len entries)) = 0 := rfl
      rw [hzero, hun, Recorder.pendingAt_of_not rfl,
        Recorder.pendingAt_of_not (p := p) (by rw [hpc]; rfl)]
      dsimp only
      rw [droppedCount_append_one, lostCount_append_one, hcount, hsame, hdropped, hlost]
      omega
  | failed ran e =>
    obtain rfl : ran = [] := List.isEmpty_iff.mp hall
    have hpipe : rep.shared.pipeline (flushCommands rep.shared.keyTTL entries) (.failed [] e) =
        (rep.shared, some e) := by
      simp [RedisStorage.pipeline, Redis.runPipeline, Redis.execAll]
    rw [hpipe] at hs
    cases hs
    refine Keeps.of_balance hp h.nonneg (fun k f => ?_) hsnaps
    have hdropped : LogLine.dropped k f (.flushFailed entries e) = 0 := rfl
    have hlost : LogLine.lost k f (.flushFailed entries e) = rep.shared.fallback.count k f :=
      hsame k f
    rw [hzero, hun, Recorder.pendingAt_of_not rfl,
      Recorder.pendingAt_of_not (p := p) (by rw [hpc]; rfl)]
    dsimp only
    rw [droppedCount_append_one, lostCount_append_one, hdropped, hlost]
    push_cast
    omega

/-- A clear, after the flush. -/
theorem Sound.cleared (h : Sound rep) (hp : rep.procs[i]? = some p)
    {entries : GoMap BucketKey UsageState} (hpc : p.pc = .clear entries) :
    Keeps 0 rep ⟨{ rep.shared with fallback := rep.shared.fallback.clear },
      rep.procs.set i { p with pc := .reset }⟩ := by
  refine Keeps.of_balance hp h.nonneg (fun k f => ?_) ?_
  · have hbefore : unflushed rep k f = 0 := by
      unfold unflushed
      refine if_pos (List.any_eq_true.mpr ⟨p, List.mem_of_getElem? hp, ?_⟩)
      rw [hpc]
      rfl
    have hafter : unflushed ⟨{ rep.shared with fallback := rep.shared.fallback.clear },
        rep.procs.set i { p with pc := .reset }⟩ k f = 0 := by
      unfold unflushed
      exact ite_self _
    rw [hbefore, hafter, Recorder.pendingAt_of_not rfl,
      Recorder.pendingAt_of_not (p := p) (by rw [hpc]; rfl)]
  · exact h.snaps.cleared hp (by rw [hpc]; rfl) rfl

/-- A report dropped at capacity is in the log. -/
theorem Sound.dropped (h : Sound rep) (hp : rep.procs[i]? = some p) (hpc : p.pc = .capGet) :
    Keeps 0 rep ⟨{ rep.shared with log := rep.shared.log ++ [.dropping p.key p.report] },
      rep.procs.set i { p with pc := .returned }⟩ := by
  refine Keeps.of_balance hp h.nonneg (fun k f => ?_) (h.snaps.keep_none hp rfl)
  have hdropped : LogLine.dropped k f (.dropping p.key p.report) = p.reportedAt k f := rfl
  have hlost : LogLine.lost k f (.dropping p.key p.report) = 0 := rfl
  have hun : unflushed ⟨{ rep.shared with log := rep.shared.log ++ [.dropping p.key p.report] },
      rep.procs.set i { p with pc := .returned }⟩ k f = unflushed rep k f :=
    unflushed_kept hp (by rw [hpc]; rfl) rfl k f
  rw [hun, Recorder.pendingAt_of_not rfl,
    Recorder.pendingAt_of_pending (p := p) (by rw [hpc]; rfl)]
  dsimp only
  rw [droppedCount_append_one, lostCount_append_one, hdropped, hlost]
  push_cast
  omega

/-- A report written to the fallback. -/
theorem Sound.updated (h : Sound rep) (hp : rep.procs[i]? = some p) (hpc : p.pc = .update)
    (hguard : p.report.idle = true ∨ otherSnapped rep i = false) :
    Keeps 0 rep ⟨(rep.shared.fallbackRecord p.domain p.report).1,
      rep.procs.set i { p with pc := .returned }⟩ := by
  have hbound : ∀ k f, unflushed rep k f + p.reportedAt k f < 2 ^ 64 := by
    intro k f
    have hfit := h.fits k f
    have hnn := h.nonneg k f
    have htally := le_tally (Recorder.pendingAt k f) (List.mem_of_getElem? hp)
    rw [Recorder.pendingAt_of_pending (by rw [hpc]; rfl)] at htally
    unfold heldAt at hfit
    omega
  refine Keeps.of_balance hp h.nonneg (fun k f => ?_) (h.snaps.updated hp hpc hguard hbound)
  rw [unflushed_updated hp hpc hguard (hbound k f), Recorder.pendingAt_of_not rfl,
    Recorder.pendingAt_of_pending (p := p) (by rw [hpc]; rfl)]
  show rep.shared.redis.count k f + _ + ((unflushed rep k f + p.reportedAt k f : ℕ) : ℤ) +
    ((droppedCount rep.shared.log k f : ℕ) : ℤ) + ((lostCount rep.shared.log k f : ℕ) : ℤ) = _
  omega

/-- One operation of a record. -/
theorem Sound.act (h : Sound rep) (hp : rep.procs[i]? = some p) {x : RecordInput} {p' : Recorder}
    (hall : x.whole = true) (hguard : noOverlap rep (.act i x) = true)
    (hs : recordStep rep.shared p x = some (s', p')) :
    Keeps 0 rep ⟨s', rep.procs.set i p'⟩ := by
  simp only [noOverlap, hp] at hguard
  cases recordStep_turn hs with
  | retried hpc hatt | direct hpc hatt =>
    exact h.wrote hp (by rw [hpc]; rfl) (by rw [hpc]; rfl) hatt rfl rfl
  | retryFailed hpc hatt | directFailed hpc hatt =>
    exact h.failed hp (by rw [hpc]; rfl) (by rw [hpc]; rfl) hall hatt rfl rfl
  | snapshot hpc hlen =>
    rw [hpc] at hguard
    simp only [Bool.or_eq_true, Bool.not_eq_true'] at hguard
    exact h.snapped hp hpc hguard
  | flush hpc => exact h.flushed hp hpc hall hs rfl
  | clear hpc => exact h.cleared hp hpc
  | dropped hpc hget => exact h.dropped hp hpc
  | update hpc =>
    rw [hpc] at hguard
    simp only [Bool.or_eq_true, Bool.not_eq_true'] at hguard
    exact h.updated hp hpc hguard
  -- the other operations only read, or write the breaker
  | _ hpc => exact h.quiet hp rfl rfl rfl (by rw [hpc]; rfl) (by rw [hpc]; rfl) rfl

-- ---------------------------------------------------------------------------
-- One operation of a removal
-- ---------------------------------------------------------------------------

theorem Recorder.pendingAt_noReport {p : Recorder} (h : p.report = noReport) (k : BucketKey)
    (f : Field) : p.pendingAt k f = 0 := by
  unfold Recorder.pendingAt reportedBy
  rw [h]
  cases f <;> simp [noReport, UsageReport.amount]

theorem Redis.count_del (r : Redis) (key k : BucketKey) (f : Field) :
    (r.exec (.del key)).1.count k f = if k = key then 0 else r.count k f := by
  unfold Redis.count Redis.exec
  by_cases hk : k = key
  · simp [hk]
  · simp [hk]

theorem MemoryStorage.count_removeBucket (s : MemoryStorage) (domain : Str) (key k : BucketKey)
    (f : Field) : (s.removeBucket domain key).count k f =
      if k = domainScopedKey domain key then 0 else s.count k f := by
  unfold MemoryStorage.count
  rw [MemoryStorage.get_removeBucket]
  by_cases hk : k = domainScopedKey domain key
  · simp [hk]
  · simp [hk]

/-- A `DEL` that went through. -/
theorem Sound.deleted (h : Sound rep) (hp : rep.procs[i]? = some p) (hreport : p.report = noReport)
    (hsnap : p.pc.snapped = none) (hsnap' : pc.snapped = none) {key : BucketKey}
    (hdel : rep.shared.pipeline [.del key] .reached = (s', none)) :
    Keeps (fun k f => if k = key then (rep.shared.redis.count k f).toNat else 0) rep
      ⟨s', rep.procs.set i { p with pc := pc }⟩ := by
  obtain ⟨rfl, -⟩ := RedisStorage.pipeline_eq hdel
  have hcount : ∀ k f, ((rep.shared.redis.runPipeline [.del key] .reached).1).count k f =
      if k = key then 0 else rep.shared.redis.count k f := Redis.count_del rep.shared.redis key
  have hflushed : pc.flushed = p.pc.flushed := by
    rw [RecordPC.flushed_of_snapped hsnap, RecordPC.flushed_of_snapped hsnap']
  refine Keeps.of_move hp (fun k f => ?_) (fun k f => ?_) (h.snaps.keep_none hp hsnap')
  · have hnn := h.nonneg k f
    dsimp only
    rw [hcount]
    split
    · exact le_refl 0
    · exact hnn
  · have hnn := h.nonneg k f
    have hun : unflushed ⟨{ rep.shared with
        redis := (rep.shared.redis.runPipeline [.del key] .reached).1 },
        rep.procs.set i { p with pc := pc }⟩ k f = unflushed rep k f :=
      unflushed_kept hp hflushed rfl k f
    rw [hun, Recorder.pendingAt_noReport hreport,
      Recorder.pendingAt_noReport (p := { p with pc := pc }) hreport]
    dsimp only
    rw [hcount]
    split
    · omega
    · omega

/-- A removal from the fallback: of nothing, or while there is no snapshot. -/
theorem Sound.forgotten (h : Sound rep) (hp : rep.procs[i]? = some p)
    (hreport : p.report = noReport) (hpc : p.pc = .update) {domain : Str} {key : BucketKey}
    (hguard : (rep.shared.fallback.get (domainScopedKey domain key)).isNone = true ∨
      otherSnapped rep i = false) :
    Keeps (fun k f => if k = domainScopedKey domain key then rep.shared.fallback.count k f else 0)
      rep ⟨(rep.shared.fallbackRemove domain key).1,
        rep.procs.set i { p with pc := .returned }⟩ := by
  have hcount := MemoryStorage.count_removeBucket rep.shared.fallback domain key
  have hany : anyFlushed (rep.procs.set i { p with pc := .returned }) = anyFlushed rep.procs :=
    anyFlushed_set hp (by rw [hpc]; rfl)
  -- either the fallback has nothing to lose, or no flushed snapshot is waiting
  have hcases : (∀ f, rep.shared.fallback.count (domainScopedKey domain key) f = 0) ∨
      otherSnapped rep i = false := by
    refine hguard.imp_left fun hnone f => ?_
    unfold MemoryStorage.count
    rw [Option.isNone_iff_eq_none.mp hnone]
    rfl
  refine Keeps.of_move hp h.nonneg (fun k f => ?_) ?_
  · rw [Recorder.pendingAt_noReport hreport,
      Recorder.pendingAt_noReport (p := { p with pc := .returned }) hreport]
    have hun : unflushed ⟨(rep.shared.fallbackRemove domain key).1,
          rep.procs.set i { p with pc := .returned }⟩ k f +
        (if k = domainScopedKey domain key then rep.shared.fallback.count k f else 0) =
        unflushed rep k f := by
      unfold unflushed
      rw [hany]
      cases hf : anyFlushed rep.procs with
      | true =>
        rcases hcases with hzero | hother
        · by_cases hk : k = domainScopedKey domain key
          · simp [hk, hzero]
          · simp [hk]
        · rw [anyFlushed_of_alone hp (by rw [hpc]; rfl) hother] at hf
          cases hf
      | false =>
        show (rep.shared.fallback.removeBucket domain key).count k f + _ =
          rep.shared.fallback.count k f
        rw [hcount]
        split
        · omega
        · omega
    show rep.shared.redis.count k f + _ + _ + ((droppedCount rep.shared.log k f : ℕ) : ℤ) +
      ((lostCount rep.shared.log k f : ℕ) : ℤ) + _ = _
    omega
  · rcases hcases with hzero | hother
    · -- the counters have not moved
      have hsame : (rep.shared.fallbackRemove domain key).1.fallback.count =
          rep.shared.fallback.count := by
        funext k f
        refine (hcount k f).trans ?_
        split
        · rename_i hk
          rw [hk, hzero]
        · rfl
      rw [hsame]
      exact h.snaps.keep_none hp rfl
    · refine snaps_of_none fun j q hj => ?_
      rcases getElem_set_cases hj with ⟨rfl, rfl⟩ | ⟨hji, hq⟩
      · rfl
      · exact otherSnapped_false hother j q hji hq

end Step

-- ---------------------------------------------------------------------------
-- One move of an instance
-- ---------------------------------------------------------------------------

section Move

variable {rep rep' : Replica} {i : ℕ} {c c' : StoreProc} {s' : RedisStorage} {x : RecordInput}

theorem Replica.view_set (rep : Replica) (i : ℕ) (s' : RedisStorage) (c' : StoreProc) :
    Replica.view ⟨s', rep.procs.set i c'⟩ = ⟨s', rep.view.procs.set i c'.recorder⟩ := by
  simp [Replica.view, List.map_set]

theorem Replica.view_getElem? (hc : rep.procs[i]? = some c) :
    rep.view.procs[i]? = some c.recorder := by
  simp [Replica.view, hc]

/-- A removal removes nothing where it neither deletes nor updates the fallback. -/
theorem Remover.removes_eq_zero {p : Remover} (hretry : p.pc ≠ .retry) (hdirect : p.pc ≠ .direct)
    (hupdate : p.pc ≠ .update) (s : RedisStorage) (x : RecordInput) :
    (StoreProc.remove p).removes s x = 0 := by
  obtain ⟨pc, domain, key⟩ := p
  funext k f
  cases pc <;> first | contradiction | exact ite_self 0

/-- A `DEL` that failed removes nothing. -/
theorem Remover.removes_failed (p : Remover) (s : RedisStorage) (ran : List Bool) (e : RedisError) :
    (StoreProc.remove p).removes s (.redis (.failed ran e)) = 0 := by
  obtain ⟨pc, domain, key⟩ := p
  funext k f
  cases pc <;> exact ite_self 0

/-- One operation of a removal. -/
theorem Sound.removal (h : Sound rep.view) {p p' : Remover}
    (hc : rep.procs[i]? = some (.remove p)) (hall : x.whole = true)
    (hguard : separate rep (.act i x) = true) (hstep : removeStep rep.shared p x = some (s', p')) :
    Keeps ((StoreProc.remove p).removes rep.shared x) rep.view
      ⟨s', rep.view.procs.set i p'.recorder⟩ := by
  have hview : rep.view.procs[i]? = some p.recorder := Replica.view_getElem? hc
  simp only [separate, hc, Bool.and_eq_true] at hguard
  cases removeStep_turn hstep with
  | common hpc hcommon =>
    rw [Remover.removes_eq_zero hpc.1 hpc.2.1 hpc.2.2]
    exact h.act hview hall hguard.1 hcommon
  | retryLater hpc hr =>
    obtain ⟨pc, domain, key⟩ := p
    cases hpc
    rw [Remover.removes_eq_zero (by simp) (by simp) (by simp)]
    exact h.quiet hview rfl rfl rfl rfl rfl rfl
  | @deleted o _ _ hpc hdel =>
    obtain ⟨pc, domain, key⟩ := p
    cases o with
    | failed ran e => cases (RedisStorage.pipeline_eq hdel).2
    | reached =>
      rcases hpc with ⟨hpc, rfl⟩ | ⟨hpc, rfl⟩
      · cases hpc
        exact h.deleted hview rfl rfl rfl hdel
      · cases hpc
        exact h.deleted hview rfl rfl rfl hdel
  | @deleteFailed o _ e _ hpc hdel =>
    obtain ⟨pc, domain, key⟩ := p
    cases o with
    | reached => cases (RedisStorage.pipeline_eq hdel).2
    | failed ran e' =>
      obtain rfl : ran = [] := List.isEmpty_iff.mp hall
      rw [Remover.removes_failed]
      have hsame : s'.redis = rep.view.shared.redis := by
        rw [(RedisStorage.pipeline_eq hdel).1]
        simp [Redis.runPipeline, Redis.execAll, Replica.view]
      have hrest : s'.fallback = rep.view.shared.fallback ∧ s'.log = rep.view.shared.log := by
        rw [(RedisStorage.pipeline_eq hdel).1]
        exact ⟨rfl, rfl⟩
      rcases hpc with ⟨hpc, rfl⟩ | ⟨hpc, rfl⟩
      · cases hpc
        exact h.quiet hview hsame hrest.1 hrest.2 rfl rfl rfl
      · cases hpc
        exact h.quiet hview hsame hrest.1 hrest.2 rfl rfl rfl
  | update hpc =>
    obtain ⟨pc, domain, key⟩ := p
    cases hpc
    have hguard' := hguard.2
    simp only [StoreProc.forgets, Bool.or_eq_true, Bool.not_eq_true', Option.isSome_eq_false_iff]
      at hguard'
    exact h.forgotten hview rfl rfl hguard'

/-- One operation of a call. -/
theorem Sound.call (h : Sound rep.view) (hc : rep.procs[i]? = some c) (hall : x.whole = true)
    (hguard : separate rep (.act i x) = true) (hs : c.step rep.shared x = some (s', c')) :
    Keeps (c.removes rep.shared x) rep.view (Replica.view ⟨s', rep.procs.set i c'⟩) := by
  rw [Replica.view_set]
  rcases StoreProc.step_cases hs with ⟨p, p', rfl, rfl, hrecord⟩ | ⟨p, p', rfl, rfl, hremove⟩
  · have hover : noOverlap rep.view (.act i x) = true := by
      simp only [separate, Bool.and_eq_true] at hguard
      exact hguard.1
    exact h.act (Replica.view_getElem? hc) hall hover hrecord
  · exact h.removal hc hall hguard hremove

/-- The arguments of a call, with a removal taken for the record of no usage. -/
def StoreRequest.asRecord : StoreRequest → Str × UsageReport
  | .record domain report => (domain, report)
  | .remove domain _ => (domain, noReport)

theorem StoreRequest.recorder_init (a : StoreRequest) :
    (storeMachine.init a).recorder = recordMachine.init a.asRecord := by
  cases a <;> rfl

/-- A call keeps its arguments. -/
theorem StoreProc.step_reportedAt (hs : c.step rep.shared x = some (s', c')) (k : BucketKey)
    (f : Field) : Recorder.reportedAt k f c'.recorder = Recorder.reportedAt k f c.recorder := by
  rcases StoreProc.step_cases hs with ⟨p, p', rfl, rfl, hrecord⟩ | ⟨p, p', rfl, rfl, -⟩
  · show p'.reportedAt k f = p.reportedAt k f
    rw [(recordStep_cases hrecord).1]
    rfl
  · -- both are records of no usage
    have hzero : ∀ key, reportedBy key noReport k f = 0 := by
      intro key
      unfold reportedBy
      cases f <;> exact ite_self 0
    exact (hzero _).trans (hzero _).symm

/-- What a move adds to a counter: the report of the call it starts. -/
def startedBy (k : BucketKey) (f : Field) : Move StoreRequest RecordInput → ℕ
  | .spawn a => Recorder.reportedAt k f (recordMachine.init a.asRecord)
  | .act _ _ => 0

theorem Replica.reportedAt_next {m : Move StoreRequest RecordInput}
    (hn : storeMachine.next rep m = some rep') (k : BucketKey) (f : Field) :
    rep'.reportedAt k f = rep.reportedAt k f + startedBy k f m := by
  unfold Replica.reportedAt
  rcases next_cases hn with ⟨a, rfl, rfl⟩ | ⟨i, x, c, s', c', rfl, hc, hs, rfl⟩
  · simp [Replica.view, startedBy, StoreRequest.recorder_init]
  · have hset := tally_set (Recorder.reportedAt k f) c'.recorder (Replica.view_getElem? hc)
    rw [StoreProc.step_reportedAt hs] at hset
    rw [Replica.view_set]
    simp only [startedBy]
    omega

/-- A move of an instance: Redis and the instance together gain the report of the
call it starts, and lose what it removes. -/
theorem Sound.next (h : Sound rep.view) {j : ℕ} {m : Move StoreRequest RecordInput}
    (hall : wholePipelines (.op j m) = true) (hguard : separate rep m = true)
    (hn : storeMachine.next rep m = some rep') :
    (∀ k f, 0 ≤ rep'.shared.redis.count k f) ∧
    Snaps rep'.view.procs rep'.shared.fallback.count ∧
    ∀ k f, rep'.shared.redis.count k f + rep'.held k f + rep.removes k f m =
      rep.shared.redis.count k f + rep.held k f + startedBy k f m := by
  rcases next_cases hn with ⟨a, rfl, rfl⟩ | ⟨i, x, c, s', c', rfl, hc, hs, rfl⟩
  · have hview : Replica.view ⟨rep.shared, rep.procs ++ [storeMachine.init a]⟩ =
        ⟨rep.shared, rep.view.procs ++ [recordMachine.init a.asRecord]⟩ := by
      simp [Replica.view, StoreRequest.recorder_init]
    refine ⟨h.nonneg, ?_, fun k f => ?_⟩
    · rw [hview]
      exact h.snaps.spawned a.asRecord
    · have hpend : Recorder.pendingAt k f (recordMachine.init a.asRecord) =
          startedBy k f (.spawn a) := rfl
      have hun : unflushed ⟨rep.shared, rep.view.procs ++ [recordMachine.init a.asRecord]⟩ k f =
          unflushed rep.view k f := unflushed_spawned rep.view a.asRecord k f
      have hshared : rep.view.shared = rep.shared := rfl
      unfold Replica.held
      rw [hview]
      unfold heldAt
      rw [hun, tally_append, tally_cons, tally_nil, hpend, hshared]
      show rep.shared.redis.count k f + _ + ((0 : ℕ) : ℤ) = _
      push_cast
      omega
  · have hkeeps := h.call hc hall hguard hs
    have hrem : ∀ k f, rep.removes k f (.act i x) = c.removes rep.shared x k f := by
      intro k f
      simp [Replica.removes, hc]
    refine ⟨hkeeps.nonneg, hkeeps.snaps, fun k f => ?_⟩
    rw [hrem]
    exact (hkeeps.sum k f).trans (add_zero _).symm

end Move

-- ---------------------------------------------------------------------------
-- Whole runs
-- ---------------------------------------------------------------------------

variable {R : RedisServer}

/-- Every report is in exactly one place. -/
structure Conserved (w : Fleet R) : Prop where
  nonneg : ∀ k f, 0 ≤ (R.data w.server).count k f
  sum : ∀ k f, (R.data w.server).count k f + tally (Replica.held k f) w.replicas +
    w.expired k f + w.removed k f = tally (Replica.reportedAt k f) w.replicas
  snaps : ∀ rep ∈ w.replicas, Snaps rep.view.procs rep.shared.fallback.count

/-- A move of one instance, on the Redis as it is now. -/
theorem Conserved.op (hS : R.Stores) {w : Fleet R} (h : Conserved w) {i : ℕ} {rep rep' : Replica}
    (hrep : w.replicas[i]? = some rep) {m : Move StoreRequest RecordInput}
    (hfits : ∀ k f, tally (Replica.reportedAt k f) w.replicas < 2 ^ 63)
    (hall : wholePipelines (.op i m) = true) (hguard : separate rep m = true)
    (hn : storeMachine.next (rep.attach (R.data w.server)) m = some rep') :
    Conserved { w with
      server := R.execAll w.now w.server (rep.sends m)
      replicas := w.replicas.set i rep'
      removed := fun k f => w.removed k f + (rep.attach (R.data w.server)).removes k f m } := by
  have hmem := List.mem_of_getElem? hrep
  -- the instance's own account does not depend on the hashes it saw last
  have hheld : ∀ k f, (rep.attach (R.data w.server)).held k f = rep.held k f := fun _ _ => rfl
  have hredis : R.data (R.execAll w.now w.server (rep.sends m)) = rep'.shared.redis := by
    rw [hS.execAll]
    exact (Replica.next_sends hn).1.symm
  have hsound : Sound (rep.attach (R.data w.server)).view := by
    refine ⟨h.nonneg, fun k f => ?_, h.snaps rep hmem⟩
    have hsum := h.sum k f
    have hfit := hfits k f
    have hle := le_tally (Replica.held k f) hmem
    show (R.data w.server).count k f + ((rep.held k f : ℕ) : ℤ) < _
    omega
  obtain ⟨hnonneg, hsnaps, hmove⟩ := hsound.next hall hguard hn
  refine ⟨fun k f => ?_, fun k f => ?_, fun q hq => ?_⟩
  · dsimp only
    rw [hredis]
    exact hnonneg k f
  · have hsum := hmove k f
    have hreported := Replica.reportedAt_next hn k f
    have hbefore := h.sum k f
    have hset := tally_set (Replica.held k f) rep' hrep
    have hset' := tally_set (Replica.reportedAt k f) rep' hrep
    have hrep₀ : (rep.attach (R.data w.server)).reportedAt k f = rep.reportedAt k f := rfl
    have hredis₀ : (rep.attach (R.data w.server)).shared.redis.count k f =
      (R.data w.server).count k f := rfl
    rw [hheld, hredis₀] at hsum
    rw [hrep₀] at hreported
    dsimp only
    rw [hredis]
    push_cast
    omega
  · rcases mem_set_cases hq with rfl | hq
    · exact hsnaps
    · exact h.snaps q hq

theorem Redis.count_of_gone {r : Redis} {k : BucketKey} (h : r.has k = false) (f : Field) :
    r.count k f = 0 := by
  simp only [Redis.has, Bool.or_eq_false_iff, Option.isSome_eq_false_iff,
    Option.isNone_iff_eq_none] at h
  unfold Redis.count
  cases f with
  | allowed => rw [h.1]; rfl
  | denied => rw [h.2]; rfl

/-- Time passes: what a key held that is gone has expired. -/
theorem Conserved.wait (hS : R.Stores) {w : Fleet R} (h : Conserved w) (t : Nanos) :
    Conserved { w with
      server := R.pass t w.server
      now := t
      expired := fun k f => w.expired k f +
        if (R.data (R.pass t w.server)).has k then 0
        else ((R.data w.server).count k f).toNat } := by
  have hcount : ∀ k f, (R.data (R.pass t w.server)).count k f =
      if (R.data (R.pass t w.server)).has k then (R.data w.server).count k f else 0 := by
    intro k f
    split
    · rename_i hhas
      rcases hS.pass t w.server k with hsame | hgone
      · unfold Redis.count
        rw [hsame]
      · rw [hgone] at hhas
        cases hhas
    · rename_i hhas
      exact Redis.count_of_gone (Bool.eq_false_iff.mpr hhas) f
  refine ⟨fun k f => ?_, fun k f => ?_, h.snaps⟩
  · have hnn := h.nonneg k f
    dsimp only
    rw [hcount]
    split
    · exact hnn
    · exact le_refl 0
  · have hnn := h.nonneg k f
    have hsum := h.sum k f
    dsimp only
    rw [hcount]
    split
    · push_cast
      omega
    · push_cast
      omega

end Rlqs
