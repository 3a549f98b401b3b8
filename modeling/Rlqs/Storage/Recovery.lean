import Rlqs.Storage.Conservation
import Rlqs.Storage.Recorders

/-!
# RLQS storage — recovery under concurrent calls

Overlapping `RecordUsage` calls account for every report exactly once
(`recovery_exact`), as long as no call adds usage to the fallback, or takes a
snapshot that holds usage, while another call is between its `All` and its
`Clear`. Otherwise an update is lost between the snapshot and the clear, or a
snapshot is flushed twice (`recovery_loses_and_doubles`).

The invariant (`Exact`) puts every report in Redis, in the fallback or on its
way. It rests on what the snapshots of the calls are worth (`Snaps`): each
holds what the fallback holds, and there is more than one only while that is
nothing.
-/

namespace Rlqs

open Interleave Steps

-- ---------------------------------------------------------------------------
-- The accounts of overlapping calls
-- ---------------------------------------------------------------------------

/-- What a call adds to a counter. -/
def Recorder.reportedAt (k : BucketKey) (f : Field) (p : Recorder) : ℕ :=
  reportedBy p.key p.report k f

/-- What a call still has to add to a counter. -/
def Recorder.pendingAt (k : BucketKey) (f : Field) (p : Recorder) : ℕ :=
  if p.pc.pending then reportedBy p.key p.report k f else 0

/-- The fallback holds no usage: every counter in it is zero. -/
def MemoryStorage.idle (s : MemoryStorage) : Bool :=
  s.buckets.entries.all fun e => e.2.allowed == 0 && e.2.denied == 0

def UsageReport.idle (r : UsageReport) : Bool :=
  r.numRequestsAllowed == 0 && r.numRequestsDenied == 0

/-- What is assumed of the environment: pipelines are all-or-nothing, every
flush succeeds, and the fallback is never full. -/
def assumed (w : Pool RedisStorage Recorder) : Move (Str × UsageReport) RecordInput → Bool
  | .spawn _ => true
  | .act i x =>
    match (w.procs[i]?).map Recorder.pc, x with
    | some .retry, .redis .reached => true
    | some .retry, .redis (.failed ran _) => ran.isEmpty
    | some .direct, .redis .reached => true
    | some .direct, .redis (.failed ran _) => ran.isEmpty
    | some (.flush _), .redis .reached => true
    | some (.flush _), .redis (.failed _ _) => false
    | some .capLen, _ => (w.shared.fallback.len : Int) < w.shared.maxFallbackKeys
    | _, _ => true

/-- Some call other than the `i`-th is between its `All` and its `Clear`. -/
def otherSnapped (w : Pool RedisStorage Recorder) (i : ℕ) : Bool :=
  (List.range w.procs.length).any fun j =>
    j != i && ((w.procs[j]?).bind fun q => q.pc.snapped).isSome

/-- The move neither adds usage to the fallback nor takes a snapshot that holds
usage while another call is between its `All` and its `Clear`. -/
def noOverlap (w : Pool RedisStorage Recorder) : Move (Str × UsageReport) RecordInput → Bool
  | .spawn _ => true
  | .act i _ =>
    match w.procs[i]? with
    | none => true
    | some p =>
      match p.pc with
      | .update => p.report.idle || !otherSnapped w i
      | .snapshot => w.shared.fallback.idle || !otherSnapped w i
      | _ => true

-- ---------------------------------------------------------------------------
-- Snapshots
-- ---------------------------------------------------------------------------

/-- The snapshots of the calls, against the counters `c` of the fallback: each
holds the counters of the fallback, and there is more than one only while the
fallback holds no usage. -/
structure Snaps (ps : List Recorder) (c : BucketKey → Field → ℕ) : Prop where
  same : ∀ (j : ℕ) (q : Recorder) e, ps[j]? = some q → q.pc.snapped = some e →
    ∀ k f, MemoryStorage.count ⟨e⟩ k f = c k f
  alone : ∀ (i j : ℕ) (p q : Recorder), i ≠ j → ps[i]? = some p → ps[j]? = some q →
    p.pc.snapped.isSome = true → q.pc.snapped.isSome = true → ∀ k f, c k f = 0

section Snaps

variable {ps : List Recorder} {c : BucketKey → Field → ℕ} {i : ℕ} {p p' : Recorder}

/-- A step that takes no new snapshot. -/
theorem Snaps.keep (h : Snaps ps c) (hp : ps[i]? = some p)
    (hsub : ∀ e, p'.pc.snapped = some e → p.pc.snapped = some e) : Snaps (ps.set i p') c := by
  have hold : ∀ (j : ℕ) (q : Recorder), (ps.set i p')[j]? = some q →
      ∃ q' : Recorder, ps[j]? = some q' ∧
      ∀ e, q.pc.snapped = some e → q'.pc.snapped = some e := by
    intro j q hj
    rcases getElem_set_cases hj with ⟨rfl, rfl⟩ | ⟨-, hq⟩
    · exact ⟨p, hp, hsub⟩
    · exact ⟨q, hq, fun _ h => h⟩
  refine ⟨fun j q e hj he => ?_, fun a b q q' hab ha hb hq hq' => ?_⟩
  · obtain ⟨q₀, hq₀, hsnap⟩ := hold j q hj
    exact h.same j q₀ e hq₀ (hsnap e he)
  · obtain ⟨q₁, hq₁, hsnap₁⟩ := hold a q ha
    obtain ⟨q₂, hq₂, hsnap₂⟩ := hold b q' hb
    obtain ⟨e₁, he₁⟩ := Option.isSome_iff_exists.mp hq
    obtain ⟨e₂, he₂⟩ := Option.isSome_iff_exists.mp hq'
    exact h.alone a b q₁ q₂ hab hq₁ hq₂ (by rw [hsnap₁ e₁ he₁]; rfl) (by rw [hsnap₂ e₂ he₂]; rfl)

theorem Snaps.keep_none (h : Snaps ps c) (hp : ps[i]? = some p) (hnone : p'.pc.snapped = none) :
    Snaps (ps.set i p') c := by
  refine h.keep hp fun e he => ?_
  rw [hnone] at he
  simp at he

/-- A new snapshot, of a fallback without usage or while there is no other. -/
theorem Snaps.take (h : Snaps ps c) (entries : GoMap BucketKey UsageState)
    (hp' : p'.pc.snapped = some entries) (hcount : ∀ k f, MemoryStorage.count ⟨entries⟩ k f = c k f)
    (hother : (∀ k f, c k f = 0) ∨
      ∀ (j : ℕ) (q : Recorder), j ≠ i → ps[j]? = some q → q.pc.snapped = none) :
    Snaps (ps.set i p') c := by
  refine ⟨fun j q e hj he => ?_, fun a b q q' hab ha hb hq hq' => ?_⟩
  · rcases getElem_set_cases hj with ⟨rfl, rfl⟩ | ⟨-, hold⟩
    · rw [hp'] at he
      cases he
      exact hcount
    · exact h.same j q e hold he
  · rcases hother with hzero | hnone
    · exact hzero
    · -- two snapshots: one of them belongs to another process
      exfalso
      rcases getElem_set_cases ha with ⟨rfl, rfl⟩ | ⟨hai, hold⟩
      · rcases getElem_set_cases hb with ⟨rfl, rfl⟩ | ⟨hbi, hold⟩
        · exact hab rfl
        · rw [hnone b q' hbi hold] at hq'
          simp at hq'
      · rw [hnone a q hai hold] at hq
        simp at hq

/-- A clear: the other snapshots, if any, hold no usage. -/
theorem Snaps.cleared (h : Snaps ps c) (hp : ps[i]? = some p)
    (hsnap : p.pc.snapped.isSome = true) (hp' : p'.pc.snapped = none) :
    Snaps (ps.set i p') fun _ _ => 0 := by
  refine ⟨fun j q e hj he k f => ?_, fun a b q q' hab ha hb hq hq' k f => rfl⟩
  rcases getElem_set_cases hj with ⟨rfl, rfl⟩ | ⟨hji, hold⟩
  · rw [hp'] at he
    simp at he
  · rw [h.same j q e hold he k f]
    exact h.alone i j p q (Ne.symm hji) hp hold hsnap (by rw [he]; rfl) k f

/-- Without snapshots the fallback may change. -/
theorem snaps_of_none {c' : BucketKey → Field → ℕ}
    (h : ∀ (j : ℕ) (q : Recorder), ps[j]? = some q → q.pc.snapped = none) :
    Snaps ps c' := by
  refine ⟨fun j q e hj he => ?_, fun a b q q' hab ha hb hq hq' => ?_⟩
  · rw [h j q hj] at he
    simp at he
  · rw [h a q ha] at hq
    simp at hq

end Snaps

/-- What the guard says about a process at `i`. -/
theorem otherSnapped_false {w : Pool RedisStorage Recorder} {i : ℕ} (h : otherSnapped w i = false) :
    ∀ (j : ℕ) (q : Recorder), j ≠ i → w.procs[j]? = some q → q.pc.snapped = none := by
  intro j q hji hj
  have hlt := (List.getElem?_eq_some_iff.mp hj).1
  have hj' := List.any_eq_false.mp h j (List.mem_range.mpr hlt)
  rw [hj] at hj'
  simpa [hji] using hj'

theorem MemoryStorage.count_of_idle {s : MemoryStorage} (h : s.idle = true) (k : BucketKey)
    (f : Field) : s.count k f = 0 := by
  unfold MemoryStorage.count
  cases hst : s.get k with
  | none => rfl
  | some st =>
    have hmem : (⟨k, st⟩ : Σ _ : BucketKey, UsageState) ∈ s.buckets.entries :=
      AList.mem_lookup_iff.mp hst
    have hzero := List.all_eq_true.mp h _ hmem
    simp only [Bool.and_eq_true, beq_iff_eq] at hzero
    cases f <;> simp [UsageState.amount, hzero]

theorem UsageReport.amount_of_idle {r : UsageReport} (h : r.idle = true) (f : Field) :
    (r.amount f).toNat = 0 := by
  simp only [UsageReport.idle, Bool.and_eq_true, beq_iff_eq] at h
  cases f <;> simp [UsageReport.amount, h]

-- ---------------------------------------------------------------------------
-- The invariant
-- ---------------------------------------------------------------------------

/-- Some call has flushed its snapshot and not cleared the fallback yet. -/
def anyFlushed (ps : List Recorder) : Bool := ps.any fun p => p.pc.flushed

/-- The usage that only the fallback holds: none while a flushed snapshot waits
for its clear. -/
def unflushed (w : Pool RedisStorage Recorder) (k : BucketKey) (f : Field) : ℕ :=
  if anyFlushed w.procs then 0 else w.shared.fallback.count k f

/-- Every report is in Redis, in the fallback, or still on its way, and in only
one of the three. -/
structure Exact (w : Pool RedisStorage Recorder) : Prop where
  nonneg : ∀ k f, 0 ≤ w.shared.redis.count k f
  sum : ∀ k f, w.shared.redis.count k f + unflushed w k f + tally (Recorder.pendingAt k f) w.procs =
    tally (Recorder.reportedAt k f) w.procs
  snaps : Snaps w.procs w.shared.fallback.count
  noCap : ∀ p ∈ w.procs, p.pc ≠ .capGet

theorem RecordPC.eq_returned {pc : RecordPC} (h : pc.done = true) : pc = .returned := by
  cases pc <;> first | rfl | cases h

theorem RecordPC.flushed_of_snapped {pc : RecordPC} (h : pc.snapped = none) :
    pc.flushed = false := by
  cases pc <;> first | rfl | cases h

theorem anyFlushed_set {ps : List Recorder} {i : ℕ} {p p' : Recorder} (hp : ps[i]? = some p)
    (h : p'.pc.flushed = p.pc.flushed) : anyFlushed (ps.set i p') = anyFlushed ps := by
  induction ps generalizing i with
  | nil => rfl
  | cons q ps ih =>
    cases i with
    | zero =>
      cases hp
      simp [anyFlushed, h]
    | succ i =>
      have hrest := ih hp
      simp only [anyFlushed, List.set_cons_succ, List.any_cons] at hrest ⊢
      rw [hrest]

/-- A flushed snapshot belongs to some process. -/
theorem exists_of_anyFlushed {ps : List Recorder} (h : anyFlushed ps = true) :
    ∃ (j : ℕ) (q : Recorder), ps[j]? = some q ∧ q.pc.flushed = true := by
  obtain ⟨q, hq, hflushed⟩ := List.any_eq_true.mp h
  obtain ⟨j, hj⟩ := List.getElem?_of_mem hq
  exact ⟨j, q, hj, hflushed⟩

section Step

variable {w : Pool RedisStorage Recorder} {i : ℕ} {p : Recorder} {x : RecordInput}
  {s' : RedisStorage} {pc : RecordPC}

/-- A step leaves the totals alone. -/
theorem reported_step (pc : RecordPC) (hp : w.procs[i]? = some p) (k : BucketKey) (f : Field) :
    tally (Recorder.reportedAt k f) (w.procs.set i { p with pc := pc }) =
      tally (Recorder.reportedAt k f) w.procs := by
  have hrep := tally_set (Recorder.reportedAt k f) { p with pc := pc } hp
  have hsame : Recorder.reportedAt k f { p with pc := pc } = p.reportedAt k f := rfl
  rw [hsame] at hrep
  omega

/-- The moved process, or an old one. -/
theorem noCap_step (h : Exact w) (hcap : pc ≠ .capGet) :
    ∀ q ∈ w.procs.set i { p with pc := pc }, q.pc ≠ .capGet := by
  intro q hq
  rcases mem_set_cases hq with rfl | hq
  · exact hcap
  · exact h.noCap q hq

/-- A step keeps the account if it keeps the sum of what Redis holds, what only
the fallback holds and what the call itself has still to write. -/
theorem Exact.moved (h : Exact w) (hp : w.procs[i]? = some p)
    (hnonneg : ∀ k f, 0 ≤ s'.redis.count k f)
    (hmove : ∀ k f, s'.redis.count k f +
        unflushed ⟨s', w.procs.set i { p with pc := pc }⟩ k f +
        Recorder.pendingAt k f { p with pc := pc } =
      w.shared.redis.count k f + unflushed w k f + p.pendingAt k f)
    (hsnaps : Snaps (w.procs.set i { p with pc := pc }) s'.fallback.count) (hcap : pc ≠ .capGet) :
    Exact ⟨s', w.procs.set i { p with pc := pc }⟩ := by
  refine ⟨hnonneg, fun k f => ?_, hsnaps, noCap_step h hcap⟩
  have hsum := h.sum k f
  have hkeep := hmove k f
  have hpend := tally_set (Recorder.pendingAt k f) { p with pc := pc } hp
  rw [reported_step pc hp]
  dsimp only
  omega

/-- What only the fallback holds, after a step that flushes and clears nothing. -/
theorem unflushed_kept (hp : w.procs[i]? = some p) (hflushed : pc.flushed = p.pc.flushed)
    (hfallback : s'.fallback = w.shared.fallback) (k : BucketKey) (f : Field) :
    unflushed ⟨s', w.procs.set i { p with pc := pc }⟩ k f = unflushed w k f := by
  unfold unflushed
  rw [anyFlushed_set hp hflushed, hfallback]

/-- A call that has its report still to write. -/
theorem Recorder.pendingAt_of_pending {p : Recorder} (h : p.pc.pending = true) (k : BucketKey)
    (f : Field) : p.pendingAt k f = p.reportedAt k f := by
  unfold Recorder.pendingAt
  exact if_pos h

theorem Recorder.pendingAt_of_not {p : Recorder} (h : p.pc.pending = false) (k : BucketKey)
    (f : Field) : p.pendingAt k f = 0 := by
  unfold Recorder.pendingAt
  rw [if_neg (by simp [h])]

theorem Exact.quiet (h : Exact w) (hp : w.procs[i]? = some p)
    (hredis : s'.redis = w.shared.redis) (hfallback : s'.fallback = w.shared.fallback)
    (hpend : pc.pending = p.pc.pending) (hsnap : p.pc.snapped = none) (hsnap' : pc.snapped = none)
    (hcap : pc ≠ .capGet) : Exact ⟨s', w.procs.set i { p with pc := pc }⟩ := by
  have hflushed : pc.flushed = p.pc.flushed := by
    rw [RecordPC.flushed_of_snapped hsnap, RecordPC.flushed_of_snapped hsnap']
  refine h.moved hp ?_ (fun k f => ?_) ?_ hcap
  · rw [hredis]
    exact h.nonneg
  · have hown : Recorder.pendingAt k f { p with pc := pc } = p.pendingAt k f := by
      unfold Recorder.pendingAt
      rw [hpend]
      rfl
    rw [unflushed_kept hp hflushed hfallback, hredis, hown]
  · rw [hfallback]
    exact h.snaps.keep_none hp hsnap'

/-- A pipeline that wrote the report. -/
theorem Exact.wrote (h : Exact w) (hp : w.procs[i]? = some p)
    (hfits : ∀ k f, tally (Recorder.reportedAt k f) w.procs < 2 ^ 63)
    (hpc : p.pc = .retry ∨ p.pc = .direct) {err : Option RedisError}
    (hatt : w.shared.tryRedisRecordUsage p.key p.report .reached = (s', err))
    (hpend : pc.pending = err.isSome) (hsnap' : pc.snapped = none) (hcap : pc ≠ .capGet) :
    Exact ⟨s', w.procs.set i { p with pc := pc }⟩ := by
  have hpending : p.pc.pending = true := by rcases hpc with hpc | hpc <;> rw [hpc] <;> rfl
  have hsnap : p.pc.snapped = none := by rcases hpc with hpc | hpc <;> rw [hpc] <;> rfl
  have hown : ∀ k f, p.pendingAt k f = p.reportedAt k f :=
    Recorder.pendingAt_of_pending hpending
  obtain ⟨herr, hcount⟩ := attempt_reached h.nonneg p.key p.report fun k f => by
    have hsum := h.sum k f
    have hfit := hfits k f
    have hle := le_tally (Recorder.pendingAt k f) (List.mem_of_getElem? hp)
    rw [hown] at hle
    unfold Recorder.reportedAt at hle
    omega
  rw [hatt] at herr hcount
  have hnone : err = none := herr
  rw [hnone] at hpend
  have hadd : ∀ k f, s'.redis.count k f = w.shared.redis.count k f + p.reportedAt k f := hcount
  have hfallback : s'.fallback = w.shared.fallback := by
    rw [(RedisStorage.pipeline_eq hatt).1]
  have hflushed : pc.flushed = p.pc.flushed := by
    rw [RecordPC.flushed_of_snapped hsnap, RecordPC.flushed_of_snapped hsnap']
  refine h.moved hp (fun k f => ?_) (fun k f => ?_) ?_ hcap
  · have hnn := h.nonneg k f
    rw [hadd]
    omega
  · rw [unflushed_kept hp hflushed hfallback, hadd, hown,
      Recorder.pendingAt_of_not (p := { p with pc := pc }) hpend]
    omega
  · rw [hfallback]
    exact h.snaps.keep_none hp hsnap'

/-- A snapshot. -/
theorem Exact.snapped (h : Exact w) (hp : w.procs[i]? = some p) (hpc : p.pc = .snapshot)
    (hguard : w.shared.fallback.idle = true ∨ otherSnapped w i = false) :
    Exact ⟨w.shared, w.procs.set i { p with pc := .flush w.shared.fallback.all }⟩ := by
  refine h.moved hp h.nonneg (fun k f => ?_) ?_ (fun h => nomatch h)
  · rw [unflushed_kept hp (by rw [hpc]; rfl) rfl, Recorder.pendingAt_of_not rfl,
      Recorder.pendingAt_of_not (p := p) (by rw [hpc]; rfl)]
  · refine h.snaps.take w.shared.fallback.all rfl (fun _ _ => rfl) ?_
    rcases hguard with hidle | hother
    · exact Or.inl (MemoryStorage.count_of_idle hidle)
    · exact Or.inr (otherSnapped_false hother)

/-- Before a flush only the fallback holds its counts: if another flushed snapshot
is waiting, neither holds any usage. -/
theorem Snaps.unflushed_eq (h : Snaps w.procs w.shared.fallback.count)
    (hp : w.procs[i]? = some p) {entries : GoMap BucketKey UsageState} (hpc : p.pc = .flush entries)
    (k : BucketKey) (f : Field) : unflushed w k f = w.shared.fallback.count k f := by
  unfold unflushed
  split
  · rename_i hany
    obtain ⟨j, q, hq, hflushed⟩ := exists_of_anyFlushed hany
    have hji : i ≠ j := by
      rintro rfl
      rw [hp] at hq
      cases hq
      rw [hpc] at hflushed
      cases hflushed
    have hsnap : q.pc.snapped.isSome = true := by
      cases hs : q.pc.snapped with
      | none => rw [RecordPC.flushed_of_snapped hs] at hflushed; cases hflushed
      | some e => rfl
    exact (h.alone i j p q hji hp hq (by rw [hpc]; rfl) hsnap k f).symm
  · rfl

/-- A flush that goes through, from non-negative counters and within 2^63. -/
theorem flush_reached {r : Redis} {entries : GoMap BucketKey UsageState}
    (hnonneg : ∀ k f, 0 ≤ r.count k f) (ttl : Nanos)
    (hfits : ∀ k f, r.count k f + MemoryStorage.count ⟨entries⟩ k f < 2 ^ 63) :
    (r.execAll (flushCommands ttl entries)).2 = none ∧
    ∀ k f, (r.execAll (flushCommands ttl entries)).1.count k f =
      r.count k f + MemoryStorage.count ⟨entries⟩ k f := by
  obtain ⟨hinc, hadds⟩ := flushCommands_adds (s := ⟨entries⟩) (fun k f => by
    have hp := hnonneg k f
    have hfit := hfits k f
    omega) ttl
  obtain ⟨herr, -, hcount⟩ := Redis.execAll_increments hinc hnonneg fun k f => by
    rw [hadds]
    exact hfits k f
  refine ⟨herr, fun k f => ?_⟩
  rw [← hadds]
  exact hcount k f

/-- A flush: what only the fallback held is now in Redis. -/
theorem Exact.flushed (h : Exact w) (hp : w.procs[i]? = some p)
    (hfits : ∀ k f, tally (Recorder.reportedAt k f) w.procs < 2 ^ 63)
    {entries : GoMap BucketKey UsageState} (hpc : p.pc = .flush entries)
    (hredis : s'.redis = (w.shared.redis.execAll (flushCommands w.shared.keyTTL entries)).1)
    (hfallback : s'.fallback = w.shared.fallback) :
    Exact ⟨s', w.procs.set i { p with pc := .clear entries }⟩ := by
  have hsame : ∀ k f, MemoryStorage.count ⟨entries⟩ k f = w.shared.fallback.count k f :=
    h.snaps.same i p entries hp (by rw [hpc]; rfl)
  have hun := h.snaps.unflushed_eq hp hpc
  obtain ⟨-, hcount⟩ := flush_reached h.nonneg w.shared.keyTTL fun k f => by
    have hsum := h.sum k f
    have hfit := hfits k f
    rw [hun] at hsum
    rw [hsame]
    omega
  have hadd : ∀ k f, s'.redis.count k f =
      w.shared.redis.count k f + w.shared.fallback.count k f := by
    intro k f
    rw [hredis, hcount, hsame]
  refine h.moved hp (fun k f => ?_) (fun k f => ?_) ?_ (fun h => nomatch h)
  · have hnn := h.nonneg k f
    rw [hadd]
    omega
  · have hany : anyFlushed (w.procs.set i { p with pc := .clear entries }) = true := by
      refine List.any_eq_true.mpr ⟨{ p with pc := .clear entries }, ?_, rfl⟩
      exact List.mem_set (List.getElem?_eq_some_iff.mp hp).1 _
    have hzero : unflushed ⟨s', w.procs.set i { p with pc := .clear entries }⟩ k f = 0 := by
      unfold unflushed
      rw [if_pos hany]
    rw [hzero, hadd, hun, Recorder.pendingAt_of_not rfl,
      Recorder.pendingAt_of_not (p := p) (by rw [hpc]; rfl)]
    omega
  · rw [hfallback]
    refine h.snaps.keep hp fun e he => ?_
    rw [hpc]
    exact he

/-- A clear, after the flush. -/
theorem Exact.cleared (h : Exact w) (hp : w.procs[i]? = some p)
    {entries : GoMap BucketKey UsageState} (hpc : p.pc = .clear entries) :
    Exact ⟨{ w.shared with fallback := w.shared.fallback.clear },
      w.procs.set i { p with pc := .reset }⟩ := by
  refine h.moved hp h.nonneg (fun k f => ?_) ?_ (fun h => nomatch h)
  · have hbefore : unflushed w k f = 0 := by
      unfold unflushed
      refine if_pos (List.any_eq_true.mpr ⟨p, List.mem_of_getElem? hp, ?_⟩)
      rw [hpc]
      rfl
    have hafter : unflushed ⟨{ w.shared with fallback := w.shared.fallback.clear },
        w.procs.set i { p with pc := .reset }⟩ k f = 0 := by
      unfold unflushed
      exact ite_self _
    rw [hbefore, hafter, Recorder.pendingAt_of_not rfl,
      Recorder.pendingAt_of_not (p := p) (by rw [hpc]; rfl)]
  · exact h.snaps.cleared hp (by rw [hpc]; rfl) rfl

/-- While no other call holds a snapshot, none is waiting for its clear. -/
theorem anyFlushed_of_alone (hp : w.procs[i]? = some p) (hsnap : p.pc.snapped = none)
    (hother : otherSnapped w i = false) : anyFlushed w.procs = false := by
  cases hany : anyFlushed w.procs with
  | false => rfl
  | true =>
    obtain ⟨j, q, hq, hflushed⟩ := exists_of_anyFlushed hany
    have hnone : q.pc.snapped = none := by
      by_cases hji : j = i
      · subst hji
        rw [hp] at hq
        cases hq
        exact hsnap
      · exact otherSnapped_false hother j q hji hq
    rw [RecordPC.flushed_of_snapped hnone] at hflushed
    simp at hflushed

/-- The counters of the fallback after an update that fits; and nobody holds a
flushed snapshot of usage that the update could miss. -/
theorem fallback_gains (hp : w.procs[i]? = some p) (hpc : p.pc = .update)
    (hguard : p.report.idle = true ∨ otherSnapped w i = false) {k : BucketKey} {f : Field}
    (hfits : unflushed w k f + p.reportedAt k f < 2 ^ 64) :
    (w.shared.fallback.recordUsage p.domain p.report).count k f =
      w.shared.fallback.count k f + p.reportedAt k f ∧
    (anyFlushed w.procs = true → p.reportedAt k f = 0) := by
  rw [MemoryStorage.count_recordUsage]
  rcases hguard with hidle | hother
  · have hzero : p.reportedAt k f = 0 := by
      unfold Recorder.reportedAt reportedBy
      rw [UsageReport.amount_of_idle hidle, ite_self]
    refine ⟨?_, fun _ => hzero⟩
    rw [UsageReport.amount_of_idle hidle, hzero, add_zero,
      Nat.mod_eq_of_lt (MemoryStorage.count_lt _ k f), ite_self]
  · have hnone := anyFlushed_of_alone hp (by rw [hpc]; rfl) hother
    unfold unflushed at hfits
    rw [hnone] at hfits
    simp only [Bool.false_eq_true, if_false] at hfits
    refine ⟨?_, fun hany => by rw [hnone] at hany; cases hany⟩
    unfold Recorder.reportedAt reportedBy Recorder.key at hfits ⊢
    by_cases hk : k = p.report.scopedKey p.domain
    · rw [if_pos hk] at hfits ⊢
      rw [if_pos hk]
      exact Nat.mod_eq_of_lt hfits
    · rw [if_neg hk, if_neg hk, add_zero]

/-- What only the fallback holds, after an update that fits. -/
theorem unflushed_updated (hp : w.procs[i]? = some p) (hpc : p.pc = .update)
    (hguard : p.report.idle = true ∨ otherSnapped w i = false) {k : BucketKey} {f : Field}
    (hfits : unflushed w k f + p.reportedAt k f < 2 ^ 64) :
    unflushed ⟨(w.shared.fallbackRecord p.domain p.report).1,
      w.procs.set i { p with pc := .returned }⟩ k f = unflushed w k f + p.reportedAt k f := by
  obtain ⟨hcount, hmissed⟩ := fallback_gains hp hpc hguard hfits
  unfold unflushed
  rw [anyFlushed_set hp (by rw [hpc]; rfl)]
  split
  · rename_i hany
    rw [hmissed hany]
  · exact hcount

/-- The snapshots after an update that fits. -/
theorem Snaps.updated (h : Snaps w.procs w.shared.fallback.count) (hp : w.procs[i]? = some p)
    (hpc : p.pc = .update) (hguard : p.report.idle = true ∨ otherSnapped w i = false)
    (hfits : ∀ k f, unflushed w k f + p.reportedAt k f < 2 ^ 64) :
    Snaps (w.procs.set i { p with pc := .returned })
      (w.shared.fallbackRecord p.domain p.report).1.fallback.count := by
  rcases hguard with hidle | hother
  · -- the counters have not moved
    have hsame : (w.shared.fallbackRecord p.domain p.report).1.fallback.count =
        w.shared.fallback.count := by
      funext k f
      refine ((fallback_gains hp hpc (Or.inl hidle) (hfits k f)).1).trans ?_
      unfold Recorder.reportedAt reportedBy
      rw [UsageReport.amount_of_idle hidle, ite_self, add_zero]
    rw [hsame]
    exact h.keep_none hp rfl
  · refine snaps_of_none fun j q hj => ?_
    rcases getElem_set_cases hj with ⟨rfl, rfl⟩ | ⟨hji, hq⟩
    · rfl
    · exact otherSnapped_false hother j q hji hq

/-- An update of the fallback: of no usage, or while there is no snapshot. -/
theorem Exact.updated (h : Exact w) (hp : w.procs[i]? = some p)
    (hfits : ∀ k f, tally (Recorder.reportedAt k f) w.procs < 2 ^ 63) (hpc : p.pc = .update)
    (hguard : p.report.idle = true ∨ otherSnapped w i = false) :
    Exact ⟨(w.shared.fallbackRecord p.domain p.report).1,
      w.procs.set i { p with pc := .returned }⟩ := by
  have hbound : ∀ k f, unflushed w k f + p.reportedAt k f < 2 ^ 64 := by
    intro k f
    have hsum := h.sum k f
    have hfit := hfits k f
    have hnn := h.nonneg k f
    have htally := le_tally (Recorder.pendingAt k f) (List.mem_of_getElem? hp)
    rw [Recorder.pendingAt_of_pending (by rw [hpc]; rfl)] at htally
    omega
  refine h.moved hp h.nonneg (fun k f => ?_) (h.snaps.updated hp hpc hguard hbound)
    (fun h => nomatch h)
  rw [unflushed_updated hp hpc hguard (hbound k f), Recorder.pendingAt_of_not rfl,
    Recorder.pendingAt_of_pending (p := p) (by rw [hpc]; rfl)]
  show w.shared.redis.count k f + ((unflushed w k f + p.reportedAt k f : ℕ) : ℤ) + _ = _
  omega

/-- One operation of a call, under the assumptions and without overlap. -/
theorem Exact.act (h : Exact w) (hp : w.procs[i]? = some p)
    (hfits : ∀ k f, tally (Recorder.reportedAt k f) w.procs < 2 ^ 63)
    (hassumed : assumed w (.act i x) = true) (hguard : noOverlap w (.act i x) = true)
    (heffect : RecordEffect w.shared p x s' pc) :
    Exact ⟨s', w.procs.set i { p with pc := pc }⟩ := by
  have hguard' := hguard
  simp only [assumed, hp, Option.map_some] at hassumed
  simp only [noOverlap, hp] at hguard'
  cases heffect with
  | quiet hredis hfallback hpend hsnap hsnap' hcap =>
    refine h.quiet hp hredis hfallback hpend hsnap hsnap' fun hget => ?_
    obtain ⟨hlen, hfull⟩ := hcap hget
    simp only [hlen, decide_eq_true_eq] at hassumed
    omega
  | @attempted o _ err _ hpc hx hatt hpend hsnap' hcap =>
    subst hx
    cases o with
    | reached => exact h.wrote hp hfits hpc hatt hpend hsnap' hcap
    | failed ran e =>
      -- the pipeline had no effect
      have hran : ran = [] := by
        rcases hpc with hpc | hpc <;> simpa [hpc] using hassumed
      subst hran
      obtain ⟨rfl, rfl⟩ := RedisStorage.pipeline_eq hatt
      have hpending : p.pc.pending = true := by rcases hpc with hpc | hpc <;> rw [hpc] <;> rfl
      have hsnap : p.pc.snapped = none := by rcases hpc with hpc | hpc <;> rw [hpc] <;> rfl
      refine h.quiet hp ?_ rfl (by rw [hpend, hpending]; rfl) hsnap hsnap' hcap
      simp [Redis.runPipeline, Redis.execAll]
  | snapped hpc =>
    rw [hpc] at hguard'
    simp only [Bool.or_eq_true, Bool.not_eq_true'] at hguard'
    exact h.snapped hp hpc hguard'
  | @flushed entries o _ hpc hx hredis hfallback =>
    subst hx
    cases o with
    | reached => exact h.flushed hp hfits hpc hredis hfallback
    | failed ran e => simp [hpc] at hassumed
  | cleared hpc => exact h.cleared hp hpc
  | capped hpc => exact absurd hpc (h.noCap p (List.mem_of_getElem? hp))
  | updated hpc =>
    rw [hpc] at hguard'
    simp only [Bool.or_eq_true, Bool.not_eq_true'] at hguard'
    exact h.updated hp hfits hpc hguard'

end Step

/-- A new call holds no snapshot. -/
theorem Snaps.spawned {ps : List Recorder} {c : BucketKey → Field → ℕ} (h : Snaps ps c)
    (a : Str × UsageReport) : Snaps (ps ++ [recordMachine.init a]) c := by
  have hcases : ∀ (j : ℕ) (q : Recorder), (ps ++ [recordMachine.init a])[j]? = some q →
      ps[j]? = some q ∨ q.pc.snapped = none := by
    intro j q hj
    rw [List.getElem?_append] at hj
    split at hj
    · exact Or.inl hj
    · have hmem := List.mem_of_getElem? hj
      rw [List.mem_singleton] at hmem
      exact Or.inr (by rw [hmem]; rfl)
  refine ⟨fun j q e hj he => ?_, fun i j p q hij hi hj hp hq => ?_⟩
  · rcases hcases j q hj with hold | hnone
    · exact h.same j q e hold he
    · rw [hnone] at he
      simp at he
  · rcases hcases i p hi with hold | hnone
    · rcases hcases j q hj with hold' | hnone
      · exact h.alone i j p q hij hold hold' hp hq
      · rw [hnone] at hq
        simp at hq
    · rw [hnone] at hp
      simp at hp

theorem unflushed_spawned (w : Pool RedisStorage Recorder) (a : Str × UsageReport) (k : BucketKey)
    (f : Field) :
    unflushed ⟨w.shared, w.procs ++ [recordMachine.init a]⟩ k f = unflushed w k f := by
  simp [unflushed, anyFlushed, recordMachine, RecordPC.flushed]

/-- A new call is pending. -/
theorem Exact.spawn {w : Pool RedisStorage Recorder} (h : Exact w) (a : Str × UsageReport) :
    Exact ⟨w.shared, w.procs ++ [recordMachine.init a]⟩ := by
  refine ⟨h.nonneg, fun k f => ?_, h.snaps.spawned a, ?_⟩
  · have hsum := h.sum k f
    have hpend : Recorder.pendingAt k f (recordMachine.init a) =
        Recorder.reportedAt k f (recordMachine.init a) := rfl
    rw [unflushed_spawned, tally_append, tally_append, tally_cons, tally_cons, tally_nil,
      tally_nil, hpend]
    push_cast
    show w.shared.redis.count k f + _ + _ = _
    omega
  · intro q hq
    rcases List.mem_append.mp hq with hq | hq
    · exact h.noCap q hq
    · rw [List.mem_singleton.mp hq]
      intro hcap
      simp [recordMachine] at hcap

-- ---------------------------------------------------------------------------
-- Whole runs
-- ---------------------------------------------------------------------------

/-- **Exactly-once accounting.** Any number of overlapping `RecordUsage` calls
on a fresh store, pipelines all-or-nothing, every flush succeeding, the
fallback never full, and totals below 2^63: if no call adds usage to the
fallback, or takes a snapshot that holds usage, while another call is between
its `All` and its `Clear`, then once all calls have returned every counter of
every key is in Redis or in the fallback exactly once. -/
theorem recovery_exact (cfg : RedisConfig) {w : Pool RedisStorage Recorder}
    (h : recordMachine.Run (fun w m => assumed w m = true ∧ noOverlap w m = true)
      ⟨newRedisStorage cfg emptyRedis, []⟩ w)
    (hfits : ∀ k f, tally (Recorder.reportedAt k f) w.procs < 2 ^ 63)
    (hdone : ∀ p ∈ w.procs, p.pc.done = true) (k : BucketKey) (f : Field) :
    w.shared.redis.count k f + w.shared.fallback.count k f =
      tally (Recorder.reportedAt k f) w.procs := by
  -- the totals only grow, so they were below the bound all along
  have hinv : (∀ k f, tally (Recorder.reportedAt k f) w.procs < 2 ^ 63) → Exact w := by
    refine Run.invariant
      (I := fun w => (∀ k f, tally (Recorder.reportedAt k f) w.procs < 2 ^ 63) → Exact w) h ?_ ?_
    · intro _
      exact ⟨fun _ _ => le_refl 0, fun _ _ => rfl, snaps_of_none (fun j q hj => nomatch hj),
        fun q hq => (List.not_mem_nil hq).elim⟩
    · intro w m w' _ hI hok hn hfits'
      rcases next_cases hn with ⟨a, -, rfl⟩ | ⟨i, x, p, s', p', rfl, hp, hs, rfl⟩
      · refine (hI fun k f => ?_).spawn a
        have hfit := hfits' k f
        rw [tally_append] at hfit
        omega
      · obtain ⟨hp', heffect⟩ := recordStep_cases hs
        rw [hp'] at hfits' ⊢
        have hfits₀ : ∀ k f, tally (Recorder.reportedAt k f) w.procs < 2 ^ 63 := by
          intro k f
          rw [← reported_step p'.pc hp k f]
          exact hfits' k f
        exact (hI hfits₀).act hp hfits₀ hok.1 hok.2 heffect
  have hexact := hinv hfits
  have hsum := hexact.sum k f
  have hpend : tally (Recorder.pendingAt k f) w.procs = 0 := by
    rw [tally_eq_zero_iff]
    intro p hp
    unfold Recorder.pendingAt
    rw [(RecordPC.eq_returned (hdone p hp))]
    rfl
  have hflushed : anyFlushed w.procs = false := by
    rw [anyFlushed, List.any_eq_false]
    intro p hp
    rw [(RecordPC.eq_returned (hdone p hp))]
    exact fun h => nomatch h
  unfold unflushed at hsum
  rw [hflushed, hpend] at hsum
  simpa using hsum

-- ---------------------------------------------------------------------------
-- Concrete interleavings
-- ---------------------------------------------------------------------------

/-- Call 0 finds Redis down, trips the breaker and writes to the fallback. -/
def outageMoves : List (Move (Str × UsageReport) RecordInput) :=
  [.spawn ([100], sampleReport), .act 0 .tick, .act 0 (.redis (.failed [] .unreachable)),
    .act 0 (.clock 0), .act 0 .tick]

/-- Call `i` finds the breaker tripped, retries and reaches Redis. -/
def retryMoves (i : ℕ) : List (Move (Str × UsageReport) RecordInput) :=
  [.spawn ([100], sampleReport), .act i .tick, .act i (.clock 10000000000),
    .act i (.redis .reached)]

/-- Call `i` flushes its snapshot, clears the fallback and closes the breaker. -/
def flushMoves (i : ℕ) : List (Move (Str × UsageReport) RecordInput) :=
  [.act i (.redis .reached), .act i .tick, .act i .tick]

/-- An update between another call's snapshot and clear. -/
def lostUpdate : List (Move (Str × UsageReport) RecordInput) :=
  outageMoves ++ retryMoves 1 ++
    [.spawn ([100], sampleReport), .act 2 .tick, .act 2 (.clock 1), .act 2 .tick] ++
    [.act 1 .tick, .act 2 .tick] ++ flushMoves 1

/-- Two calls that snapshot the same fallback. -/
def doubleFlush : List (Move (Str × UsageReport) RecordInput) :=
  outageMoves ++ retryMoves 1 ++ retryMoves 2 ++ [.act 1 .tick, .act 2 .tick] ++
    flushMoves 1 ++ flushMoves 2

/-- Two interleavings, both within the assumptions, after which all three calls
have returned and the counts are off: a report of 5 is lost in one, and
counted twice in the other. -/
theorem recovery_loses_and_doubles :
    (∃ w, recordMachine.Run (fun w m => assumed w m = true)
        ⟨newRedisStorage ⟨0, 0⟩ emptyRedis, []⟩ w ∧
      (∀ p ∈ w.procs, p.pc.done = true) ∧
      w.shared.redis.count sampleKey .allowed + w.shared.fallback.count sampleKey .allowed = 10 ∧
      tally (Recorder.reportedAt sampleKey .allowed) w.procs = 15) ∧
    ∃ w, recordMachine.Run (fun w m => assumed w m = true)
        ⟨newRedisStorage ⟨0, 0⟩ emptyRedis, []⟩ w ∧
      (∀ p ∈ w.procs, p.pc.done = true) ∧
      w.shared.redis.count sampleKey .allowed + w.shared.fallback.count sampleKey .allowed = 20 ∧
      tally (Recorder.reportedAt sampleKey .allowed) w.procs = 15 := by
  refine ⟨?_, ?_⟩
  · have hrun := run_exec recordMachine.next assumed ⟨newRedisStorage ⟨0, 0⟩ emptyRedis, []⟩
      lostUpdate
      (by decide)
    exact ⟨_, hrun, by decide, by decide, by decide⟩
  · have hrun := run_exec recordMachine.next assumed ⟨newRedisStorage ⟨0, 0⟩ emptyRedis, []⟩
      doubleFlush
      (by decide)
    exact ⟨_, hrun, by decide, by decide, by decide⟩

/-- An outage and a recovery that do not overlap. -/
theorem recovery_exact_in_turn :
    ∃ w, recordMachine.Run (fun w m => assumed w m = true ∧ noOverlap w m = true)
        ⟨newRedisStorage ⟨0, 0⟩ emptyRedis, []⟩ w ∧
      (∀ p ∈ w.procs, p.pc.done = true) ∧
      w.shared.redis.count sampleKey .allowed = 10 ∧
      w.shared.redis.count sampleKey .allowed + w.shared.fallback.count sampleKey .allowed =
        tally (Recorder.reportedAt sampleKey .allowed) w.procs := by
  have hrun := run_exec_of recordMachine.next
    (fun (w : Pool RedisStorage Recorder) m (h : (assumed w m && noOverlap w m) = true) =>
      Bool.and_eq_true_iff.mp h) ⟨newRedisStorage ⟨0, 0⟩ emptyRedis, []⟩
    (outageMoves ++ retryMoves 1 ++ [.act 1 .tick] ++ flushMoves 1) (by decide)
  refine ⟨_, hrun, by decide, by decide, recovery_exact ⟨0, 0⟩ hrun (fun k f => ?_) (by decide) _ _⟩
  have hone : reportedBy sampleKey sampleReport k f ≤ 5 := by
    unfold reportedBy
    split
    · cases f <;> decide
    · exact Nat.zero_le 5
  show reportedBy sampleKey sampleReport k f + (reportedBy sampleKey sampleReport k f + 0) < 2 ^ 63
  omega

end Rlqs
