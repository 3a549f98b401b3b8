import Rlqs.Server.RefCount

/-!
# RLQS server — the two gauges

`ActiveBuckets` is raised by one label at a time after a subscription, lowered
after an abandon and once per key in `cleanupStream`; `ActiveStreams` is raised
when a stream opens and lowered when its handler returns. The label of a stream
is the `metricDomain` it was bound with. It is an input of the step that binds
the stream, so the runs here have any classifier, swapped at any time.

Both gauges follow the counting rule: a handler accounts for its increments that
it has not taken back yet (`Handler.gauged`, `Handler.counted`), every step moves
the gauge by as much as it moves that account, and an account is a natural
number.

* `activeBuckets_step`, `activeStreams_step` — one step;
* `gauges_accurate` — never negative in any reachable state, and equal to the
  registered streams and their subscriptions when every handler rests.
-/

namespace Rlqs

open Interleave Steps

-- ---------------------------------------------------------------------------
-- The accounts
-- ---------------------------------------------------------------------------

/-- How many increments of `ActiveBuckets` the handler has not taken back. -/
def Handler.gauged (p : Handler) : ℕ :=
  match p.pc with
  | .incRef _ _ _ _ => GoMap.len p.ss.subscriptions - 1
  | .gaugeInc _ _ _ => GoMap.len p.ss.subscriptions - 1
  | .decRef _ (.abandon _ _ _) => GoMap.len p.ss.subscriptions + 1
  | .remove _ (.abandon _ _ _) => GoMap.len p.ss.subscriptions + 1
  | .gaugeDec _ _ _ => GoMap.len p.ss.subscriptions + 1
  | .decRef _ (.cleanup todo) => todo.length
  | .remove _ (.cleanup todo) => todo.length
  | .cleanup todo => todo.length
  | .done => 0
  | _ => GoMap.len p.ss.subscriptions

/-- The part of it under label `l`. -/
def Handler.gaugedAt (l : Str) (p : Handler) : ℕ :=
  if p.ss.metricDomain = l then p.gauged else 0

/-- Whether the stream is counted in `ActiveStreams`. -/
def Handler.counted (p : Handler) : ℕ :=
  match p.pc with
  | .start | .opened | .unregister | .cleanup _ | .done => 0
  | .decRef _ (.cleanup _) | .remove _ (.cleanup _) => 0
  | _ => 1

/-- The handler has not begun, waits in `Recv`, or has returned. -/
def PC.resting : PC → Bool
  | .start | .recv | .done => true
  | _ => false

/-- The subscriptions of a registered stream with label `l`. -/
def Handler.bucketsAt (l : Str) (p : Handler) : ℕ :=
  if p.registered ∧ p.ss.metricDomain = l then GoMap.len p.ss.subscriptions else 0

-- ---------------------------------------------------------------------------
-- One step
-- ---------------------------------------------------------------------------

theorem moveGauge_at (g : Str → Int) (m : Str) (d : Int) (l : Str) :
    moveGauge g m d l = g l + if m = l then d else 0 := by
  unfold moveGauge
  by_cases hl : m = l
  · subst hl
    simp
  · rw [Function.update_of_ne (Ne.symm hl), if_neg hl, add_zero]

section Step

variable {σ : Type} [BucketStore σ] {cfg : Limits} {sh sh' : Shared σ} {p p' : Handler} {x : Input}

/-- A step that leaves the gauge alone and keeps the account. -/
theorem Handler.gauge_kept {g : Str → Int} (hlabel : p'.ss.metricDomain = p.ss.metricDomain)
    (hsame : p'.gauged = p.gauged) (l : Str) : g l + p.gaugedAt l = g l + p'.gaugedAt l := by
  unfold Handler.gaugedAt
  rw [hlabel, hsame]

/-- A step that moves the gauge at the stream's label. -/
theorem Handler.gauge_moved {g : Str → Int} {d : Int}
    (hlabel : p'.ss.metricDomain = p.ss.metricDomain)
    (hmove : (p'.gauged : Int) = p.gauged + d) (l : Str) :
    moveGauge g p.ss.metricDomain d l + p.gaugedAt l = g l + p'.gaugedAt l := by
  unfold Handler.gaugedAt
  rw [moveGauge_at, hlabel]
  split
  · omega
  · simp

/-- Tracking a usage: a new subscription is not on the gauge yet. -/
theorem trackStep_gauged (cfg : Limits) {u : BucketQuotaUsage} {us : List BucketQuotaUsage}
    {reports : List UsageReport} (hpc : p.pc = .usages (u :: us) reports) :
    (trackStep cfg p u us reports).ss.metricDomain = p.ss.metricDomain ∧
      (trackStep cfg p u us reports).gauged = p.gauged := by
  have hlen : p.gauged = GoMap.len p.ss.subscriptions := by
    unfold Handler.gauged
    rw [hpc]
  rw [hlen]
  rcases trackStep_cases cfg p u us reports with
    ⟨-, ht⟩ | ht | ⟨id, -, -, -, ht⟩ | ⟨id, -, -, hmem, ht⟩
  · rw [ht]
    exact ⟨rfl, rfl⟩
  · rw [ht]
    exact ⟨rfl, rfl⟩
  · rw [ht]
    exact ⟨rfl, rfl⟩
  · rw [ht]
    refine ⟨rfl, ?_⟩
    show GoMap.len (p.ss.subscriptions.insert _ id) - 1 = _
    rw [GoMap.len_insert_of_notMem hmem]
    omega

/-- Abandoning a bucket: it leaves the map before it leaves the gauge. -/
theorem abandonStep_gauged {v : ℕ} {a : BucketAction} {rest all : List BucketAction}
    (hpc : p.pc = .actions v (a :: rest) all) :
    (abandonStep p v a rest all).ss.metricDomain = p.ss.metricDomain ∧
      (abandonStep p v a rest all).gauged = p.gauged := by
  have hlen : p.gauged = GoMap.len p.ss.subscriptions := by
    unfold Handler.gauged
    rw [hpc]
  rw [hlen]
  rcases abandonStep_cases p v a rest all with ht | ⟨-, hmem, ht⟩
  · rw [ht]
    exact ⟨rfl, rfl⟩
  · rw [ht]
    exact ⟨rfl, GoMap.len_erase_of_mem hmem⟩

/-- Binding a domain keeps what the stream has on the gauge. A stream that takes
its label there has nothing on it. -/
theorem bind_gauged (hw : p.Wf) {req : UsageReports} (hpc : p.pc = .bind req) {lbl : Str}
    {ss : StreamState} (hbind : bindDomain lbl p.ss req = .ok ss) (l : Str) :
    ({ p with ss := ss, pc := afterBind cfg req } : Handler).gaugedAt l = p.gaugedAt l := by
  obtain ⟨hsubs, -, hbound, -⟩ := bindDomain_ok hbind
  have hlen : p.gauged = GoMap.len p.ss.subscriptions := by
    unfold Handler.gauged
    rw [hpc]
  have hafter : ({ p with ss := ss, pc := afterBind cfg req } : Handler).gauged = p.gauged := by
    rw [hlen, ← hsubs]
    rcases afterBind_cases cfg req with ha | ha | ha
    all_goals
      rw [ha]
      rfl
  unfold Handler.gaugedAt
  rw [hafter]
  cases hb : p.ss.domainBound with
  | true => rw [hbound hb]
  | false =>
    have hzero : p.gauged = 0 := by
      rw [hlen, hw.unbound hb]
      rfl
    simp [hzero]

/-- A step changes `ActiveBuckets` at a label by as much as it changes its own
stream's account there. -/
theorem activeBuckets_step (hw : p.Wf) (h : handlerStep cfg sh p x = some (sh', p')) (l : Str) :
    sh'.activeBuckets l + p.gaugedAt l = sh.activeBuckets l + p'.gaugedAt l := by
  cases handlerStep_turn h with
  | bound hpc hbind => rw [bind_gauged hw hpc hbind]
  | usage hpc =>
    obtain ⟨hlabel, hsame⟩ := trackStep_gauged cfg hpc
    exact Handler.gauge_kept hlabel hsame l
  | @gaugeInc u us reports hpc =>
    refine Handler.gauge_moved (by rfl) ?_ l
    have hpos : 0 < GoMap.len p.ss.subscriptions :=
      List.length_pos_of_mem (AList.mem_keys.mp (hw.tracked u (by rw [hpc]; rfl)))
    have hlen : p.gauged = GoMap.len p.ss.subscriptions - 1 := by
      unfold Handler.gauged
      rw [hpc]
    rw [hlen]
    show (GoMap.len p.ss.subscriptions : Int) = _
    omega
  | action hpc =>
    obtain ⟨hlabel, hsame⟩ := abandonStep_gauged hpc
    exact Handler.gauge_kept hlabel hsame l
  | @decRef key k hpc =>
    refine Handler.gauge_kept (by rfl) ?_ l
    unfold Handler.gauged
    rw [hpc]
    dsimp only
    generalize (dropRef sh.bucketRefs (domainScopedKey p.ss.domain key)).2 = removing
    cases k <;> cases removing <;> rfl
  | @remove key k hpc =>
    refine Handler.gauge_kept (by rfl) ?_ l
    unfold Handler.gauged
    rw [hpc]
    cases k with
    | abandon v rest all => rfl
    | cleanup todo => rfl
  | gaugeDec hpc =>
    refine Handler.gauge_moved (by rfl) ?_ l
    have hlen : p.gauged = GoMap.len p.ss.subscriptions + 1 := by
      unfold Handler.gauged
      rw [hpc]
    rw [hlen]
    show (GoMap.len p.ss.subscriptions : Int) = _
    omega
  | unregister hpc =>
    refine Handler.gauge_kept (by rfl) ?_ l
    have hlen : p.gauged = GoMap.len p.ss.subscriptions := by
      unfold Handler.gauged
      rw [hpc]
    rw [hlen]
    unfold Handler.gauged
    cases hb : p.ss.domainBound with
    | true => rfl
    | false =>
      rw [hw.unbound hb]
      rfl
  | @picked todo key hpc hkey =>
    refine Handler.gauge_moved (by rfl) ?_ l
    have hlen : p.gauged = todo.length := by
      unfold Handler.gauged
      rw [hpc]
    have herase := List.length_erase_of_mem hkey
    have hpos := List.length_pos_of_mem hkey
    rw [hlen]
    show ((todo.erase key).length : Int) = _
    omega
  | _ hpc =>
    exact Handler.gauge_kept (by rfl) (by simp only [Handler.gauged, hpc, List.length_nil]) l

/-- A step changes `ActiveStreams` by as much as it opens or closes its stream. -/
theorem activeStreams_step (h : handlerStep cfg sh p x = some (sh', p')) :
    sh'.activeStreams + p.counted = sh.activeStreams + p'.counted := by
  unfold Handler.counted
  cases handlerStep_turn h with
  | opened hpc =>
    rw [hpc]
    dsimp only
    omega
  | @bound req lbl ss hpc hbind =>
    rw [hpc]
    rcases afterBind_cases cfg req with ha | ha | ha
    all_goals rw [ha]
  | @usage u us reports hpc =>
    rw [hpc]
    rcases trackStep_cases cfg p u us reports with
      ⟨-, ht⟩ | ht | ⟨id, -, -, -, ht⟩ | ⟨id, -, -, -, ht⟩
    all_goals rw [ht]
  | @action v a rest all hpc =>
    rw [hpc]
    rcases abandonStep_cases p v a rest all with ht | ⟨-, -, ht⟩
    all_goals rw [ht]
  | @decRef key k hpc =>
    rw [hpc]
    dsimp only
    generalize (dropRef sh.bucketRefs (domainScopedKey p.ss.domain key)).2 = removing
    cases k <;> cases removing <;> rfl
  | @remove key k hpc =>
    rw [hpc]
    cases k with
    | abandon v rest all => rfl
    | cleanup todo => rfl
  | closing hpc =>
    rw [hpc]
    dsimp only
    omega
  | unregister hpc =>
    rw [hpc]
    cases p.ss.domainBound <;> rfl
  | _ hpc => rw [hpc]

/-- At rest a handler accounts for what it is registered with. -/
theorem Handler.Wf.gaugedAt_resting (hw : p.Wf) (hrest : p.pc.resting = true) (l : Str) :
    p.gaugedAt l = p.bucketsAt l := by
  unfold Handler.gaugedAt Handler.bucketsAt Handler.gauged
  rw [hw.registered_eq]
  cases hpc : p.pc with
  | start =>
    rw [hw.unbound (hw.start hpc)]
    simp [PC.listed, GoMap.len]
  | recv => simp [PC.listed]
  | done => simp [PC.listed]
  | _ => rw [hpc] at hrest; simp [PC.resting] at hrest

theorem Handler.Wf.counted_resting (hw : p.Wf) (hrest : p.pc.resting = true) :
    p.counted = if p.registered then 1 else 0 := by
  unfold Handler.counted
  rw [hw.registered_eq]
  cases hpc : p.pc with
  | start => rfl
  | recv => rfl
  | done => rfl
  | _ => rw [hpc] at hrest; simp [PC.resting] at hrest

end Step

-- ---------------------------------------------------------------------------
-- Whole runs
-- ---------------------------------------------------------------------------

section Run

variable {σ : Type} [BucketStore σ] {cfg : Limits} {store : σ} {w : Pool (Shared σ) Handler}
  {ok : Pool (Shared σ) Handler → Move Unit Input → Prop}

theorem run_activeBuckets (h : (serverMachine σ cfg).Run ok (newServer store) w) (l : Str) :
    w.shared.activeBuckets l = tally (Handler.gaugedAt l) w.procs :=
  Run.balance (I := Handler.Wf) (fun sh => sh.activeBuckets l) (Handler.gaugedAt l) h rfl
    (by simp [newServer]) (fun _ => ⟨newHandler_wf, ite_self 0⟩)
    (fun _ _ _ _ _ hw hs => handlerStep_wf hw hs)
    fun _ _ _ _ _ hw _ hs => activeBuckets_step hw hs l

theorem run_activeStreams (h : (serverMachine σ cfg).Run ok (newServer store) w) :
    w.shared.activeStreams = tally Handler.counted w.procs :=
  Run.balance (I := Handler.Wf) (fun sh => sh.activeStreams) Handler.counted h rfl
    (by simp [newServer]) (fun _ => ⟨newHandler_wf, rfl⟩)
    (fun _ _ _ _ _ hw hs => handlerStep_wf hw hs)
    fun _ _ _ _ _ _ _ hs => activeStreams_step hs

/-- **The gauges are accurate.** In every reachable state neither gauge is
negative. When no handler and no cleanup is in mid-operation, `ActiveBuckets` at
every label is the number of subscriptions of the registered streams with that
`metricDomain`, and `ActiveStreams` is the number of registered streams. -/
theorem gauges_accurate (cfg : Limits) (store : σ)
    (h : (serverMachine σ cfg).Run Machine.free (newServer store) w) :
    (∀ l, 0 ≤ w.shared.activeBuckets l) ∧ 0 ≤ w.shared.activeStreams ∧
    ((∀ p ∈ w.procs, p.pc.resting = true) →
      (∀ l, w.shared.activeBuckets l = tally (Handler.bucketsAt l) w.procs) ∧
      w.shared.activeStreams = tally (fun p => if p.registered then 1 else 0) w.procs) := by
  refine ⟨fun l => ?_, ?_, fun hrest => ⟨fun l => ?_, ?_⟩⟩
  · rw [run_activeBuckets h l]
    omega
  · rw [run_activeStreams h]
    omega
  · rw [run_activeBuckets h l,
      tally_congr fun p hp => (run_wf h p hp).gaugedAt_resting (hrest p hp) l]
  · rw [run_activeStreams h, tally_congr fun p hp => (run_wf h p hp).counted_resting (hrest p hp)]

end Run

/-- Two streams with the sample bucket, bound with the label `""`. -/
theorem gauges_two_streams :
    ∃ w, (serverMachine MemoryStorage noLimits).Run Machine.free
        (newServer MemoryStorage.newMemoryStorage) w ∧
      w.shared.activeBuckets [] = 2 ∧ w.shared.activeStreams = 2 ∧
      w.shared.activeBuckets [] = tally (Handler.bucketsAt []) w.procs ∧
      w.shared.activeStreams = tally (fun p => if p.registered then 1 else 0) w.procs := by
  have hrun := run_exec_free (serverMachine MemoryStorage noLimits).next
    (newServer MemoryStorage.newMemoryStorage)
    ([.spawn (), .spawn ()] ++ reportMoves 0 ++ reportMoves 1) (by decide)
  obtain ⟨-, -, hrest⟩ := gauges_accurate _ _ hrun
  obtain ⟨hbuckets, hstreams⟩ := hrest (by decide)
  exact ⟨_, hrun, by decide, by decide, hbuckets [], hstreams⟩

end Rlqs
