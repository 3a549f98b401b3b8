import Rlqs.Server.Atomic
import Rlqs.Server.Calls

/-!
# RLQS server — calls are runs of handlers

`Server/Calls.lean` takes one `handleMessage` or `cleanupStream` call at a time,
`Server/Atomic.lean` takes one atomic step of a handler at a time. A handler
that nobody interrupts does what the call says, so every run of calls is, up to
the gauges and the ghosts, a run of handlers in which each call runs to its end
before the next one starts.

* `trackUsages_leads`, `applyAbandons_leads`, `answer_leads`,
  `handleMessage_leads`, `cleanupStream_leads` — the parts of the calls;
* `calls_simulated` — whole runs.
-/

namespace Rlqs

open Interleave Steps

variable {σ : Type} [BucketStore σ] {cfg : Limits}

/-- A handler at `pc` on the stream `ss`, with the references and the store of
`srv`, engine `v` installed and the responses `sent`; the gauges, the
registration and the ghost are left open. -/
def At (v : ℕ) (sent : List (ℕ × List BucketAction)) (pc : PC) (srv : Server σ)
    (ss : StreamState) (c : Shared σ × Handler) : Prop :=
  ∃ streams buckets registered held,
    c = (⟨srv.bucketRefs, srv.store, v, streams, buckets⟩, ⟨pc, ss, registered, held, sent⟩)

variable {v : ℕ} {sent : List (ℕ × List BucketAction)} {srv : Server σ} {ss : StreamState}

omit [BucketStore σ] in
theorem At.intro {sh : Shared σ} {p : Handler} (hrefs : sh.bucketRefs = srv.bucketRefs)
    (hstore : sh.store = srv.store) : At sh.engine p.sent p.pc srv p.ss (sh, p) := by
  refine ⟨sh.activeStreams, sh.activeBuckets, p.registered, p.held, ?_⟩
  rw [← hrefs, ← hstore]

/-- One step of the handler, whatever is left open. -/
theorem At.step {pc pc' : PC} {srv' : Server σ} {ss' : StreamState}
    {sent' : List (ℕ × List BucketAction)} (x : Input)
    (h : ∀ streams buckets registered held, ∃ c',
      handlerStep cfg ⟨srv.bucketRefs, srv.store, v, streams, buckets⟩
        ⟨pc, ss, registered, held, sent⟩ x = some c' ∧ At v sent' pc' srv' ss' c') :
    (serverMachine σ cfg).Leads (At v sent pc srv ss) (At v sent' pc' srv' ss') := by
  refine Machine.Leads.of_step ?_
  rintro _ ⟨streams, buckets, registered, held, rfl⟩
  exact ⟨x, h streams buckets registered held⟩

-- ---------------------------------------------------------------------------
-- The subscription loop
-- ---------------------------------------------------------------------------

/-- Where the subscription loop ends. -/
def trackedPC : Except Status (List UsageReport) → PC
  | .error _ => .closing
  | .ok reports => .load reports

/-- `RecordUsage`, and on to the next usage. -/
theorem record_leads (u : BucketQuotaUsage) (us : List BucketQuotaUsage)
    (reports : List UsageReport) :
    (serverMachine σ cfg).Leads (At v sent (.record u us reports) srv ss)
      (At v sent (.usages us (reports ++ [u.toReport])) (srv.record ss.domain u.toReport) ss) :=
  At.step .tick fun _ _ _ _ => ⟨_, rfl, _, _, _, _, rfl⟩

/-- The increment of `bucketRefs`, the gauge, then `RecordUsage`. -/
theorem subscribe_leads (key : BucketKey) (u : BucketQuotaUsage) (us : List BucketQuotaUsage)
    (reports : List UsageReport) :
    (serverMachine σ cfg).Leads (At v sent (.incRef key u us reports) srv ss)
      (At v sent (.usages us (reports ++ [u.toReport]))
        ((srv.subscribe (domainScopedKey ss.domain key)).record ss.domain u.toReport) ss) := by
  have hcount : (serverMachine σ cfg).Leads (At v sent (.incRef key u us reports) srv ss)
      (At v sent (.gaugeInc u us reports) (srv.subscribe (domainScopedKey ss.domain key)) ss) :=
    At.step .tick fun _ _ _ _ => ⟨_, rfl, _, _, _, _, rfl⟩
  have hgauge : (serverMachine σ cfg).Leads
      (At v sent (.gaugeInc u us reports) (srv.subscribe (domainScopedKey ss.domain key)) ss)
      (At v sent (.record u us reports) (srv.subscribe (domainScopedKey ss.domain key)) ss) :=
    At.step .tick fun _ _ _ _ => ⟨_, rfl, _, _, _, _, rfl⟩
  exact (hcount.trans hgauge).trans (record_leads u us reports)

/-- The step that tracks a subscription, wherever it leads. -/
theorem track_leads {u : BucketQuotaUsage} {us : List BucketQuotaUsage}
    {reports : List UsageReport} {pc : PC} {ss' : StreamState}
    (h : ∀ p : Handler, p.ss = ss → trackStep cfg p u us reports = { p with pc := pc, ss := ss' }) :
    (serverMachine σ cfg).Leads (At v sent (.usages (u :: us) reports) srv ss)
      (At v sent pc srv ss') := by
  refine At.step .tick fun streams buckets registered held =>
    ⟨_, ?_, streams, buckets, registered, held, rfl⟩
  show some (_, trackStep cfg _ u us reports) = _
  rw [h _ rfl]

theorem trackUsages_leads (us : List BucketQuotaUsage) :
    ∀ (srv : Server σ) (ss : StreamState) (reports : List UsageReport),
      (serverMachine σ cfg).Leads (At v sent (.usages us reports) srv ss)
        (At v sent (trackedPC (trackUsages cfg srv ss us reports).2.2)
          (trackUsages cfg srv ss us reports).1 (trackUsages cfg srv ss us reports).2.1) := by
  induction us with
  | nil =>
    intro srv ss reports
    exact At.step .tick fun _ _ _ _ => ⟨_, rfl, _, _, _, _, rfl⟩
  | cons u us ih =>
    intro srv ss reports
    rw [trackUsages]
    split
    · rename_i hc
      refine (track_leads fun p hp => ?_).trans (ih srv ss reports)
      subst hp
      simp [trackStep, hc]
    · rename_i e hc
      refine track_leads fun p hp => ?_
      subst hp
      simp [trackStep, hc, trackedPC]
    · rename_i id hc
      rcases trackSubscription_cases cfg ss (bucketKeyFromProto (some id)) id with
        ⟨-, ht⟩ | ⟨e, ht⟩ | ⟨-, ht⟩
      · simp only [ht]
        have htrack : (serverMachine σ cfg).Leads (At v sent (.usages (u :: us) reports) srv ss)
            (At v sent (.record u us reports) srv ss) := by
          refine track_leads fun p hp => ?_
          subst hp
          simp [trackStep, hc, ht]
        exact (htrack.trans (record_leads u us reports)).trans (ih _ ss _)
      · simp only [ht]
        refine track_leads fun p hp => ?_
        subst hp
        simp [trackStep, hc, ht, trackedPC]
      · simp only [ht]
        have htrack : (serverMachine σ cfg).Leads (At v sent (.usages (u :: us) reports) srv ss)
            (At v sent (.incRef (bucketKeyFromProto (some id)) u us reports) srv
              { ss with
                subscriptions := ss.subscriptions.insert (bucketKeyFromProto (some id)) id }) := by
          refine track_leads fun p hp => ?_
          subst hp
          simp [trackStep, hc, ht]
        exact (htrack.trans (subscribe_leads _ u us reports)).trans (ih _ _ _)

-- ---------------------------------------------------------------------------
-- The abandon loop and the response
-- ---------------------------------------------------------------------------

/-- The decrement and, with the last reference, `RemoveBucket`. -/
theorem release_leads (key : BucketKey) (k : After) :
    (serverMachine σ cfg).Leads (At v sent (.decRef key k) srv ss)
      (At v sent k.resume (srv.release ss.domain key) ss) := by
  by_cases hremove : (dropRef srv.bucketRefs (domainScopedKey ss.domain key)).2 = true
  · have hdrop : (serverMachine σ cfg).Leads (At v sent (.decRef key k) srv ss)
        (At v sent (.remove key k)
          { srv with bucketRefs := (dropRef srv.bucketRefs (domainScopedKey ss.domain key)).1 }
            ss) := by
      refine At.step .tick fun streams buckets registered held =>
        ⟨_, rfl, streams, buckets, registered, held.erase key, ?_⟩
      simp only [hremove, if_true]
    refine hdrop.trans (At.step .tick fun streams buckets registered held =>
      ⟨_, rfl, streams, buckets, registered, held, ?_⟩)
    simp only [Server.release, hremove, if_true]
  · refine At.step .tick fun streams buckets registered held =>
      ⟨_, rfl, streams, buckets, registered, held.erase key, ?_⟩
    simp only [Server.release, hremove, Bool.false_eq_true, if_false]

theorem applyAbandons_leads (u : ℕ) (all as : List BucketAction) :
    ∀ (srv : Server σ) (ss : StreamState),
      (serverMachine σ cfg).Leads (At v sent (.actions u as all) srv ss)
        (At v sent (.send u all) (applyAbandons srv ss as).1 (applyAbandons srv ss as).2) := by
  induction as with
  | nil =>
    intro srv ss
    exact At.step .tick fun _ _ _ _ => ⟨_, rfl, _, _, _, _, rfl⟩
  | cons a as ih =>
    intro srv ss
    -- an action that abandons nothing the stream is subscribed to
    have hpass : (∀ p : Handler, p.ss = ss →
        abandonStep p u a as all = { p with pc := .actions u as all }) →
        (serverMachine σ cfg).Leads (At v sent (.actions u (a :: as) all) srv ss)
          (At v sent (.actions u as all) srv ss) := by
      intro hstep
      refine At.step .tick fun streams buckets registered held =>
        ⟨_, ?_, streams, buckets, registered, held, rfl⟩
      show some (_, abandonStep _ u a as all) = _
      rw [hstep _ rfl]
    rw [applyAbandons]
    split
    · rename_i ha
      by_cases hmem : bucketKeyFromProto a.bucketId ∈ ss.subscriptions
      · simp only [hmem, if_true]
        have hgive : (serverMachine σ cfg).Leads (At v sent (.actions u (a :: as) all) srv ss)
            (At v sent (.decRef (bucketKeyFromProto a.bucketId) (.abandon u as all)) srv
              { ss with
                subscriptions := ss.subscriptions.erase (bucketKeyFromProto a.bucketId) }) := by
          refine At.step .tick fun streams buckets registered held =>
            ⟨_, ?_, streams, buckets, registered, held, rfl⟩
          show some (_, abandonStep _ u a as all) = _
          simp [abandonStep, ha, hmem]
        have hgauge : (serverMachine σ cfg).Leads
            (At v sent (After.abandon u as all).resume
              (srv.release ss.domain (bucketKeyFromProto a.bucketId))
              { ss with subscriptions := ss.subscriptions.erase (bucketKeyFromProto a.bucketId) })
            (At v sent (.actions u as all) (srv.release ss.domain (bucketKeyFromProto a.bucketId))
              { ss with
                subscriptions := ss.subscriptions.erase (bucketKeyFromProto a.bucketId) }) :=
          At.step .tick fun _ _ _ _ => ⟨_, rfl, _, _, _, _, rfl⟩
        exact ((hgive.trans (release_leads _ _)).trans hgauge).trans (ih _ _)
      · simp only [hmem, if_false]
        refine (hpass fun p hp => ?_).trans (ih srv ss)
        simp [abandonStep, ha, hp, hmem]
    · rename_i ha
      refine (hpass fun p hp => ?_).trans (ih srv ss)
      unfold abandonStep
      split
      · rename_i ha'
        exact absurd ha' ha
      · rfl

/-- The handler after a call: closing after an error, receiving otherwise, with
the response of the call sent. -/
def Ended (v : ℕ) (sent : List (ℕ × List BucketAction)) (h : Handled σ) :
    Shared σ × Handler → Prop :=
  At v (sent ++ h.response.toList.map fun r => (v, r)) (if h.err.isSome then .closing else .recv)
    h.server h.stream

omit [BucketStore σ] in
/-- A call that ends without a response. -/
theorem ended_quiet (e : Option HandlerError) :
    Ended v sent ⟨srv, ss, none, e⟩ =
      At v sent (if e.isSome then .closing else .recv) srv ss := by
  simp [Ended]

theorem answer_leads (engine : Engine) (sendErr : Option GoError) (srv : Server σ)
    (ss : StreamState) (reports : List UsageReport) :
    (serverMachine σ cfg).Leads (At v sent (.load reports) srv ss)
      (Ended v sent (answer engine sendErr srv ss reports)) := by
  have hload : (serverMachine σ cfg).Leads (At v sent (.load reports) srv ss)
      (At v sent (.process v reports) srv ss) :=
    At.step .tick fun _ _ _ _ => ⟨_, rfl, _, _, _, _, rfl⟩
  refine hload.trans ?_
  unfold answer
  split
  · rename_i e heq
    rw [ended_quiet]
    exact At.step (.reply (.error e)) fun _ _ _ _ => ⟨_, rfl, _, _, _, _, rfl⟩
  · rw [ended_quiet]
    exact At.step (.reply (.ok [])) fun _ _ _ _ => ⟨_, rfl, _, _, _, _, rfl⟩
  · rename_i a as heq
    have hreply : (serverMachine σ cfg).Leads (At v sent (.process v reports) srv ss)
        (At v sent (.actions v (a :: as) (a :: as)) srv ss) :=
      At.step (.reply (.ok (a :: as))) fun _ _ _ _ => ⟨_, rfl, _, _, _, _, rfl⟩
    refine (hreply.trans (applyAbandons_leads v (a :: as) (a :: as) srv ss)).trans ?_
    cases sendErr with
    | none => exact At.step (.sent none) fun _ _ _ _ => ⟨_, rfl, _, _, _, _, rfl⟩
    | some e =>
      rw [ended_quiet]
      exact At.step (.sent (some e)) fun _ _ _ _ => ⟨_, rfl, _, _, _, _, rfl⟩

-- ---------------------------------------------------------------------------
-- The calls
-- ---------------------------------------------------------------------------

/-- A handler that nobody interrupts does what `handleMessage` says. -/
theorem handleMessage_leads (label : Str) (engine : Engine) (sendErr : Option GoError)
    (srv : Server σ) (ss : StreamState) (req : UsageReports) :
    (serverMachine σ cfg).Leads (At v sent .recv srv ss)
      (Ended v sent (handleMessage cfg label engine sendErr srv ss req)) := by
  have hrecv : (serverMachine σ cfg).Leads (At v sent .recv srv ss)
      (At v sent (.bind req) srv ss) :=
    At.step (.recv req) fun _ _ _ _ => ⟨_, rfl, _, _, _, _, rfl⟩
  refine hrecv.trans ?_
  unfold handleMessage
  split
  · rename_i e hbind
    rw [ended_quiet]
    refine At.step (.label label) fun streams buckets registered held =>
      ⟨_, ?_, streams, buckets, registered, held, rfl⟩
    simp [handlerStep, hbind]
  · rename_i ss' hbind
    have hafter : (serverMachine σ cfg).Leads (At v sent (.bind req) srv ss)
        (At v sent (afterBind cfg req) srv ss') := by
      refine At.step (.label label) fun streams buckets registered held =>
        ⟨_, ?_, streams, buckets, registered, held, rfl⟩
      simp [handlerStep, hbind]
    refine hafter.trans ?_
    by_cases hempty : req.bucketQuotaUsages = []
    · have hpc : afterBind cfg req = .recv := by simp [afterBind, hempty]
      rw [if_pos hempty, ended_quiet, hpc]
      exact Machine.Leads.refl _ _
    · rw [if_neg hempty]
      split
      · rename_i e hcount
        have hpc : afterBind cfg req = .closing := by simp [afterBind, hempty, hcount]
        rw [ended_quiet, hpc]
        exact Machine.Leads.refl _ _
      · rename_i hcount
        have hpc : afterBind cfg req = .usages req.bucketQuotaUsages [] := by
          simp [afterBind, hempty, hcount]
        rw [hpc]
        refine (trackUsages_leads req.bucketQuotaUsages srv ss' []).trans ?_
        split
        · rename_i srv₂ ss₂ e heq
          rw [heq, ended_quiet]
          exact Machine.Leads.refl _ _
        · rename_i srv₂ ss₂ reports heq
          rw [heq]
          exact answer_leads engine sendErr srv₂ ss₂ reports

/-- The loop of `cleanupStream`, in any order. -/
theorem cleanupLoop_leads (order : List BucketKey) :
    ∀ (srv : Server σ) (todo : List BucketKey), order.Perm todo →
      (serverMachine σ cfg).Leads (At v sent (.cleanup todo) srv ss)
        (At v sent .done (order.foldl (fun srv key => srv.release ss.domain key) srv) ss) := by
  induction order with
  | nil =>
    intro srv todo hperm
    rw [hperm.symm.eq_nil]
    exact At.step .tick fun _ _ _ _ => ⟨_, rfl, _, _, _, _, rfl⟩
  | cons key order ih =>
    intro srv todo hperm
    have hmem : key ∈ todo := hperm.mem_iff.mp List.mem_cons_self
    have hpick : (serverMachine σ cfg).Leads (At v sent (.cleanup todo) srv ss)
        (At v sent (.decRef key (.cleanup (todo.erase key))) srv ss) := by
      refine At.step (.pick key) fun streams buckets registered held =>
        ⟨_, ?_, streams, moveGauge buckets ss.metricDomain (-1), registered, held, rfl⟩
      simp [handlerStep, hmem]
    have hrest : order.Perm (todo.erase key) := (List.cons_perm_iff_perm_erase.mp hperm).2
    exact (hpick.trans (release_leads key _)).trans (ih _ _ hrest)

/-- A handler on its way out that nobody interrupts does what `cleanupStream`
says. -/
theorem cleanupStream_leads {order : List BucketKey} (hperm : order.Perm ss.subscriptions.keys) :
    (serverMachine σ cfg).Leads (At v sent .closing srv ss)
      (At v sent .done (cleanupStream srv ss order) ss) := by
  have hclosing : (serverMachine σ cfg).Leads (At v sent .closing srv ss)
      (At v sent .unregister srv ss) :=
    At.step .tick fun _ _ _ _ => ⟨_, rfl, _, _, _, _, rfl⟩
  have hunregister : (serverMachine σ cfg).Leads (At v sent .unregister srv ss)
      (At v sent (if ss.domainBound then .cleanup ss.subscriptions.keys else .done) srv ss) :=
    At.step .tick fun _ _ _ _ => ⟨_, rfl, _, _, _, _, rfl⟩
  refine (hclosing.trans hunregister).trans ?_
  unfold cleanupStream
  cases ss.domainBound with
  | false => exact Machine.Leads.refl _ _
  | true => exact cleanupLoop_leads order srv _ hperm

-- ---------------------------------------------------------------------------
-- Whole runs
-- ---------------------------------------------------------------------------

/-- The handler of a stream between calls. -/
def Slot.Stands : Slot → Handler → Prop
  | .live ss, h => h.pc = .recv ∧ h.ss = ss
  | .failed ss, h => h.pc = .closing ∧ h.ss = ss
  | .closed, h => h.pc = .done

/-- The same references, the same store, and for each stream its handler. -/
structure Simulates (w : Pool (Server σ) Slot) (x : Pool (Shared σ) Handler) : Prop where
  refs : x.shared.bucketRefs = w.shared.bucketRefs
  store : x.shared.store = w.shared.store
  length : x.procs.length = w.procs.length
  stands : ∀ (i : ℕ) (p : Slot) (h : Handler), w.procs[i]? = some p → x.procs[i]? = some h →
    p.Stands h

/-- One call, as a run of the stream's handler alone. -/
theorem callStep_simulated {srv' : Server σ} {sh : Shared σ} {p p' : Slot} {h : Handler} {c : Call}
    (hrefs : sh.bucketRefs = srv.bucketRefs) (hstore : sh.store = srv.store) (hp : p.Stands h)
    (hs : callStep cfg srv p c = some (srv', p')) :
    ∃ sh' h', (serverMachine σ cfg).Alone (sh, h) (sh', h') ∧
      sh'.bucketRefs = srv'.bucketRefs ∧ sh'.store = srv'.store ∧ p'.Stands h' := by
  have hat : At sh.engine h.sent h.pc srv h.ss (sh, h) := At.intro hrefs hstore
  -- the end of a stream, from the receive loop or after an error
  have hclose : ∀ order, h.pc = .recv ∨ h.pc = .closing →
      closeStream srv h.ss order = some (srv', p') →
      ∃ sh' h', (serverMachine σ cfg).Alone (sh, h) (sh', h') ∧
        sh'.bucketRefs = srv'.bucketRefs ∧ sh'.store = srv'.store ∧ p'.Stands h' := by
    intro order hpc hc
    unfold closeStream at hc
    split at hc
    · rename_i hperm
      cases hc
      have hleads : (serverMachine σ cfg).Leads (At sh.engine h.sent h.pc srv h.ss)
          (At sh.engine h.sent .done (cleanupStream srv h.ss order) h.ss) := by
        rcases hpc with hpc | hpc
        · rw [hpc]
          have hhangup : (serverMachine σ cfg).Leads (At sh.engine h.sent .recv srv h.ss)
              (At sh.engine h.sent .closing srv h.ss) :=
            At.step .hangup fun _ _ _ _ => ⟨_, rfl, _, _, _, _, rfl⟩
          exact hhangup.trans (cleanupStream_leads hperm)
        · rw [hpc]
          exact cleanupStream_leads hperm
      obtain ⟨c', halone, streams, buckets, registered, held, rfl⟩ := hleads (sh, h) hat
      exact ⟨_, _, halone, rfl, rfl, rfl⟩
    · simp at hc
  unfold callStep at hs
  split at hs
  · rename_i ss label reply sendErr req
    obtain ⟨hpc, rfl⟩ := hp
    cases hs
    rw [hpc] at hat
    obtain ⟨c', halone, streams, buckets, registered, held, rfl⟩ :=
      handleMessage_leads label (fun _ _ => reply) sendErr srv h.ss req (sh, h) hat
    refine ⟨_, _, halone, rfl, rfl, ?_⟩
    split
    · exact ⟨rfl, rfl⟩
    · exact ⟨rfl, rfl⟩
  · obtain ⟨hpc, rfl⟩ := hp
    exact hclose _ (Or.inl hpc) hs
  · obtain ⟨hpc, rfl⟩ := hp
    exact hclose _ (Or.inr hpc) hs
  · simp at hs

/-- A new stream and its handler, registered and receiving. -/
theorem Simulates.connect {w : Pool (Server σ) Slot} {x : Pool (Shared σ) Handler}
    (h : Simulates w x) :
    ∃ x', (serverMachine σ cfg).Run Machine.free x x' ∧
      Simulates ⟨w.shared, w.procs ++ [.live newStream]⟩ x' := by
  let x₁ : Pool (Shared σ) Handler := ⟨x.shared, x.procs ++ [newHandler]⟩
  have hspawn : (serverMachine σ cfg).Run Machine.free x x₁ :=
    Relation.ReflTransGen.single ⟨.spawn (), trivial, rfl⟩
  have halone : (serverMachine σ cfg).Alone (x₁.shared, newHandler)
      ({ x.shared with activeStreams := x.shared.activeStreams + 1 },
        ⟨.recv, newStream, true, [], []⟩) :=
    (Relation.ReflTransGen.single ⟨.tick, rfl⟩).tail ⟨.tick, rfl⟩
  have hget : x₁.procs[x.procs.length]? = some newHandler := List.getElem?_concat_length
  refine ⟨_, hspawn.trans (run_of_alone hget halone), h.refs, h.store, ?_, fun i p q hp hq => ?_⟩
  · show (List.set _ _ _).length = (w.procs ++ [_]).length
    simp [x₁, h.length]
  · rcases getElem_set_cases hq with ⟨rfl, rfl⟩ | ⟨hi, hq⟩
    · rw [h.length, show (w.procs ++ [Slot.live newStream])[w.procs.length]? = some _ from
        List.getElem?_concat_length] at hp
      cases hp
      exact ⟨rfl, rfl⟩
    · have hlt : i < x.procs.length := by
        have hle := (List.getElem?_eq_some_iff.mp hq).1
        simp only [x₁, List.length_append, List.length_singleton] at hle
        omega
      rw [show x₁.procs[i]? = x.procs[i]? from List.getElem?_append_left hlt] at hq
      rw [show (w.procs ++ [Slot.live newStream])[i]? = w.procs[i]? from
        List.getElem?_append_left (h.length ▸ hlt)] at hp
      exact h.stands i p q hp hq

/-- **Calls are runs of handlers.** For every run of calls there is a run of the
handlers, one atomic step at a time, with the same references, the same store
and the same streams. -/
theorem calls_simulated {store : σ} {w : Pool (Server σ) Slot}
    (hrun : (callMachine σ cfg).Run Machine.free (freshServer store) w) :
    ∃ x, (serverMachine σ cfg).Run Machine.free (newServer store) x ∧ Simulates w x := by
  refine Run.invariant
    (I := fun w => ∃ x, (serverMachine σ cfg).Run Machine.free (newServer store) x ∧ Simulates w x)
    hrun ⟨_, Relation.ReflTransGen.refl, rfl, rfl, rfl, fun _ _ _ h => nomatch h⟩ ?_
  rintro w m w' - ⟨x, hx, hsim⟩ - hn
  rcases next_cases hn with ⟨a, -, rfl⟩ | ⟨i, c, p, srv', p', -, hp, hs, rfl⟩
  · obtain ⟨x', hx', hsim'⟩ := @Simulates.connect σ _ cfg w x hsim
    exact ⟨x', hx.trans hx', hsim'⟩
  · have hi : i < x.procs.length := by
      rw [hsim.length]
      exact (List.getElem?_eq_some_iff.mp hp).1
    have hh : x.procs[i]? = some x.procs[i] := List.getElem?_eq_getElem hi
    obtain ⟨sh', h', halone, hrefs, hstore, hstands⟩ :=
      callStep_simulated hsim.refs hsim.store (hsim.stands i p _ hp hh) hs
    refine ⟨_, hx.trans (run_of_alone hh halone), hrefs, hstore, ?_, fun j q h hq hh' => ?_⟩
    · show (x.procs.set i h').length = (w.procs.set i p').length
      rw [List.length_set, List.length_set, hsim.length]
    · rcases getElem_set_cases hq with ⟨rfl, rfl⟩ | ⟨hj, hq⟩
      · rcases getElem_set_cases hh' with ⟨-, rfl⟩ | ⟨hj, -⟩
        · exact hstands
        · exact absurd rfl hj
      · rcases getElem_set_cases hh' with ⟨rfl, -⟩ | ⟨-, hh'⟩
        · exact absurd rfl hj
        · exact hsim.stands j q h hq hh'

end Rlqs
