import Rlqs.Lib.Trace
import Rlqs.Server.Calls

/-!
# RLQS server — what the in-memory counters mean

With `MemoryStorage` and one call at a time, the store, `bucketRefs` and the
history of accepted reports stay in step for every scoped key `k`
(`store_matches_reports`): the store has an entry for `k` exactly when
`bucketRefs[k]` is positive, and the entry holds the sums, modulo 2^64, over
the reports accepted for `k` since the count last rose from absent.

The history is kept beside the run and says of every call what its message and
the stream before it decide: which reports are accepted (`acceptedReports`), with
nothing asked of the store. What rose in a call was absent when it began, since a
call gives up references only after its last report.

* `trackUsages_agrees` — the subscription loop puts exactly the accepted reports
  into the counters;
* `handleMessage_agrees` — so does a whole call, and its abandons remove entries
  with their references.
-/

namespace Rlqs

open Interleave Steps Relation

-- ---------------------------------------------------------------------------
-- Which reports are accepted
-- ---------------------------------------------------------------------------

/-- The usages of a message that are accepted on a stream with the subscribed keys
`keys`: a usage without a bucket is passed over, and the first that is invalid or
one bucket too many ends the message. -/
def acceptedUsages (cfg : Limits) : List BucketKey → List BucketQuotaUsage → List UsageReport
  | _, [] => []
  | keys, u :: us =>
    match checkUsage cfg u with
    | .skip => acceptedUsages cfg keys us
    | .reject _ => []
    | .accept _ =>
      if u.key ∈ keys then u.toReport :: acceptedUsages cfg keys us
      else if 0 < cfg.maxBucketsPerStream ∧ cfg.maxBucketsPerStream ≤ (keys.length : Int) then []
      else u.toReport :: acceptedUsages cfg (u.key :: keys) us

/-- The reports of a message that are accepted on a stream, each with its scoped key.
A message without a domain for an unbound stream, one for another domain and one with
too many reports have none. -/
def acceptedReports (cfg : Limits) (ss : StreamState) (req : UsageReports) :
    List (BucketKey × UsageReport) :=
  let domain := if ss.domainBound then ss.domain else req.domain
  if (ss.domainBound = false ∧ req.domain = []) ∨ (req.domain ≠ [] ∧ req.domain ≠ domain) ∨
      (0 < cfg.maxReportsPerMessage ∧
        cfg.maxReportsPerMessage < (req.bucketQuotaUsages.length : Int)) then []
  else (acceptedUsages cfg ss.subscriptions.keys req.bucketQuotaUsages).map fun r =>
    (r.scopedKey domain, r)

-- ---------------------------------------------------------------------------
-- The history of a bucket
-- ---------------------------------------------------------------------------

/-- A call in the history: the references when it began, and the reports accepted
in it. -/
structure CallEntry where
  refs : BucketRefs
  accepted : List (BucketKey × UsageReport)

/-- What the history says of a move: a call on a stream, with what its message and the
stream decide. -/
def callEntries (cfg : Limits) (w : Pool (Server MemoryStorage) Slot) :
    Move Unit Call → List CallEntry
  | .spawn _ => []
  | .act i c =>
    match w.procs[i]?, c with
    | some (.live ss), .message _ _ _ req => [⟨w.shared.bucketRefs, acceptedReports cfg ss req⟩]
    | _, _ => [⟨w.shared.bucketRefs, []⟩]

/-- The reports for `k` among some accepted ones. -/
def reportsFor (k : BucketKey) (accepted : List (BucketKey × UsageReport)) : List UsageReport :=
  (accepted.filter fun e => e.1 = k).map Prod.snd

/-- One call, as seen by the collector of the reports on `k`: where `k` had no
reference, its count rises from absent with the first report of this call. -/
def CallEntry.collect (k : BucketKey) (rs : List UsageReport) (e : CallEntry) :
    List UsageReport :=
  (if k ∈ e.refs then rs else []) ++ reportsFor k e.accepted

/-- The reports accepted for `k` since its count last rose from absent. -/
def reportsSince (k : BucketKey) (log : List CallEntry) : List UsageReport :=
  log.foldl (CallEntry.collect k) []

/-- The sum of one counter over some reports. -/
def total (counter : UsageReport → UInt64) (rs : List UsageReport) : ℕ :=
  (rs.map fun r => (counter r).toNat).sum

/-- The counters of a store entry are the totals of some reports, modulo 2^64. -/
def UsageState.Sums (st : UsageState) (rs : List UsageReport) : Prop :=
  st.allowed.toNat = total UsageReport.numRequestsAllowed rs % 2 ^ 64 ∧
    st.denied.toNat = total UsageReport.numRequestsDenied rs % 2 ^ 64

theorem reportsSince_append (k : BucketKey) (log : List CallEntry) (e : CallEntry) :
    reportsSince k (log ++ [e]) = e.collect k (reportsSince k log) := by
  simp [reportsSince]

theorem total_append (counter : UsageReport → UInt64) (rs : List UsageReport) (r : UsageReport) :
    total counter (rs ++ [r]) = total counter rs + (counter r).toNat := by
  simp [total]

/-- Adding a report to both sides. -/
theorem UsageState.Sums.add {st : UsageState} {rs : List UsageReport} (h : st.Sums rs)
    (r : UsageReport) :
    UsageState.Sums ⟨st.allowed + r.numRequestsAllowed, st.denied + r.numRequestsDenied⟩
      (rs ++ [r]) := by
  unfold UsageState.Sums at *
  rw [total_append, total_append, UInt64.toNat_add, UInt64.toNat_add, h.1, h.2]
  exact ⟨Nat.mod_add_mod _ _ _, Nat.mod_add_mod _ _ _⟩

-- ---------------------------------------------------------------------------
-- The store follows the references
-- ---------------------------------------------------------------------------

/-- The counters of `k`, zero when the store has no entry. -/
def counters (s : MemoryStorage) (k : BucketKey) : UsageState := (s.get k).getD ⟨0, 0⟩

/-- The store and the references agree on `k`, and the entry holds the sums of `rs`. -/
structure Agrees (k : BucketKey) (rs : List UsageReport) (srv : Server MemoryStorage) : Prop where
  absent : srv.bucketRefs.lookup k = none → srv.store.get k = none
  stored : srv.bucketRefs.lookup k ≠ none → srv.store.get k ≠ none
  sums : srv.bucketRefs.lookup k ≠ none → (counters srv.store k).Sums rs

section Agrees

variable {k : BucketKey} {rs : List UsageReport} {srv : Server MemoryStorage}

/-- Where there is no reference, the past does not count. -/
theorem Agrees.forget (h : Agrees k rs srv) :
    Agrees k (if k ∈ srv.bucketRefs then rs else []) srv := by
  by_cases hmem : k ∈ srv.bucketRefs
  · rw [if_pos hmem]
    exact h
  · rw [if_neg hmem]
    have hnone := AList.lookup_eq_none.mpr hmem
    exact ⟨h.absent, h.stored, fun hsome => absurd hnone hsome⟩

/-- Recording a report for a referenced bucket whose counters are right. The
entry itself may still be missing: this is how it is made. -/
theorem agrees_record (domain : Str) (r : UsageReport) (hk : k = r.scopedKey domain)
    (href : srv.bucketRefs.lookup k ≠ none) (hsums : (counters srv.store k).Sums rs) :
    Agrees k (rs ++ [r]) (srv.record domain r) := by
  have hget : (srv.record domain r).store.get k = _ :=
    MemoryStorage.get_recordUsage srv.store domain r k
  rw [if_pos hk] at hget
  have hnew : counters (srv.record domain r).store k =
      ⟨(counters srv.store k).allowed + r.numRequestsAllowed,
        (counters srv.store k).denied + r.numRequestsDenied⟩ := by
    unfold counters
    rw [hget]
    cases srv.store.get k <;> rfl
  refine ⟨fun hnone => absurd hnone href, fun _ => ?_, fun _ => ?_⟩
  · rw [hget]
    exact fun h => nomatch h
  · rw [hnew]
    exact hsums.add r

/-- A report for another bucket. -/
theorem agrees_record_ne (domain : Str) (r : UsageReport) (hk : k ≠ r.scopedKey domain)
    (h : Agrees k rs srv) : Agrees k rs (srv.record domain r) := by
  have hget : (srv.record domain r).store.get k = _ :=
    MemoryStorage.get_recordUsage srv.store domain r k
  rw [if_neg hk] at hget
  refine ⟨fun hnone => ?_, fun hsome => ?_, fun hsome => ?_⟩
  · rw [hget]
    exact h.absent hnone
  · rw [hget]
    exact h.stored hsome
  · unfold counters
    rw [hget]
    exact h.sums hsome

/-- Counting a new subscription leaves the other keys alone. -/
theorem agrees_subscribe_ne {key : BucketKey} (hk : k ≠ key) (h : Agrees k rs srv) :
    Agrees k rs (srv.subscribe key) := by
  have hrefs : (srv.subscribe key).bucketRefs.lookup k = srv.bucketRefs.lookup k :=
    (lookup_addRef srv.bucketRefs key k).trans (if_neg hk)
  refine ⟨fun hnone => ?_, fun hsome => ?_, fun hsome => ?_⟩
  · exact h.absent (hrefs ▸ hnone)
  · exact h.stored (hrefs ▸ hsome)
  · exact h.sums (hrefs ▸ hsome)

/-- A bucket that has a reference, or no past, is ready for its next report. -/
theorem agrees_subscribe (h : Agrees k rs srv) (hfresh : k ∉ srv.bucketRefs → rs = []) :
    (srv.subscribe k).bucketRefs.lookup k ≠ none ∧
      (counters (srv.subscribe k).store k).Sums rs := by
  constructor
  · have hrefs : (srv.subscribe k).bucketRefs.lookup k = _ := lookup_addRef srv.bucketRefs k k
    rw [hrefs, if_pos rfl]
    exact fun h => nomatch h
  · show (counters srv.store k).Sums rs
    by_cases hmem : k ∈ srv.bucketRefs
    · exact h.sums fun hnone => AList.lookup_eq_none.mp hnone hmem
    · -- the count rises from absent: no report yet, and no entry
      rw [hfresh hmem]
      unfold counters
      rw [h.absent (AList.lookup_eq_none.mpr hmem)]
      exact ⟨rfl, rfl⟩

/-- Releasing a reference removes the entry exactly with the last one. -/
theorem agrees_release (h : Agrees k rs srv) (domain : Str) (key : BucketKey) :
    Agrees k rs (srv.release domain key) := by
  have hrefs : (srv.release domain key).bucketRefs =
      (dropRef srv.bucketRefs (domainScopedKey domain key)).1 := rfl
  have hstore : (srv.release domain key).store =
      if (dropRef srv.bucketRefs (domainScopedKey domain key)).2 then
        srv.store.removeBucket domain key else srv.store := rfl
  have hremoved := dropRef_removed_iff srv.bucketRefs (domainScopedKey domain key)
  -- what the release does to the entry of `k`
  have hget : (srv.release domain key).store.get k =
      if k = domainScopedKey domain key ∧
        (dropRef srv.bucketRefs (domainScopedKey domain key)).1.lookup k = none
      then none else srv.store.get k := by
    rw [hstore]
    split
    · rename_i hflag
      rw [MemoryStorage.get_removeBucket]
      by_cases hk : k = domainScopedKey domain key
      · rw [if_pos hk, if_pos ⟨hk, hk ▸ hremoved.mp hflag⟩]
      · rw [if_neg hk, if_neg (fun hand => hk hand.1)]
    · rename_i hflag
      rw [if_neg]
      rintro ⟨hk, hnone⟩
      exact hflag (hremoved.mpr (hk ▸ hnone))
  have hlookup := lookup_dropRef srv.bucketRefs (domainScopedKey domain key) k
  -- an entry that is left was there before
  have hbefore : (srv.release domain key).bucketRefs.lookup k ≠ none →
      srv.bucketRefs.lookup k ≠ none := by
    intro hsome hnone
    rw [hrefs, hlookup] at hsome
    split at hsome
    · rename_i hk
      have hzero : refCount srv.bucketRefs (domainScopedKey domain key) = 0 := by
        unfold refCount
        rw [← hk, hnone]
        rfl
      rw [if_pos (by omega)] at hsome
      exact hsome rfl
    · exact hsome hnone
  refine ⟨fun hnone => ?_, fun hsome => ?_, fun hsome => ?_⟩
  · rw [hget]
    split
    · rfl
    · rename_i hkeep
      rw [hrefs] at hnone
      have hk : k ≠ domainScopedKey domain key := fun hk => hkeep ⟨hk, hnone⟩
      rw [hlookup, if_neg hk] at hnone
      exact h.absent hnone
  · rw [hget, if_neg (fun hand => hsome hand.2)]
    exact h.stored (hbefore hsome)
  · unfold counters
    rw [hget, if_neg (fun hand => hsome hand.2)]
    exact h.sums (hbefore hsome)

theorem agrees_drops {G : BucketKey → Prop} {c c' : Server MemoryStorage × StreamState}
    (h : Agrees k rs c.1) (hd : ReflTransGen (Drop G) c c') : Agrees k rs c'.1 :=
  star_keeps (I := fun c => Agrees k rs c.1) h hd fun _ _ h ⟨key, _, _, _⟩ => agrees_release h _ key

end Agrees

-- ---------------------------------------------------------------------------
-- The calls
-- ---------------------------------------------------------------------------

section Calls

variable {k : BucketKey} {rs : List UsageReport} {srv : Server MemoryStorage} {cfg : Limits}
  {n : BucketKey → ℕ}

/-- During the subscription loop: `k` has no past unless it has a reference. -/
structure Collecting (k : BucketKey) (rs : List UsageReport) (srv : Server MemoryStorage) : Prop
    extends Agrees k rs srv where
  fresh : k ∉ srv.bucketRefs → rs = []

/-- A report on a bucket that the stream is subscribed to. -/
theorem Collecting.again {ss : StreamState} (h : Collecting k rs srv)
    (hc : Counted n (srv, ss)) {u : BucketQuotaUsage} (hsub : u.key ∈ ss.subscriptions) :
    Collecting k (rs ++ if k = domainScopedKey ss.domain u.key then [u.toReport] else [])
      (srv.record ss.domain u.toReport) := by
  by_cases hk : k = domainScopedKey ss.domain u.key
  · have href : srv.bucketRefs.lookup k ≠ none :=
      (hc.pos.lookup_ne_none k).mpr (hk ▸ hc.referenced hsub)
    rw [if_pos hk]
    exact ⟨agrees_record ss.domain u.toReport hk href (h.sums href),
      fun hnone => absurd (AList.lookup_eq_none.mpr hnone) href⟩
  · rw [if_neg hk, List.append_nil]
    exact ⟨agrees_record_ne ss.domain u.toReport hk h.toAgrees, h.fresh⟩

/-- The first report of the stream on a bucket. -/
theorem Collecting.first {ss : StreamState} (h : Collecting k rs srv) (u : BucketQuotaUsage) :
    Collecting k (rs ++ if k = domainScopedKey ss.domain u.key then [u.toReport] else [])
      ((srv.subscribe (domainScopedKey ss.domain u.key)).record ss.domain u.toReport) := by
  by_cases hk : k = domainScopedKey ss.domain u.key
  · obtain ⟨href, hsums⟩ := agrees_subscribe h.toAgrees h.fresh
    rw [if_pos hk]
    rw [hk] at href hsums ⊢
    exact ⟨agrees_record ss.domain u.toReport rfl href hsums,
      fun hnone => absurd (AList.lookup_eq_none.mpr hnone) href⟩
  · rw [if_neg hk, List.append_nil]
    refine ⟨agrees_record_ne ss.domain u.toReport hk (agrees_subscribe_ne hk h.toAgrees), ?_⟩
    intro hnone
    refine h.fresh fun hmem => hnone ?_
    exact (AList.mem_insert _).mpr (Or.inr hmem)

/-- One more accepted report. -/
theorem reportsFor_cons (k : BucketKey) (domain : Str) (r : UsageReport) (rest : List UsageReport) :
    reportsFor k ((r :: rest).map fun r => (r.scopedKey domain, r)) =
      (if k = r.scopedKey domain then [r] else []) ++
        reportsFor k (rest.map fun r => (r.scopedKey domain, r)) := by
  unfold reportsFor
  rw [List.map_cons, List.filter_cons]
  by_cases hk : k = r.scopedKey domain
  · simp [hk]
  · simp [hk, Ne.symm hk]

/-- Tracking fails exactly on one bucket too many. -/
theorem trackSubscription_fails_iff (cfg : Limits) (ss : StreamState) (key : BucketKey)
    (id : BucketId) :
    (∃ e, trackSubscription cfg ss key id = .error e) ↔ key ∉ ss.subscriptions ∧
      0 < cfg.maxBucketsPerStream ∧
        cfg.maxBucketsPerStream ≤ (ss.subscriptions.keys.length : Int) := by
  unfold trackSubscription
  by_cases hmem : key ∈ ss.subscriptions
  · simp [hmem]
  · rw [if_neg hmem]
    split
    · rename_i hfull
      exact ⟨fun _ => ⟨hmem, hfull⟩, fun _ => ⟨_, rfl⟩⟩
    · rename_i hroom
      exact ⟨(fun ⟨e, he⟩ => nomatch he), fun h => absurd h.2 hroom⟩

/-- **The subscription loop.** It puts exactly the accepted reports into the counters,
in their order. -/
theorem trackUsages_agrees (cfg : Limits) (us : List BucketQuotaUsage) :
    ∀ (srv : Server MemoryStorage) (ss : StreamState) (reports rs : List UsageReport),
      ss.domainBound = true → Counted n (srv, ss) → Collecting k rs srv →
      Collecting k (rs ++ reportsFor k ((acceptedUsages cfg ss.subscriptions.keys us).map fun r =>
        (r.scopedKey ss.domain, r))) (trackUsages cfg srv ss us reports).1 := by
  induction us with
  | nil =>
    intro srv ss reports rs _ _ h
    simpa [acceptedUsages, reportsFor, trackUsages] using h
  | cons u us ih =>
    intro srv ss reports rs hb hc h
    have hstop : Collecting k (rs ++ reportsFor k ([].map fun r : UsageReport =>
        (r.scopedKey ss.domain, r))) srv := by
      simpa [reportsFor] using h
    rw [trackUsages, acceptedUsages]
    cases hcheck : checkUsage cfg u with
    | skip => exact ih srv ss reports rs hb hc h
    | reject e => exact hstop
    | accept id =>
      obtain ⟨hid, hadm⟩ := checkUsage_accept hcheck
      have hkey : bucketKeyFromProto (some id) = u.key := by rw [BucketQuotaUsage.key, hid]
      dsimp only
      rw [hkey]
      rcases trackSubscription_cases cfg ss u.key id with ⟨hmem, ht⟩ | ⟨e, ht⟩ | ⟨hmem, ht⟩
      · -- a repeat report: no new reference, but it is recorded
        rw [ht, if_pos (AList.mem_keys.mp hmem), reportsFor_cons, ← List.append_assoc]
        have htrack : Track cfg ⟨[], [u]⟩ (srv, ss) _ :=
          Track.again u List.mem_cons_self hb hmem
        exact ih _ ss _ _ hb (hc.track htrack) (h.again hc hmem)
      · -- one bucket too many
        obtain ⟨hmem, hfull⟩ := (trackSubscription_fails_iff cfg ss u.key id).mp ⟨e, ht⟩
        rw [ht, if_neg (fun hin => hmem (AList.mem_keys.mpr hin)), if_pos hfull]
        exact hstop
      · have hroom : ¬ (0 < cfg.maxBucketsPerStream ∧
            cfg.maxBucketsPerStream ≤ (ss.subscriptions.keys.length : Int)) := by
          intro hfull
          obtain ⟨e, he⟩ := (trackSubscription_fails_iff cfg ss u.key id).mpr ⟨hmem, hfull⟩
          cases he.symm.trans ht
        rw [ht, if_neg (fun hin => hmem (AList.mem_keys.mpr hin)), if_neg hroom, reportsFor_cons,
          ← List.append_assoc, ← GoMap.keys_insert_of_notMem hmem]
        have htrack : Track cfg ⟨[], [u]⟩ (srv, ss) _ :=
          Track.first u id List.mem_cons_self hid hadm hb hmem
        exact ih _ { ss with subscriptions := ss.subscriptions.insert u.key id } _ _ hb
          (hc.track htrack) (h.first u)

/-- A message that the domain section rejects has no accepted reports. -/
theorem acceptedReports_rejected {label : Str} {ss : StreamState} {req : UsageReports} {e : Status}
    (h : bindDomain label ss req = .error e) : acceptedReports cfg ss req = [] := by
  unfold bindDomain at h
  unfold acceptedReports
  cases hb : ss.domainBound with
  | true =>
    simp only [hb, Bool.not_true, Bool.false_and, Bool.false_eq_true, if_false, if_true] at h
    split at h
    · rename_i hother
      rw [if_pos (Or.inr (Or.inl (by simpa using hother)))]
    · cases h
  | false =>
    simp only [hb, Bool.not_false, Bool.true_and, Bool.false_eq_true, if_false] at h
    split at h
    · rename_i hempty
      rw [if_pos (Or.inl ⟨rfl, by simpa using hempty⟩)]
    · split at h
      · rename_i hother
        simp at hother
      · cases h

/-- After the domain section only the number of reports and the loop decide. -/
theorem acceptedReports_bound {label : Str} {ss ss' : StreamState} {req : UsageReports}
    (h : bindDomain label ss req = .ok ss') :
    acceptedReports cfg ss req =
      if 0 < cfg.maxReportsPerMessage ∧
        cfg.maxReportsPerMessage < (req.bucketQuotaUsages.length : Int) then []
      else (acceptedUsages cfg ss'.subscriptions.keys req.bucketQuotaUsages).map fun r =>
        (r.scopedKey ss'.domain, r) := by
  obtain ⟨hsubs, -, hkeep, hnew⟩ := bindDomain_ok h
  unfold acceptedReports
  cases hb : ss.domainBound with
  | true =>
    obtain rfl := hkeep hb
    have hsame : ¬ (req.domain ≠ [] ∧ req.domain ≠ ss'.domain) := by
      intro hother
      simp [bindDomain, hb, hother.1, hother.2] at h
    simp [hsame]
  | false =>
    obtain ⟨hdomain, hne⟩ := hnew hb
    simp [hdomain, hsubs, hne]

/-- **One message.** Its accepted reports go into the counters, and what is abandoned
leaves the store with its last reference. -/
theorem handleMessage_agrees (label : Str) (reply : Except GoError (List BucketAction))
    (sendErr : Option GoError) {ss : StreamState} (req : UsageReports)
    (hc : Counted n (srv, ss)) (h : Collecting k rs srv) :
    Agrees k (rs ++ reportsFor k (acceptedReports cfg ss req))
      (handleMessage cfg label (fun _ _ => reply) sendErr srv ss req).server := by
  have hnothing : Agrees k (rs ++ reportsFor k []) srv := by
    simpa [reportsFor] using h.toAgrees
  unfold handleMessage
  cases hbind : bindDomain label ss req with
  | error e =>
    rw [acceptedReports_rejected hbind]
    exact hnothing
  | ok ss' =>
    obtain ⟨-, hbound, -, -⟩ := bindDomain_ok hbind
    have htrack : Track cfg req (srv, ss) (srv, ss') := Track.bind label hbind
    have hloop := trackUsages_agrees cfg req.bucketQuotaUsages srv ss' [] rs hbound
      (hc.track htrack) h
    rw [acceptedReports_bound hbind]
    dsimp only
    by_cases hempty : req.bucketQuotaUsages = []
    · rw [if_pos hempty, hempty]
      simpa [acceptedUsages] using hnothing
    · rw [if_neg hempty]
      unfold checkReportCount
      by_cases hmany : 0 < cfg.maxReportsPerMessage ∧
          cfg.maxReportsPerMessage < (req.bucketQuotaUsages.length : Int)
      · rw [if_pos hmany, if_pos hmany]
        exact hnothing
      · rw [if_neg hmany, if_neg hmany]
        have hbound' := (trackUsages_tracks cfg req req.bucketQuotaUsages (fun _ h => h) srv ss' []
          hbound).2
        dsimp only
        generalize trackUsages cfg srv ss' req.bucketQuotaUsages [] = out at hloop hbound' ⊢
        obtain ⟨srv₂, ss₂, res⟩ := out
        cases res with
        | error e => exact hloop.toAgrees
        | ok reports =>
          exact agrees_drops (c := (srv₂, ss₂)) hloop.toAgrees
            (answer_drops (fun _ _ => reply) sendErr srv₂ ss₂ reports hbound')

/-- **One call.** The history gets its entry, and the counters follow. -/
theorem callStep_agrees {p p' : Slot} {srv' : Server MemoryStorage} {c : Call} {ss : StreamState}
    (hp : p.stream = some ss) (hc : Counted n (srv, ss)) (h : Agrees k rs srv)
    (hs : callStep cfg srv p c = some (srv', p')) {e : CallEntry} (hrefs : e.refs = srv.bucketRefs)
    (hmessage : ∀ label reply sendErr req, p = .live ss → c = .message label reply sendErr req →
      e.accepted = acceptedReports cfg ss req)
    (hclose : ∀ order, c = .close order → e.accepted = []) :
    Agrees k (e.collect k rs) srv' := by
  have hcollecting : Collecting k (if k ∈ srv.bucketRefs then rs else []) srv :=
    ⟨h.forget, fun hnone => if_neg hnone⟩
  unfold CallEntry.collect
  rw [hrefs]
  cases c with
  | message label reply sendErr req =>
    cases p with
    | live ss₁ =>
      obtain rfl : ss₁ = ss := Option.some.inj hp
      rw [hmessage label reply sendErr req rfl rfl]
      cases hs
      exact handleMessage_agrees label reply sendErr req hc hcollecting
    | failed ss₁ => cases hs
    | closed => cases hs
  | close order =>
    have hdrops : ∃ ss', ReflTransGen (Drop (· ∈ ss.subscriptions)) (srv, ss) (srv', ss') := by
      have hclosed : closeStream srv ss order = some (srv', p') := by
        cases p with
        | live ss₁ | failed ss₁ =>
          obtain rfl : ss₁ = ss := Option.some.inj hp
          exact hs
        | closed => cases hs
      unfold closeStream at hclosed
      split at hclosed
      · rename_i hperm
        cases hclosed
        exact ⟨_, cleanupStream_effect srv hc.wf hperm⟩
      · cases hclosed
    obtain ⟨ss', hdrops⟩ := hdrops
    rw [hclose order rfl]
    simpa [reportsFor] using agrees_drops hcollecting.toAgrees hdrops

end Calls

-- ---------------------------------------------------------------------------
-- Whole runs
-- ---------------------------------------------------------------------------

/-- One move, with its entry in the history. -/
theorem agrees_next {cfg : Limits} {w w' : Pool (Server MemoryStorage) Slot}
    {m : Move Unit Call} {log : List CallEntry} {k : BucketKey} (hw : Settled w)
    (h : Agrees k (reportsSince k log) w.shared)
    (hn : (callMachine MemoryStorage cfg).next w m = some w') :
    Agrees k (reportsSince k (log ++ callEntries cfg w m)) w'.shared := by
  obtain ⟨-, ⟨a, rfl, hshared⟩ | ⟨i, c, p, p', ss, n, mid, ss', rfl, hp, hss, -, hc, -, -⟩⟩ :=
    next_effect hw hn
  · rw [hshared]
    simpa [callEntries] using h
  · rcases next_cases hn with ⟨a, hm, -⟩ | ⟨j, x, q, srv', q', hm, hq, hs, rfl⟩
    · cases hm
    · cases hm
      obtain rfl : p = q := Option.some.inj (hp.symm.trans hq)
      have hentry : ∃ e, callEntries cfg w (.act i c) = [e] ∧ e.refs = w.shared.bucketRefs ∧
          (∀ label reply sendErr req, p = .live ss → c = .message label reply sendErr req →
            e.accepted = acceptedReports cfg ss req) ∧
          ∀ order, c = .close order → e.accepted = [] := by
        simp only [callEntries, hp]
        cases c with
        | message label reply sendErr req =>
          cases p with
          | live ss₁ =>
            obtain rfl : ss₁ = ss := Option.some.inj hss
            exact ⟨_, rfl, rfl, fun _ _ _ _ _ h => by cases h; rfl, fun _ h => nomatch h⟩
          | failed ss₁ | closed =>
            exact ⟨_, rfl, rfl, (fun _ _ _ _ h => nomatch h), fun _ h => nomatch h⟩
        | close order =>
          cases p <;> exact ⟨_, rfl, rfl, (fun _ _ _ _ _ h => nomatch h), fun _ _ => rfl⟩
      obtain ⟨e, he, hrefs, hmessage, hclose⟩ := hentry
      rw [he, reportsSince_append]
      exact callStep_agrees hss hc h hs hrefs hmessage hclose

/-- **The in-memory counters are the accepted reports.** One call at a time, in
every reachable state and for every scoped key `k`: the store has an entry for
`k` exactly when `bucketRefs[k]` is positive, and then its counters are the
sums modulo 2^64 over the reports accepted for `k`, on any stream, since
`bucketRefs[k]` last rose from absent. -/
theorem store_matches_reports (cfg : Limits) {w : Pool (Server MemoryStorage) Slot}
    {log : List CallEntry}
    (h : Run (observed (callMachine MemoryStorage cfg).next (callEntries cfg)) free
      (freshServer MemoryStorage.newMemoryStorage, []) (w, log)) (k : BucketKey) :
    (w.shared.store.get k ≠ none ↔ 0 < refCount w.shared.bucketRefs k) ∧
    ∀ st, w.shared.store.get k = some st →
      st.allowed.toNat = total UsageReport.numRequestsAllowed (reportsSince k log) % 2 ^ 64 ∧
      st.denied.toNat = total UsageReport.numRequestsDenied (reportsSince k log) % 2 ^ 64 := by
  have hinv : Settled w ∧ Agrees k (reportsSince k log) w.shared := by
    refine Run.invariant (I := fun c => Settled c.1 ∧ Agrees k (reportsSince k c.2) c.1.shared)
      h ?_ ?_
    · exact ⟨freshServer_settled _, (fun _ => rfl), (fun hk => absurd rfl hk),
        fun hk => absurd rfl hk⟩
    · intro c m c' _ hI _ hn
      obtain ⟨hnext, hlog⟩ := observed_eq_some.mp hn
      rw [hlog]
      exact ⟨(next_effect hI.1 hnext).1, agrees_next hI.1 hI.2 hnext⟩
  obtain ⟨hsettled, hagrees⟩ := hinv
  have hpos := hsettled.pos.lookup_ne_none k
  refine ⟨⟨fun hstored => ?_, fun hcount => ?_⟩, fun st hst => ?_⟩
  · exact hpos.mp fun hnone => hstored (hagrees.absent hnone)
  · exact hagrees.stored (hpos.mpr hcount)
  · have href : w.shared.bucketRefs.lookup k ≠ none := by
      intro hnone
      rw [hagrees.absent hnone] at hst
      simp at hst
    have hsums := hagrees.sums href
    unfold counters at hsums
    rw [hst] at hsums
    exact hsums

/-- An answer that abandons the sample bucket. -/
def abandonReply : Except GoError (List BucketAction) := .ok [⟨some sampleId, .abandon⟩]

/-- The sample bucket is reported and abandoned on one stream, then reported twice on
the same stream and once on another. -/
def repeatedCalls : List (Move Unit Call) :=
  [.spawn (), .spawn (), .act 0 (.message [] abandonReply none sampleReq),
   .act 0 (.message [] (.ok []) none sampleReq), .act 0 (.message [] (.ok []) none sampleReq),
   .act 1 (.message [] (.ok []) none sampleReq)]

/-- Three reports count, the repeat report among them, and the abandoned one does not. -/
theorem store_matches_repeated :
    ∃ w log, Run (observed (callMachine MemoryStorage noLimits).next (callEntries noLimits)) free
        (freshServer MemoryStorage.newMemoryStorage, []) (w, log) ∧
      w.shared.store.get sampleKey = some ⟨15, 3⟩ ∧
      0 < refCount w.shared.bucketRefs sampleKey ∧
      log.length = 4 ∧ (reportsSince sampleKey log).length = 3 ∧
      total UsageReport.numRequestsAllowed (reportsSince sampleKey log) % 2 ^ 64 = 15 ∧
      total UsageReport.numRequestsDenied (reportsSince sampleKey log) % 2 ^ 64 = 3 := by
  have hrun := run_exec_free
    (observed (callMachine MemoryStorage noLimits).next (callEntries noLimits))
    (freshServer MemoryStorage.newMemoryStorage, []) repeatedCalls (by decide)
  obtain ⟨hiff, hsums⟩ := store_matches_reports noLimits hrun sampleKey
  have hst := hsums ⟨15, 3⟩ (by decide)
  exact ⟨_, _, hrun, by decide, hiff.mp (by decide), by decide, by decide, hst.1.symm, hst.2.symm⟩

end Rlqs
