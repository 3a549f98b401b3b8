import Rlqs.Quota.Engine

/-!
# RLQS server — `handleMessage` and `cleanupStream`

The executable model of the protocol part of `internal/server/server.go`, one
call at a time: what one `handleMessage` call and one `cleanupStream` call do
to the stream, to `bucketRefs` and to the store. The lock-protected sections
are functions of their own (`bindDomain`, `trackSubscription`, `addRef`,
`dropRef`), so that `Server/Atomic.lean` can run the same sections one atomic
step at a time.

The result of the quota engine, of `stream.Send` and of `classifyDomain` are
inputs. Prometheus counters and log lines are left out; the gauges are part of
the atomic model.
-/

namespace Rlqs

-- ---------------------------------------------------------------------------
-- Messages and errors
-- ---------------------------------------------------------------------------

/-- `RateLimitQuotaUsageReports_BucketQuotaUsage`. -/
structure BucketQuotaUsage where
  bucketId : Option BucketId
  timeElapsed : Option Nanos
  numRequestsAllowed : UInt64
  numRequestsDenied : UInt64

/-- `RateLimitQuotaUsageReports`. -/
structure UsageReports where
  domain : Str
  bucketQuotaUsages : List BucketQuotaUsage

inductive Code where
  | invalidArgument
  | resourceExhausted
  | internal
  deriving DecidableEq

/-- A `status.Errorf` error: code, format and operands. -/
structure Status where
  code : Code
  format : String
  args : List Arg
  deriving DecidableEq

/-- What `handleMessage` can return. -/
inductive HandlerError where
  | status (s : Status)
  | send (e : GoError)
  deriving DecidableEq

-- ---------------------------------------------------------------------------
-- Server and stream state
-- ---------------------------------------------------------------------------

/-- The limits of `RLQSServer`; a limit that is not positive is switched off. -/
structure Limits where
  maxBucketsPerStream : Int
  maxReportsPerMessage : Int
  maxBucketEntries : Int
  maxBucketKeyLen : Int
  maxBucketValueLen : Int

/-- `streamState`, without its gRPC stream. -/
structure StreamState where
  domain : Str
  metricDomain : Str
  domainBound : Bool
  subscriptions : GoMap BucketKey BucketId

/-- The state `StreamRateLimitQuotas` starts a stream with. -/
def newStream : StreamState := ⟨[], [], false, ∅⟩

/-- `RLQSServer.bucketRefs`: domain-scoped key to subscriber count. -/
abbrev BucketRefs := GoMap BucketKey Int

/-- The part of `RLQSServer` that the two calls change. -/
structure Server (σ : Type) where
  bucketRefs : BucketRefs
  store : σ

-- ---------------------------------------------------------------------------
-- Lock-protected sections and checks
-- ---------------------------------------------------------------------------

/-- The first `ss.mu` section: domain binding and domain consistency. `label`
is what `classifyDomain` answers. -/
def bindDomain (label : Str) (ss : StreamState) (req : UsageReports) :
    Except Status StreamState :=
  if !ss.domainBound && req.domain == [] then
    .error ⟨.invalidArgument, "first message must include a non-empty domain", []⟩
  else
    let ss := if ss.domainBound then ss
      else { ss with domain := req.domain, metricDomain := label, domainBound := true }
    if req.domain != [] && req.domain != ss.domain then
      .error ⟨.invalidArgument,
        "domain mismatch: stream bound to %q but received %q (open a new stream to change domain)",
        [.str ss.domain, .str req.domain]⟩
    else .ok ss

/-- The check on the number of reports in a message. -/
def checkReportCount (cfg : Limits) (req : UsageReports) : Option Status :=
  if 0 < cfg.maxReportsPerMessage ∧
      cfg.maxReportsPerMessage < (req.bucketQuotaUsages.length : Int) then
    some ⟨.resourceExhausted, "too many usage reports in a single message: %d (limit: %d)",
      [.int req.bucketQuotaUsages.length, .int cfg.maxReportsPerMessage]⟩
  else none

/-- The `range bucket` loop, in its iteration order. -/
def checkPairs (cfg : Limits) : List (Σ _ : Str, Str) → Option Status
  | [] => none
  | ⟨k, v⟩ :: rest =>
    if k = [] ∨ v = [] then
      some ⟨.invalidArgument, "bucket_id keys and values must be non-empty", []⟩
    else if 0 < cfg.maxBucketKeyLen ∧ cfg.maxBucketKeyLen < (k.length : Int) then
      some ⟨.invalidArgument, "bucket_id key exceeds max length: %d (limit: %d)",
        [.int k.length, .int cfg.maxBucketKeyLen]⟩
    else if 0 < cfg.maxBucketValueLen ∧ cfg.maxBucketValueLen < (v.length : Int) then
      some ⟨.invalidArgument, "bucket_id value exceeds max length: %d (limit: %d)",
        [.int v.length, .int cfg.maxBucketValueLen]⟩
    else checkPairs cfg rest

/-- The bounds of a non-empty bucket map. -/
def checkBucket (cfg : Limits) (id : BucketId) : Option Status :=
  if 0 < cfg.maxBucketEntries ∧ cfg.maxBucketEntries < (GoMap.len id.bucket : Int) then
    some ⟨.invalidArgument, "bucket_id has too many entries: %d (limit: %d)",
      [.int (GoMap.len id.bucket), .int cfg.maxBucketEntries]⟩
  else checkPairs cfg id.bucket.entries

/-- The bucket passes the validation of `handleMessage`. -/
def Admitted (cfg : Limits) (id : BucketId) : Prop :=
  GoMap.len id.bucket ≠ 0 ∧ checkBucket cfg id = none

/-- What becomes of one usage before its subscription is tracked. -/
inductive UsageCheck where
  | skip
  | reject (e : Status)
  | accept (id : BucketId)

/-- Reports without a bucket are skipped, the others are validated. -/
def checkUsage (cfg : Limits) (u : BucketQuotaUsage) : UsageCheck :=
  match u.bucketId with
  | none => .skip
  | some id =>
    if GoMap.len id.bucket = 0 then .skip
    else
      match checkBucket cfg id with
      | some e => .reject e
      | none => .accept id

/-- The report handed to the store and to the engine. -/
def BucketQuotaUsage.toReport (u : BucketQuotaUsage) : UsageReport :=
  ⟨u.bucketId, u.numRequestsAllowed, u.numRequestsDenied, u.timeElapsed.getD 0⟩

/-- The `ss.mu` section that tracks a subscription; the flag is `exists`. -/
def trackSubscription (cfg : Limits) (ss : StreamState) (key : BucketKey) (id : BucketId) :
    Except Status (StreamState × Bool) :=
  if key ∈ ss.subscriptions then .ok (ss, true)
  else if 0 < cfg.maxBucketsPerStream ∧
      cfg.maxBucketsPerStream ≤ (GoMap.len ss.subscriptions : Int) then
    .error ⟨.resourceExhausted, "max buckets per stream exceeded (limit: %d)",
      [.int cfg.maxBucketsPerStream]⟩
  else .ok ({ ss with subscriptions := ss.subscriptions.insert key id }, false)

/-- `bucketRefs[k]`, zero when absent. -/
def refCount (refs : BucketRefs) (k : BucketKey) : Int := (refs.lookup k).getD 0

/-- `s.bucketRefs[k]++` under `s.mu`. -/
def addRef (refs : BucketRefs) (k : BucketKey) : BucketRefs :=
  refs.insert k (refCount refs k + 1)

/-- `s.bucketRefs[k]--` under `s.mu`, deleting the entry at zero; the flag says
whether the entry was deleted, which is when the caller removes the bucket. -/
def dropRef (refs : BucketRefs) (k : BucketKey) : BucketRefs × Bool :=
  if refCount refs k - 1 ≤ 0 then (refs.erase k, true)
  else (refs.insert k (refCount refs k - 1), false)

-- ---------------------------------------------------------------------------
-- handleMessage
-- ---------------------------------------------------------------------------

variable {σ : Type} [BucketStore σ]

/-- A first report on a bucket: the reference is counted. -/
def Server.subscribe (srv : Server σ) (scopedKey : BucketKey) : Server σ :=
  { srv with bucketRefs := addRef srv.bucketRefs scopedKey }

/-- `store.RecordUsage`; an error is only logged. -/
def Server.record (srv : Server σ) (domain : Str) (report : UsageReport) : Server σ :=
  { srv with store := (BucketStore.recordUsage srv.store domain report).1 }

/-- Drops one reference and removes the bucket with the last one: the common
part of the abandon loop and of `cleanupStream`. -/
def Server.release (srv : Server σ) (domain : Str) (key : BucketKey) : Server σ :=
  let scopedKey := domainScopedKey domain key
  let (refs, shouldRemove) := dropRef srv.bucketRefs scopedKey
  { bucketRefs := refs
    store := if shouldRemove then (BucketStore.removeBucket srv.store domain key).1
      else srv.store }

/-- The loop that builds the reports and tracks subscriptions. It stops at the
first rejected usage; what earlier usages did stays. -/
def trackUsages (cfg : Limits) :
    Server σ → StreamState → List BucketQuotaUsage → List UsageReport →
      Server σ × StreamState × Except Status (List UsageReport)
  | srv, ss, [], reports => (srv, ss, .ok reports)
  | srv, ss, u :: rest, reports =>
    match checkUsage cfg u with
    | .skip => trackUsages cfg srv ss rest reports
    | .reject e => (srv, ss, .error e)
    | .accept id =>
      let key := bucketKeyFromProto (some id)
      match trackSubscription cfg ss key id with
      | .error e => (srv, ss, .error e)
      | .ok (ss, existed) =>
        let srv := if existed then srv else srv.subscribe (domainScopedKey ss.domain key)
        trackUsages cfg (srv.record ss.domain u.toReport) ss rest (reports ++ [u.toReport])

/-- The loop over the actions: abandoned buckets are unsubscribed. -/
def applyAbandons : Server σ → StreamState → List BucketAction → Server σ × StreamState
  | srv, ss, [] => (srv, ss)
  | srv, ss, a :: rest =>
    match a.bucketAction with
    | .abandon =>
      let key := bucketKeyFromProto a.bucketId
      if key ∈ ss.subscriptions then
        applyAbandons (srv.release ss.domain key)
          { ss with subscriptions := ss.subscriptions.erase key } rest
      else applyAbandons srv ss rest
    | _ => applyAbandons srv ss rest

/-- Everything one `handleMessage` call leaves behind. -/
structure Handled (σ : Type) where
  server : Server σ
  stream : StreamState
  response : Option (List BucketAction)
  err : Option HandlerError

/-- The second half of `handleMessage`: engine, abandon loop, response. -/
def answer (engine : Engine) (sendErr : Option GoError) (srv : Server σ) (ss : StreamState)
    (reports : List UsageReport) : Handled σ :=
  match engine ss.domain reports with
  | .error e =>
    ⟨srv, ss, none, some (.status ⟨.internal, "quota engine error: %v", [.err e]⟩)⟩
  | .ok [] => ⟨srv, ss, none, none⟩
  | .ok (a :: as) =>
    let (srv, ss) := applyAbandons srv ss (a :: as)
    match sendErr with
    | some e => ⟨srv, ss, none, some (.send e)⟩
    | none => ⟨srv, ss, some (a :: as), none⟩

/-- `RLQSServer.handleMessage`. -/
def handleMessage (cfg : Limits) (label : Str) (engine : Engine) (sendErr : Option GoError)
    (srv : Server σ) (ss : StreamState) (req : UsageReports) : Handled σ :=
  match bindDomain label ss req with
  | .error e => ⟨srv, ss, none, some (.status e)⟩
  | .ok ss =>
    if req.bucketQuotaUsages = [] then ⟨srv, ss, none, none⟩
    else
      match checkReportCount cfg req with
      | some e => ⟨srv, ss, none, some (.status e)⟩
      | none =>
        match trackUsages cfg srv ss req.bucketQuotaUsages [] with
        | (srv, ss, .error e) => ⟨srv, ss, none, some (.status e)⟩
        | (srv, ss, .ok reports) => answer engine sendErr srv ss reports

/-- `RLQSServer.cleanupStream`; `order` is the iteration order of
`range ss.subscriptions`. -/
def cleanupStream (srv : Server σ) (ss : StreamState) (order : List BucketKey) : Server σ :=
  if !ss.domainBound then srv
  else order.foldl (fun srv key => srv.release ss.domain key) srv

-- ---------------------------------------------------------------------------
-- A concrete message
-- ---------------------------------------------------------------------------

/-- Every limit switched off. -/
def noLimits : Limits := ⟨0, 0, 0, 0, 0⟩

/-- One report of the sample bucket in domain `"d"`. -/
def sampleReq : UsageReports := ⟨[100], [⟨some sampleId, none, 5, 1⟩]⟩

-- ---------------------------------------------------------------------------
-- What the sections do
-- ---------------------------------------------------------------------------

theorem checkUsage_accept {cfg : Limits} {u : BucketQuotaUsage} {id : BucketId}
    (h : checkUsage cfg u = .accept id) : u.bucketId = some id ∧ Admitted cfg id := by
  unfold checkUsage at h
  split at h
  · simp at h
  · rename_i id' hid
    split at h
    · simp at h
    · rename_i hlen
      split at h
      · simp at h
      · rename_i hcheck
        cases h
        exact ⟨hid, hlen, hcheck⟩

/-- What the pair check lets through. -/
theorem checkPairs_none {cfg : Limits} {es : List (Σ _ : Str, Str)} :
    checkPairs cfg es = none ↔ ∀ e ∈ es, e.1 ≠ [] ∧ e.2 ≠ [] ∧
      (0 < cfg.maxBucketKeyLen → (e.1.length : Int) ≤ cfg.maxBucketKeyLen) ∧
      (0 < cfg.maxBucketValueLen → (e.2.length : Int) ≤ cfg.maxBucketValueLen) := by
  induction es with
  | nil => simp [checkPairs]
  | cons e es ih =>
    obtain ⟨k, v⟩ := e
    rw [List.forall_mem_cons, ← ih, checkPairs]
    by_cases hempty : k = [] ∨ v = []
    · rw [if_pos hempty]
      rcases hempty with hk | hv
      · simp [hk]
      · simp [hv]
    · rw [if_neg hempty]
      obtain ⟨hk, hv⟩ := not_or.mp hempty
      by_cases hkey : 0 < cfg.maxBucketKeyLen ∧ cfg.maxBucketKeyLen < (k.length : Int)
      · rw [if_pos hkey]
        have hbad : ¬(0 < cfg.maxBucketKeyLen → (k.length : Int) ≤ cfg.maxBucketKeyLen) :=
          fun h => absurd (h hkey.1) (by omega)
        simp [hbad]
      · rw [if_neg hkey]
        have hgood : 0 < cfg.maxBucketKeyLen → (k.length : Int) ≤ cfg.maxBucketKeyLen :=
          fun h => by by_contra hc; exact hkey ⟨h, by omega⟩
        by_cases hval : 0 < cfg.maxBucketValueLen ∧ cfg.maxBucketValueLen < (v.length : Int)
        · rw [if_pos hval]
          have hbad : ¬(0 < cfg.maxBucketValueLen → (v.length : Int) ≤ cfg.maxBucketValueLen) :=
            fun h => absurd (h hval.1) (by omega)
          simp [hbad]
        · rw [if_neg hval]
          have hgood' : 0 < cfg.maxBucketValueLen → (v.length : Int) ≤ cfg.maxBucketValueLen :=
            fun h => by by_contra hc; exact hval ⟨h, by omega⟩
          exact ⟨fun hrest => ⟨⟨hk, hv, hgood, hgood'⟩, hrest⟩, fun h => h.2⟩

theorem trackSubscription_cases (cfg : Limits) (ss : StreamState) (key : BucketKey)
    (id : BucketId) :
    (key ∈ ss.subscriptions ∧ trackSubscription cfg ss key id = .ok (ss, true)) ∨
    (∃ e, trackSubscription cfg ss key id = .error e) ∨
    (key ∉ ss.subscriptions ∧ trackSubscription cfg ss key id =
      .ok ({ ss with subscriptions := ss.subscriptions.insert key id }, false)) := by
  unfold trackSubscription
  by_cases hmem : key ∈ ss.subscriptions
  · exact Or.inl ⟨hmem, if_pos hmem⟩
  · rw [if_neg hmem]
    split
    · exact Or.inr (Or.inl ⟨_, rfl⟩)
    · exact Or.inr (Or.inr ⟨hmem, rfl⟩)

/-- The domain section changes neither subscriptions nor a bound domain. It
binds an unbound stream to the message's domain, which is not empty. -/
theorem bindDomain_ok {l : Str} {ss ss' : StreamState} {req : UsageReports}
    (h : bindDomain l ss req = .ok ss') :
    ss'.subscriptions = ss.subscriptions ∧ ss'.domainBound = true ∧
      (ss.domainBound = true → ss' = ss) ∧
      (ss.domainBound = false → ss'.domain = req.domain ∧ req.domain ≠ []) := by
  unfold bindDomain at h
  cases hb : ss.domainBound with
  | true =>
    simp only [hb, Bool.not_true, Bool.false_and, Bool.false_eq_true, if_false, if_true] at h
    split at h
    · simp at h
    · cases h
      exact ⟨rfl, hb, fun _ => rfl, fun h => nomatch h⟩
  | false =>
    simp only [hb, Bool.not_false, Bool.true_and, Bool.false_eq_true, if_false] at h
    split at h
    · simp at h
    · rename_i hdomain
      split at h
      · simp at h
      · cases h
        exact ⟨rfl, rfl, (fun h => nomatch h), fun _ => ⟨rfl, by simpa using hdomain⟩⟩

theorem lookup_addRef (refs : BucketRefs) (k k' : BucketKey) :
    (addRef refs k).lookup k' = if k' = k then some (refCount refs k + 1) else refs.lookup k' :=
  GoMap.lookup_insert_if refs k k' _

theorem refCount_addRef (refs : BucketRefs) (k k' : BucketKey) :
    refCount (addRef refs k) k' = if k' = k then refCount refs k + 1 else refCount refs k' := by
  unfold refCount
  rw [lookup_addRef]
  split
  · rfl
  · rfl

theorem lookup_dropRef (refs : BucketRefs) (k k' : BucketKey) :
    (dropRef refs k).1.lookup k' =
      if k' = k then
        (if refCount refs k - 1 ≤ 0 then none else some (refCount refs k - 1))
      else refs.lookup k' := by
  unfold dropRef
  by_cases h : refCount refs k - 1 ≤ 0
  · simp only [if_pos h]
    exact GoMap.lookup_erase_if refs k k'
  · simp only [if_neg h]
    exact GoMap.lookup_insert_if refs k k' _

/-- The decrement of a positive count. -/
theorem refCount_dropRef_self {refs : BucketRefs} {k : BucketKey} (hpos : 1 ≤ refCount refs k) :
    refCount (dropRef refs k).1 k = refCount refs k - 1 := by
  have h : refCount (dropRef refs k).1 k = ((dropRef refs k).1.lookup k).getD 0 := rfl
  rw [h, lookup_dropRef, if_pos rfl]
  split
  · simp only [Option.getD_none]
    omega
  · rfl

theorem refCount_dropRef_ne {refs : BucketRefs} {k k' : BucketKey} (hne : k' ≠ k) :
    refCount (dropRef refs k).1 k' = refCount refs k' := by
  unfold refCount
  rw [lookup_dropRef, if_neg hne]

/-- No stored count is zero or negative. -/
def RefsPos (refs : BucketRefs) : Prop := ∀ k n, refs.lookup k = some n → 0 < n

theorem RefsPos.addRef {refs : BucketRefs} (h : RefsPos refs) (k : BucketKey) :
    RefsPos (addRef refs k) := by
  intro k' n hn
  rw [lookup_addRef] at hn
  split at hn
  · -- an absent entry counts from zero, a stored one is positive
    have hold : 0 ≤ refCount refs k := by
      unfold refCount
      cases hk : refs.lookup k with
      | none => exact le_refl 0
      | some m => exact le_of_lt (h k m hk)
    cases hn
    omega
  · exact h k' n hn

theorem RefsPos.dropRef {refs : BucketRefs} (h : RefsPos refs) (k : BucketKey) :
    RefsPos (dropRef refs k).1 := by
  intro k' n hn
  rw [lookup_dropRef] at hn
  split at hn
  · split at hn
    · simp at hn
    · cases hn
      omega
  · exact h k' n hn

/-- With positive counts, an entry is there exactly when the count is positive. -/
theorem RefsPos.lookup_ne_none {refs : BucketRefs} (h : RefsPos refs) (k : BucketKey) :
    refs.lookup k ≠ none ↔ 0 < refCount refs k := by
  unfold refCount
  cases hk : refs.lookup k with
  | none => simp
  | some m => simpa using h k m hk

/-- The caller removes the bucket exactly when the entry was deleted. -/
theorem dropRef_removed_iff (refs : BucketRefs) (k : BucketKey) :
    (dropRef refs k).2 = true ↔ (dropRef refs k).1.lookup k = none := by
  rw [lookup_dropRef, if_pos rfl]
  unfold dropRef
  by_cases h : refCount refs k - 1 ≤ 0
  · simp [h]
  · simp [h]

end Rlqs
