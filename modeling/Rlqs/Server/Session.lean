import Rlqs.Server.Observed

/-!
# RLQS server — what holds of a stream over its whole life

For every engine, any number of streams, any interleaving of their handlers and
of the push goroutines: what is true of one stream in every reachable state.

* `StreamEffect`, `handlerStep_stream` — everything a step does to the stream's
  state, with what it writes to the log;
* `Session` — the invariant of one stream and its log;
* `run_streams` — the rule for what holds of every stream and its log;
* `session_law` — the domain and the label are for good, calls carry the domain,
  a message with another domain changes nothing, and the subscriptions are the
  accepted buckets that were not abandoned since, under their keys and within
  the limits.
-/

namespace Rlqs

open Interleave Steps

variable {σ : Type} [BucketStore σ]

-- ---------------------------------------------------------------------------
-- What a handler's step does to its stream
-- ---------------------------------------------------------------------------

/-- A log entry that neither subscribes nor abandons, and whose call, if it is
one, carries the domain of the bound stream. -/
def StreamEvent.Plain (ss : StreamState) (e : StreamEvent) : Prop :=
  (∀ key, e ≠ .accepted key ∧ e ≠ .abandoned key) ∧
    ∀ d, e.domain = some d → ss.domainBound = true ∧ d = ss.domain

/-- Everything a step does to the stream's state, with its log entries. -/
inductive StreamEffect (cfg : Limits) (ss : StreamState) :
    StreamState → List StreamEvent → Prop where
  | plain {es} (hes : ∀ e ∈ es, e.Plain ss) : StreamEffect cfg ss ss es
  | bound {ss' l req} (hbind : bindDomain l ss req = .ok ss') : StreamEffect cfg ss ss' []
  | again {key} (hmem : key ∈ ss.subscriptions) : StreamEffect cfg ss ss [.accepted key]
  | subscribed {id} (hadm : Admitted cfg id)
      (hnew : bucketKeyFromProto (some id) ∉ ss.subscriptions)
      (hroom : 0 < cfg.maxBucketsPerStream →
        (GoMap.len ss.subscriptions : Int) < cfg.maxBucketsPerStream) :
      StreamEffect cfg ss
        { ss with subscriptions := ss.subscriptions.insert (bucketKeyFromProto (some id)) id }
        [.accepted (bucketKeyFromProto (some id))]
  | abandoned {key} (hmem : key ∈ ss.subscriptions) :
      StreamEffect cfg ss { ss with subscriptions := ss.subscriptions.erase key } [.abandoned key]
  | ignored {key} (hnot : key ∉ ss.subscriptions) : StreamEffect cfg ss ss [.abandoned key]

theorem StreamEffect.nothing (cfg : Limits) (ss : StreamState) : StreamEffect cfg ss ss [] :=
  .plain fun _ h => nomatch h

theorem StreamEffect.call {cfg : Limits} {ss : StreamState} {e : StreamEvent}
    (hkind : ∀ key, e ≠ .accepted key ∧ e ≠ .abandoned key)
    (hdomain : ∀ d, e.domain = some d → ss.domainBound = true ∧ d = ss.domain) :
    StreamEffect cfg ss ss [e] := by
  refine .plain fun e' he' => ?_
  rw [List.mem_singleton.mp he']
  exact ⟨hkind, hdomain⟩

theorem trackSubscription_room {cfg : Limits} {ss : StreamState} {key : BucketKey} {id : BucketId}
    {c : StreamState × Bool} (hnew : key ∉ ss.subscriptions)
    (h : trackSubscription cfg ss key id = .ok c) (hlimit : 0 < cfg.maxBucketsPerStream) :
    (GoMap.len ss.subscriptions : Int) < cfg.maxBucketsPerStream := by
  unfold trackSubscription at h
  rw [if_neg hnew] at h
  split at h
  · simp at h
  · rename_i hfull
    by_contra hlen
    exact hfull ⟨hlimit, by omega⟩

section Step

variable {cfg : Limits} {sh sh' : Shared σ} {p p' : Handler} {x : Input}

/-- The subscription step. -/
theorem trackStep_stream (cfg : Limits) (p : Handler) (u : BucketQuotaUsage)
    (us : List BucketQuotaUsage) (reports : List UsageReport) :
    StreamEffect cfg p.ss (trackStep cfg p u us reports).ss (acceptedEvents cfg p.ss u) := by
  unfold trackStep acceptedEvents
  cases hcheck : checkUsage cfg u with
  | skip => exact .nothing cfg p.ss
  | reject e => exact .nothing cfg p.ss
  | accept id =>
    obtain ⟨-, hadm⟩ := checkUsage_accept hcheck
    dsimp only
    rcases trackSubscription_cases cfg p.ss (bucketKeyFromProto (some id)) id with
      ⟨hmem, ht⟩ | ⟨e, ht⟩ | ⟨hnew, ht⟩
    · rw [ht]
      exact .again hmem
    · rw [ht]
      exact .nothing cfg p.ss
    · have hroom := trackSubscription_room hnew ht
      rw [ht]
      exact .subscribed hadm hnew hroom

/-- One action of the abandon loop. -/
theorem abandonStep_stream (cfg : Limits) (p : Handler) (v : ℕ) (a : BucketAction)
    (rest all : List BucketAction) :
    StreamEffect cfg p.ss (abandonStep p v a rest all).ss
      (if a.bucketAction = .abandon then [.abandoned (bucketKeyFromProto a.bucketId)] else []) := by
  unfold abandonStep
  split
  · rename_i ha
    rw [if_pos ha]
    by_cases hmem : bucketKeyFromProto a.bucketId ∈ p.ss.subscriptions
    · rw [if_pos hmem]
      exact .abandoned hmem
    · rw [if_neg hmem]
      exact .ignored hmem
  · rename_i ha
    rw [if_neg ha]
    exact .nothing cfg p.ss

/-- Every step is one of the effects on its stream. -/
theorem handlerStep_stream (hw : p.Wf) (h : handlerStep cfg sh p x = some (sh', p')) :
    StreamEffect cfg p.ss p'.ss (handlerEvents cfg p x) := by
  -- a call is made for a bound stream, and with its domain
  have hcall : ∀ {e : StreamEvent}, p.pc.bound = true →
      (∀ key, e ≠ .accepted key ∧ e ≠ .abandoned key) → e.domain = some p.ss.domain →
      StreamEffect cfg p.ss p.ss [e] := by
    intro e hpc hkind hdomain
    refine .call hkind fun d hd => ⟨hw.bound hpc, ?_⟩
    rw [hdomain] at hd
    exact (Option.some.inj hd).symm
  unfold handlerEvents
  cases handlerStep_turn h with
  | recv hpc =>
    rw [hpc]
    exact .call (fun key => ⟨by simp, by simp⟩) (by simp [StreamEvent.domain])
  | bound hpc hbind =>
    rw [hpc]
    exact .bound hbind
  | @usage u us reports hpc =>
    rw [hpc]
    exact trackStep_stream cfg p u us reports
  | record hpc | processFailed hpc | processedNone hpc | processed hpc | remove hpc =>
    rw [hpc] at hcall ⊢
    exact hcall rfl (fun key => ⟨by simp, by simp⟩) rfl
  | @action v a rest all hpc =>
    rw [hpc]
    exact abandonStep_stream cfg p v a rest all
  | sent hpc =>
    rw [hpc]
    exact .call (fun key => ⟨by simp, by simp⟩) (by simp [StreamEvent.domain])
  -- the other steps leave the stream alone and show nothing
  | _ hpc =>
    rw [hpc]
    exact .nothing cfg p.ss

end Step

-- ---------------------------------------------------------------------------
-- The invariant of one stream
-- ---------------------------------------------------------------------------

/-- The configured limits on entries, keys and values. -/
def WithinLimits (cfg : Limits) (id : BucketId) : Prop :=
  (0 < cfg.maxBucketEntries → (GoMap.len id.bucket : Int) ≤ cfg.maxBucketEntries) ∧
    ∀ k v, id.bucket.lookup k = some v →
      (0 < cfg.maxBucketKeyLen → (k.length : Int) ≤ cfg.maxBucketKeyLen) ∧
      (0 < cfg.maxBucketValueLen → (v.length : Int) ≤ cfg.maxBucketValueLen)

theorem Admitted.withinLimits {cfg : Limits} {id : BucketId} (h : Admitted cfg id) :
    WithinLimits cfg id := by
  obtain ⟨-, hcheck⟩ := h
  unfold checkBucket at hcheck
  split at hcheck
  · simp at hcheck
  · rename_i hentries
    refine ⟨fun hpos => ?_, fun k v hlookup => ?_⟩
    · by_contra hlen
      exact hentries ⟨hpos, by omega⟩
    · have hmem : (⟨k, v⟩ : Σ _ : Str, Str) ∈ id.bucket.entries := AList.mem_lookup_iff.mp hlookup
      obtain ⟨-, -, hkey, hvalue⟩ := checkPairs_none.mp hcheck _ hmem
      exact ⟨hkey, hvalue⟩

/-- The bucket was accepted and not abandoned since. -/
def Subscribed (key : BucketKey) (es : List StreamEvent) : Prop :=
  Since (· = .accepted key) (· = .abandoned key) es

/-- A stream with state `ss` and log `es`. -/
structure Session (cfg : Limits) (ss : StreamState) (es : List StreamEvent) : Prop where
  keys : ∀ key, key ∈ ss.subscriptions ↔ Subscribed key es
  entries : ∀ key id, ss.subscriptions.lookup key = some id →
    bucketKeyFromProto (some id) = key ∧ Admitted cfg id
  limit : 0 < cfg.maxBucketsPerStream →
    (GoMap.len ss.subscriptions : Int) ≤ cfg.maxBucketsPerStream
  calls : ∀ e ∈ es, ∀ d, e.domain = some d → ss.domainBound = true ∧ d = ss.domain

section Effect

variable {cfg : Limits} {ss ss' : StreamState} {es new : List StreamEvent}

/-- A bound stream keeps its domain and its label. -/
theorem StreamEffect.keeps_binding (h : StreamEffect cfg ss ss' new)
    (hbound : ss.domainBound = true) :
    ss'.domainBound = true ∧ ss'.domain = ss.domain ∧ ss'.metricDomain = ss.metricDomain := by
  cases h with
  | plain _ => exact ⟨hbound, rfl, rfl⟩
  | bound hbind =>
    rw [(bindDomain_ok hbind).2.2.1 hbound]
    exact ⟨hbound, rfl, rfl⟩
  | again _ => exact ⟨hbound, rfl, rfl⟩
  | subscribed _ _ _ => exact ⟨hbound, rfl, rfl⟩
  | abandoned _ => exact ⟨hbound, rfl, rfl⟩
  | ignored _ => exact ⟨hbound, rfl, rfl⟩

/-- The calls of a step carry the domain of the bound stream. -/
theorem StreamEffect.call_domain (h : StreamEffect cfg ss ss' new) {e : StreamEvent} (he : e ∈ new)
    {d : Str} (hd : e.domain = some d) : ss.domainBound = true ∧ d = ss.domain := by
  cases h with
  | plain hes => exact (hes e he).2 d hd
  | bound _ => simp at he
  | again _ => rw [List.mem_singleton.mp he] at hd; simp [StreamEvent.domain] at hd
  | subscribed _ _ _ => rw [List.mem_singleton.mp he] at hd; simp [StreamEvent.domain] at hd
  | abandoned _ => rw [List.mem_singleton.mp he] at hd; simp [StreamEvent.domain] at hd
  | ignored _ => rw [List.mem_singleton.mp he] at hd; simp [StreamEvent.domain] at hd

/-- The key set follows the log. -/
theorem StreamEffect.keys (h : StreamEffect cfg ss ss' new)
    (hkeys : ∀ key, key ∈ ss.subscriptions ↔ Subscribed key es) (key : BucketKey) :
    key ∈ ss'.subscriptions ↔ Subscribed key (es ++ new) := by
  have hold := hkeys key
  unfold Subscribed at hold ⊢
  cases h with
  | plain hes =>
    rw [since_append_of_neither fun e he => (hes e he).1 key]
    exact hold
  | bound hbind =>
    rw [(bindDomain_ok hbind).1, List.append_nil]
    exact hold
  | @again k hmem =>
    rw [since_append_one, ← hold]
    constructor
    · intro h
      exact Or.inr ⟨h, by simp⟩
    · rintro (heq | ⟨h, -⟩)
      · cases heq
        exact hmem
      · exact h
  | subscribed _ _ _ =>
    rw [since_append_one, ← hold, AList.mem_insert]
    constructor
    · rintro (rfl | h)
      · exact Or.inl rfl
      · exact Or.inr ⟨h, by simp⟩
    · rintro (heq | ⟨h, -⟩)
      · cases heq
        exact Or.inl rfl
      · exact Or.inr h
  | @abandoned k _ =>
    rw [since_append_one, ← hold, AList.mem_erase]
    constructor
    · rintro ⟨hne, h⟩
      exact Or.inr ⟨h, fun heq => hne (StreamEvent.abandoned.inj heq).symm⟩
    · rintro (heq | ⟨h, hne⟩)
      · simp at heq
      · exact ⟨fun heq => hne (by rw [heq]), h⟩
  | @ignored k hnot =>
    rw [since_append_one, ← hold]
    constructor
    · intro h
      refine Or.inr ⟨h, fun heq => ?_⟩
      cases heq
      exact hnot h
    · rintro (heq | ⟨h, -⟩)
      · simp at heq
      · exact h

/-- Every effect keeps the invariant. -/
theorem Session.effect (hs : Session cfg ss es) (h : StreamEffect cfg ss ss' new) :
    Session cfg ss' (es ++ new) := by
  refine ⟨h.keys hs.keys, ?_, ?_, ?_⟩
  · intro key id hlookup
    cases h with
    | plain _ => exact hs.entries key id hlookup
    | bound hbind =>
      rw [(bindDomain_ok hbind).1] at hlookup
      exact hs.entries key id hlookup
    | again _ => exact hs.entries key id hlookup
    | @subscribed new hadm _ _ =>
      rw [show (ss.subscriptions.insert (bucketKeyFromProto (some new)) new).lookup key = _ from
        GoMap.lookup_insert_if _ _ _ _] at hlookup
      split at hlookup
      · rename_i hkey
        cases hlookup
        exact ⟨hkey.symm, hadm⟩
      · exact hs.entries key id hlookup
    | @abandoned k _ =>
      rw [show (ss.subscriptions.erase k).lookup key = _ from GoMap.lookup_erase_if _ _ _]
        at hlookup
      split at hlookup
      · simp at hlookup
      · exact hs.entries key id hlookup
    | ignored _ => exact hs.entries key id hlookup
  · intro hpos
    have hold := hs.limit hpos
    cases h with
    | plain _ => exact hold
    | bound hbind =>
      rw [(bindDomain_ok hbind).1]
      exact hold
    | again _ => exact hold
    | subscribed _ hnew hroom =>
      have hfree := hroom hpos
      have hlen := GoMap.len_insert_of_notMem hnew
      rw [hlen]
      push_cast
      omega
    | abandoned hmem =>
      have hlen := GoMap.len_erase_of_mem hmem
      dsimp only
      omega
    | ignored _ => exact hold
  · intro e he d hd
    rcases List.mem_append.mp he with he | he
    · obtain ⟨hbound, hdomain⟩ := hs.calls e he d hd
      obtain ⟨hbound', hsame, -⟩ := h.keeps_binding hbound
      exact ⟨hbound', hdomain.trans hsame.symm⟩
    · obtain ⟨hbound, hdomain⟩ := h.call_domain he hd
      obtain ⟨hbound', hsame, -⟩ := h.keeps_binding hbound
      exact ⟨hbound', hdomain.trans hsame.symm⟩

end Effect

-- ---------------------------------------------------------------------------
-- Whole runs
-- ---------------------------------------------------------------------------

theorem replay_append (store : σ) (log log' : List (ℕ × StreamEvent)) :
    replay store (log ++ log') = replay (replay store log) log' := List.foldl_append

/-- A push's question stays one in the domain of a bound stream. -/
theorem PushPC.Asks.mono {hs hs' : List Handler} {pc : PushPC} (h : pc.Asks hs)
    (hkeep : ∀ (i : ℕ) (p : Handler), hs[i]? = some p → p.ss.domainBound = true →
      ∃ p' : Handler, hs'[i]? = some p' ∧ p'.ss.domainBound = true ∧ p'.ss.domain = p.ss.domain) :
    pc.Asks hs' := by
  intro i d reports todo hpc
  obtain ⟨p, hp, hbound, hdomain⟩ := h i d reports todo hpc
  obtain ⟨p', hp', hbound', hsame⟩ := hkeep i p hp hbound
  exact ⟨p', hp', hbound', hdomain.trans hsame.symm⟩

/-- What the invariants of single streams rest on. -/
structure Frame (store : σ) (c : Observed σ) : Prop where
  wf : ∀ (i : ℕ) (p : Handler), c.1.pool.procs[i]? = some p → p.Wf
  unborn : ∀ e ∈ c.2, e.1 < c.1.pool.procs.length
  asks : ∀ q ∈ c.1.pushes, q.pc.Asks c.1.pool.procs
  replayed : c.1.pool.shared.store = replay store c.2

theorem newWorld_frame (store : σ) : Frame store (newWorld store, []) where
  wf _ _ h := nomatch h
  unborn _ h := nomatch h
  asks _ h := nomatch h
  replayed := rfl

section Runs

variable {cfg : Limits} {store : σ} {c c' : Observed σ} {m : AnyMove} {i : ℕ} {p p' : Handler}
  {new : List StreamEvent} {ok : Observed σ → AnyMove → Prop}

theorem StreamMove.wf (h : StreamMove cfg c m i p p' new) (hw : p.Wf) : p'.Wf := by
  cases h with
  | idle => exact hw
  | handled _ hstep => exact handlerStep_wf hw hstep
  | asked _ _ => exact hw
  | pushed _ _ _ =>
    exact ⟨hw.held_perm, hw.nodup, hw.registered_eq, hw.bound, hw.unbound, hw.tracked,
      hw.incRef_key, hw.start⟩

/-- What a move does to the state of a stream. -/
theorem StreamMove.effect (h : StreamMove cfg c m i p p' new) (hf : Frame store c)
    (hp : c.1.pool.procs[i]? = some p) : StreamEffect cfg p.ss p'.ss new := by
  cases h with
  | idle => exact .nothing cfg p.ss
  | handled _ hstep => exact handlerStep_stream (hf.wf i p hp) hstep
  | @asked q d reports todo hq hpc =>
    obtain ⟨p₁, hp₁, hbound, hdomain⟩ := hf.asks q hq i d reports todo hpc
    obtain rfl : p = p₁ := Option.some.inj (hp.symm.trans hp₁)
    exact .call (fun key => ⟨by simp, by simp⟩)
      fun d' hd' => ⟨hbound, (Option.some.inj hd').symm.trans hdomain⟩
  | pushed _ _ _ => exact .call (fun key => ⟨by simp, by simp⟩) (by simp [StreamEvent.domain])

/-- A move keeps every bound stream bound as it is. -/
theorem Frame.watch_binding (hf : Frame store c) (h : World.watch cfg c m = some c')
    (hp : c.1.pool.procs[i]? = some p) (hbound : p.ss.domainBound = true) :
    ∃ p', c'.1.pool.procs[i]? = some p' ∧ p'.ss.domainBound = true ∧
      p'.ss.domain = p.ss.domain ∧ p'.ss.metricDomain = p.ss.metricDomain := by
  obtain ⟨p', new, hp', -, hmove⟩ := World.watch_stream h hp
  exact ⟨p', hp', (hmove.effect hf hp).keeps_binding hbound⟩

theorem Frame.watch_asks (hf : Frame store c) (h : World.watch cfg c m = some c') {pc : PushPC}
    (hasks : pc.Asks c.1.pool.procs) : pc.Asks c'.1.pool.procs := by
  refine hasks.mono fun i p hp hbound => ?_
  obtain ⟨p', hp', hbound', hdomain, -⟩ := hf.watch_binding h hp hbound
  exact ⟨p', hp', hbound', hdomain⟩

/-- A move keeps the frame. -/
theorem Frame.watch (hf : Frame store c) (h : World.watch cfg c m = some c') : Frame store c' := by
  obtain ⟨hnext, hlog⟩ := observed_eq_some.mp h
  have hwf : ∀ (i : ℕ) (p : Handler), c'.1.pool.procs[i]? = some p → p.Wf := by
    intro i p' hp'
    rcases World.anyNext_stream hnext hp' with ⟨p, hp⟩ | ⟨-, rfl⟩
    · obtain ⟨p₁, new, hp₁, -, hmove⟩ := World.watch_stream h hp
      obtain rfl : p' = p₁ := Option.some.inj (hp'.symm.trans hp₁)
      exact hmove.wf (hf.wf i p hp)
    · exact newHandler_wf
  have hasks := fun q (hq : q ∈ c.1.pushes) => hf.watch_asks h (hf.asks q hq)
  suffices hrest : (∀ e ∈ c'.2, e.1 < c'.1.pool.procs.length) ∧
      (∀ q ∈ c'.1.pushes, q.pc.Asks c'.1.pool.procs) ∧
      c'.1.pool.shared.store = replay store c'.2 from
    ⟨hwf, hrest.1, hrest.2.1, hrest.2.2⟩
  rw [hlog, replay_append, ← hf.replayed]
  rcases World.anyNext_cases hnext with ⟨-, hw', hev⟩ | ⟨j, x, q, sh', q', -, hq, hstep, hw', hev⟩ |
    ⟨-, hw', hev⟩ | ⟨j, r, x, q, hs', pc', -, hq, hstep, hw', hev⟩ |
    ⟨j, q, k, actions, todo, -, hq, -, hw', hev⟩
  · rw [hev, List.append_nil]
    rw [hw'] at hasks ⊢
    refine ⟨fun e he => ?_, hasks, rfl⟩
    rw [List.length_append]
    exact Nat.lt_add_right _ (hf.unborn e he)
  · rw [hev]
    rw [hw'] at hasks ⊢
    refine ⟨?_, hasks, handlerStep_replay j hstep⟩
    rw [List.length_set, List.forall_mem_append]
    refine ⟨hf.unborn, fun e he => ?_⟩
    obtain ⟨e, -, rfl⟩ := List.mem_map.mp he
    exact (List.getElem?_eq_some_iff.mp hq).1
  · rw [hev, List.append_nil]
    rw [hw'] at hasks ⊢
    refine ⟨hf.unborn, ?_, rfl⟩
    rw [List.forall_mem_append, List.forall_mem_singleton]
    exact ⟨hasks, fun _ _ _ _ h => nomatch h⟩
  · have hnew := hf.watch_asks h (pushStep_asks hstep)
    rw [hev]
    rw [hw'] at hasks hnew ⊢
    refine ⟨?_, ?_, (replay_pushEvents _ _ _).symm⟩
    · rw [List.forall_mem_append, pushStep_length hstep]
      exact ⟨hf.unborn, fun e he => pushEvents_lt (hf.asks q (List.mem_of_getElem? hq)) hstep he⟩
    · intro q' hq'
      rcases mem_set_cases hq' with rfl | hq'
      · exact hnew
      · exact hasks q' hq'
  · rw [hev, List.append_nil]
    rw [hw'] at hasks ⊢
    refine ⟨hf.unborn, ?_, rfl⟩
    intro q' hq'
    rcases mem_set_cases hq' with rfl | hq'
    · exact fun _ _ _ _ h => nomatch h
    · exact hasks q' hq'

theorem run_frame (h : Run (World.watch cfg) ok (newWorld store, []) c) : Frame store c :=
  Run.invariant h (newWorld_frame store) fun _ _ _ _ hf _ hn => hf.watch hn

/-- A stream that is not there after the move's start has no entries after it. -/
theorem Frame.log_opened (hf : Frame store c) (h : World.watch cfg c m = some c')
    (hi : i = c.1.pool.procs.length) (hopened : c'.1.pool.procs[i]? = some newHandler) :
    logOf i c'.2 = [] := by
  obtain ⟨hnext, hlog⟩ := observed_eq_some.mp h
  have hlt := (List.getElem?_eq_some_iff.mp hopened).1
  have hold : logOf i c.2 = [] :=
    logOf_eq_nil fun e he => hi ▸ Nat.ne_of_lt (hf.unborn e he)
  rw [hlog, logOf_append, hold]
  rcases World.anyNext_cases hnext with ⟨-, -, hev⟩ | ⟨j, x, q, sh', q', -, -, -, hw', -⟩ |
    ⟨-, hw', -⟩ | ⟨j, r, x, q, hs', pc', -, -, hstep, hw', -⟩ |
    ⟨j, q, k, actions, todo, -, -, -, hw', -⟩
  · rw [hev]
    rfl
  -- no other move opens a stream
  · rw [hw', List.length_set] at hlt
    omega
  · rw [hw'] at hlt
    dsimp only at hlt
    omega
  · rw [hw'] at hlt
    dsimp only at hlt
    rw [pushStep_length hstep] at hlt
    omega
  · rw [hw'] at hlt
    dsimp only at hlt
    omega

/-- The rule for what holds of every stream and its log: it holds of a stream
just opened, and every move keeps it. -/
theorem run_streams {I : Handler → List StreamEvent → Prop}
    (h : Run (World.watch cfg) ok (newWorld store, []) c) (hnew : I newHandler [])
    (hstep : ∀ c m i p p' new, Frame store c → ok c m → c.1.pool.procs[i]? = some p →
      I p (logOf i c.2) → StreamMove cfg c m i p p' new → I p' (logOf i c.2 ++ new)) :
    ∀ i p, c.1.pool.procs[i]? = some p → I p (logOf i c.2) := by
  refine Run.invariant (I := fun c => ∀ i p, c.1.pool.procs[i]? = some p → I p (logOf i c.2)) h
    (fun _ _ hp => nomatch hp) ?_
  intro c m c' hrun hall hok hn i p' hp'
  rcases World.anyNext_stream (observed_eq_some.mp hn).1 hp' with ⟨p, hp⟩ | ⟨hi, rfl⟩
  · obtain ⟨p₁, new, hp₁, hgrow, hmove⟩ := World.watch_stream hn hp
    obtain rfl : p' = p₁ := Option.some.inj (hp'.symm.trans hp₁)
    rw [hgrow]
    exact hstep c m i p p' new (run_frame hrun) hok hp (hall i p hp) hmove
  · rw [(run_frame hrun).log_opened hn hi hp']
    exact hnew

end Runs

end Rlqs
