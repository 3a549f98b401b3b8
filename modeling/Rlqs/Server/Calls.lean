import Rlqs.Lib.Interleave
import Rlqs.Server.Definitions

/-!
# RLQS server — one call at a time

The server at the granularity of whole calls: a stream opens, each of its
messages is one `handleMessage` call, and it ends in one `cleanupStream` call;
calls of different streams follow each other in any order. A message that is
rejected leaves the stream `failed`: its cleanup is still to come, and other
streams' calls may run first.

Whatever a call does to the server is a series of unit changes of the server
and the calling stream: first some `Track` changes (the domain is bound, a
report is recorded, with or without a new subscription), then some `Drop`
changes (a subscription is given up). `callStep_effect` is the only place that
looks into the calls; the invariants are proved for the unit changes.

* `callMachine` — the streams of one instance, one call at a time;
* `callStep_effect` — a call is a series of unit changes;
* `next_effect` — between calls `bucketRefs` counts the subscriptions of the
  streams, and what a call does to an instance that stands so.
-/

namespace Rlqs

open Interleave Steps Relation

-- ---------------------------------------------------------------------------
-- Streams and calls
-- ---------------------------------------------------------------------------

/-- A stream between calls. -/
inductive Slot where
  | live (ss : StreamState)
  | failed (ss : StreamState)
  | closed

/-- The calls made for a stream, with what the environment contributes: the
metric label, what the engine answers, the result of `Send` and the message,
or the iteration order of `range ss.subscriptions`. -/
inductive Call where
  | message (label : Str) (reply : Except GoError (List BucketAction))
      (sendErr : Option GoError) (req : UsageReports)
  | close (order : List BucketKey)

variable {σ : Type} [BucketStore σ]

/-- `cleanupStream`, in some iteration order of the subscriptions. -/
def closeStream (srv : Server σ) (ss : StreamState) (order : List BucketKey) :
    Option (Server σ × Slot) :=
  if order.Perm ss.subscriptions.keys then some (cleanupStream srv ss order, .closed) else none

/-- One call. -/
def callStep (cfg : Limits) (srv : Server σ) : Slot → Call → Option (Server σ × Slot)
  | .live ss, .message label reply sendErr req =>
    let h := handleMessage cfg label (fun _ _ => reply) sendErr srv ss req
    some (h.server, if h.err.isSome then .failed h.stream else .live h.stream)
  | .live ss, .close order => closeStream srv ss order
  | .failed ss, .close order => closeStream srv ss order
  | _, _ => none

/-- The streams of one server instance, one call at a time. -/
def callMachine (σ : Type) [BucketStore σ] (cfg : Limits) : Machine (Server σ) Slot Unit Call where
  init _ := .live newStream
  step := callStep cfg

/-- A server just made. -/
def freshServer (store : σ) : Pool (Server σ) Slot := ⟨⟨∅, store⟩, []⟩

-- ---------------------------------------------------------------------------
-- Unit changes
-- ---------------------------------------------------------------------------

/-- The bucket key of a usage. -/
def BucketQuotaUsage.key (u : BucketQuotaUsage) : BucketKey := bucketKeyFromProto u.bucketId

/-- What the first half of `handleMessage` is made of. -/
inductive Track (cfg : Limits) (req : UsageReports) :
    Server σ × StreamState → Server σ × StreamState → Prop where
  | bind {srv ss ss'} (l : Str) (hbind : bindDomain l ss req = .ok ss') :
      Track cfg req (srv, ss) (srv, ss')
  | again {srv ss} (u : BucketQuotaUsage) (hu : u ∈ req.bucketQuotaUsages)
      (hbound : ss.domainBound = true)
      (hsub : u.key ∈ ss.subscriptions) :
      Track cfg req (srv, ss) (srv.record ss.domain u.toReport, ss)
  | first {srv ss} (u : BucketQuotaUsage) (id : BucketId) (hu : u ∈ req.bucketQuotaUsages)
      (hid : u.bucketId = some id) (hadm : Admitted cfg id) (hbound : ss.domainBound = true)
      (hsub : u.key ∉ ss.subscriptions) :
      Track cfg req (srv, ss)
        ((srv.subscribe (domainScopedKey ss.domain u.key)).record ss.domain u.toReport,
          { ss with subscriptions := ss.subscriptions.insert u.key id })

/-- What the abandon loop and `cleanupStream` are made of; `G` holds the keys
that are to be given up. -/
inductive Drop (G : BucketKey → Prop) :
    Server σ × StreamState → Server σ × StreamState → Prop where
  | drop {srv ss} (key : BucketKey) (hgiven : G key) (hbound : ss.domainBound = true)
      (hsub : key ∈ ss.subscriptions) :
      Drop G (srv, ss)
        (srv.release ss.domain key, { ss with subscriptions := ss.subscriptions.erase key })

/-- The subscription loop tracks. -/
theorem trackUsages_tracks (cfg : Limits) (req : UsageReports) (us : List BucketQuotaUsage) :
    us ⊆ req.bucketQuotaUsages → ∀ (srv : Server σ) (ss : StreamState) (reports : List UsageReport),
      ss.domainBound = true →
      ReflTransGen (Track cfg req) (srv, ss)
        ((trackUsages cfg srv ss us reports).1, (trackUsages cfg srv ss us reports).2.1) ∧
      (trackUsages cfg srv ss us reports).2.1.domainBound = true := by
  induction us with
  | nil => exact fun _ srv ss reports hb => ⟨ReflTransGen.refl, hb⟩
  | cons u us ih =>
    intro hall srv ss reports hb
    have hu : u ∈ req.bucketQuotaUsages := hall List.mem_cons_self
    have ih := ih fun v hv => hall (List.mem_cons_of_mem u hv)
    rw [trackUsages]
    split
    · exact ih srv ss reports hb
    · exact ⟨ReflTransGen.refl, hb⟩
    · rename_i id hc
      obtain ⟨hid, hadm⟩ := checkUsage_accept hc
      have hkey : u.key = bucketKeyFromProto (some id) := by rw [BucketQuotaUsage.key, hid]
      rw [← hkey]
      rcases trackSubscription_cases cfg ss u.key id with ⟨hmem, ht⟩ | ⟨e, ht⟩ | ⟨hmem, ht⟩
      · simp only [ht]
        obtain ⟨hrest, hb'⟩ := ih (srv.record ss.domain u.toReport) ss (reports ++ [u.toReport]) hb
        exact ⟨ReflTransGen.head (Track.again u hu hb hmem) hrest, hb'⟩
      · simp only [ht]
        exact ⟨ReflTransGen.refl, hb⟩
      · simp only [ht]
        obtain ⟨hrest, hb'⟩ := ih
          ((srv.subscribe (domainScopedKey ss.domain u.key)).record ss.domain u.toReport)
          { ss with subscriptions := ss.subscriptions.insert u.key id }
          (reports ++ [u.toReport]) hb
        exact ⟨ReflTransGen.head (Track.first u id hu hid hadm hb hmem) hrest, hb'⟩

/-- The keys abandoned by an answer of the engine. -/
def abandonedKeys (reply : Except GoError (List BucketAction)) : List BucketKey :=
  match reply with
  | .error _ => []
  | .ok actions =>
    (actions.filter fun a => a.bucketAction = .abandon).map fun a => bucketKeyFromProto a.bucketId

/-- The abandon loop drops. -/
theorem applyAbandons_drops {G : BucketKey → Prop} (as : List BucketAction) :
    (∀ key ∈ abandonedKeys (.ok as), G key) →
    ∀ (srv : Server σ) (ss : StreamState), ss.domainBound = true →
      ReflTransGen (Drop G) (srv, ss)
        ((applyAbandons srv ss as).1, (applyAbandons srv ss as).2) := by
  induction as with
  | nil => exact fun _ srv ss _ => ReflTransGen.refl
  | cons a as ih =>
    intro hG srv ss hb
    have ih := ih fun key hkey => by
      refine hG key ?_
      simp only [abandonedKeys, List.filter_cons] at hkey ⊢
      split
      · exact List.mem_cons_of_mem _ hkey
      · exact hkey
    rw [applyAbandons]
    split
    · rename_i habandon
      by_cases hmem : bucketKeyFromProto a.bucketId ∈ ss.subscriptions
      · simp only [hmem, if_true]
        have hgiven : G (bucketKeyFromProto a.bucketId) :=
          hG _ (by simp [abandonedKeys, habandon])
        exact ReflTransGen.head (Drop.drop _ hgiven hb hmem) (ih _ _ hb)
      · simp only [hmem, if_false]
        exact ih srv ss hb
    · exact ih srv ss hb

/-- The second half of `handleMessage` drops. -/
theorem answer_drops (engine : Engine) (sendErr : Option GoError) (srv : Server σ)
    (ss : StreamState) (reports : List UsageReport) (hb : ss.domainBound = true) :
    ReflTransGen (Drop (· ∈ abandonedKeys (engine ss.domain reports))) (srv, ss)
      ((answer engine sendErr srv ss reports).server,
        (answer engine sendErr srv ss reports).stream) := by
  unfold answer
  split
  · exact ReflTransGen.refl
  · exact ReflTransGen.refl
  · rename_i a as heq
    have hdrops := applyAbandons_drops (G := (· ∈ abandonedKeys (engine ss.domain reports)))
      (a :: as) (fun key hkey => by rw [heq]; exact hkey) srv ss hb
    cases sendErr <;> exact hdrops

/-- One `handleMessage` call tracks, then drops. -/
theorem handleMessage_effect (cfg : Limits) (label : Str)
    (reply : Except GoError (List BucketAction)) (sendErr : Option GoError) (srv : Server σ)
    (ss : StreamState) (req : UsageReports) :
    ∃ mid, ReflTransGen (Track cfg req) (srv, ss) mid ∧
      ReflTransGen (Drop (· ∈ abandonedKeys reply)) mid
        ((handleMessage cfg label (fun _ _ => reply) sendErr srv ss req).server,
          (handleMessage cfg label (fun _ _ => reply) sendErr srv ss req).stream) := by
  unfold handleMessage
  split
  · exact ⟨_, ReflTransGen.refl, ReflTransGen.refl⟩
  · rename_i ss' hbind
    obtain ⟨-, hbound, -, -⟩ := bindDomain_ok hbind
    have htrack : Track cfg req (srv, ss) (srv, ss') := Track.bind label hbind
    split
    · exact ⟨_, ReflTransGen.single htrack, ReflTransGen.refl⟩
    · split
      · exact ⟨_, ReflTransGen.single htrack, ReflTransGen.refl⟩
      · obtain ⟨hloop, hbound'⟩ := trackUsages_tracks cfg req
          req.bucketQuotaUsages (fun _ h => h) srv ss' [] hbound
        split
        · rename_i srv₂ ss₂ e heq
          rw [heq] at hloop
          exact ⟨_, ReflTransGen.head htrack hloop, ReflTransGen.refl⟩
        · rename_i srv₂ ss₂ reports heq
          rw [heq] at hloop hbound'
          exact ⟨_, ReflTransGen.head htrack hloop,
            answer_drops (fun _ _ => reply) sendErr srv₂ ss₂ reports hbound'⟩

/-- Releasing a list of keys, each once, drops them all. -/
theorem release_all_drops {G : BucketKey → Prop} (order : List BucketKey) :
    (∀ key ∈ order, G key) → ∀ (srv : Server σ) (ss : StreamState), ss.domainBound = true →
      order.Perm ss.subscriptions.keys →
      ReflTransGen (Drop G) (srv, ss) (order.foldl (fun srv key => srv.release ss.domain key) srv,
        { ss with subscriptions := ∅ }) := by
  induction order with
  | nil =>
    intro _ srv ss _ hperm
    have hempty : ss.subscriptions = ∅ := GoMap.keys_eq_nil_iff.mp hperm.symm.eq_nil
    have hss : { ss with subscriptions := ∅ } = ss := by rw [← hempty]
    rw [hss]
    exact ReflTransGen.refl
  | cons key order ih =>
    intro hG srv ss hb hperm
    have ih := ih fun key hkey => hG key (List.mem_cons_of_mem _ hkey)
    have hmem : key ∈ ss.subscriptions :=
      AList.mem_keys.mpr (hperm.mem_iff.mp List.mem_cons_self)
    have hrest : order.Perm (ss.subscriptions.erase key).keys :=
      (List.perm_cons key).mp (hperm.trans (GoMap.keys_perm_cons_erase hmem))
    exact ReflTransGen.head (Drop.drop key (hG key List.mem_cons_self) hb hmem)
      (ih (srv.release ss.domain key) { ss with subscriptions := ss.subscriptions.erase key }
        hb hrest)

-- ---------------------------------------------------------------------------
-- A call as a series of unit changes
-- ---------------------------------------------------------------------------

/-- The stream of a slot, as long as it has one. -/
def Slot.stream : Slot → Option StreamState
  | .live ss => some ss
  | .failed ss => some ss
  | .closed => none

/-- A stream's subscriptions with scoped key `k`. -/
def StreamState.subscribedAt (ss : StreamState) (k : BucketKey) : ℕ :=
  ss.subscriptions.keys.countP fun key => domainScopedKey ss.domain key = k

/-- The subscriptions with scoped key `k` of the stream in a slot. -/
def Slot.subscribedAt (k : BucketKey) (p : Slot) : ℕ :=
  match p.stream with
  | some ss => ss.subscribedAt k
  | none => 0

/-- A stream that is not bound to a domain has no subscriptions. -/
def StreamState.Wf (ss : StreamState) : Prop :=
  ss.domainBound = false → ss.subscriptions = ∅

def Slot.Wf (p : Slot) : Prop := ∀ ss, p.stream = some ss → ss.Wf

theorem StreamState.subscribedAt_empty {ss : StreamState} (h : ss.subscriptions = ∅)
    (k : BucketKey) : ss.subscribedAt k = 0 := by
  unfold StreamState.subscribedAt
  rw [h]
  rfl

theorem cleanupStream_effect (srv : Server σ) {ss : StreamState} (hw : ss.Wf)
    {order : List BucketKey} (hperm : order.Perm ss.subscriptions.keys) :
    ReflTransGen (Drop (· ∈ ss.subscriptions)) (srv, ss)
      (cleanupStream srv ss order, { ss with subscriptions := ∅ }) := by
  unfold cleanupStream
  split
  · rename_i hb
    have hss : { ss with subscriptions := ∅ } = ss := by rw [← hw (by simpa using hb)]
    rw [hss]
  · rename_i hb
    exact release_all_drops order (fun key hkey => AList.mem_keys.mpr (hperm.mem_iff.mp hkey))
      srv ss
      (by simpa using hb) hperm

/-- The message of a call; a `cleanupStream` call has none. -/
def Call.request : Call → UsageReports
  | .message _ _ _ req => req
  | .close _ => ⟨[], []⟩

/-- The domain a call works in. -/
def Call.domain (ss : StreamState) (c : Call) : Str :=
  if ss.domainBound then ss.domain else c.request.domain

/-- What is given up in the drops of a call. -/
def Call.Drops (ss : StreamState) : Call → BucketKey → Prop
  | .message _ reply _ _ => (· ∈ abandonedKeys reply)
  | .close _ => (· ∈ ss.subscriptions)

/-- Every call is a series of unit changes of the server and the calling
stream: some tracks, then some drops. -/
theorem callStep_effect {cfg : Limits} {srv srv' : Server σ} {p p' : Slot} {c : Call}
    (hw : p.Wf) (h : callStep cfg srv p c = some (srv', p')) :
    ∃ ss mid ss', p.stream = some ss ∧ ReflTransGen (Track cfg c.request) (srv, ss) mid ∧
      ReflTransGen (Drop (c.Drops ss)) mid (srv', ss') ∧
      (p'.stream = some ss' ∨ p' = .closed ∧ ss'.subscriptions = ∅) := by
  -- closing a stream, whether it is live or failed
  have hclose : ∀ ss order, p.stream = some ss → c = .close order →
      closeStream srv ss order = some (srv', p') →
      ∃ ss mid ss', p.stream = some ss ∧ ReflTransGen (Track cfg c.request) (srv, ss) mid ∧
        ReflTransGen (Drop (c.Drops ss)) mid (srv', ss') ∧
        (p'.stream = some ss' ∨ p' = .closed ∧ ss'.subscriptions = ∅) := by
    rintro ss order hp rfl hc
    unfold closeStream at hc
    split at hc
    · rename_i hperm
      cases hc
      exact ⟨ss, _, _, hp, ReflTransGen.refl, cleanupStream_effect srv (hw ss hp) hperm,
        Or.inr ⟨rfl, rfl⟩⟩
    · simp at hc
  unfold callStep at h
  split at h
  · rename_i ss label reply sendErr req
    cases h
    obtain ⟨mid, htrack, hdrop⟩ :=
      handleMessage_effect cfg label reply sendErr srv ss req
    refine ⟨ss, mid, _, rfl, htrack, hdrop, Or.inl ?_⟩
    split <;> rfl
  · exact hclose _ _ rfl rfl h
  · exact hclose _ _ rfl rfl h
  · simp at h

-- ---------------------------------------------------------------------------
-- Where a call works
-- ---------------------------------------------------------------------------

/-- The stream is bound to `d`, or about to be bound to it by `req`. -/
structure InDomain (req : UsageReports) (d : Str) (ss : StreamState) : Prop where
  bound : ss.domainBound = true → ss.domain = d
  unbound : ss.domainBound = false → req.domain = d

theorem Call.inDomain (c : Call) (ss : StreamState) : InDomain c.request (c.domain ss) ss := by
  refine ⟨fun hb => ?_, fun hb => ?_⟩
  · exact (if_pos hb).symm
  · exact (if_neg (by rw [hb]; decide)).symm

theorem InDomain.track {cfg : Limits} {req : UsageReports} {d : Str}
    {c c' : Server σ × StreamState} (h : InDomain req d c.2) (ht : Track cfg req c c') :
    InDomain req d c'.2 := by
  cases ht with
  | @bind srv ss ss' l hbind =>
    obtain ⟨-, hbound, hkeep, hnew⟩ := bindDomain_ok hbind
    refine ⟨fun _ => ?_, fun hb => ?_⟩
    · rcases Bool.eq_false_or_eq_true ss.domainBound with hb | hb
      · rw [hkeep hb]
        exact h.bound hb
      · rw [(hnew hb).1]
        exact h.unbound hb
    · rw [show ss'.domainBound = true from hbound] at hb
      simp at hb
  | again u hu hbound hsub => exact h
  | first u id hu hid hadm hbound hsub => exact ⟨h.bound, h.unbound⟩

theorem InDomain.drop {req : UsageReports} {d : Str} {G : BucketKey → Prop}
    {c c' : Server σ × StreamState} (h : InDomain req d c.2) (hd : Drop G c c') :
    InDomain req d c'.2 := by
  obtain ⟨key, hgiven, hbound, hsub⟩ := hd
  exact ⟨h.bound, h.unbound⟩

-- ---------------------------------------------------------------------------
-- References count subscriptions
-- ---------------------------------------------------------------------------

/-- The counting invariant of a stream at work while the other streams account
for `n`: counts are subscriptions, stored counts are positive. -/
structure Counted (n : BucketKey → ℕ) (c : Server σ × StreamState) : Prop where
  wf : c.2.Wf
  count : ∀ k, refCount c.1.bucketRefs k = n k + c.2.subscribedAt k
  pos : RefsPos c.1.bucketRefs

theorem StreamState.Wf.of_bound {ss : StreamState} (h : ss.domainBound = true) : ss.Wf := by
  intro hb
  rw [h] at hb
  simp at hb

/-- After a unit change the stream is bound. -/
theorem StreamState.Wf.track {cfg : Limits} {req : UsageReports} {c c' : Server σ × StreamState}
    (ht : Track cfg req c c') : c'.2.Wf := by
  cases ht with
  | bind l hbind => exact .of_bound (bindDomain_ok hbind).2.1
  | again u hu hbound hsub => exact .of_bound hbound
  | first u id hu hid hadm hbound hsub => exact .of_bound hbound

theorem StreamState.Wf.drop {G : BucketKey → Prop} {c c' : Server σ × StreamState}
    (hd : Drop G c c') : c'.2.Wf := by
  obtain ⟨key, hgiven, hbound, hsub⟩ := hd
  exact .of_bound hbound

theorem StreamState.subscribedAt_insert {ss : StreamState} {key : BucketKey} (id : BucketId)
    (h : key ∉ ss.subscriptions) (k : BucketKey) :
    ({ ss with subscriptions := ss.subscriptions.insert key id } : StreamState).subscribedAt k =
      ss.subscribedAt k + if domainScopedKey ss.domain key = k then 1 else 0 := by
  unfold StreamState.subscribedAt
  rw [GoMap.keys_insert_of_notMem h, List.countP_cons]
  simp

theorem StreamState.subscribedAt_erase {ss : StreamState} {key : BucketKey}
    (h : key ∈ ss.subscriptions) (k : BucketKey) :
    ss.subscribedAt k =
      ({ ss with subscriptions := ss.subscriptions.erase key } : StreamState).subscribedAt k +
        if domainScopedKey ss.domain key = k then 1 else 0 := by
  unfold StreamState.subscribedAt
  rw [(GoMap.keys_perm_cons_erase h).countP_eq, List.countP_cons]
  simp

section Counted

variable {n : BucketKey → ℕ} {c c' : Server σ × StreamState}

omit [BucketStore σ] in
/-- A subscribed bucket is referenced. -/
theorem Counted.referenced (h : Counted n c) {key : BucketKey} (hsub : key ∈ c.2.subscriptions) :
    1 ≤ refCount c.1.bucketRefs (domainScopedKey c.2.domain key) := by
  have hcount := h.count (domainScopedKey c.2.domain key)
  have hone := StreamState.subscribedAt_erase hsub (domainScopedKey c.2.domain key)
  rw [if_pos rfl] at hone
  omega

theorem Counted.track {cfg : Limits} {req : UsageReports} (h : Counted n c)
    (ht : Track cfg req c c') : Counted n c' := by
  cases ht with
  | @bind srv ss ss' l hbind =>
    obtain ⟨hsubs, hbound, hkeep, -⟩ := bindDomain_ok hbind
    have hsame : ∀ k, ss'.subscribedAt k = ss.subscribedAt k := by
      intro k
      cases hb : ss.domainBound with
      | true => rw [hkeep hb]
      | false =>
        have hempty : ss.subscriptions = ∅ := h.wf hb
        rw [StreamState.subscribedAt_empty hempty,
          StreamState.subscribedAt_empty (hsubs.trans hempty)]
    refine ⟨.of_bound hbound, fun k => ?_, h.pos⟩
    show refCount srv.bucketRefs k = n k + ss'.subscribedAt k
    rw [hsame k]
    exact h.count k
  | again u _ hbound hsub => exact ⟨h.wf, h.count, h.pos⟩
  | @first srv ss u id _ _ _ hbound hsub =>
    refine ⟨.of_bound hbound, fun k => ?_, h.pos.addRef _⟩
    have hcount : refCount srv.bucketRefs k = n k + ss.subscribedAt k := h.count k
    show refCount (addRef srv.bucketRefs (domainScopedKey ss.domain u.key)) k = _
    rw [refCount_addRef, StreamState.subscribedAt_insert id hsub]
    by_cases hk : k = domainScopedKey ss.domain u.key
    · rw [if_pos hk, if_pos hk.symm, ← hk]
      push_cast
      omega
    · rw [if_neg hk, if_neg (Ne.symm hk)]
      push_cast
      omega

theorem Counted.drop {G : BucketKey → Prop} (h : Counted n c) (hd : Drop G c c') :
    Counted n c' := by
  cases hd with
  | @drop srv ss key hgiven hbound hsub =>
    refine ⟨.of_bound hbound, fun k => ?_, h.pos.dropRef _⟩
    have hcount : refCount srv.bucketRefs k = n k + ss.subscribedAt k := h.count k
    have herase := StreamState.subscribedAt_erase hsub k
    have hpos : 1 ≤ refCount srv.bucketRefs (domainScopedKey ss.domain key) := h.referenced hsub
    show refCount (dropRef srv.bucketRefs (domainScopedKey ss.domain key)).1 k = n k +
      ({ ss with subscriptions := ss.subscriptions.erase key } : StreamState).subscribedAt k
    by_cases hk : k = domainScopedKey ss.domain key
    · rw [if_pos hk.symm] at herase
      rw [← hk] at hpos ⊢
      rw [refCount_dropRef_self hpos]
      omega
    · rw [if_neg (Ne.symm hk)] at herase
      rw [refCount_dropRef_ne hk]
      omega

end Counted

-- ---------------------------------------------------------------------------
-- Whole runs
-- ---------------------------------------------------------------------------

/-- The state of an instance between calls: counts are subscriptions. -/
structure Settled (w : Pool (Server σ) Slot) : Prop where
  wf : ∀ p ∈ w.procs, p.Wf
  count : ∀ k, refCount w.shared.bucketRefs k = tally (Slot.subscribedAt k) w.procs
  pos : RefsPos w.shared.bucketRefs

omit [BucketStore σ] in
theorem freshServer_settled (store : σ) : Settled (freshServer store) where
  wf _ hp := nomatch hp
  count _ := rfl
  pos _ _ h := nomatch h

/-- What a step does to a settled instance: a stream opens, or a call runs as a
series of unit changes during which the other streams' share of the counts does
not move. The instance is settled again afterwards. -/
theorem next_effect {cfg : Limits} {w w' : Pool (Server σ) Slot} {m : Move Unit Call}
    (hw : Settled w) (hn : (callMachine σ cfg).next w m = some w') :
    Settled w' ∧
    ((∃ a, m = .spawn a ∧ w'.shared = w.shared) ∨
    ∃ i c p p' ss n mid ss', m = .act i c ∧ w.procs[i]? = some p ∧ p.stream = some ss ∧
      w'.procs = w.procs.set i p' ∧ Counted n (w.shared, ss) ∧
      ReflTransGen (Track cfg c.request) (w.shared, ss) mid ∧
      ReflTransGen (Drop (c.Drops ss)) mid (w'.shared, ss')) := by
  rcases next_cases hn with ⟨a, hm, rfl⟩ | ⟨i, c, p, srv', p', hm, hp, hs, rfl⟩
  · -- a new stream has no subscriptions
    refine ⟨⟨?_, ?_, hw.pos⟩, Or.inl ⟨a, hm, rfl⟩⟩
    · intro q hq
      rcases List.mem_append.mp hq with hq | hq
      · exact hw.wf q hq
      · rw [List.mem_singleton.mp hq]
        rintro ss ⟨⟩ -
        rfl
    · intro k
      rw [tally_append]
      exact hw.count k
  · have hmem : p ∈ w.procs := List.mem_of_getElem? hp
    have hpw := hw.wf p hmem
    obtain ⟨ss, mid, ss', hpss, htracks, hdrops, hp'⟩ := callStep_effect hpw hs
    let n : BucketKey → ℕ := fun k => tally (Slot.subscribedAt k) w.procs - ss.subscribedAt k
    have hacct : ∀ k, p.subscribedAt k = ss.subscribedAt k := by
      intro k
      unfold Slot.subscribedAt
      rw [hpss]
    have hstart : Counted n (w.shared, ss) := by
      refine ⟨hpw ss hpss, fun k => ?_, hw.pos⟩
      have hle := le_tally (Slot.subscribedAt k) hmem
      have hcount := hw.count k
      rw [hacct] at hle
      simp only [n]
      omega
    have hmid : Counted n mid := star_keeps hstart htracks fun _ _ h ht => h.track ht
    have hend : Counted n (srv', ss') := star_keeps hmid hdrops fun _ _ h hd => h.drop hd
    have hacct' : ∀ k, p'.subscribedAt k = ss'.subscribedAt k := by
      intro k
      rcases hp' with hss | ⟨rfl, hempty⟩
      · unfold Slot.subscribedAt
        rw [hss]
      · rw [StreamState.subscribedAt_empty hempty]
        rfl
    refine ⟨⟨?_, fun k => ?_, hend.pos⟩,
      Or.inr ⟨i, c, p, p', ss, n, mid, ss', hm, hp, hpss, rfl, hstart, htracks, hdrops⟩⟩
    · intro q hq
      rcases mem_set_cases hq with rfl | hq
      · rcases hp' with hss | ⟨rfl, -⟩
        · intro ss₂ hss₂
          rw [hss] at hss₂
          cases hss₂
          exact hend.wf
        · exact fun _ h => nomatch h
      · exact hw.wf q hq
    · have hset := tally_set (Slot.subscribedAt k) p' hp
      have hle := le_tally (Slot.subscribedAt k) hmem
      have hcount : refCount srv'.bucketRefs k = n k + ss'.subscribedAt k := hend.count k
      rw [hacct, hacct'] at hset
      rw [hacct] at hle
      show refCount srv'.bucketRefs k = tally (Slot.subscribedAt k) (w.procs.set i p')
      simp only [n] at hcount
      omega

end Rlqs
