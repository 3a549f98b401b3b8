import Rlqs.Server.Exclusion

/-!
# RLQS server — the sections are atomic

`Server/Atomic.lean` and `Server/Swap.lean` take each section under a lock as one
step. Here this is proved of the goroutines with their locks: every run of
`Server/Locks.lean` has beside it one run of `World.anyNext`, a state for each of its
states and at most one step for each of its steps, in which the store, the gauges, the
engine and the responses are the same at every moment, and in which `bucketRefs` and the
fields of a stream are the same whenever no handler is inside a section that writes them
(`sections_are_atomic`).

A section takes effect at one of its operations, and the others are invisible:

* the domain section at its last check, after three writes that no other goroutine
  can see; until then the stream still counts as unbound;
* the subscription and the abandon section at the write of the map, or at the test
  that ends them;
* `s.bucketRefs[k]++` at the write, and `s.bucketRefs[k]--` at the write too: the
  entry that is about to be deleted counts as deleted;
* the loops of a push at their end.

`FineHandler.Stands` and `FinePush.Stands` say for each control point what the
goroutine has done of its section and what it knows.
-/

namespace Rlqs

open Interleave Steps Mutex

variable {σ : Type} [BucketStore σ] {cfg : Limits} {w w' : LockWorld σ} {store : σ}

-- ---------------------------------------------------------------------------
-- Inside a section
-- ---------------------------------------------------------------------------

/-- The control point of a usage before its section. -/
def Tracking.pc (t : Tracking) : PC := .usages (t.u :: t.us) t.reports

def Abandoning.pc (t : Abandoning) : PC := .actions t.v (t.a :: t.rest) t.all

/-- The handler `p` of the section model that `h` stands for, with what `h` knows
inside its section. -/
def FineHandler.Stands (cfg : Limits) (h : FineHandler) (p : Handler) : Prop :=
  match h.pc with
  | .out pc | .leave _ pc => p = h.at pc
  | .register => p = h.at .start
  | .bindTest req => p = h.at (.bind req)
  | .bindDomain req => p = h.at (.bind req) ∧ h.ss.domainBound = false ∧ req.domain ≠ []
  -- the fields are being written, and the stream still counts as unbound
  | .bindClassify req | .bindMetric _ req =>
    ∃ ss, p = { h.at (.bind req) with ss := ss } ∧ ss.domainBound = false ∧ req.domain ≠ [] ∧
      h.ss = { ss with domain := req.domain }
  | .bindMark req =>
    ∃ ss l, p = { h.at (.bind req) with ss := ss } ∧ ss.domainBound = false ∧ req.domain ≠ [] ∧
      h.ss = { ss with domain := req.domain, metricDomain := l }
  | .bindCheck false req => p = h.at (.bind req) ∧ h.ss.domainBound = true
  | .bindCheck true req =>
    ∃ ss l, p = { h.at (.bind req) with ss := ss } ∧ ss.domainBound = false ∧ req.domain ≠ [] ∧
      h.ss = { ss with domain := req.domain, metricDomain := l, domainBound := true }
  | .trackTest t => p = h.at t.pc ∧ checkUsage cfg t.u = .accept t.id
  | .trackLimit t =>
    p = h.at t.pc ∧ checkUsage cfg t.u = .accept t.id ∧ t.key ∉ h.ss.subscriptions
  | .trackPut t =>
    p = h.at t.pc ∧ checkUsage cfg t.u = .accept t.id ∧ t.key ∉ h.ss.subscriptions ∧
      ¬(0 < cfg.maxBucketsPerStream ∧
        cfg.maxBucketsPerStream ≤ (GoMap.len h.ss.subscriptions : Int))
  | .incRead key u us reports | .incWrite _ key u us reports => p = h.at (.incRef key u us reports)
  | .abandonTest t => p = h.at t.pc ∧ t.a.bucketAction = .abandon
  | .abandonDelete t =>
    p = h.at t.pc ∧ t.a.bucketAction = .abandon ∧ t.key ∈ h.ss.subscriptions
  | .decRead key k | .decWrite _ key k => p = h.at (.decRef key k)
  | .decTest n key k => p = h.at (if n - 1 ≤ 0 then .remove key k else k.resume)
  | .decDelete key k => p = h.at (.remove key k)
  | .sending v all => p = h.at (.send v all)
  | .unregister => p = h.at .unregister

/-- The references `r` that the map `refs` stands for while `h` has `s.mu`, with what
`h` has read. -/
def FineHandler.Refs (h : FineHandler) (refs r : BucketRefs) : Prop :=
  match h.pc with
  | .incWrite n key .. | .decWrite n key _ => r = refs ∧ n = refCount refs (h.scoped key)
  | .decTest n key _ =>
    refCount refs (h.scoped key) = n - 1 ∧
      r = if n - 1 ≤ 0 then refs.erase (h.scoped key) else refs
  | .decDelete key _ => r = refs.erase (h.scoped key)
  | _ => r = refs

/-- Without `s.mu` a handler has no part in the references. -/
theorem FineHandler.Refs.eq {h : FineHandler} {refs r : BucketRefs} (hr : h.Refs refs r)
    (hmu : .mu ∉ h.pc.holds h.self) : r = refs := by
  unfold FineHandler.Refs at hr
  split at hr
  case h_5 => exact hr
  all_goals
    rename_i hpc
    simp [hpc, FinePC.holds] at hmu

/-- What no section touches in passing, and the fields of the stream outside the
sections under `ss.mu`. -/
theorem FineHandler.Stands.fields {h : FineHandler} {p : Handler} (hst : h.Stands cfg p) :
    p.registered = h.registered ∧ p.held = h.held ∧ p.sent = h.sent ∧
      (.ss h.self ∉ h.pc.holds h.self → p.ss = h.ss) := by
  unfold FineHandler.Stands at hst
  split at hst
  case h_6 | h_7 =>
    rename_i hpc
    obtain ⟨ss, rfl, -⟩ := hst
    exact ⟨rfl, rfl, rfl, fun hss => absurd hss (by simp [hpc, FinePC.holds])⟩
  case h_8 | h_10 =>
    rename_i hpc
    obtain ⟨ss, l, rfl, -⟩ := hst
    exact ⟨rfl, rfl, rfl, fun hss => absurd hss (by simp [hpc, FinePC.holds])⟩
  case h_5 | h_9 | h_11 | h_12 | h_13 | h_16 | h_17 =>
    obtain ⟨rfl, -⟩ := hst
    exact ⟨rfl, rfl, rfl, fun _ => rfl⟩
  all_goals
    subst hst
    exact ⟨rfl, rfl, rfl, fun _ => rfl⟩

/-- The domain is written only while the stream counts as unbound. -/
theorem FineHandler.Stands.domain_eq {h : FineHandler} {p : Handler} (hst : h.Stands cfg p)
    (hbound : p.ss.domainBound = true) : h.ss.domain = p.ss.domain := by
  unfold FineHandler.Stands at hst
  split at hst
  case h_6 | h_7 =>
    obtain ⟨ss, rfl, hb, -⟩ := hst
    exact absurd (hb.symm.trans hbound) (by decide)
  case h_8 | h_10 =>
    obtain ⟨ss, l, rfl, hb, -⟩ := hst
    exact absurd (hb.symm.trans hbound) (by decide)
  case h_5 | h_9 | h_11 | h_12 | h_13 | h_16 | h_17 =>
    obtain ⟨rfl, -⟩ := hst
    rfl
  all_goals
    subst hst
    rfl

/-- A response sent by a push leaves the handler where it is. -/
theorem FineHandler.Stands.respond {h : FineHandler} {p : Handler} (hst : h.Stands cfg p)
    (sent : List (ℕ × List BucketAction)) :
    FineHandler.Stands cfg { h with sent := sent } { p with sent := sent } := by
  unfold FineHandler.Stands at hst ⊢
  split at hst
  case h_6 | h_7 =>
    rename_i hpc
    obtain ⟨ss, rfl, hrest⟩ := hst
    simp only [hpc]
    exact ⟨ss, rfl, hrest⟩
  case h_8 | h_10 =>
    rename_i hpc
    obtain ⟨ss, l, rfl, hrest⟩ := hst
    simp only [hpc]
    exact ⟨ss, l, rfl, hrest⟩
  case h_5 | h_9 | h_11 | h_12 | h_13 | h_16 | h_17 =>
    rename_i hpc
    obtain ⟨rfl, hrest⟩ := hst
    simp only [hpc]
    exact ⟨rfl, hrest⟩
  all_goals
    rename_i hpc
    subst hst
    simp only [hpc]
    rfl

-- ---------------------------------------------------------------------------
-- The domain section
-- ---------------------------------------------------------------------------

section Bind

variable {ss : StreamState} {req : UsageReports}

theorem bindDomain_empty (l : Str) (hb : ss.domainBound = false) (hd : req.domain = []) :
    ∃ e, bindDomain l ss req = .error e := by
  simp [bindDomain, hb, hd]

theorem bindDomain_first (l : Str) (hb : ss.domainBound = false) (hd : req.domain ≠ []) :
    bindDomain l ss req =
      .ok { ss with domain := req.domain, metricDomain := l, domainBound := true } := by
  simp [bindDomain, hb, hd]

theorem bindDomain_mismatch (l : Str) (hb : ss.domainBound = true)
    (hd : req.domain ≠ [] ∧ req.domain ≠ ss.domain) : ∃ e, bindDomain l ss req = .error e := by
  simp [bindDomain, hb, hd]

theorem bindDomain_bound (l : Str) (hb : ss.domainBound = true)
    (hd : ¬(req.domain ≠ [] ∧ req.domain ≠ ss.domain)) : bindDomain l ss req = .ok ss := by
  have hd' : req.domain ≠ [] → req.domain = ss.domain := fun h => by
    by_contra hne
    exact hd ⟨h, hne⟩
  simpa [bindDomain, hb] using hd'

end Bind

-- ---------------------------------------------------------------------------
-- The subscription section and the abandon section
-- ---------------------------------------------------------------------------

section Subscriptions

variable {p : Handler} {t : Tracking} {a : Abandoning}

theorem trackStep_known (hu : checkUsage cfg t.u = .accept t.id)
    (hkey : t.key ∈ p.ss.subscriptions) :
    trackStep cfg p t.u t.us t.reports = { p with pc := .record t.u t.us t.reports } := by
  have htrack : trackSubscription cfg p.ss t.key t.id = .ok (p.ss, true) := if_pos hkey
  unfold Tracking.key at htrack
  simp only [trackStep, hu, htrack]

theorem trackStep_full (hu : checkUsage cfg t.u = .accept t.id) (hkey : t.key ∉ p.ss.subscriptions)
    (hfull : 0 < cfg.maxBucketsPerStream ∧
      cfg.maxBucketsPerStream ≤ (GoMap.len p.ss.subscriptions : Int)) :
    trackStep cfg p t.u t.us t.reports = { p with pc := .closing } := by
  have htrack : ∃ e, trackSubscription cfg p.ss t.key t.id = .error e :=
    ⟨_, (if_neg hkey).trans (if_pos hfull)⟩
  obtain ⟨e, htrack⟩ := htrack
  unfold Tracking.key at htrack
  simp only [trackStep, hu, htrack]

theorem trackStep_put (hu : checkUsage cfg t.u = .accept t.id) (hkey : t.key ∉ p.ss.subscriptions)
    (hroom : ¬(0 < cfg.maxBucketsPerStream ∧
      cfg.maxBucketsPerStream ≤ (GoMap.len p.ss.subscriptions : Int))) :
    trackStep cfg p t.u t.us t.reports =
      { p with
        ss := { p.ss with subscriptions := p.ss.subscriptions.insert t.key t.id }
        pc := .incRef t.key t.u t.us t.reports } := by
  have htrack : trackSubscription cfg p.ss t.key t.id =
      .ok ({ p.ss with subscriptions := p.ss.subscriptions.insert t.key t.id }, false) :=
    (if_neg hkey).trans (if_neg hroom)
  unfold Tracking.key at htrack ⊢
  simp only [trackStep, hu, htrack]

theorem abandonStep_unknown (ha : a.a.bucketAction = .abandon)
    (hkey : a.key ∉ p.ss.subscriptions) :
    abandonStep p a.v a.a a.rest a.all = { p with pc := .actions a.v a.rest a.all } := by
  unfold Abandoning.key at hkey
  simp only [abandonStep, ha, if_neg hkey]

theorem abandonStep_delete (ha : a.a.bucketAction = .abandon) (hkey : a.key ∈ p.ss.subscriptions) :
    abandonStep p a.v a.a a.rest a.all =
      { p with
        ss := { p.ss with subscriptions := p.ss.subscriptions.erase a.key }
        pc := .decRef a.key (.abandon a.v a.rest a.all) } := by
  unfold Abandoning.key at hkey ⊢
  simp only [abandonStep, ha, if_pos hkey]

end Subscriptions

-- ---------------------------------------------------------------------------
-- Steps of a handler
-- ---------------------------------------------------------------------------

section Handlers

variable {sh sh' : Shared σ} {locks locks' : Lock → Bool} {h h' : FineHandler} {x : Input}
  {refs refs' r : BucketRefs} {p : Handler}

/-- The section model does nothing, or takes the step of the section. -/
inductive Follows (σ : Type) [BucketStore σ] (cfg : Limits) (r : BucketRefs) (p : Handler) :
    BucketRefs → Handler → Prop where
  | stays : Follows σ cfg r p r p
  | steps {r' : BucketRefs} {p' : Handler} (y : Input)
      (hstep : ∀ sh : Shared σ, handlerStep cfg { sh with bucketRefs := r } p y =
        some ({ sh with bucketRefs := r' }, p')) : Follows σ cfg r p r' p'

/-- A step outside the sections does not look at the references. -/
theorem outside_refs {p' : Handler} {self : ℕ} (hsec : sectionOf cfg self p.pc = none)
    (hstep : handlerStep cfg sh p x = some (sh', p')) (r : BucketRefs) :
    handlerStep cfg { sh with bucketRefs := r } p x = some ({ sh' with bucketRefs := r }, p') := by
  obtain ⟨-, -, hreg, hsent⟩ := outside_keeps hsec hstep
  have hback : { p' with registered := p.registered, sent := p.sent } = p' := by
    rw [← hreg, ← hsent]
  have hsame := outside_elsewhere hsec hstep r p.registered p.sent
  rw [hback] at hsame
  exact hsame

/-- The references after one has been dropped, in terms of the count before. -/
def dropped (refs : BucketRefs) (k : BucketKey) : BucketRefs :=
  if refCount refs k - 1 ≤ 0 then refs.erase k else refs.insert k (refCount refs k - 1)

theorem handlerStep_decRef (sh : Shared σ) (h : FineHandler) (key : BucketKey) (k : After) :
    handlerStep cfg { sh with bucketRefs := r } (h.at (.decRef key k)) .tick =
      some ({ sh with bucketRefs := dropped r (h.scoped key) },
        { h.at (if refCount r (h.scoped key) - 1 ≤ 0 then .remove key k else k.resume) with
          held := h.held.erase key }) := by
  simp only [handlerStep, FineHandler.at, FineHandler.scoped, dropRef, dropped]
  by_cases hlast : refCount r (domainScopedKey h.ss.domain key) - 1 ≤ 0
  · simp [hlast]
  · simp [hlast]

/-- An operation inside a section: what it is in the section model, and what the
handler knows after it. -/
theorem InnerTurn.simulated (σ : Type) [BucketStore σ] (ht : InnerTurn cfg refs h x refs' h')
    (hst : h.Stands cfg p) (hr : .mu ∈ h.pc.holds h.self → h.Refs refs r) :
    ∃ r' p', Follows σ cfg r p r' p' ∧ h'.Stands cfg p' ∧
      (.mu ∈ h.pc.holds h.self → h'.Refs refs' r') ∧ (.mu ∉ h.pc.holds h.self → r' = r) := by
  cases ht with
  | register hpc | unregister hpc =>
    simp only [FineHandler.Stands, FineHandler.Refs, FinePC.holds, hpc] at hst hr ⊢
    subst hst
    exact ⟨r, _, .steps .tick fun _ => rfl, rfl, hr, fun _ => rfl⟩
  -- the domain section
  | bindBound hpc hb =>
    simp only [FineHandler.Stands, FineHandler.Refs, FinePC.holds, hpc] at hst hr ⊢
    exact ⟨r, p, .stays, ⟨hst, hb⟩, hr, fun _ => rfl⟩
  | bindEmpty hpc hb hd =>
    simp only [FineHandler.Stands, FineHandler.Refs, FinePC.holds, hpc] at hst hr ⊢
    subst hst
    obtain ⟨e, he⟩ := bindDomain_empty [] hb hd
    exact ⟨r, _, .steps (.label []) fun _ => by simp only [handlerStep, FineHandler.at, he],
      rfl, hr, fun _ => rfl⟩
  | bindFirst hpc hb hd =>
    simp only [FineHandler.Stands, FineHandler.Refs, FinePC.holds, hpc] at hst hr ⊢
    exact ⟨r, p, .stays, ⟨hst, hb, hd⟩, hr, fun _ => rfl⟩
  | bindDomain hpc =>
    simp only [FineHandler.Stands, FineHandler.Refs, FinePC.holds, hpc] at hst hr ⊢
    obtain ⟨rfl, hb, hd⟩ := hst
    exact ⟨r, _, .stays, ⟨h.ss, rfl, hb, hd, rfl⟩, hr, fun _ => rfl⟩
  | bindClassify hpc =>
    simp only [FineHandler.Stands, FineHandler.Refs, FinePC.holds, hpc] at hst hr ⊢
    exact ⟨r, p, .stays, hst, hr, fun _ => rfl⟩
  | bindMetric hpc =>
    simp only [FineHandler.Stands, FineHandler.Refs, FinePC.holds, hpc] at hst hr ⊢
    obtain ⟨ss, rfl, hb, hd, hss⟩ := hst
    exact ⟨r, _, .stays, ⟨ss, _, rfl, hb, hd, by rw [hss]⟩, hr, fun _ => rfl⟩
  | bindMark hpc =>
    simp only [FineHandler.Stands, FineHandler.Refs, FinePC.holds, hpc] at hst hr ⊢
    obtain ⟨ss, l, rfl, hb, hd, hss⟩ := hst
    exact ⟨r, _, .stays, ⟨ss, l, rfl, hb, hd, by rw [hss]⟩, hr, fun _ => rfl⟩
  | @bindMismatch req fresh hpc hne =>
    cases fresh with
    | true =>
      -- the domain just written is the message's own
      simp only [FineHandler.Stands, hpc] at hst
      obtain ⟨ss, l, -, -, -, hss⟩ := hst
      exact absurd (by rw [hss]) hne.2
    | false =>
      simp only [FineHandler.Stands, FineHandler.Refs, FinePC.holds, hpc] at hst hr ⊢
      obtain ⟨rfl, hb⟩ := hst
      obtain ⟨e, he⟩ := bindDomain_mismatch [] hb hne
      exact ⟨r, _, .steps (.label []) fun _ => by simp only [handlerStep, FineHandler.at, he],
        rfl, hr, fun _ => rfl⟩
  | @bound req fresh hpc hsame =>
    cases fresh with
    | true =>
      simp only [FineHandler.Stands, FineHandler.Refs, FinePC.holds, hpc] at hst hr ⊢
      obtain ⟨ss, l, rfl, hb, hd, hss⟩ := hst
      have hok := bindDomain_first l hb hd
      refine ⟨r, _, .steps (.label l) fun _ => ?_, rfl, hr, fun _ => rfl⟩
      simp only [handlerStep, FineHandler.at, hok, ← hss]
    | false =>
      simp only [FineHandler.Stands, FineHandler.Refs, FinePC.holds, hpc] at hst hr ⊢
      obtain ⟨rfl, hb⟩ := hst
      have hok := bindDomain_bound [] hb hsame
      refine ⟨r, _, .steps (.label []) fun _ => ?_, rfl, hr, fun _ => rfl⟩
      simp only [handlerStep, FineHandler.at, hok]
  -- the subscription section
  | known hpc hkey =>
    simp only [FineHandler.Stands, FineHandler.Refs, FinePC.holds, hpc] at hst hr ⊢
    obtain ⟨rfl, hu⟩ := hst
    refine ⟨r, _, .steps .tick fun _ => ?_, rfl, hr, fun _ => rfl⟩
    exact congrArg (fun q => some (_, q)) (trackStep_known hu hkey)
  | unknown hpc hkey =>
    simp only [FineHandler.Stands, FineHandler.Refs, FinePC.holds, hpc] at hst hr ⊢
    exact ⟨r, p, .stays, ⟨hst.1, hst.2, hkey⟩, hr, fun _ => rfl⟩
  | full hpc hfull =>
    simp only [FineHandler.Stands, FineHandler.Refs, FinePC.holds, hpc] at hst hr ⊢
    obtain ⟨rfl, hu, hkey⟩ := hst
    refine ⟨r, _, .steps .tick fun _ => ?_, rfl, hr, fun _ => rfl⟩
    exact congrArg (fun q => some (_, q)) (trackStep_full hu hkey hfull)
  | room hpc hroom =>
    simp only [FineHandler.Stands, FineHandler.Refs, FinePC.holds, hpc] at hst hr ⊢
    exact ⟨r, p, .stays, ⟨hst.1, hst.2.1, hst.2.2, hroom⟩, hr, fun _ => rfl⟩
  | trackPut hpc =>
    simp only [FineHandler.Stands, FineHandler.Refs, FinePC.holds, hpc] at hst hr ⊢
    obtain ⟨rfl, hu, hkey, hroom⟩ := hst
    refine ⟨r, _, .steps .tick fun _ => ?_, rfl, hr, fun _ => rfl⟩
    exact congrArg (fun q => some (_, q)) (trackStep_put hu hkey hroom)
  -- the abandon section
  | subscribed hpc hkey =>
    simp only [FineHandler.Stands, FineHandler.Refs, FinePC.holds, hpc] at hst hr ⊢
    exact ⟨r, p, .stays, ⟨hst.1, hst.2, hkey⟩, hr, fun _ => rfl⟩
  | notSubscribed hpc hkey =>
    simp only [FineHandler.Stands, FineHandler.Refs, FinePC.holds, hpc] at hst hr ⊢
    obtain ⟨rfl, ha⟩ := hst
    refine ⟨r, _, .steps .tick fun _ => ?_, rfl, hr, fun _ => rfl⟩
    exact congrArg (fun q => some (_, q)) (abandonStep_unknown ha hkey)
  | abandonDelete hpc =>
    simp only [FineHandler.Stands, FineHandler.Refs, FinePC.holds, hpc] at hst hr ⊢
    obtain ⟨rfl, ha, hkey⟩ := hst
    refine ⟨r, _, .steps .tick fun _ => ?_, rfl, hr, fun _ => rfl⟩
    exact congrArg (fun q => some (_, q)) (abandonStep_delete ha hkey)
  -- the references
  | incRead hpc | decRead hpc =>
    simp only [FineHandler.Stands, FineHandler.Refs, FinePC.holds, hpc] at hst hr ⊢
    exact ⟨r, p, .stays, hst, fun hmu => ⟨hr hmu, rfl⟩, fun _ => rfl⟩
  | incWrite hpc =>
    simp only [FineHandler.Stands, FineHandler.Refs, FinePC.holds, hpc] at hst hr ⊢
    obtain ⟨rfl, rfl⟩ := hr (List.mem_singleton_self _)
    subst hst
    exact ⟨_, _, .steps .tick fun _ => rfl, rfl, fun _ => rfl,
      fun hmu => absurd (List.mem_singleton_self _) hmu⟩
  | @decWrite n key k hpc =>
    simp only [FineHandler.Stands, FineHandler.Refs, FinePC.holds, hpc] at hst hr ⊢
    obtain ⟨rfl, rfl⟩ := hr (List.mem_singleton_self _)
    subst hst
    refine ⟨_, _, .steps .tick fun sh => handlerStep_decRef sh h key k, rfl, fun _ => ⟨?_, ?_⟩,
      fun hmu => absurd (List.mem_singleton_self _) hmu⟩
    · show refCount (r.insert (h.scoped key) (refCount r (h.scoped key) - 1)) (h.scoped key) = _
      rw [refCount, GoMap.lookup_insert_if, if_pos rfl, Option.getD_some]
    · -- the entry that is about to be deleted counts as deleted
      simp only [dropped, FineHandler.scoped, GoMap.erase_insert_self]
      rfl
  | last hpc hlast =>
    simp only [FineHandler.Stands, FineHandler.Refs, FinePC.holds, hpc] at hst hr ⊢
    obtain ⟨hcount, rfl⟩ := hr (List.mem_singleton_self _)
    rw [hcount] at hlast
    rw [if_pos hlast] at hst ⊢
    exact ⟨_, p, .stays, hst, fun _ => rfl, fun _ => rfl⟩
  | notLast hpc hlast =>
    simp only [FineHandler.Stands, FineHandler.Refs, FinePC.holds, hpc] at hst hr ⊢
    obtain ⟨hcount, rfl⟩ := hr (List.mem_singleton_self _)
    rw [hcount] at hlast
    rw [if_neg hlast] at hst ⊢
    exact ⟨_, p, .stays, hst, fun _ => rfl, fun _ => rfl⟩
  | decDelete hpc =>
    simp only [FineHandler.Stands, FineHandler.Refs, FinePC.holds, hpc] at hst hr ⊢
    exact ⟨r, p, .stays, hst, hr, fun _ => rfl⟩
  | sent hpc =>
    simp only [FineHandler.Stands, FineHandler.Refs, FinePC.holds, hpc] at hst hr ⊢
    subst hst
    exact ⟨r, _, .steps (.sent none) fun _ => rfl, rfl, hr, fun _ => rfl⟩
  | @sendFailed v all e hpc =>
    simp only [FineHandler.Stands, FineHandler.Refs, FinePC.holds, hpc] at hst hr ⊢
    subst hst
    exact ⟨r, _, .steps (.sent (some e)) fun _ => rfl, rfl, hr, fun _ => rfl⟩

/-- At the start of a section nothing has been done of it. -/
theorem sectionOf_stands (refs : BucketRefs) {pc : PC} {l : Lock} {first : FinePC}
    (hsec : sectionOf cfg h.self pc = some (l, first)) :
    FineHandler.Stands cfg { h with pc := first } (h.at pc) ∧
      FineHandler.Refs { h with pc := first } refs refs := by
  unfold sectionOf at hsec
  split at hsec
  case h_3 =>
    split at hsec
    · rename_i hu
      cases hsec
      exact ⟨⟨rfl, hu⟩, rfl⟩
    · simp at hsec
  case h_5 =>
    split at hsec
    · rename_i ha
      cases hsec
      exact ⟨⟨rfl, ha⟩, rfl⟩
    · simp at hsec
  case h_9 => simp at hsec
  all_goals
    cases hsec
    exact ⟨rfl, rfl⟩

/-- A step of a handler: what it is in the section model, whose references are `r`. -/
theorem FineTurn.simulated (ht : FineTurn cfg sh locks h x sh' locks' h') (hst : h.Stands cfg p)
    (hr : .mu ∈ h.pc.holds h.self → h.Refs sh.bucketRefs r)
    (hfree : locks .mu = false → r = sh.bucketRefs) :
    ∃ r' p', h'.Stands cfg p' ∧
      (.mu ∈ h.pc.holds h.self ∨ .mu ∈ h'.pc.holds h'.self → h'.Refs sh'.bucketRefs r') ∧
      (.mu ∉ h.pc.holds h.self → r' = r) ∧
      ((({ sh' with bucketRefs := r' }, p') = ({ sh with bucketRefs := r }, p)) ∨
        ∃ y, handlerStep cfg { sh with bucketRefs := r } p y =
          some ({ sh' with bucketRefs := r' }, p')) := by
  cases ht with
  | @lock pc l first hpc hsec hfree' =>
    simp only [FineHandler.Stands, hpc] at hst
    subst hst
    obtain ⟨hst', hrefs⟩ := sectionOf_stands sh.bucketRefs hsec
    refine ⟨r, h.at pc, hst', fun hmu => ?_, fun _ => rfl, Or.inl rfl⟩
    rw [hpc] at hmu
    have hl : Lock.mu = l := by
      rcases hmu with hmu | hmu
      · exact absurd hmu List.not_mem_nil
      · rw [sectionOf_holds hsec] at hmu
        exact List.mem_singleton.mp hmu
    rw [hfree (hl ▸ hfree')]
    exact hrefs
  | @outside pc x sh' p' hpc hsec hstep =>
    simp only [FineHandler.Stands, hpc] at hst
    subst hst
    refine ⟨r, p', rfl, ?_, fun _ => rfl, Or.inr ⟨x, outside_refs hsec hstep r⟩⟩
    simp [hpc, FinePC.holds, Handler.fine]
  | inner hturn =>
    obtain ⟨hself, hholds⟩ := hturn.holds
    obtain ⟨r', p', hfollows, hst', hr', hsame⟩ := hturn.simulated σ hst hr
    rw [hself, hholds]
    refine ⟨r', p', hst', fun hmu => hr' (or_self_iff.mp hmu), hsame, ?_⟩
    cases hfollows with
    | stays => exact Or.inl rfl
    | steps y hstep => exact Or.inr ⟨y, hstep sh⟩
  | @unlock l pc hpc =>
    simp only [FineHandler.Stands, hpc] at hst
    refine ⟨r, p, hst, ?_, fun _ => rfl, Or.inl rfl⟩
    simp only [FineHandler.Refs, FinePC.holds, hpc] at hr ⊢
    rintro (hmu | hmu)
    · exact hr hmu
    · simp at hmu

end Handlers

-- ---------------------------------------------------------------------------
-- Steps of a push
-- ---------------------------------------------------------------------------

/-- The push `q'` of the section model that `q` stands for, with what `q` knows inside
its section. -/
def FinePush.Stands (hs : List FineHandler) (q : FinePush) (q' : Push) : Prop :=
  q'.version = q.version ∧
    match q.pc with
    | .out pc | .leave _ pc => q'.pc = pc
    | .listing got => q'.pc = .snapshot ∧ got.Nodup ∧ ∀ i ∈ got, i ∈ streamsOf hs
    | .collectTest i todo => q'.pc = .visit (i :: todo)
    | .collecting i domain got reports todo =>
      q'.pc = .visit (i :: todo) ∧ ∃ h, hs[i]? = some h ∧ h.ss.domainBound = true ∧
        GoMap.len h.ss.subscriptions ≠ 0 ∧ domain = h.ss.domain ∧ got.Nodup ∧
        (∀ key ∈ got, key ∈ h.ss.subscriptions.keys) ∧ reports = pushReports h.ss got
    | .sending i actions todo => q'.pc = .send i actions todo

section Pushes

variable {hs hs' : List FineHandler} {procs : List Handler} {locks locks' : Lock → Bool}
  {q : FinePush} {q' : Push} {pc' : FinePushPC}

/-- A push looks at the streams only under their locks. -/
theorem FinePush.Stands.congr (hst : q.Stands hs q')
    (hmu : .mu ∈ q.pc.holds → streamsOf hs' = streamsOf hs)
    (hss : ∀ i, .ss i ∈ q.pc.holds → ∀ h, hs[i]? = some h →
      ∃ h', hs'[i]? = some h' ∧ h'.ss = h.ss) : q.Stands hs' q' := by
  obtain ⟨hv, hst⟩ := hst
  refine ⟨hv, ?_⟩
  split at hst
  · exact hst
  · exact hst
  · rename_i hpc
    rw [hmu (by simp [hpc, FinePushPC.holds])]
    exact hst
  · exact hst
  · rename_i i domain got reports todo hpc
    obtain ⟨hq, h, hh, hrest⟩ := hst
    obtain ⟨h', hh', heq⟩ := hss i (by simp [hpc, FinePushPC.holds]) h hh
    exact ⟨hq, h', hh', by rw [heq]; exact hrest⟩
  · exact hst

theorem streamsOf_nodup (hs : List FineHandler) : (streamsOf hs).Nodup :=
  List.nodup_range.filter _

/-- The same streams are registered. -/
theorem streamsOf_eq (h : List.Forall₂ (FineHandler.Stands cfg) hs procs) :
    streamsOf hs = registeredStreams procs := by
  unfold streamsOf registeredStreams
  rw [h.length_eq]
  refine List.filter_congr fun i hi => ?_
  rw [List.mem_range, ← h.length_eq] at hi
  obtain ⟨p, hp, hst⟩ := forall₂_getElem? h (List.getElem?_eq_getElem hi)
  rw [hp, List.getElem?_eq_getElem hi, Option.any_some, Option.any_some, hst.fields.1]

/-- A step of a push: what it is in the section model. -/
theorem FinePushTurn.simulated (ht : FinePushTurn q.version hs locks q.pc hs' locks' pc')
    (hst : q.Stands hs q') (hstands : List.Forall₂ (FineHandler.Stands cfg) hs procs)
    (hss : ∀ i, .ss i ∈ q.pc.holds → ∀ h p, hs[i]? = some h → procs[i]? = some p → p.ss = h.ss) :
    ∃ procs' pc'', FinePush.Stands hs' { q with pc := pc' } ⟨q.version, pc''⟩ ∧
      List.Forall₂ (FineHandler.Stands cfg) hs' procs' ∧
      ((procs' = procs ∧ pc'' = q'.pc) ∨
        (∃ r x, pushStep (fun _ _ => r) q.version procs q'.pc x = some (procs', pc'')) ∨
        (procs' = procs ∧ q'.pc.afterFailure = some pc'')) := by
  obtain ⟨version, pc⟩ := q
  obtain ⟨version', pc₀⟩ := q'
  obtain ⟨rfl, hst⟩ := hst
  cases ht with
  | @lock pc l first hsec hfree =>
    obtain rfl : pc₀ = pc := hst
    refine ⟨procs, pc₀, ⟨rfl, ?_⟩, hstands, Or.inl ⟨rfl, rfl⟩⟩
    unfold pushSectionOf at hsec
    split at hsec
    · cases hsec
      exact ⟨rfl, List.nodup_nil, fun _ h => absurd h List.not_mem_nil⟩
    · cases hsec
      rfl
    · cases hsec
      rfl
    · simp at hsec
  | replied a as =>
    obtain rfl : pc₀ = _ := hst
    exact ⟨procs, _, ⟨rfl, rfl⟩, hstands, Or.inr (Or.inl ⟨.ok (a :: as), .tick, rfl⟩)⟩
  | unanswered =>
    obtain rfl : pc₀ = _ := hst
    exact ⟨procs, _, ⟨rfl, rfl⟩, hstands, Or.inr (Or.inl ⟨.ok [], .tick, rfl⟩)⟩
  | unlock => exact ⟨procs, pc₀, ⟨rfl, hst⟩, hstands, Or.inl ⟨rfl, rfl⟩⟩
  | listed hreg hnew =>
    obtain ⟨hpc, hnodup, hsub⟩ := hst
    refine ⟨procs, pc₀, ⟨rfl, hpc, ?_, ?_⟩, hstands, Or.inl ⟨rfl, rfl⟩⟩
    · exact hnodup.append (List.nodup_singleton _) (by simpa using hnew)
    · intro k hk
      rcases List.mem_append.mp hk with hk | hk
      · exact hsub k hk
      · rw [List.mem_singleton.mp hk]
        exact hreg
  | @listedAll got hall =>
    obtain ⟨rfl, hnodup, hsub⟩ : pc₀ = _ ∧ _ := hst
    have hperm : got.Perm (registeredStreams procs) := by
      rw [← streamsOf_eq hstands, List.perm_ext_iff_of_nodup hnodup (streamsOf_nodup hs)]
      exact fun i => ⟨hsub i, hall i⟩
    exact ⟨procs, _, ⟨rfl, rfl⟩, hstands,
      Or.inr (Or.inl ⟨.ok [], .streams got, by simp only [pushStep, if_pos hperm]⟩)⟩
  | @skipped i todo h hh hnone =>
    obtain rfl : pc₀ = _ := hst
    obtain ⟨p, hp, -⟩ := forall₂_getElem? hstands hh
    have heq := hss i (by simp [FinePushPC.holds]) h p hh hp
    refine ⟨procs, _, ⟨rfl, rfl⟩, hstands, Or.inr (Or.inl ⟨.ok [], .subscriptions [], ?_⟩)⟩
    simp only [pushStep, hp, heq]
    rw [if_pos (by simpa using hnone)]
  | @bound i todo h hh hb hsome =>
    exact ⟨procs, pc₀, ⟨rfl, hst, h, hh, hb, hsome, rfl, List.nodup_nil,
      fun _ h => absurd h List.not_mem_nil, rfl⟩, hstands, Or.inl ⟨rfl, rfl⟩⟩
  | @collected i domain got reports todo h key id hh hid hnew =>
    obtain ⟨hpc, h₀, hh₀, hb, hsome, hdomain, hnodup, hsub, hreports⟩ := hst
    obtain rfl : h = h₀ := Option.some.inj (hh.symm.trans hh₀)
    refine ⟨procs, pc₀, ⟨rfl, hpc, h, hh, hb, hsome, hdomain, ?_, ?_, ?_⟩, hstands,
      Or.inl ⟨rfl, rfl⟩⟩
    · exact hnodup.append (List.nodup_singleton _) (by simpa using hnew)
    · intro k hk
      rcases List.mem_append.mp hk with hk | hk
      · exact hsub k hk
      · rw [List.mem_singleton.mp hk, ← AList.mem_keys, GoMap.mem_iff_lookup]
        exact ⟨id, hid⟩
    · rw [hreports]
      simp [pushReports, hid]
  | @collectedAll i domain got reports todo h hh hall =>
    obtain ⟨rfl, h₀, hh₀, hb, hsome, rfl, hnodup, hsub, rfl⟩ := hst
    obtain rfl : h = h₀ := Option.some.inj (hh.symm.trans hh₀)
    obtain ⟨p, hp, -⟩ := forall₂_getElem? hstands hh
    have heq := hss i (by simp [FinePushPC.holds]) h p hh hp
    have hperm : got.Perm h.ss.subscriptions.keys := by
      rw [List.perm_ext_iff_of_nodup hnodup (AList.keys_nodup _)]
      exact fun key => ⟨hsub key, hall key⟩
    refine ⟨procs, _, ⟨rfl, rfl⟩, hstands, Or.inr (Or.inl ⟨.ok [], .subscriptions got, ?_⟩)⟩
    simp only [pushStep, hp, heq]
    rw [if_neg (by simp [hb, hsome]), if_pos hperm]
  | @sent i actions todo h hh =>
    obtain rfl : pc₀ = _ := hst
    obtain ⟨p, hp, hpst⟩ := forall₂_getElem? hstands hh
    refine ⟨procs.set i { p with sent := p.sent ++ [(version', actions)] }, .visit todo, ⟨rfl, rfl⟩,
      forall₂_set hstands i ?_, Or.inr (Or.inl ⟨.ok [], .tick, by simp only [pushStep, hp]⟩)⟩
    rw [hpst.fields.2.2.1]
    exact hpst.respond _
  | sendFailed =>
    obtain rfl : pc₀ = _ := hst
    exact ⟨procs, _, ⟨rfl, rfl⟩, hstands, Or.inr (Or.inr ⟨rfl, rfl⟩)⟩

end Pushes

/-- The sections' state `w` and a state `a` of the section model. -/
structure LockWorld.Sections (cfg : Limits) (w : LockWorld σ) (a : World σ) : Prop where
  shared : a.pool.shared = { w.shared with bucketRefs := a.pool.shared.bucketRefs }
  refs_held : ∀ h ∈ w.handlers, .mu ∈ h.pc.holds h.self →
    h.Refs w.shared.bucketRefs a.pool.shared.bucketRefs
  refs_free : (∀ h ∈ w.handlers, .mu ∉ h.pc.holds h.self) →
    a.pool.shared.bucketRefs = w.shared.bucketRefs
  handlers : List.Forall₂ (FineHandler.Stands cfg) w.handlers a.pool.procs
  pushes : List.Forall₂ (FinePush.Stands w.handlers) w.pushes a.pushes

-- ---------------------------------------------------------------------------
-- All goroutines
-- ---------------------------------------------------------------------------

section Worlds

variable {a : World σ} {m : LockMove}

omit [BucketStore σ] in
theorem newLockWorld_sections (cfg : Limits) (store : σ) :
    (newLockWorld store).Sections cfg (newWorld store) where
  shared := rfl
  refs_held := fun _ h => absurd h List.not_mem_nil
  refs_free := fun _ => rfl
  handlers := .nil
  pushes := .nil

omit [BucketStore σ] in
/-- While `s.mu` is free the references are the same. -/
theorem LockWorld.Sections.refs_of_free (hs : w.Sections cfg a) (hw : w.Locked)
    (hfree : w.locks .mu = false) : a.pool.shared.bucketRefs = w.shared.bucketRefs :=
  hs.refs_free fun _ hh => hw.not_held_of_free hh hfree

/-- A step of a handler. -/
theorem LockWorld.Sections.handler (hs : w.Sections cfg a) (hw : w.Locked) {i : ℕ} {x : Input}
    {h h' : FineHandler} {sh' : Shared σ} {locks' : Lock → Bool} (hh : w.handlers[i]? = some h)
    (ht : FineTurn cfg w.shared w.locks h x sh' locks' h') :
    ∃ a', Relation.ReflGen (Step (World.anyNext cfg) free) a a' ∧ LockWorld.Sections cfg
      { w with shared := sh', locks := locks', handlers := w.handlers.set i h' } a' := by
  have hmem := List.mem_of_getElem? hh
  have hi := (List.getElem?_eq_some_iff.mp hh).1
  have hh' : (w.handlers.set i h')[i]? = some h' := List.getElem?_set_self hi
  obtain ⟨p, hp, hst⟩ := forall₂_getElem? hs.handlers hh
  obtain ⟨r', p', hst', hr', hsame, hstep⟩ := ht.simulated hst (hs.refs_held h hmem)
    (hs.refs_of_free hw)
  refine ⟨⟨⟨{ sh' with bucketRefs := r' }, a.pool.procs.set i p'⟩, a.pushes⟩, ?_, ?_⟩
  · rcases hstep with hstep | ⟨y, hstep⟩
    · -- an invisible operation
      obtain ⟨hshared, rfl⟩ := Prod.mk.inj hstep
      have hset : a.pool.procs.set i p' = a.pool.procs := by
        obtain ⟨hi', rfl⟩ := List.getElem?_eq_some_iff.mp hp
        exact List.set_getElem_self hi'
      rw [hshared, ← hs.shared, hset]
    · refine Relation.ReflGen.single ⟨.handler i y, trivial, ?_⟩
      rw [← hs.shared] at hstep
      simp only [World.anyNext, hp, hstep, Option.map_some]
  · constructor
    case shared => rfl
    case refs_held =>
      intro g hg hmu
      obtain ⟨j, hj⟩ := List.getElem?_of_mem hg
      rcases getElem_set_cases hj with ⟨rfl, rfl⟩ | ⟨hji, hj⟩
      · exact hr' (Or.inr hmu)
      · -- another handler has `s.mu`, so this one does not
        have hnot := hw.not_held_by_handler hj hh hji hmu
        show g.Refs sh'.bucketRefs r'
        rw [(ht.keeps_mu hnot).1, hsame hnot]
        exact hs.refs_held g (List.mem_of_getElem? hj) hmu
    case refs_free =>
      intro hnone
      by_cases hmu : .mu ∈ h.pc.holds h.self
      · exact (hr' (Or.inl hmu)).eq (hnone h' (List.mem_of_getElem? hh'))
      · show r' = sh'.bucketRefs
        rw [(ht.keeps_mu hmu).1, hsame hmu]
        refine hs.refs_free fun g hg => ?_
        obtain ⟨j, hj⟩ := List.getElem?_of_mem hg
        by_cases hji : i = j
        · subst hji
          rw [Option.some.inj (hj.symm.trans hh)]
          exact hmu
        · refine hnone g (List.mem_of_getElem? (i := j) ?_)
          rw [List.getElem?_set_ne hji]
          exact hj
    case handlers => exact forall₂_set hs.handlers i hst'
    case pushes =>
      refine forall₂_imp_mem hs.pushes fun q hq q' hst => hst.congr (fun hmu => ?_) ?_
      · refine streamsOf_set hh (ht.keeps_mu fun hmu' => ?_).2
        exact hw.not_held_by_push hmem hq hmu' hmu
      · intro j hj g hg
        by_cases hij : i = j
        · subst hij
          obtain rfl : g = h := Option.some.inj (hg.symm.trans hh)
          refine ⟨h', hh', ht.keeps_ss fun hss => hw.not_held_by_push hmem hq hss ?_⟩
          rw [hw.self i g hh]
          exact hj
        · exact ⟨g, by rw [List.getElem?_set_ne hij]; exact hg, rfl⟩

/-- A step of a push. -/
theorem LockWorld.Sections.push (hs : w.Sections cfg a) (hw : w.Locked) {j : ℕ} {q : FinePush}
    {hs' : List FineHandler} {locks' : Lock → Bool} {pc' : FinePushPC}
    (hq : w.pushes[j]? = some q)
    (ht : FinePushTurn q.version w.handlers w.locks q.pc hs' locks' pc') :
    ∃ a', Relation.ReflGen (Step (World.anyNext cfg) free) a a' ∧ LockWorld.Sections cfg
      { w with
        handlers := hs', locks := locks', pushes := w.pushes.set j { q with pc := pc' } } a' := by
  have hmem := List.mem_of_getElem? hq
  obtain ⟨q', hq', hst⟩ := forall₂_getElem? hs.pushes hq
  have hss : ∀ i, .ss i ∈ q.pc.holds → ∀ h p, w.handlers[i]? = some h →
      a.pool.procs[i]? = some p → p.ss = h.ss := by
    intro i hi h p hh hp
    obtain ⟨p', hp', hst⟩ := forall₂_getElem? hs.handlers hh
    obtain rfl : p = p' := Option.some.inj (hp.symm.trans hp')
    refine hst.fields.2.2.2 fun hss => hw.not_held_by_push (List.mem_of_getElem? hh) hmem hss ?_
    rw [hw.self i h hh]
    exact hi
  obtain ⟨procs', pc'', hst', hstands', hstep⟩ := ht.simulated hst hs.handlers hss
  obtain ⟨version, pc₀⟩ := q'
  obtain rfl : version = q.version := hst.1
  refine ⟨⟨{ a.pool with procs := procs' }, a.pushes.set j ⟨q.version, pc''⟩⟩, ?_, ?_⟩
  · rcases hstep with ⟨rfl, rfl⟩ | ⟨r, x, hstep⟩ | ⟨rfl, hfail⟩
    · have hset : a.pushes.set j ⟨q.version, pc''⟩ = a.pushes := by
        obtain ⟨hj, hget⟩ := List.getElem?_eq_some_iff.mp hq'
        rw [← hget]
        exact List.set_getElem_self hj
      rw [hset]
    · refine Relation.ReflGen.single ⟨.push j r x, trivial, ?_⟩
      simp only [World.anyNext, hq', hstep, Option.map_some]
    · refine Relation.ReflGen.single ⟨.pushFails j, trivial, ?_⟩
      simp only [World.anyNext, hq', hfail, Option.map_some]
  · constructor
    case shared => exact hs.shared
    case refs_held =>
      intro g hg hmu
      rcases ht.handlers with rfl | ⟨i, actions, todo, h, -, hh, -, rfl⟩
      · exact hs.refs_held g hg hmu
      · rcases mem_set_cases hg with rfl | hg
        · exact hs.refs_held h (List.mem_of_getElem? hh) hmu
        · exact hs.refs_held g hg hmu
    case refs_free =>
      intro hnone
      refine hs.refs_free fun h hh hmu => ?_
      have hthread : h.thread ∈ hs'.map FineHandler.thread := by
        rw [ht.map_thread]
        exact List.mem_map_of_mem hh
      obtain ⟨g, hg, heq⟩ := List.mem_map.mp hthread
      have hholds : g.thread.holds = h.thread.holds := congrArg Thread.holds heq
      refine hnone g hg ?_
      show .mu ∈ g.thread.holds
      rw [hholds]
      exact hmu
    case handlers => exact hstands'
    case pushes =>
      refine forall₂_set
        (forall₂_imp_mem hs.pushes fun u _ u' hu => hu.congr (fun _ => ?_) ?_) j hst'
      · rcases ht.handlers with rfl | ⟨i, actions, todo, h, -, hh, -, rfl⟩
        · rfl
        · exact streamsOf_set hh rfl
      · intro k _ g hg
        rcases ht.handlers with rfl | ⟨i, actions, todo, h, -, hh, -, rfl⟩
        · exact ⟨g, hg, rfl⟩
        · by_cases hik : i = k
          · subst hik
            obtain rfl : g = h := Option.some.inj (hg.symm.trans hh)
            exact ⟨_, List.getElem?_set_self (List.getElem?_eq_some_iff.mp hh).1, rfl⟩
          · exact ⟨g, by rw [List.getElem?_set_ne hik]; exact hg, rfl⟩

/-- Every step is matched by one step or by none. -/
theorem LockWorld.Sections.turn (hs : w.Sections cfg a) (hw : w.Locked) (ht : LockTurn cfg w m w') :
    ∃ a', Relation.ReflGen (Step (World.anyNext cfg) free) a a' ∧ w'.Sections cfg a' := by
  cases ht with
  | connect =>
    refine ⟨⟨⟨a.pool.shared, a.pool.procs ++ [newHandler]⟩, a.pushes⟩,
      Relation.ReflGen.single ⟨.connect, trivial, rfl⟩, ?_⟩
    constructor
    case shared => exact hs.shared
    case refs_held =>
      intro h hh hmu
      rcases List.mem_append.mp hh with hh | hh
      · exact hs.refs_held h hh hmu
      · rw [List.mem_singleton.mp hh] at hmu
        exact absurd hmu List.not_mem_nil
    case refs_free =>
      exact fun hnone => hs.refs_free fun h hh => hnone h (List.mem_append_left _ hh)
    case handlers => exact List.rel_append hs.handlers (.cons rfl .nil)
    case pushes =>
      refine forall₂_imp_mem hs.pushes fun q _ q' hst => hst.congr
        (fun _ => streamsOf_connect _ _) fun i _ h hh => ⟨h, ?_, rfl⟩
      rw [List.getElem?_append_left (List.getElem?_eq_some_iff.mp hh).1]
      exact hh
  | swap =>
    refine ⟨⟨{ a.pool with shared := { a.pool.shared with engine := a.engine + 1 } },
      a.pushes ++ [⟨a.engine + 1, .snapshot⟩]⟩,
      Relation.ReflGen.single ⟨.swap, trivial, rfl⟩, ?_⟩
    have hengine : a.engine = w.shared.engine := by
      unfold World.engine
      rw [hs.shared]
    constructor
    case shared =>
      rw [hengine]
      exact congrArg (fun sh : Shared σ => { sh with engine := w.shared.engine + 1 }) hs.shared
    case refs_held => exact hs.refs_held
    case refs_free => exact hs.refs_free
    case handlers => exact hs.handlers
    case pushes =>
      refine List.rel_append hs.pushes (.cons ⟨?_, rfl⟩ .nil)
      show a.engine + 1 = w.shared.engine + 1
      rw [hengine]
  | handler hh hturn => exact hs.handler hw hh hturn
  | push hq hturn => exact hs.push hw hq hturn
  -- `StreamStats` only reads
  | call | stats =>
    exact ⟨a, Relation.ReflGen.refl,
      ⟨hs.shared, hs.refs_held, hs.refs_free, hs.handlers, hs.pushes⟩⟩

/-- A run of the goroutines goes on beside a run of the section model. -/
theorem LockWorld.Sections.run {b : World σ} (hs : w.Sections cfg b) (hw : w.Locked)
    (h : Run (LockWorld.next cfg) free w w') :
    ∃ b', Run (World.anyNext cfg) free b b' ∧ w'.Sections cfg b' ∧ w'.Locked := by
  refine Run.simulation (R := fun w b => w.Sections cfg b ∧ w.Locked) h ⟨hs, hw⟩ ?_
  rintro w m w' b - ⟨hs, hw⟩ - hn
  have ht := LockWorld.next_turn hn
  obtain ⟨b', hstep, hs'⟩ := hs.turn hw ht
  exact ⟨b', hstep.to_reflTransGen, hs', hw.turn ht⟩

/-- The section model shows the state `w`: the same store, gauges, engine, streams and
responses, the same references while no handler is inside a section under `s.mu`, and the
same fields of a stream while its handler is inside none under its `ss.mu`. -/
structure LockWorld.ShownBy (w : LockWorld σ) (a : World σ) : Prop where
  store : a.pool.shared.store = w.shared.store
  engine : a.pool.shared.engine = w.shared.engine
  activeStreams : a.pool.shared.activeStreams = w.shared.activeStreams
  activeBuckets : a.pool.shared.activeBuckets = w.shared.activeBuckets
  refs : (∀ h ∈ w.handlers, .mu ∉ h.pc.holds h.self) →
    a.pool.shared.bucketRefs = w.shared.bucketRefs
  streams : a.pool.procs.length = w.handlers.length
  stream : ∀ (i : ℕ) (h : FineHandler) (p : Handler), w.handlers[i]? = some h →
    a.pool.procs[i]? = some p →
    p.registered = h.registered ∧ p.held = h.held ∧ p.sent = h.sent ∧
      (.ss i ∉ h.pc.holds h.self → p.ss = h.ss) ∧ ∀ pc, h.pc = .out pc → p.pc = pc
  pushes : a.pushes.length = w.pushes.length
  push : ∀ (j : ℕ) (q : FinePush) (q' : Push), w.pushes[j]? = some q → a.pushes[j]? = some q' →
    q'.version = q.version ∧ ∀ pc, q.pc = .out pc → q'.pc = pc

omit [BucketStore σ] in
theorem LockWorld.Sections.shownBy (hs : w.Sections cfg a) (hw : w.Locked) : w.ShownBy a where
  store := by rw [hs.shared]
  engine := by rw [hs.shared]
  activeStreams := by rw [hs.shared]
  activeBuckets := by rw [hs.shared]
  refs := hs.refs_free
  streams := hs.handlers.length_eq.symm
  stream := by
    intro i h p hh hp
    obtain ⟨p', hp', hst⟩ := forall₂_getElem? hs.handlers hh
    obtain rfl : p = p' := Option.some.inj (hp.symm.trans hp')
    obtain ⟨hreg, hheld, hsent, hss⟩ := hst.fields
    refine ⟨hreg, hheld, hsent, fun hfree => hss ?_, fun pc hpc => ?_⟩
    · rw [hw.self i h hh] at hfree ⊢
      exact hfree
    · simp only [FineHandler.Stands, hpc] at hst
      rw [hst]
      rfl
  pushes := hs.pushes.length_eq.symm
  push := by
    intro j q q' hq hq'
    obtain ⟨q'', hq'', hv, hst⟩ := forall₂_getElem? hs.pushes hq
    obtain rfl : q' = q'' := Option.some.inj (hq'.symm.trans hq'')
    refine ⟨hv, fun pc hpc => ?_⟩
    simpa only [hpc] using hst

/-- **The sections are atomic.** Beside every run of the goroutines, whatever the
scheduler does between any two of their operations, there is one run in which every
section is one step: it has a state for each state of the run, and goes from each to the
next in one step or none; with the same store, gauges, engine and responses at every
moment, the same references whenever no handler is inside a section under `s.mu`, and the
same fields of a stream whenever its handler is inside none under its `ss.mu`. -/
theorem sections_are_atomic (cfg : Limits) (store : σ) {ws : List (LockWorld σ)}
    (h : List.IsChain (Step (LockWorld.next cfg) free) (newLockWorld store :: ws)) :
    ∃ as : List (World σ),
      List.IsChain (Relation.ReflGen (Step (World.anyNext cfg) free)) (newWorld store :: as) ∧
      List.Forall₂ LockWorld.ShownBy (newLockWorld store :: ws) (newWorld store :: as) := by
  obtain ⟨as, hchain, hall⟩ := chain_simulation (R := fun w a => w.Sections cfg a ∧ w.Locked)
    (S := Relation.ReflGen (Step (World.anyNext cfg) free)) h
    ⟨newLockWorld_sections cfg store, newLockWorld_locked⟩ (by
      rintro w m w' a ⟨hs, hw⟩ - hn
      have ht := LockWorld.next_turn hn
      obtain ⟨a', hstep, hs'⟩ := hs.turn hw ht
      exact ⟨a', hstep, hs', hw.turn ht⟩)
  exact ⟨as, hchain, hall.imp fun _ _ hrel => hrel.1.shownBy hrel.2⟩

/-- The run ends in the middle of the domain section, where the stream shows as it was
before. -/
theorem sections_are_atomic_contended :
    ∃ ws as, List.IsChain (Step (LockWorld.next noLimits) free)
        (newLockWorld MemoryStorage.newMemoryStorage :: ws) ∧ ws.length = 12 ∧
      (ws.getLast?.bind fun w => w.handlers[0]?.map fun h => (h.ss.domain, h.ss.domainBound)) =
        some ([100], false) ∧
      List.IsChain (Relation.ReflGen (Step (World.anyNext noLimits) free))
        (newWorld MemoryStorage.newMemoryStorage :: as) ∧
      List.Forall₂ LockWorld.ShownBy (newLockWorld MemoryStorage.newMemoryStorage :: ws)
        (newWorld MemoryStorage.newMemoryStorage :: as) := by
  have hchain := chain_states_free (LockWorld.next noLimits)
    (newLockWorld MemoryStorage.newMemoryStorage) (contended ++ [.handler 0 .tick]) (by decide)
  obtain ⟨as, has, hshown⟩ := sections_are_atomic _ _ hchain
  exact ⟨_, as, hchain, by decide, by decide, has, hshown⟩

end Worlds

end Rlqs
