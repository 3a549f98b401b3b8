import Rlqs.Server.Atomic

/-!
# RLQS server — `bucketRefs` counts the outstanding references

For any number of streams and any interleaving of their atomic steps,
`bucketRefs[k]` is the number of references on the scoped key `k` that have
been counted and not yet dropped (`bucketRefs_eq_outstanding`), no stored
entry is ever zero or negative, and between changes the count is the number of
subscriptions of registered streams.

The invariant that makes this inductive is local to each handler
(`Handler.Wf`): the ghost list `held` is, up to order, what the handler's
control point and subscription map say is outstanding (`Handler.claimed`).
The two differ from the subscription map only inside the four windows in which
a map change waits for its refcount change: after a subscription before its
increment, after an abandon before its decrement, and, from the moment
`cleanupStream` takes the stream out of `s.streams`, before each of the
remaining decrements.
-/

namespace Rlqs

open Interleave Steps

-- ---------------------------------------------------------------------------
-- The local invariant
-- ---------------------------------------------------------------------------

/-- The keys whose reference is outstanding according to the control point. -/
def Handler.claimed (p : Handler) : List BucketKey :=
  match p.pc with
  | .incRef key _ _ _ => p.ss.subscriptions.keys.erase key
  | .decRef key (.abandon _ _ _) => key :: p.ss.subscriptions.keys
  | .decRef key (.cleanup todo) => key :: todo
  | .remove _ (.cleanup todo) => todo
  | .cleanup todo => todo
  | .done => []
  | _ => p.ss.subscriptions.keys

/-- Control points at which the stream is in `s.streams`. -/
def PC.listed : PC → Bool
  | .start | .cleanup _ | .done | .decRef _ (.cleanup _) | .remove _ (.cleanup _) => false
  | _ => true

/-- Control points that are only reached with a bound domain. -/
def PC.bound : PC → Bool
  | .start | .opened | .recv | .bind _ | .closing | .unregister | .done => false
  | _ => true

/-- The usage whose subscription was just tracked and that is not recorded yet. -/
def PC.tracked : PC → Option BucketQuotaUsage
  | .incRef _ u _ _ => some u
  | .gaugeInc u _ _ => some u
  | .record u _ _ => some u
  | _ => none

structure Handler.Wf (p : Handler) : Prop where
  held_perm : p.held.Perm p.claimed
  nodup : p.held.Nodup
  registered_eq : p.registered = p.pc.listed
  bound : p.pc.bound = true → p.ss.domainBound = true
  unbound : p.ss.domainBound = false → p.ss.subscriptions = ∅
  tracked : ∀ u, p.pc.tracked = some u → bucketKeyFromProto u.bucketId ∈ p.ss.subscriptions
  incRef_key : ∀ key u us reports, p.pc = .incRef key u us reports →
    key = bucketKeyFromProto u.bucketId
  start : p.pc = .start → p.ss.domainBound = false

theorem newHandler_wf : newHandler.Wf where
  held_perm := List.Perm.refl _
  nodup := List.nodup_nil
  registered_eq := rfl
  bound h := nomatch h
  unbound _ := rfl
  tracked _ h := nomatch h
  incRef_key _ _ _ _ h := nomatch h
  start _ := rfl

section Wf

variable {p : Handler}

/-- An unbound stream holds no reference. -/
theorem Handler.Wf.held_nil (h : p.Wf) (hb : p.ss.domainBound = false) : p.held = [] := by
  have hsubs : p.ss.subscriptions.keys = [] := by rw [h.unbound hb]; rfl
  have hpc : p.pc.bound = false := by
    cases hpc : p.pc.bound with
    | false => rfl
    | true => rw [h.bound hpc] at hb; cases hb
  have hclaim : p.claimed = [] := by
    unfold Handler.claimed
    split <;> simp_all [PC.bound]
  exact (h.held_perm.trans (by rw [hclaim])).eq_nil

/-- The tracked usage's bucket is held once its increment has run. -/
theorem Handler.Wf.tracked_held (h : p.Wf) {u : BucketQuotaUsage} {us : List BucketQuotaUsage}
    {reports : List UsageReport} (hpc : p.pc = .record u us reports) :
    bucketKeyFromProto u.bucketId ∈ p.held := by
  have hmem := h.tracked u (by rw [hpc]; rfl)
  have hclaim : p.claimed = p.ss.subscriptions.keys := by
    unfold Handler.claimed
    rw [hpc]
  exact h.held_perm.mem_iff.mpr (hclaim ▸ AList.mem_keys.mp hmem)

/-- The bucket about to be released is held. -/
theorem Handler.Wf.decRef_held (h : p.Wf) {key : BucketKey} {k : After}
    (hpc : p.pc = .decRef key k) : key ∈ p.held := by
  have hclaim : key ∈ p.claimed := by
    unfold Handler.claimed
    rw [hpc]
    cases k <;> exact List.mem_cons_self
  exact h.held_perm.mem_iff.mpr hclaim

/-- The bucket about to be counted is not held yet. -/
theorem Handler.Wf.incRef_not_held (h : p.Wf) {key : BucketKey} {u : BucketQuotaUsage}
    {us : List BucketQuotaUsage} {reports : List UsageReport}
    (hpc : p.pc = .incRef key u us reports) : key ∉ p.held := by
  intro hk
  have hclaim : p.claimed = p.ss.subscriptions.keys.erase key := by
    unfold Handler.claimed
    rw [hpc]
  rw [h.held_perm.mem_iff, hclaim] at hk
  exact p.ss.subscriptions.keys_nodup.not_mem_erase hk

/-- Moving the control point without touching anything the invariant reads. -/
theorem Handler.Wf.goto (h : p.Wf) {pc : PC}
    (hclaim : ({ p with pc := pc } : Handler).claimed = p.claimed)
    (hlisted : pc.listed = p.pc.listed) (hbound : pc.bound = true → p.pc.bound = true)
    (htracked : ∀ u, pc.tracked = some u → bucketKeyFromProto u.bucketId ∈ p.ss.subscriptions)
    (hkey : ∀ key u us reports, pc = .incRef key u us reports →
      key = bucketKeyFromProto u.bucketId) (hstart : pc ≠ .start) :
    ({ p with pc := pc } : Handler).Wf where
  held_perm := by rw [hclaim]; exact h.held_perm
  nodup := h.nodup
  registered_eq := by rw [hlisted]; exact h.registered_eq
  bound hb := h.bound (hbound hb)
  unbound := h.unbound
  tracked := htracked
  incRef_key := hkey
  start hs := absurd hs hstart

end Wf

section Step

variable {σ : Type} [BucketStore σ] {cfg : Limits} {sh sh' : Shared σ} {p p' : Handler} {x : Input}

/-- Tracking one usage keeps the invariant: a new subscription waits for its
increment, everything else only moves the control point. -/
theorem trackStep_wf (hw : p.Wf) {u : BucketQuotaUsage} {us : List BucketQuotaUsage}
    {reports : List UsageReport} (hpc : p.pc = .usages (u :: us) reports) :
    (trackStep cfg p u us reports).Wf := by
  have hclaim : p.claimed = p.ss.subscriptions.keys := by
    unfold Handler.claimed
    rw [hpc]
  have hbound : p.ss.domainBound = true := hw.bound (by rw [hpc]; rfl)
  rcases trackStep_cases cfg p u us reports with
    ⟨-, ht⟩ | ht | ⟨id, -, -, hmem, ht⟩ | ⟨id, hid, -, hmem, ht⟩
  · rw [ht]
    exact hw.goto hclaim.symm (by rw [hpc]; rfl) (by simp [hpc, PC.bound]) (fun _ h => nomatch h)
      (fun _ _ _ _ h => nomatch h) (by simp)
  · rw [ht]
    exact hw.goto hclaim.symm (by rw [hpc]; rfl) (by simp [hpc, PC.bound]) (fun _ h => nomatch h)
      (fun _ _ _ _ h => nomatch h) (by simp)
  · rw [ht]
    refine hw.goto hclaim.symm (by rw [hpc]; rfl) (by simp [hpc, PC.bound]) ?_
      (fun _ _ _ _ h => nomatch h) (by simp)
    intro u' hu'
    cases hu'
    exact hmem
  · rw [ht]
    refine ⟨?_, hw.nodup, ?_, fun _ => hbound, ?_, ?_, ?_, (fun h => nomatch h)⟩
    · -- the new key is in the map but not yet counted
      show p.held.Perm ((p.ss.subscriptions.insert _ id).keys.erase _)
      rw [GoMap.keys_insert_of_notMem hmem, List.erase_cons_head, ← hclaim]
      exact hw.held_perm
    · rw [hw.registered_eq, hpc]
      rfl
    · intro hb
      rw [hbound] at hb
      simp at hb
    · intro u' hu'
      cases hu'
      exact (AList.mem_insert _).mpr (Or.inl rfl)
    · intro key u' us' reports' h
      cases h
      rfl

/-- One action of the abandon loop: an abandoned bucket leaves the map and
waits for its decrement. -/
theorem abandonStep_wf (hw : p.Wf) {v : ℕ} {a : BucketAction} {rest all : List BucketAction}
    (hpc : p.pc = .actions v (a :: rest) all) : (abandonStep p v a rest all).Wf := by
  have hclaim : p.claimed = p.ss.subscriptions.keys := by
    unfold Handler.claimed
    rw [hpc]
  have hbound : p.ss.domainBound = true := hw.bound (by rw [hpc]; rfl)
  rcases abandonStep_cases p v a rest all with ht | ⟨-, hmem, ht⟩
  · rw [ht]
    exact hw.goto hclaim.symm (by rw [hpc]; rfl) (by simp [hpc, PC.bound]) (fun _ h => nomatch h)
      (fun _ _ _ _ h => nomatch h) (by simp)
  · rw [ht]
    refine ⟨?_, hw.nodup, ?_, fun _ => hbound, ?_, (fun _ h => nomatch h),
      (fun _ _ _ _ h => nomatch h), (fun h => nomatch h)⟩
    · refine hw.held_perm.trans ?_
      rw [hclaim]
      exact GoMap.keys_perm_cons_erase hmem
    · rw [hw.registered_eq, hpc]
      rfl
    · intro hb
      rw [hbound] at hb
      simp at hb

/-- The increment: what was waiting is now held. -/
theorem incRef_wf (hw : p.Wf) {key : BucketKey} {u : BucketQuotaUsage}
    {us : List BucketQuotaUsage} {reports : List UsageReport}
    (hpc : p.pc = .incRef key u us reports) :
    ({ p with pc := .gaugeInc u us reports, held := key :: p.held } : Handler).Wf := by
  have hclaim : p.claimed = p.ss.subscriptions.keys.erase key := by
    unfold Handler.claimed
    rw [hpc]
  have hkey := hw.incRef_key key u us reports hpc
  have hmem := hw.tracked u (by rw [hpc]; rfl)
  rw [← hkey] at hmem
  refine ⟨?_, List.nodup_cons.mpr ⟨hw.incRef_not_held hpc, hw.nodup⟩, ?_, ?_, hw.unbound, ?_,
    (fun _ _ _ _ h => nomatch h), (fun h => nomatch h)⟩
  · have hperm := hw.held_perm
    rw [hclaim] at hperm
    exact (hperm.cons key).trans (List.perm_cons_erase (AList.mem_keys.mp hmem)).symm
  · rw [hw.registered_eq, hpc]
    rfl
  · intro _
    exact hw.bound (by rw [hpc]; rfl)
  · intro u' hu'
    cases hu'
    rw [← hkey]
    exact hmem

/-- The decrement: the released key is no longer held. -/
theorem decRef_wf (hw : p.Wf) {key : BucketKey} {k : After} (hpc : p.pc = .decRef key k)
    (removing : Bool) :
    ({ p with
      pc := if removing then .remove key k else k.resume
      held := p.held.erase key } : Handler).Wf := by
  have hbound : p.ss.domainBound = true := hw.bound (by rw [hpc]; rfl)
  have hreg := hw.registered_eq
  have hperm := hw.held_perm.erase key
  unfold Handler.claimed at hperm
  rw [hpc] at hreg hperm
  refine ⟨?_, hw.nodup.erase key, ?_, fun _ => hbound, hw.unbound, ?_, ?_, ?_⟩
  · cases k <;> cases removing <;> simpa [Handler.claimed, After.resume] using hperm
  · cases k <;> cases removing <;> exact hreg
  · intro u hu
    cases k <;> cases removing <;> cases hu
  · intro key' u us reports h
    cases k <;> cases removing <;> cases h
  · intro h
    cases k <;> cases removing <;> cases h

/-- The domain section: the map is unchanged and the stream is bound. -/
theorem bind_wf (hw : p.Wf) {req : UsageReports} {l : Str} {ss : StreamState}
    (hpc : p.pc = .bind req) (hb : bindDomain l p.ss req = .ok ss) :
    ({ p with ss := ss, pc := afterBind cfg req } : Handler).Wf := by
  have hclaim : p.claimed = p.ss.subscriptions.keys := by
    unfold Handler.claimed
    rw [hpc]
  have hreg := hw.registered_eq
  rw [hpc] at hreg
  obtain ⟨hsubs, hbnd, -⟩ := bindDomain_ok hb
  have hperm : p.held.Perm ss.subscriptions.keys := by
    rw [hsubs, ← hclaim]
    exact hw.held_perm
  have hunbound : ss.domainBound = false → ss.subscriptions = ∅ := by
    intro h
    rw [hbnd] at h
    simp at h
  rcases afterBind_cases cfg req with ha | ha | ha
  all_goals
    rw [ha]
    exact ⟨hperm, hw.nodup, hreg, fun _ => hbnd, hunbound, (fun _ h => nomatch h),
      (fun _ _ _ _ h => nomatch h), (fun h => nomatch h)⟩

/-- Leaving `s.streams`: from here on the whole map waits to be released. -/
theorem unregister_wf (hw : p.Wf) (hpc : p.pc = .unregister) :
    ({ p with
      registered := false
      pc := if p.ss.domainBound then .cleanup p.ss.subscriptions.keys else .done } :
      Handler).Wf := by
  have hclaim : p.claimed = p.ss.subscriptions.keys := by
    unfold Handler.claimed
    rw [hpc]
  cases hb : p.ss.domainBound with
  | true =>
    exact ⟨hclaim ▸ hw.held_perm, hw.nodup, rfl, fun _ => hb, hw.unbound, (fun _ h => nomatch h),
      (fun _ _ _ _ h => nomatch h), (fun h => nomatch h)⟩
  | false =>
    exact ⟨by rw [hw.held_nil hb]; exact List.Perm.nil, hw.nodup, rfl, (fun h => nomatch h),
      hw.unbound, (fun _ h => nomatch h), (fun _ _ _ _ h => nomatch h), (fun h => nomatch h)⟩

/-- Every step keeps the local invariant. -/
theorem handlerStep_wf (hw : p.Wf) (h : handlerStep cfg sh p x = some (sh', p')) : p'.Wf := by
  cases handlerStep_turn h with
  | start hpc =>
    have hperm := hw.held_perm
    unfold Handler.claimed at hperm
    rw [hpc] at hperm
    exact ⟨hperm, hw.nodup, rfl, (fun h => nomatch h), hw.unbound, (fun _ h => nomatch h),
      (fun _ _ _ _ h => nomatch h), (fun h => nomatch h)⟩
  | bound hpc hbind => exact bind_wf hw hpc hbind
  | usage hpc => exact trackStep_wf hw hpc
  | incRef hpc => exact incRef_wf hw hpc
  | @gaugeInc u us reports hpc =>
    -- the gauge: the usage stays tracked
    refine hw.goto (by unfold Handler.claimed; rw [hpc]) (by rw [hpc]; rfl)
      (by simp [hpc, PC.bound]) ?_ (fun _ _ _ _ h => nomatch h) (by simp)
    intro u' hu'
    cases hu'
    exact hw.tracked u (by rw [hpc]; rfl)
  | action hpc => exact abandonStep_wf hw hpc
  | decRef hpc => exact decRef_wf hw hpc _
  | @remove key k hpc =>
    cases k
    all_goals
      exact hw.goto (by unfold Handler.claimed; rw [hpc]; rfl) (by rw [hpc]; rfl)
        (by simp [hpc, PC.bound]) (fun _ h => nomatch h) (fun _ _ _ _ h => nomatch h)
        (by simp [After.resume])
  | sent hpc =>
    have hg : ({ p with pc := .recv } : Handler).Wf :=
      hw.goto (by unfold Handler.claimed; rw [hpc]) (by rw [hpc]; rfl)
        (fun h => nomatch h) (fun _ h => nomatch h) (fun _ _ _ _ h => nomatch h) (by simp)
    exact ⟨hg.held_perm, hg.nodup, hg.registered_eq, hg.bound, hg.unbound, hg.tracked,
      hg.incRef_key, hg.start⟩
  | unregister hpc => exact unregister_wf hw hpc
  | picked hpc hkey =>
    have hperm := hw.held_perm
    unfold Handler.claimed at hperm
    rw [hpc] at hperm
    exact ⟨hperm.trans (List.perm_cons_erase hkey), hw.nodup,
      by rw [hw.registered_eq, hpc]; rfl, fun _ => hw.bound (by rw [hpc]; rfl), hw.unbound,
      (fun _ h => nomatch h), (fun _ _ _ _ h => nomatch h), (fun h => nomatch h)⟩
  | _ hpc =>
    exact hw.goto (by unfold Handler.claimed; rw [hpc]) (by rw [hpc]; rfl)
      (by simp [hpc, PC.bound]) (fun _ h => nomatch h) (fun _ _ _ _ h => nomatch h) (by simp)

end Step

-- ---------------------------------------------------------------------------
-- Counting
-- ---------------------------------------------------------------------------

/-- How many of the references a stream holds are on the scoped key `k`. -/
def Handler.heldAt (k : BucketKey) (p : Handler) : ℕ :=
  p.held.countP fun key => domainScopedKey p.ss.domain key = k

/-- How many subscriptions of a registered stream have the scoped key `k`. -/
def Handler.subscribedAt (k : BucketKey) (p : Handler) : ℕ :=
  if p.registered then
    p.ss.subscriptions.keys.countP fun key => domainScopedKey p.ss.domain key = k
  else 0

/-- The handler is between a change of its subscriptions and the refcount
change that goes with it. In `handleMessage` the first is an insert or a delete
in the map; in `cleanupStream` it is `delete(s.streams, ss)`, which takes the
whole map out, and the refcount changes are the decrements of its loop. -/
def PC.between : PC → Bool
  | .incRef _ _ _ _ => true
  | .decRef _ _ => true
  | .remove _ (.cleanup todo) => !todo.isEmpty
  | .cleanup todo => !todo.isEmpty
  | _ => false

section Count

variable {σ : Type} [BucketStore σ] {cfg : Limits} {sh sh' : Shared σ} {p p' : Handler} {x : Input}

theorem Handler.heldAt_congr {q : Handler} (hheld : q.held = p.held)
    (hdom : q.ss.domain = p.ss.domain) (k : BucketKey) : q.heldAt k = p.heldAt k := by
  unfold Handler.heldAt
  rw [hheld, hdom]

/-- A quiet step moves no account: a stream that takes its domain holds nothing. -/
theorem Handler.Wf.heldAt_quiet (hw : p.Wf) (hheld : p'.held = p.held)
    (hdom : p.ss.domainBound = true → p'.ss.domain = p.ss.domain) (k : BucketKey) :
    p'.heldAt k = p.heldAt k := by
  cases hb : p.ss.domainBound with
  | true => exact Handler.heldAt_congr hheld (hdom hb) k
  | false =>
    unfold Handler.heldAt
    rw [hheld, hw.held_nil hb]
    rfl

/-- A step changes `bucketRefs[k]` by as much as it changes what its own stream
holds on `k`. -/
theorem refCount_step (hw : p.Wf) (k : BucketKey)
    (hcover : (p.heldAt k : ℤ) ≤ refCount sh.bucketRefs k)
    (h : handlerStep cfg sh p x = some (sh', p')) :
    refCount sh'.bucketRefs k + p.heldAt k = refCount sh.bucketRefs k + p'.heldAt k := by
  cases handlerStep_cases h with
  | quiet hrefs _ hheld hdom _ _ => rw [hrefs, hw.heldAt_quiet hheld hdom]
  | @counted key u us reports hpc =>
    have hacc : ({ p with pc := .gaugeInc u us reports, held := key :: p.held } : Handler).heldAt k
        = p.heldAt k + if domainScopedKey p.ss.domain key = k then 1 else 0 := by
      simp [Handler.heldAt, List.countP_cons]
    rw [hacc, refCount_addRef]
    by_cases hk : k = domainScopedKey p.ss.domain key
    · rw [if_pos hk, if_pos hk.symm, hk]
      push_cast
      omega
    · rw [if_neg hk, if_neg (Ne.symm hk)]
      push_cast
      omega
  | recorded hpc => rfl
  | @released key l hpc =>
    have hmem := hw.decRef_held hpc
    have hacc : p.heldAt k = (p.held.erase key).countP
        (fun key => domainScopedKey p.ss.domain key = k)
        + if domainScopedKey p.ss.domain key = k then 1 else 0 := by
      unfold Handler.heldAt
      rw [(List.perm_cons_erase hmem).countP_eq, List.countP_cons]
      simp
    show _ + _ = _ +
      (((p.held.erase key).countP (fun key => domainScopedKey p.ss.domain key = k) : ℕ) : ℤ)
    by_cases hk : k = domainScopedKey p.ss.domain key
    · -- the account is positive, so the count is, and the decrement takes one off
      rw [if_pos hk.symm] at hacc
      have hpos : 1 ≤ refCount sh.bucketRefs k := by omega
      have hdrop := refCount_dropRef_self hpos
      rw [← hk, hdrop]
      omega
    · rw [if_neg (Ne.symm hk)] at hacc
      rw [refCount_dropRef_ne hk]
      omega
  | removed hpc => rfl

/-- Stored counts stay positive. -/
theorem refs_pos_step (h : handlerStep cfg sh p x = some (sh', p'))
    (hpos : RefsPos sh.bucketRefs) : RefsPos sh'.bucketRefs := by
  cases handlerStep_cases h with
  | quiet hrefs _ _ _ _ _ =>
    rw [hrefs]
    exact hpos
  | counted hpc => exact hpos.addRef _
  | recorded hpc => exact hpos
  | released hpc => exact hpos.dropRef _
  | removed hpc => exact hpos

/-- Between changes, what a stream holds is what it is registered with. -/
theorem Handler.Wf.heldAt_settled (hw : p.Wf) (hb : p.pc.between = false) (k : BucketKey) :
    p.heldAt k = p.subscribedAt k := by
  have hperm := hw.held_perm
  have hcount : p.heldAt k = p.claimed.countP fun key => domainScopedKey p.ss.domain key = k :=
    hperm.countP_eq _
  rw [hcount, Handler.subscribedAt, hw.registered_eq]
  unfold Handler.claimed
  cases hpc : p.pc with
  | incRef key u us reports => rw [hpc] at hb; cases hb
  | decRef key l => rw [hpc] at hb; cases hb
  | cleanup todo =>
    rw [hpc] at hb
    cases todo with
    | nil => rfl
    | cons t ts => cases hb
  | remove key l =>
    cases l with
    | abandon v rest all => rfl
    | cleanup todo =>
      rw [hpc] at hb
      cases todo with
      | nil => rfl
      | cons t ts => cases hb
  | start =>
    rw [hw.unbound (hw.start hpc)]
    rfl
  | _ => rfl

end Count

-- ---------------------------------------------------------------------------
-- Whole runs
-- ---------------------------------------------------------------------------

section Run

variable {σ : Type} [BucketStore σ] {cfg : Limits} {store : σ} {w : Pool (Shared σ) Handler}
  {ok : Pool (Shared σ) Handler → Move Unit Input → Prop}

/-- Every handler of every run is well formed. -/
theorem run_wf (h : (serverMachine σ cfg).Run ok (newServer store) w) : ∀ p ∈ w.procs, p.Wf :=
  Run.forall_procs h (by simp [newServer]) (fun _ => newHandler_wf)
    fun _ _ _ _ _ hw hs => handlerStep_wf hw hs

/-- The counting invariant, along any run. -/
theorem run_refCount (h : (serverMachine σ cfg).Run ok (newServer store) w) (k : BucketKey) :
    refCount w.shared.bucketRefs k = tally (Handler.heldAt k) w.procs :=
  Run.balance (I := Handler.Wf) (fun sh => refCount sh.bucketRefs k) (Handler.heldAt k) h rfl
    (by simp [newServer]) (fun _ => ⟨newHandler_wf, rfl⟩)
    (fun _ _ _ _ _ hw hs => handlerStep_wf hw hs)
    fun _ _ _ _ _ hw hle hs => refCount_step hw k hle hs

/-- Stored counts are positive, along any run. -/
theorem run_refs_pos (h : (serverMachine σ cfg).Run ok (newServer store) w) :
    RefsPos w.shared.bucketRefs :=
  Run.shared_invariant h (J := fun sh => RefsPos sh.bucketRefs)
    (fun _ _ h => nomatch h) fun _ _ _ _ _ hpos hs => refs_pos_step hs hpos

/-- **`bucketRefs` counts the outstanding references.** In every reachable
state and for every scoped key `k`: the count (zero when absent) is the number
of pairs of a stream and a key of its own — each pair once — whose increment
has run and whose matching decrement has not; no stored entry is zero or
negative; and when no handler is between a change of its subscriptions and the
refcount change that goes with it, the count is the number of subscriptions of
registered streams with scoped key `k`. -/
theorem bucketRefs_eq_outstanding (cfg : Limits) (store : σ)
    (h : (serverMachine σ cfg).Run Machine.free (newServer store) w) (k : BucketKey) :
    refCount w.shared.bucketRefs k = tally (Handler.heldAt k) w.procs ∧
    (∀ p ∈ w.procs, p.held.Nodup) ∧
    (∀ n, w.shared.bucketRefs.lookup k = some n → 0 < n) ∧
    ((∀ p ∈ w.procs, p.pc.between = false) →
      refCount w.shared.bucketRefs k = tally (Handler.subscribedAt k) w.procs) := by
  have hcount := run_refCount h k
  refine ⟨hcount, fun p hp => (run_wf h p hp).nodup, run_refs_pos h k, ?_⟩
  intro hsettled
  rw [hcount, tally_congr fun p hp => (run_wf h p hp).heldAt_settled (hsettled p hp) k]

end Run

/-- Two streams that both reported the sample bucket share a count of two. -/
theorem bucketRefs_two_streams :
    ∃ w, (serverMachine MemoryStorage noLimits).Run Machine.free
        (newServer MemoryStorage.newMemoryStorage) w ∧
      (∀ p ∈ w.procs, p.pc.between = false) ∧
      refCount w.shared.bucketRefs sampleKey = 2 ∧
      refCount w.shared.bucketRefs sampleKey = tally (Handler.heldAt sampleKey) w.procs ∧
      refCount w.shared.bucketRefs sampleKey = tally (Handler.subscribedAt sampleKey) w.procs := by
  have hrun := run_exec_free (serverMachine MemoryStorage noLimits).next
    (newServer MemoryStorage.newMemoryStorage)
    ([.spawn (), .spawn ()] ++ reportMoves 0 ++ reportMoves 1) (by decide)
  obtain ⟨hheld, -, -, hsubs⟩ := bucketRefs_eq_outstanding _ _ hrun sampleKey
  exact ⟨_, hrun, by decide, by decide, hheld, hsubs (by decide)⟩

end Rlqs
