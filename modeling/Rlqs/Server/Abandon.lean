import Rlqs.Server.Session

/-!
# RLQS server — are abandoned buckets unsubscribed?

A response with an `AbandonAction` for a bucket tells the client that the server
has dropped it. `handleMessage` unsubscribes the bucket and releases its
reference before it sends such a response. `pushAssignments` sends the actions
of the engine as they are: with an engine that abandons a subscribed bucket
after a swap, the client is told so and the subscription stays
(`pushed_abandon_keeps_subscription`).

* `handlerStep_touches` — a handler has nothing to do with a bucket it had nothing
  to do with before, unless it receives a report of it;
* `Handler.Clean` — the invariant of one stream and its log;
* `abandoned_unsubscribed` — in runs whose pushes abandon only buckets the stream
  has nothing to do with, a bucket that was abandoned in a response is neither
  subscribed nor counted until it is reported again; and any other abandoning
  push breaks this.
-/

namespace Rlqs

open Interleave Steps

-- ---------------------------------------------------------------------------
-- Abandoned in a response
-- ---------------------------------------------------------------------------

/-- The buckets that a response abandons. -/
def abandonKeys (actions : List BucketAction) : List BucketKey :=
  (actions.filter fun a => a.bucketAction = .abandon).map fun a => bucketKeyFromProto a.bucketId

/-- The buckets of the reports. -/
def usageKeys (us : List BucketQuotaUsage) : List BucketKey :=
  us.map fun u => bucketKeyFromProto u.bucketId

/-- The buckets that the response of a log entry abandons. -/
def StreamEvent.abandons : StreamEvent → List BucketKey
  | .sent actions => abandonKeys actions
  | _ => []

/-- The buckets that the message of a log entry reports. -/
def StreamEvent.reports : StreamEvent → List BucketKey
  | .received req => usageKeys req.bucketQuotaUsages
  | _ => []

/-- A response abandoned the bucket, and the client has not reported it since. -/
def Abandoned (b : BucketKey) (es : List StreamEvent) : Prop :=
  Since (fun e => b ∈ e.abandons) (fun e => b ∈ e.reports) es

instance abandonedDecidable (b : BucketKey) (es : List StreamEvent) : Decidable (Abandoned b es) :=
  inferInstanceAs (Decidable (Since _ _ es))

/-- Every bucket that a response abandoned is unsubscribed and its reference is
released, until it is reported again. -/
def Unsubscribed {σ : Type} (c : Observed σ) : Prop :=
  ∀ (i : ℕ) (p : Handler) (b : BucketKey), c.1.pool.procs[i]? = some p →
    Abandoned b (logOf i c.2) → b ∉ p.ss.subscriptions ∧ b ∉ p.held

-- ---------------------------------------------------------------------------
-- The condition on pushes
-- ---------------------------------------------------------------------------

/-- The buckets of the message being handled that are still to be tracked. -/
def PC.pending : PC → List BucketKey
  | .bind req => usageKeys req.bucketQuotaUsages
  | .usages us _ => usageKeys us
  | .incRef _ _ us _ => usageKeys us
  | .gaugeInc _ us _ => usageKeys us
  | .record _ us _ => usageKeys us
  | _ => []

/-- The stream is subscribed to the bucket, has counted a reference on it, or is
handling a message with a report of it. -/
def Handler.Touches (b : BucketKey) (p : Handler) : Prop :=
  b ∈ p.ss.subscriptions ∨ b ∈ p.held ∨ b ∈ p.pc.pending

instance touchesDecidable (b : BucketKey) (p : Handler) : Decidable (p.Touches b) :=
  inferInstanceAs (Decidable (_ ∨ _ ∨ _))

/-- When a push sends, the response abandons no bucket that the stream has to do
with. -/
def World.spares {σ : Type} (w : World σ) : AnyMove → Bool
  | .push j _ .tick =>
    match w.pushes[j]? with
    | some ⟨_, .send i actions _⟩ =>
      w.pool.procs[i]?.all fun p => (abandonKeys actions).all fun b => !decide (p.Touches b)
    | _ => true
  | _ => true

theorem World.spares_push {σ : Type} {w : World σ} {j i : ℕ}
    {r : Except GoError (List BucketAction)} {q : Push}
    {actions : List BucketAction} {todo : List ℕ} {p : Handler}
    (h : w.spares (.push j r .tick) = true) (hq : w.pushes[j]? = some q)
    (hpc : q.pc = .send i actions todo) (hp : w.pool.procs[i]? = some p) {b : BucketKey}
    (hb : b ∈ abandonKeys actions) : ¬ p.Touches b := by
  obtain ⟨v, pc⟩ := q
  dsimp only at hpc
  subst hpc
  simp only [World.spares, hq, hp, Option.all_some, List.all_eq_true] at h
  simpa using h b hb

-- ---------------------------------------------------------------------------
-- What a step touches
-- ---------------------------------------------------------------------------

section Step

variable {σ : Type} [BucketStore σ] {cfg : Limits} {sh sh' : Shared σ} {p p' : Handler} {x : Input}
  {b : BucketKey}

/-- A step that takes on no new bucket. -/
theorem Handler.Touches.mono (h : p'.Touches b)
    (hsubs : ∀ b, b ∈ p'.ss.subscriptions → b ∈ p.ss.subscriptions) (hheld : p'.held ⊆ p.held)
    (hpending : p'.pc.pending ⊆ p.pc.pending) : p.Touches b := by
  rcases h with hsub | hhold | hpend
  · exact Or.inl (hsubs b hsub)
  · exact Or.inr (Or.inl (hheld hhold))
  · exact Or.inr (Or.inr (hpending hpend))

/-- A step that moves the control point within the message. -/
theorem Handler.Touches.goto {pc : PC} (hpending : pc.pending ⊆ p.pc.pending)
    (h : ({ p with pc := pc } : Handler).Touches b) : p.Touches b :=
  h.mono (fun _ hsub => hsub) (List.Subset.refl _) hpending

theorem afterBind_pending (cfg : Limits) (req : UsageReports) :
    (afterBind cfg req).pending ⊆ usageKeys req.bucketQuotaUsages := by
  rcases afterBind_cases cfg req with ha | ha | ha
  · rw [ha]
    exact List.nil_subset _
  · rw [ha]
    exact List.nil_subset _
  · rw [ha]
    exact List.Subset.refl _

theorem trackStep_touches {u : BucketQuotaUsage} {us : List BucketQuotaUsage}
    {reports : List UsageReport} (hpc : p.pc = .usages (u :: us) reports)
    (h : (trackStep cfg p u us reports).Touches b) : p.Touches b := by
  have hpending : usageKeys us ⊆ p.pc.pending := by
    rw [hpc]
    exact List.subset_cons_self _ _
  rcases trackStep_cases cfg p u us reports with
    ⟨-, ht⟩ | ht | ⟨id, -, -, -, ht⟩ | ⟨id, -, -, -, ht⟩
  · rw [ht] at h
    refine h.goto ?_
    exact hpending
  · rw [ht] at h
    exact h.goto (List.nil_subset _)
  · rw [ht] at h
    refine h.goto ?_
    exact hpending
  · rw [ht] at h
    rcases h with hsub | hheld | hpend
    · rcases (AList.mem_insert _).mp hsub with rfl | hsub
      · -- the new subscription is one that was to be tracked
        refine Or.inr (Or.inr ?_)
        rw [hpc]
        exact List.mem_cons_self
      · exact Or.inl hsub
    · exact Or.inr (Or.inl hheld)
    · exact Or.inr (Or.inr (hpending hpend))

theorem abandonStep_touches {v : ℕ} {a : BucketAction} {rest all : List BucketAction}
    (h : (abandonStep p v a rest all).Touches b) : p.Touches b := by
  rcases abandonStep_cases p v a rest all with ht | ⟨-, -, ht⟩
  · rw [ht] at h
    exact h.goto (List.nil_subset _)
  · rw [ht] at h
    exact h.mono (fun _ hsub => (AList.mem_erase.mp hsub).2) (List.Subset.refl _)
      (List.nil_subset _)

/-- After a step a handler has to do with a bucket only if it had before, or if
it has just received a report of it. -/
theorem handlerStep_touches (hw : p.Wf) (h : handlerStep cfg sh p x = some (sh', p'))
    (htouch : p'.Touches b) :
    p.Touches b ∨ ∃ req, p.pc = .recv ∧ x = .recv req ∧ b ∈ usageKeys req.bucketQuotaUsages := by
  cases handlerStep_turn h with
  | start hpc =>
    exact Or.inl (htouch.mono (fun _ hsub => hsub) (List.Subset.refl _) (List.nil_subset _))
  | @recv req hpc =>
    rcases htouch with hsub | hheld | hpend
    · exact Or.inl (Or.inl hsub)
    · exact Or.inl (Or.inr (Or.inl hheld))
    · exact Or.inr ⟨req, hpc, rfl, hpend⟩
  | @bound req l ss hpc hbind =>
    left
    obtain ⟨hsubs, -⟩ := bindDomain_ok hbind
    refine htouch.mono (fun _ hsub => hsubs ▸ hsub) (List.Subset.refl _) ?_
    rw [hpc]
    exact afterBind_pending cfg req
  | usage hpc => exact Or.inl (trackStep_touches hpc htouch)
  | @incRef key u us reports hpc =>
    left
    rcases htouch with hsub | hheld | hpend
    · exact Or.inl hsub
    · rcases List.mem_cons.mp hheld with rfl | hheld
      · -- the bucket about to be counted is subscribed
        have htracked := hw.tracked u (by rw [hpc]; rfl)
        rw [← hw.incRef_key _ u us reports hpc] at htracked
        exact Or.inl htracked
      · exact Or.inr (Or.inl hheld)
    · refine Or.inr (Or.inr ?_)
      rw [hpc]
      exact hpend
  | action hpc => exact Or.inl (abandonStep_touches htouch)
  | @decRef key k hpc =>
    left
    refine htouch.mono (fun _ hsub => hsub) List.erase_subset ?_
    dsimp only
    generalize (dropRef sh.bucketRefs (domainScopedKey p.ss.domain key)).2 = removing
    cases k <;> cases removing <;> exact List.nil_subset _
  | @remove key k hpc =>
    left
    cases k with
    | abandon v rest all => exact htouch.goto (List.nil_subset _)
    | cleanup todo => exact htouch.goto (List.nil_subset _)
  | sent hpc =>
    exact Or.inl (htouch.mono (fun _ hsub => hsub) (List.Subset.refl _) (List.nil_subset _))
  | unregister hpc =>
    refine Or.inl (htouch.mono (fun _ hsub => hsub) (List.Subset.refl _) ?_)
    dsimp only
    cases p.ss.domainBound <;> exact List.nil_subset _
  | usagesDone hpc | gaugeInc hpc | record hpc =>
    -- what is pending goes on as it was
    refine Or.inl (htouch.goto ?_)
    rw [hpc]
    simp [PC.pending]
  | _ hpc => exact Or.inl (htouch.goto (List.nil_subset _))

-- ---------------------------------------------------------------------------
-- The abandon loop
-- ---------------------------------------------------------------------------

/-- The abandon loop: the actions still to be handled, and the whole response. -/
def PC.loop : PC → Option (List BucketAction × List BucketAction)
  | .actions _ todo all => some (todo, all)
  | .decRef _ (.abandon _ rest all) => some (rest, all)
  | .remove _ (.abandon _ rest all) => some (rest, all)
  | .gaugeDec _ rest all => some (rest, all)
  | .send _ all => some ([], all)
  | _ => none

/-- A bucket that the response abandons is still to be handled or unsubscribed. -/
def Handler.Looped (p : Handler) : Prop :=
  ∀ todo all, p.pc.loop = some (todo, all) → ∀ b ∈ abandonKeys all,
    b ∈ abandonKeys todo ∨ b ∉ p.ss.subscriptions

theorem Handler.looped_of_none (h : p.pc.loop = none) : p.Looped := by
  intro todo all hloop
  rw [h] at hloop
  simp at hloop

theorem Handler.looped_of_eq (hp : p.Looped) (hloop : p'.pc.loop = p.pc.loop)
    (hss : p'.ss = p.ss) : p'.Looped := by
  intro todo all h
  rw [hss]
  exact hp todo all (hloop ▸ h)

theorem abandonKeys_cons (a : BucketAction) (as : List BucketAction) :
    abandonKeys (a :: as) =
      (if a.bucketAction = .abandon then [bucketKeyFromProto a.bucketId] else []) ++
        abandonKeys as := by
  unfold abandonKeys
  by_cases ha : a.bucketAction = .abandon
  · rw [if_pos ha, List.filter_cons_of_pos (by simpa using ha)]
    rfl
  · rw [if_neg ha, List.filter_cons_of_neg (by simpa using ha)]
    rfl

/-- One action of the loop: its bucket is unsubscribed from now on. -/
theorem abandonStep_looped (hp : p.Looped) {v : ℕ} {a : BucketAction}
    {rest all : List BucketAction} (hpc : p.pc = .actions v (a :: rest) all) :
    (abandonStep p v a rest all).Looped := by
  have hold : ∀ b ∈ abandonKeys all, b ∈ abandonKeys (a :: rest) ∨ b ∉ p.ss.subscriptions :=
    hp (a :: rest) all (by rw [hpc]; rfl)
  unfold abandonStep
  split
  · rename_i ha
    rw [abandonKeys_cons, if_pos ha] at hold
    dsimp only
    split
    · intro todo all' hloop b hb
      cases hloop
      dsimp only
      rw [AList.mem_erase, not_and_or, not_not]
      rcases hold b hb with hkey | hnot
      · rcases List.mem_cons.mp hkey with hkey | hrest
        · exact Or.inr (Or.inl hkey)
        · exact Or.inl hrest
      · exact Or.inr (Or.inr hnot)
    · rename_i hmem
      intro todo all' hloop b hb
      cases hloop
      rcases hold b hb with hkey | hnot
      · rcases List.mem_cons.mp hkey with rfl | hrest
        · exact Or.inr hmem
        · exact Or.inl hrest
      · exact Or.inr hnot
  · rename_i ha
    rw [abandonKeys_cons, if_neg ha] at hold
    intro todo all' hloop
    cases hloop
    exact hold

theorem handlerStep_looped (hp : p.Looped) (h : handlerStep cfg sh p x = some (sh', p')) :
    p'.Looped := by
  cases handlerStep_turn h with
  | @bound req l ss hpc hbind =>
    apply Handler.looped_of_none
    dsimp only
    rcases afterBind_cases cfg req with ha | ha | ha
    all_goals
      rw [ha]
      rfl
  | @usage u us reports hpc =>
    rcases trackStep_cases cfg p u us reports with
      ⟨-, ht⟩ | ht | ⟨id, -, -, -, ht⟩ | ⟨id, -, -, -, ht⟩
    all_goals
      rw [ht]
      exact Handler.looped_of_none rfl
  | processed hpc =>
    intro todo all hloop b hb
    cases hloop
    exact Or.inl hb
  | actionsDone hpc => exact Handler.looped_of_eq hp (by rw [hpc]; rfl) rfl
  | action hpc => exact abandonStep_looped hp hpc
  | @decRef key k hpc =>
    generalize (dropRef sh.bucketRefs (domainScopedKey p.ss.domain key)).2 = removing
    cases k with
    | abandon v rest all =>
      refine Handler.looped_of_eq hp ?_ rfl
      rw [hpc]
      cases removing <;> rfl
    | cleanup todo =>
      apply Handler.looped_of_none
      cases removing <;> rfl
  | @remove key k hpc =>
    cases k with
    | abandon v rest all => exact Handler.looped_of_eq hp (by rw [hpc]; rfl) rfl
    | cleanup todo => exact Handler.looped_of_none rfl
  | gaugeDec hpc => exact Handler.looped_of_eq hp (by rw [hpc]; rfl) rfl
  | unregister hpc =>
    apply Handler.looped_of_none
    cases p.ss.domainBound <;> rfl
  | _ => exact Handler.looped_of_none rfl

/-- What the log entries of a step say about buckets: a message, a response, or
nothing. -/
theorem handlerEvents_cases (cfg : Limits) (p : Handler) (x : Input) :
    (∃ req, p.pc = .recv ∧ x = .recv req ∧ handlerEvents cfg p x = [.received req]) ∨
    (∃ v all, p.pc = .send v all ∧ handlerEvents cfg p x = [.sent all]) ∨
    (∀ e ∈ handlerEvents cfg p x, e.abandons = [] ∧ e.reports = []) ∧
      ∀ req, ¬ (p.pc = .recv ∧ x = .recv req) := by
  unfold handlerEvents
  split
  · rename_i req hpc
    exact Or.inl ⟨req, hpc, rfl, rfl⟩
  · rename_i u us reports hpc
    refine Or.inr (Or.inr ⟨?_, by simp [hpc]⟩)
    unfold acceptedEvents
    split
    · split
      · simp [StreamEvent.abandons, StreamEvent.reports]
      · simp
    · simp
  · rename_i u us reports hpc
    exact Or.inr (Or.inr ⟨by simp [StreamEvent.abandons, StreamEvent.reports], by simp [hpc]⟩)
  · rename_i v reports r hpc
    exact Or.inr (Or.inr ⟨by simp [StreamEvent.abandons, StreamEvent.reports], by simp [hpc]⟩)
  · rename_i v a rest all hpc
    refine Or.inr (Or.inr ⟨?_, by simp [hpc]⟩)
    split
    · simp [StreamEvent.abandons, StreamEvent.reports]
    · simp
  · rename_i key k hpc
    exact Or.inr (Or.inr ⟨by simp [StreamEvent.abandons, StreamEvent.reports], by simp [hpc]⟩)
  · rename_i v all hpc
    exact Or.inr (Or.inl ⟨v, all, hpc, rfl⟩)
  · rename_i hnotRecv _ _ _ _ _ _
    refine Or.inr (Or.inr ⟨fun e he => ?_, fun req hrecv => hnotRecv req hrecv.1 hrecv.2⟩)
    simp at he

-- ---------------------------------------------------------------------------
-- One stream
-- ---------------------------------------------------------------------------

/-- The stream has nothing to do with a bucket that was abandoned and not
reported since. -/
structure Handler.Clean (p : Handler) (es : List StreamEvent) : Prop where
  gone : ∀ b, Abandoned b es → ¬ p.Touches b
  looped : p.Looped

theorem newHandler_clean : newHandler.Clean [] where
  gone _ h := absurd h not_since_nil
  looped := Handler.looped_of_none rfl

/-- When a response is sent by the handler, the buckets it abandons are
unsubscribed and released. -/
theorem Handler.Clean.sending {es : List StreamEvent} (hc : p.Clean es) (hw : p.Wf) {v : ℕ}
    {all : List BucketAction} (hpc : p.pc = .send v all) (hb : b ∈ abandonKeys all) :
    ¬ p.Touches b := by
  have hsub : b ∉ p.ss.subscriptions := by
    rcases hc.looped [] all (by rw [hpc]; rfl) b hb with hnone | hnot
    · simp [abandonKeys] at hnone
    · exact hnot
  have hclaim : p.claimed = p.ss.subscriptions.keys := by
    unfold Handler.claimed
    rw [hpc]
  rintro (h | hheld | hpend)
  · exact hsub h
  · rw [hw.held_perm.mem_iff, hclaim] at hheld
    exact hsub (AList.mem_keys.mpr hheld)
  · rw [hpc] at hpend
    simp [PC.pending] at hpend

theorem Handler.Clean.step {es : List StreamEvent} (hc : p.Clean es) (hw : p.Wf)
    (h : handlerStep cfg sh p x = some (sh', p')) : p'.Clean (es ++ handlerEvents cfg p x) := by
  refine ⟨fun b hab htouch => ?_, handlerStep_looped hc.looped h⟩
  have hbefore := handlerStep_touches hw h htouch
  unfold Abandoned at hab
  rcases handlerEvents_cases cfg p x with ⟨req, hpc, hx, hev⟩ | ⟨v, all, hpc, hev⟩ | ⟨hquiet, hno⟩
  · rw [hev, since_append_one] at hab
    rcases hab with hab | ⟨hab, hnot⟩
    · simp [StreamEvent.abandons] at hab
    · rcases hbefore with hold | ⟨req', -, hx', hb⟩
      · exact hc.gone b hab hold
      · rw [hx] at hx'
        cases hx'
        exact hnot hb
  · rw [hev, since_append_one] at hab
    have hold : p.Touches b := by
      rcases hbefore with hold | ⟨req, hrecv, -, -⟩
      · exact hold
      · rw [hpc] at hrecv
        simp at hrecv
    rcases hab with hab | ⟨hab, -⟩
    · exact hc.sending hw hpc hab hold
    · exact hc.gone b hab hold
  · rw [since_append_of_neither fun e he => by simp [hquiet e he]] at hab
    rcases hbefore with hold | ⟨req, hrecv, hx, -⟩
    · exact hc.gone b hab hold
    · exact hno req ⟨hrecv, hx⟩

end Step

-- ---------------------------------------------------------------------------
-- Whole runs
-- ---------------------------------------------------------------------------

section Runs

variable {σ : Type} [BucketStore σ] {cfg : Limits} {store : σ} {c c' : Observed σ} {m : AnyMove}
  {i : ℕ} {p p' : Handler} {new : List StreamEvent}

theorem StreamMove.clean (h : StreamMove cfg c m i p p' new) (hok : c.1.spares m = true)
    (hw : p.Wf) (hp : c.1.pool.procs[i]? = some p) {es : List StreamEvent} (hc : p.Clean es) :
    p'.Clean (es ++ new) := by
  cases h with
  | idle =>
    rw [List.append_nil]
    exact hc
  | handled _ hstep => exact hc.step hw hstep
  | asked _ _ =>
    refine ⟨fun b hab => hc.gone b ?_, hc.looped⟩
    unfold Abandoned at hab
    rw [since_append_of_neither (by simp [StreamEvent.abandons, StreamEvent.reports])] at hab
    exact hab
  | pushed hm hq hpc =>
    refine ⟨fun b hab => ?_, hc.looped⟩
    show ¬ p.Touches b
    unfold Abandoned at hab
    rw [since_append_one] at hab
    rcases hab with hab | ⟨hab, -⟩
    · rw [hm] at hok
      exact World.spares_push hok hq hpc hp hab
    · exact hc.gone b hab

theorem run_clean
    (h : Run (World.watch cfg) (fun c m => c.1.spares m = true) (newWorld store, []) c)
    (hp : c.1.pool.procs[i]? = some p) : p.Clean (logOf i c.2) :=
  run_streams (I := Handler.Clean) h newHandler_clean
    (fun _ _ i p _ _ hf hok hp hc hmove => hmove.clean hok (hf.wf i p hp) hp hc) i p hp

/-- **Abandon means unsubscribed, where pushes spare the streams.** In every run
in which a push abandons only buckets that its stream has nothing to do with,
with any engine otherwise: in every state, a bucket that a response abandoned on
a stream is not in the stream's subscriptions and its reference has been
released, until the client reports it again. And the condition is needed: a push
that abandons a bucket the stream is subscribed to, or has counted a reference
on, makes it fail. -/
theorem abandoned_unsubscribed (cfg : Limits) (store : σ)
    (h : Run (World.watch cfg) (fun c m => c.1.spares m = true) (newWorld store, []) c) :
    Unsubscribed c ∧
    ∀ (j : ℕ) (q : Push) (i : ℕ) (actions : List BucketAction) (todo : List ℕ) (p : Handler)
      (b : BucketKey) (r : Except GoError (List BucketAction)) (c' : Observed σ),
      c.1.pushes[j]? = some q → q.pc = .send i actions todo → c.1.pool.procs[i]? = some p →
      b ∈ abandonKeys actions → (b ∈ p.ss.subscriptions ∨ b ∈ p.held) →
      World.watch cfg c (.push j r .tick) = some c' → ¬ Unsubscribed c' := by
  constructor
  · intro i p b hp hab
    have hnot := (run_clean h hp).gone b hab
    exact ⟨fun hsub => hnot (Or.inl hsub), fun hheld => hnot (Or.inr (Or.inl hheld))⟩
  · intro j q i actions todo p b r c' hq hpc hp hb hhas hn hall
    obtain ⟨hnext, hlog⟩ := observed_eq_some.mp hn
    have hlt := (List.getElem?_eq_some_iff.mp hp).1
    simp only [World.anyNext, hq, hpc, pushStep, hp, Option.map_some, Option.some.injEq] at hnext
    have hp' : c'.1.pool.procs[i]? = some { p with sent := p.sent ++ [(q.version, actions)] } := by
      rw [← hnext]
      exact List.getElem?_set_self hlt
    have hab : Abandoned b (logOf i c'.2) := by
      unfold Abandoned
      rw [hlog, logOf_append]
      simp only [World.events, hq, hpc, pushEvents, logOf_tagged]
      exact (since_append_one _ _).mpr (Or.inl hb)
    obtain ⟨hsub, hheld⟩ := hall i _ b hp' hab
    rcases hhas with hsub' | hheld'
    · exact hsub hsub'
    · exact hheld hheld'

end Runs

-- ---------------------------------------------------------------------------
-- One stream and one abandon
-- ---------------------------------------------------------------------------

/-- The response that abandons the sample bucket. -/
def abandonSample : List BucketAction := [⟨some sampleId, .abandon⟩]

/-- After a swap, the new engine abandons the subscribed bucket in the push: the
client is told, the subscription and the reference stay. -/
theorem pushed_abandon_keeps_subscription :
    ∃ c p, Run (World.watch noLimits) free (newWorld MemoryStorage.newMemoryStorage, []) c ∧
      c.1.pool.procs[0]? = some p ∧
      Abandoned (bucketKeyFromProto (some sampleId)) (logOf 0 c.2) ∧
      bucketKeyFromProto (some sampleId) ∈ p.ss.subscriptions ∧
      bucketKeyFromProto (some sampleId) ∈ p.held ∧ ¬ Unsubscribed c := by
  have hrun := run_exec_free (World.watch noLimits) (newWorld MemoryStorage.newMemoryStorage, [])
    (askMoves ++ [.handler 0 (.reply (.ok [])), .swap, .push 0 (.ok []) (.streams [0]),
      .push 0 (.ok []) (.subscriptions [bucketKeyFromProto (some sampleId)]),
      .push 0 (.ok abandonSample) .tick, .push 0 (.ok []) .tick]) (by decide)
  have hnot : ∀ c : Observed MemoryStorage, ∀ p, c.1.pool.procs[0]? = some p →
      Abandoned (bucketKeyFromProto (some sampleId)) (logOf 0 c.2) →
      bucketKeyFromProto (some sampleId) ∈ p.ss.subscriptions → ¬ Unsubscribed c :=
    fun c p hp hab hsub hall => (hall 0 p _ hp hab).1 hsub
  exact ⟨_, _, hrun, rfl, by decide, by decide, by decide, hnot _ _ rfl (by decide) (by decide)⟩

/-- The handler's own response abandons the bucket, and a later push has nothing
to abandon. -/
theorem abandoned_by_handler :
    ∃ c p, Run (World.watch noLimits) (fun c m => c.1.spares m = true)
        (newWorld MemoryStorage.newMemoryStorage, []) c ∧
      c.1.pool.procs[0]? = some p ∧
      Abandoned (bucketKeyFromProto (some sampleId)) (logOf 0 c.2) ∧
      bucketKeyFromProto (some sampleId) ∉ p.ss.subscriptions ∧
      bucketKeyFromProto (some sampleId) ∉ p.held := by
  have hrun := run_exec (World.watch noLimits) (fun c m => c.1.spares m)
    (newWorld MemoryStorage.newMemoryStorage, [])
    (askMoves ++ [.handler 0 (.reply (.ok abandonSample)), .handler 0 .tick, .handler 0 .tick,
      .handler 0 .tick, .handler 0 .tick, .handler 0 .tick, .handler 0 (.sent none), .swap,
      .push 0 (.ok []) (.streams [0]), .push 0 (.ok []) (.subscriptions [])]) (by decide)
  obtain ⟨hgone, hreleased⟩ := (abandoned_unsubscribed _ _ hrun).1 0 _
    (bucketKeyFromProto (some sampleId)) rfl (by decide)
  exact ⟨_, _, hrun, rfl, by decide, hgone, hreleased⟩

end Rlqs
