import Rlqs.Server.Observed

/-!
# RLQS server — every stream is served as if it were alone

The handlers of all streams, the pushes and the swaps of engines interleave step by
step, and they share `bucketRefs` and the store. Still, on each stream the messages
are handled as `handleMessage` says, one after the other: what the stream has become
and what its handler has answered is what a server would have made of the same
messages with no other stream connected, whatever the state of that server
(`streams_are_served_alone`). What other streams do shows in the store only.

Beside the state runs a log of what the environment told each handler: the messages,
the labels, the answers of the engine with the questions, and the results of `Send`
(`World.hear`). A message in progress is described by what is left of it (`Stage`):
the rest of `handleMessage` from here ends as the whole call from its beginning.
-/

namespace Rlqs

open Interleave Steps

variable {σ : Type} [BucketStore σ]

-- ---------------------------------------------------------------------------
-- Messages one after the other
-- ---------------------------------------------------------------------------

/-- What a handler is told: a message, the label of its domain, the reply of the engine
to a question, the result of `Send`, and that the client has hung up. -/
inductive Heard where
  | message (req : UsageReports)
  | label (l : Str)
  | answer (domain : Str) (reports : List UsageReport) (r : Except GoError (List BucketAction))
  | sent (e : Option GoError)
  | hangup

/-- A message and what the environment decided while it was handled: the label, the
question and the reply of the engine, if it was asked, and the result of `Send`, if it
was called. -/
structure Round where
  req : UsageReports
  label : Str
  answer : Option (Str × List UsageReport × Except GoError (List BucketAction))
  sent : Option (Option GoError)

/-- What a handler is told in a round. -/
def Round.heard (r : Round) : List Heard :=
  [.message r.req, .label r.label] ++ r.answer.toList.map (fun a => .answer a.1 a.2.1 a.2.2) ++
    r.sent.toList.map .sent

/-- The engine gives the reply of the round to the question of the round. -/
def Round.Agrees (r : Round) (engine : Engine) : Prop :=
  ∀ a, r.answer = some a → engine a.1 a.2.1 = a.2.2

/-- `handleMessage` in a round. -/
def Round.handle (cfg : Limits) (r : Round) (engine : Engine) (srv : Server σ)
    (ss : StreamState) : Handled σ :=
  handleMessage cfg r.label engine (r.sent.getD none) srv ss r.req

/-- A stream alone on a server: round after round, each with its engine, as long as no
call returns an error. The results are the server, the stream and the responses. -/
def serveAlone (cfg : Limits) (srv : Server σ) (ss : StreamState) :
    List (Round × Engine) → Option (Server σ × StreamState × List (List BucketAction))
  | [] => some (srv, ss, [])
  | r :: rs =>
    let h := r.1.handle cfg r.2 srv ss
    match h.err with
    | some _ => none
    | none => (serveAlone cfg h.server h.stream rs).map fun c =>
        (c.1, c.2.1, h.response.toList ++ c.2.2)

/-- A server in any state, with engines that reply as they did here, handles the rounds
without an error; `ss` and `responses` are what it makes of them. -/
def AnsweredAlone (σ : Type) [BucketStore σ] (cfg : Limits) (rounds : List Round)
    (ss : StreamState) (responses : List (List BucketAction)) : Prop :=
  ∀ (rs : List (Round × Engine)) (srv : Server σ), rs.map Prod.fst = rounds →
    (∀ r ∈ rs, r.1.Agrees r.2) →
    ∃ srv', serveAlone cfg srv newStream rs = some (srv', ss, responses)

/-- What a call makes of its stream and of its caller: the stream, the response and
the error. -/
def Handled.outcome (h : Handled σ) :
    StreamState × Option (List BucketAction) × Option HandlerError :=
  (h.stream, h.response, h.err)

/-- The part of `handleMessage` from the loop over the usages on. -/
def handleUsages (cfg : Limits) (engine : Engine) (sendErr : Option GoError) (srv : Server σ)
    (ss : StreamState) (us : List BucketQuotaUsage) (reports : List UsageReport) : Handled σ :=
  match trackUsages cfg srv ss us reports with
  | (srv, ss, .error e) => ⟨srv, ss, none, some (.status e)⟩
  | (srv, ss, .ok reports) => answer engine sendErr srv ss reports

-- ---------------------------------------------------------------------------
-- The server has no part in the outcome
-- ---------------------------------------------------------------------------

section Outcome

variable {cfg : Limits} {engine : Engine} {sendErr : Option GoError}

theorem trackUsages_stream (cfg : Limits) (srv srv' : Server σ) (ss : StreamState)
    (us : List BucketQuotaUsage) (reports : List UsageReport) :
    (trackUsages cfg srv ss us reports).2 = (trackUsages cfg srv' ss us reports).2 := by
  induction us generalizing srv srv' ss reports with
  | nil => rfl
  | cons u us ih =>
    simp only [trackUsages]
    cases checkUsage cfg u with
    | skip => exact ih srv srv' ss reports
    | reject e => rfl
    | accept id =>
      dsimp only
      cases trackSubscription cfg ss (bucketKeyFromProto (some id)) id with
      | error e => rfl
      | ok c => exact ih _ _ _ _

theorem applyAbandons_stream (srv srv' : Server σ) (ss : StreamState) (as : List BucketAction) :
    (applyAbandons srv ss as).2 = (applyAbandons srv' ss as).2 := by
  induction as generalizing srv srv' ss with
  | nil => rfl
  | cons a as ih =>
    simp only [applyAbandons]
    cases a.bucketAction with
    | abandon =>
      dsimp only
      split
      · exact ih _ _ _
      · exact ih _ _ _
    | _ => exact ih _ _ _

theorem answer_outcome (srv srv' : Server σ) (ss : StreamState) (reports : List UsageReport) :
    (answer engine sendErr srv ss reports).outcome =
      (answer engine sendErr srv' ss reports).outcome := by
  unfold answer
  cases engine ss.domain reports with
  | error e => rfl
  | ok as =>
    cases as with
    | nil => rfl
    | cons a as =>
      have hstream := applyAbandons_stream srv srv' ss (a :: as)
      dsimp only
      cases sendErr with
      | none =>
        unfold Handled.outcome
        dsimp only
        rw [hstream]
      | some e =>
        unfold Handled.outcome
        dsimp only
        rw [hstream]

theorem handleUsages_outcome (srv srv' : Server σ) (ss : StreamState)
    (us : List BucketQuotaUsage) (reports : List UsageReport) :
    (handleUsages cfg engine sendErr srv ss us reports).outcome =
      (handleUsages cfg engine sendErr srv' ss us reports).outcome := by
  have hstream := trackUsages_stream cfg srv srv' ss us reports
  unfold handleUsages
  generalize trackUsages cfg srv ss us reports = t at hstream ⊢
  generalize trackUsages cfg srv' ss us reports = t' at hstream ⊢
  obtain ⟨s, ss₁, r⟩ := t
  obtain ⟨s', ss₁', r'⟩ := t'
  obtain ⟨rfl, rfl⟩ := Prod.mk.inj hstream
  cases r with
  | error e => rfl
  | ok reports => exact answer_outcome s s' ss₁ reports

/-- One usage of the loop. -/
theorem handleUsages_cons (srv : Server σ) (ss : StreamState) (u : BucketQuotaUsage)
    (us : List BucketQuotaUsage) (reports : List UsageReport) :
    handleUsages cfg engine sendErr srv ss (u :: us) reports =
      match checkUsage cfg u with
      | .skip => handleUsages cfg engine sendErr srv ss us reports
      | .reject e => ⟨srv, ss, none, some (.status e)⟩
      | .accept id =>
        match trackSubscription cfg ss (bucketKeyFromProto (some id)) id with
        | .error e => ⟨srv, ss, none, some (.status e)⟩
        | .ok (ss, existed) =>
          handleUsages cfg engine sendErr
            ((if existed then srv
              else srv.subscribe (domainScopedKey ss.domain (bucketKeyFromProto (some id)))).record
                ss.domain u.toReport) ss us (reports ++ [u.toReport]) := by
  unfold handleUsages
  rw [trackUsages]
  cases checkUsage cfg u with
  | skip => rfl
  | reject e => rfl
  | accept id =>
    dsimp only
    cases trackSubscription cfg ss (bucketKeyFromProto (some id)) id with
    | error e => rfl
    | ok c => rfl

/-- The response and the error after the actions `all`, by the result of `Send`. -/
def sendOutcome (all : List BucketAction) :
    Option GoError → Option (List BucketAction) × Option HandlerError
  | none => (some all, none)
  | some e => (none, some (.send e))

theorem answer_actions {ss : StreamState} {reports : List UsageReport} {a : BucketAction}
    {as : List BucketAction} (h : engine ss.domain reports = .ok (a :: as)) (srv : Server σ)
    (e : Option GoError) :
    (answer engine e srv ss reports).outcome =
      ((applyAbandons srv ss (a :: as)).2, sendOutcome (a :: as) e) := by
  unfold answer
  rw [h]
  cases e <;> rfl

end Outcome

-- ---------------------------------------------------------------------------
-- A message in progress
-- ---------------------------------------------------------------------------

/-- In the loop over the usages: the rest of the call ends as the whole call. -/
def Stage.Tracking (σ : Type) [BucketStore σ] (cfg : Limits) (ss₀ ss : StreamState)
    (us : List BucketQuotaUsage) (reports : List UsageReport) (xs : List Heard) : Prop :=
  ∃ req l, xs = [.message req, .label l] ∧ ∀ engine e (srv srv' : Server σ),
    (handleMessage cfg l engine e srv ss₀ req).outcome =
      (handleUsages cfg engine e srv' ss us reports).outcome

/-- Before the reply of the engine. -/
def Stage.Answering (σ : Type) [BucketStore σ] (cfg : Limits) (ss₀ ss : StreamState)
    (reports : List UsageReport) (xs : List Heard) : Prop :=
  ∃ req l, xs = [.message req, .label l] ∧ ∀ engine e (srv srv' : Server σ),
    (handleMessage cfg l engine e srv ss₀ req).outcome = (answer engine e srv' ss reports).outcome

/-- In the abandon loop, or before `Send`. -/
def Stage.Abandoning (σ : Type) [BucketStore σ] (cfg : Limits) (ss₀ ss : StreamState)
    (todo all : List BucketAction) (xs : List Heard) : Prop :=
  ∃ req l domain reports, xs = [.message req, .label l, .answer domain reports (.ok all)] ∧
    ∀ engine : Engine, engine domain reports = .ok all → ∀ e (srv srv' : Server σ),
      (handleMessage cfg l engine e srv ss₀ req).outcome =
        ((applyAbandons srv' ss todo).2, sendOutcome all e)

/-- The stream has ended: by its client, or by a call that returned an error. -/
def Stage.Ended (σ : Type) [BucketStore σ] (cfg : Limits) (ss₀ ss : StreamState)
    (xs : List Heard) : Prop :=
  (xs = [.hangup] ∧ ss = ss₀) ∨ ∃ (r : Round) (err : HandlerError), xs = r.heard ∧
    ∀ (engine : Engine) (srv : Server σ), r.Agrees engine →
      (r.handle cfg engine srv ss₀).outcome = (ss, none, some err)

/-- A handler whose stream was `ss₀` before the message in progress, with what it was
told since. -/
def Stage (σ : Type) [BucketStore σ] (cfg : Limits) (ss₀ : StreamState) (p : Handler)
    (xs : List Heard) : Prop :=
  match p.pc with
  | .start | .opened | .recv => xs = [] ∧ p.ss = ss₀
  | .bind req => xs = [.message req] ∧ p.ss = ss₀
  | .usages us reports => Stage.Tracking σ cfg ss₀ p.ss us reports xs
  | .incRef _ u us reports | .gaugeInc u us reports | .record u us reports =>
    Stage.Tracking σ cfg ss₀ p.ss us (reports ++ [u.toReport]) xs
  | .load reports | .process _ reports => Stage.Answering σ cfg ss₀ p.ss reports xs
  | .actions _ todo all | .decRef _ (.abandon _ todo all) | .remove _ (.abandon _ todo all)
  | .gaugeDec _ todo all => Stage.Abandoning σ cfg ss₀ p.ss todo all xs
  | .send _ all => Stage.Abandoning σ cfg ss₀ p.ss [] all xs
  | .closing | .unregister | .cleanup _ | .decRef _ (.cleanup _) | .remove _ (.cleanup _) | .done =>
    Stage.Ended σ cfg ss₀ p.ss xs

/-- What a step tells the handler. -/
def Handler.hears (p : Handler) : Input → List Heard
  | .recv req => [.message req]
  | .label l => [.label l]
  | .reply r =>
    match p.pc with
    | .process _ reports => [.answer p.ss.domain reports r]
    | _ => []
  | .sent e => [.sent e]
  | .hangup => [.hangup]
  | .tick | .pick _ => []

/-- The message is handled, without an error. -/
def Finished (σ : Type) [BucketStore σ] (cfg : Limits) (ss₀ : StreamState) (p p' : Handler)
    (xs : List Heard) : Prop :=
  ∃ (r : Round) (response : Option (List BucketAction)), xs = r.heard ∧
    (∀ (engine : Engine) (srv : Server σ), r.Agrees engine →
      (r.handle cfg engine srv ss₀).outcome = (p'.ss, response, none)) ∧
    p'.pc = .recv ∧ p'.sent.map Prod.snd = p.sent.map Prod.snd ++ response.toList

section Step

variable {cfg : Limits} {sh sh' : Shared σ} {p p' : Handler} {x : Input} {ss₀ : StreamState}
  {xs : List Heard}

/-- The step that tracks a subscription. -/
theorem trackStep_stage {u : BucketQuotaUsage} {us : List BucketQuotaUsage}
    {reports : List UsageReport} (h : Stage.Tracking σ cfg ss₀ p.ss (u :: us) reports xs) :
    Stage σ cfg ss₀ (trackStep cfg p u us reports) xs := by
  obtain ⟨req, l, rfl, hrest⟩ := h
  unfold trackStep
  cases hcheck : checkUsage cfg u with
  | skip =>
    refine ⟨req, l, rfl, fun engine e srv srv' => ?_⟩
    rw [hrest engine e srv srv', handleUsages_cons, hcheck]
  | reject err =>
    refine Or.inr ⟨⟨req, l, none, none⟩, .status err, rfl, fun engine srv _ => ?_⟩
    rw [Round.handle, hrest engine _ srv srv, handleUsages_cons, hcheck]
    rfl
  | accept id =>
    dsimp only
    cases htrack : trackSubscription cfg p.ss (bucketKeyFromProto (some id)) id with
    | error err =>
      refine Or.inr ⟨⟨req, l, none, none⟩, .status err, rfl, fun engine srv _ => ?_⟩
      rw [Round.handle, hrest engine _ srv srv, handleUsages_cons, hcheck]
      dsimp only
      rw [htrack]
      rfl
    | ok c =>
      obtain ⟨ss, existed⟩ := c
      have hgoes : Stage.Tracking σ cfg ss₀ ss us (reports ++ [u.toReport])
          [.message req, .label l] := by
        refine ⟨req, l, rfl, fun engine e srv srv' => ?_⟩
        rw [hrest engine e srv srv', handleUsages_cons, hcheck]
        dsimp only
        rw [htrack]
        exact handleUsages_outcome _ _ _ _ _
      cases existed <;> exact hgoes

/-- One action of the abandon loop. -/
theorem abandonStep_stage {v : ℕ} {a : BucketAction} {rest all : List BucketAction}
    (h : Stage.Abandoning σ cfg ss₀ p.ss (a :: rest) all xs) :
    Stage σ cfg ss₀ (abandonStep p v a rest all) xs := by
  obtain ⟨req, l, domain, reports, hxs, hrest⟩ := h
  have hskip : (∀ srv : Server σ,
      applyAbandons srv p.ss (a :: rest) = applyAbandons srv p.ss rest) →
      Stage.Abandoning σ cfg ss₀ p.ss rest all xs := by
    intro hsame
    refine ⟨req, l, domain, reports, hxs, fun engine hengine e srv srv' => ?_⟩
    rw [hrest engine hengine e srv srv', hsame]
  unfold abandonStep
  cases ha : a.bucketAction with
  | abandon =>
    dsimp only
    by_cases hmem : bucketKeyFromProto a.bucketId ∈ p.ss.subscriptions
    · rw [if_pos hmem]
      refine ⟨req, l, domain, reports, hxs, fun engine hengine e srv srv' => ?_⟩
      rw [hrest engine hengine e srv srv', applyAbandons, ha]
      dsimp only
      rw [if_pos hmem, applyAbandons_stream _ srv']
    · rw [if_neg hmem]
      refine hskip fun srv => ?_
      rw [applyAbandons, ha]
      exact if_neg hmem
  | _ =>
    refine hskip fun srv => ?_
    rw [applyAbandons, ha]

/-- The domain section, and what it leads to. -/
theorem bound_stage {req : UsageReports} {l : Str} {ss : StreamState}
    (hbind : bindDomain l ss₀ req = .ok ss) :
    (Stage σ cfg ss₀ { p with ss := ss, pc := afterBind cfg req } [.message req, .label l]) ∨
      Finished σ cfg ss₀ p { p with ss := ss, pc := afterBind cfg req }
        [.message req, .label l] := by
  unfold afterBind
  by_cases hempty : req.bucketQuotaUsages = []
  · right
    refine ⟨⟨req, l, none, none⟩, none, rfl, fun engine srv _ => ?_, ?_,
      (List.append_nil _).symm⟩
    · simp only [Round.handle, handleMessage, hbind, if_pos hempty]
      rfl
    · rw [hempty]
      rfl
  · left
    rw [if_neg (by simpa using hempty)]
    cases hcount : checkReportCount cfg req with
    | some err =>
      refine Or.inr ⟨⟨req, l, none, none⟩, .status err, rfl, fun engine srv _ => ?_⟩
      simp only [Round.handle, handleMessage, hbind, if_neg hempty, hcount]
      rfl
    | none =>
      refine ⟨req, l, rfl, fun engine e srv srv' => ?_⟩
      simp only [handleMessage, hbind, if_neg hempty, hcount]
      exact handleUsages_outcome srv srv' ss _ _

theorem Handler.hears_reply {v : ℕ} {reports : List UsageReport} (hpc : p.pc = .process v reports)
    (r : Except GoError (List BucketAction)) :
    p.hears (.reply r) = [.answer p.ss.domain reports r] := by
  simp only [Handler.hears, hpc]

section Ends

variable {ss : StreamState} {reports : List UsageReport} {all : List BucketAction}

/-- The stream is not bound. -/
theorem Stage.Ended.of_bind {req : UsageReports} {l : Str} {err : Status}
    (hbind : bindDomain l ss₀ req = .error err) :
    Stage.Ended σ cfg ss₀ ss₀ [.message req, .label l] := by
  refine Or.inr ⟨⟨req, l, none, none⟩, .status err, rfl, fun engine srv _ => ?_⟩
  simp only [Round.handle, handleMessage, hbind]
  rfl

/-- The engine returns an error. -/
theorem Stage.Answering.failed (h : Stage.Answering σ cfg ss₀ ss reports xs) (e : GoError) :
    Stage.Ended σ cfg ss₀ ss (xs ++ [.answer ss.domain reports (.error e)]) := by
  obtain ⟨req, l, rfl, hrest⟩ := h
  refine Or.inr ⟨⟨req, l, some (ss.domain, reports, .error e), none⟩,
    .status ⟨.internal, "quota engine error: %v", [.err e]⟩, rfl, fun engine srv hagrees => ?_⟩
  have hreply : engine ss.domain reports = .error e := hagrees _ rfl
  rw [Round.handle, hrest engine _ srv srv, answer, hreply]
  rfl

/-- The engine has nothing to say. -/
theorem Stage.Answering.silent (h : Stage.Answering σ cfg ss₀ p.ss reports xs) :
    Finished σ cfg ss₀ p { p with pc := .recv }
      (xs ++ [.answer p.ss.domain reports (.ok [])]) := by
  obtain ⟨req, l, rfl, hrest⟩ := h
  refine ⟨⟨req, l, some (p.ss.domain, reports, .ok []), none⟩, none, rfl,
    fun engine srv hagrees => ?_, rfl, (List.append_nil _).symm⟩
  have hreply : engine p.ss.domain reports = .ok [] := hagrees _ rfl
  rw [Round.handle, hrest engine _ srv srv, answer, hreply]
  rfl

/-- The engine replies with actions. -/
theorem Stage.Answering.replied (h : Stage.Answering σ cfg ss₀ ss reports xs) (a : BucketAction)
    (as : List BucketAction) :
    Stage.Abandoning σ cfg ss₀ ss (a :: as) (a :: as)
      (xs ++ [.answer ss.domain reports (.ok (a :: as))]) := by
  obtain ⟨req, l, rfl, hrest⟩ := h
  refine ⟨req, l, _, _, rfl, fun engine hengine e srv srv' => ?_⟩
  rw [hrest engine e srv srv', answer_actions hengine]

/-- The response is sent. -/
theorem Stage.Abandoning.sent (h : Stage.Abandoning σ cfg ss₀ p.ss [] all xs) (v : ℕ) :
    Finished σ cfg ss₀ p { p with pc := .recv, sent := p.sent ++ [(v, all)] }
      (xs ++ [.sent none]) := by
  obtain ⟨req, l, domain, reports, rfl, hrest⟩ := h
  refine ⟨⟨req, l, some (domain, reports, .ok all), some none⟩, some all, rfl,
    fun engine srv hagrees => ?_, rfl, ?_⟩
  · rw [Round.handle, hrest engine (hagrees _ rfl) _ srv srv]
    rfl
  · rw [List.map_append]
    rfl

/-- `Send` returns an error. -/
theorem Stage.Abandoning.sendFailed (h : Stage.Abandoning σ cfg ss₀ ss [] all xs) (e : GoError) :
    Stage.Ended σ cfg ss₀ ss (xs ++ [.sent (some e)]) := by
  obtain ⟨req, l, domain, reports, rfl, hrest⟩ := h
  refine Or.inr ⟨⟨req, l, some (domain, reports, .ok all), some (some e)⟩, .send e, rfl,
    fun engine srv hagrees => ?_⟩
  rw [Round.handle, hrest engine (hagrees _ rfl) _ srv srv]
  rfl

end Ends

/-- One step: the message in progress goes on, or it is handled. -/
theorem Stage.step (hst : Stage σ cfg ss₀ p xs) (h : handlerStep cfg sh p x = some (sh', p')) :
    (Stage σ cfg ss₀ p' (xs ++ p.hears x) ∧ p'.sent = p.sent) ∨
      Finished σ cfg ss₀ p p' (xs ++ p.hears x) := by
  -- most steps tell nothing and leave the rest of the call as it is
  have htick : ∀ ys : List Heard, ys ++ p.hears .tick = ys := List.append_nil
  unfold Stage at hst
  cases handlerStep_turn h with
  | start hpc | opened hpc =>
    rw [hpc] at hst
    exact Or.inl ⟨⟨by rw [hst.1]; rfl, hst.2⟩, rfl⟩
  | recv hpc =>
    rw [hpc] at hst
    exact Or.inl ⟨⟨by rw [hst.1]; rfl, hst.2⟩, rfl⟩
  | hangup hpc =>
    rw [hpc] at hst
    exact Or.inl ⟨Or.inl ⟨by rw [hst.1]; rfl, hst.2⟩, rfl⟩
  | @bindFailed req l err hpc hbind =>
    rw [hpc] at hst
    obtain ⟨rfl, rfl⟩ := hst
    exact Or.inl ⟨Stage.Ended.of_bind hbind, rfl⟩
  | @bound req l ss hpc hbind =>
    rw [hpc] at hst
    obtain ⟨rfl, hss⟩ := hst
    rw [hss] at hbind
    exact (bound_stage hbind).imp_left fun hstage => ⟨hstage, rfl⟩
  | usagesDone hpc | incRef hpc | gaugeInc hpc | record hpc | load hpc | actionsDone hpc
  | gaugeDec hpc | closing hpc | cleanupDone hpc =>
    rw [hpc] at hst
    rw [htick]
    exact Or.inl ⟨hst, rfl⟩
  | @usage u us reports hpc =>
    rw [hpc] at hst
    rw [htick]
    refine Or.inl ⟨trackStep_stage hst, ?_⟩
    rcases trackStep_cases cfg p u us reports with
      ⟨-, ht⟩ | ht | ⟨id, -, -, -, ht⟩ | ⟨id, -, -, -, ht⟩ <;> rw [ht]
  | processFailed hpc =>
    rw [hpc] at hst
    rw [Handler.hears_reply hpc]
    exact Or.inl ⟨hst.failed _, rfl⟩
  | processedNone hpc =>
    rw [hpc] at hst
    rw [Handler.hears_reply hpc]
    exact Or.inr hst.silent
  | processed hpc =>
    rw [hpc] at hst
    rw [Handler.hears_reply hpc]
    exact Or.inl ⟨hst.replied _ _, rfl⟩
  | @action v a rest all hpc =>
    rw [hpc] at hst
    rw [htick]
    refine Or.inl ⟨abandonStep_stage hst, ?_⟩
    rcases abandonStep_cases p v a rest all with ht | ⟨-, -, ht⟩ <;> rw [ht]
  | @decRef key k hpc =>
    rw [hpc] at hst
    rw [htick]
    refine Or.inl ⟨?_, rfl⟩
    unfold Stage
    dsimp only
    by_cases hlast : (dropRef sh.bucketRefs (domainScopedKey p.ss.domain key)).2 = true
    · rw [if_pos hlast]
      cases k <;> exact hst
    · rw [if_neg hlast]
      cases k <;> exact hst
  | @remove key k hpc =>
    rw [hpc] at hst
    rw [htick]
    refine Or.inl ⟨?_, rfl⟩
    cases k <;> exact hst
  | sent hpc =>
    rw [hpc] at hst
    exact Or.inr (hst.sent _)
  | sendFailed hpc =>
    rw [hpc] at hst
    exact Or.inl ⟨hst.sendFailed _, rfl⟩
  | unregister hpc =>
    rw [hpc] at hst
    rw [htick]
    refine Or.inl ⟨?_, rfl⟩
    unfold Stage
    dsimp only
    by_cases hbound : p.ss.domainBound = true
    · rw [if_pos hbound]
      exact hst
    · rw [if_neg hbound]
      exact hst
  | picked hpc hkey =>
    rw [hpc] at hst
    rw [show p.hears (.pick _) = [] from rfl, List.append_nil]
    exact Or.inl ⟨hst, rfl⟩

end Step

-- ---------------------------------------------------------------------------
-- Whole runs
-- ---------------------------------------------------------------------------

/-- A round after others. -/
theorem serveAlone_append_one {cfg : Limits} {rs : List (Round × Engine)} {r : Round × Engine}
    {srv srv₁ : Server σ} {ss ss₁ ss₂ : StreamState} {out : List (List BucketAction)}
    {response : Option (List BucketAction)}
    (h : serveAlone cfg srv ss rs = some (srv₁, ss₁, out))
    (hr : (r.1.handle cfg r.2 srv₁ ss₁).outcome = (ss₂, response, none)) :
    ∃ srv₂, serveAlone cfg srv ss (rs ++ [r]) = some (srv₂, ss₂, out ++ response.toList) := by
  induction rs generalizing srv ss out with
  | nil =>
    cases h
    obtain ⟨hstream, hresult⟩ := Prod.mk.inj hr
    obtain ⟨hresponse, herr⟩ := Prod.mk.inj hresult
    refine ⟨(r.1.handle cfg r.2 srv₁ ss₁).server, ?_⟩
    simp only [List.nil_append, serveAlone, herr, hstream, hresponse, Option.map_some,
      List.append_nil]
  | cons q rs ih =>
    rw [serveAlone] at h
    rw [List.cons_append, serveAlone]
    cases herr : (q.1.handle cfg q.2 srv ss).err with
    | some e =>
      rw [herr] at h
      simp at h
    | none =>
      rw [herr] at h
      obtain ⟨⟨s, t, os⟩, hrest, heq⟩ := Option.map_eq_some_iff.mp h
      cases heq
      obtain ⟨srv₂, hsrv₂⟩ := ih hrest
      refine ⟨srv₂, ?_⟩
      dsimp only
      rw [hsrv₂, Option.map_some, List.append_assoc]

theorem AnsweredAlone.append_one {cfg : Limits} {rounds : List Round} {r : Round}
    {ss ss' : StreamState} {responses : List (List BucketAction)}
    {response : Option (List BucketAction)} (h : AnsweredAlone σ cfg rounds ss responses)
    (hr : ∀ (engine : Engine) (srv : Server σ), r.Agrees engine →
      (r.handle cfg engine srv ss).outcome = (ss', response, none)) :
    AnsweredAlone σ cfg (rounds ++ [r]) ss' (responses ++ response.toList) := by
  intro rs srv hrs hagree
  obtain ⟨rs₁, rs₂, rfl, hfirst, hlast⟩ := List.map_eq_append_iff.mp hrs
  obtain ⟨x, rfl, rfl⟩ := List.map_eq_singleton_iff.mp hlast
  obtain ⟨srv₁, hsrv₁⟩ := h rs₁ srv hfirst fun q hq => hagree q (List.mem_append_left _ hq)
  exact serveAlone_append_one hsrv₁
    (hr x.2 srv₁ (hagree x (List.mem_append_right _ List.mem_cons_self)))

/-- The stream of a handler that was told `xs`: rounds that a server alone answers the
same, and a message in progress. -/
def Served (σ : Type) [BucketStore σ] (cfg : Limits) (p : Handler) (xs : List Heard) : Prop :=
  ∃ rounds responses ss rest, xs = rounds.flatMap Round.heard ++ rest ∧
    AnsweredAlone σ cfg rounds ss responses ∧ responses.Sublist (p.sent.map Prod.snd) ∧
    Stage σ cfg ss p rest

/-- What a move tells the handlers. -/
def World.told (w : World σ) : AnyMove → List (ℕ × Heard)
  | .handler i x =>
    match w.pool.procs[i]? with
    | none => []
    | some p => tagged i (p.hears x)
  | _ => []

/-- One move of the world, with a log of what the handlers are told. -/
def World.hear (cfg : Limits) :
    World σ × List (ℕ × Heard) → AnyMove → Option (World σ × List (ℕ × Heard)) :=
  observed (World.anyNext cfg) World.told

section Run

variable {cfg : Limits} {sh sh' : Shared σ} {p p' : Handler} {x : Input} {xs : List Heard}

theorem newHandler_served (cfg : Limits) : Served σ cfg newHandler [] := by
  refine ⟨[], [], newStream, [], rfl, fun rs srv hrs _ => ?_, List.Sublist.refl _, rfl, rfl⟩
  rw [List.map_eq_nil_iff.mp hrs]
  exact ⟨srv, rfl⟩

theorem Served.step (h : Served σ cfg p xs) (hs : handlerStep cfg sh p x = some (sh', p')) :
    Served σ cfg p' (xs ++ p.hears x) := by
  obtain ⟨rounds, responses, ss, rest, rfl, halone, hsub, hst⟩ := h
  rw [List.append_assoc]
  rcases hst.step hs with ⟨hst', hsent⟩ | ⟨r, response, hheard, hround, hpc, hsent⟩
  · exact ⟨rounds, responses, ss, _, rfl, halone, hsent ▸ hsub, hst'⟩
  · refine ⟨rounds ++ [r], responses ++ response.toList, p'.ss, [], ?_,
      halone.append_one hround, ?_, ?_⟩
    · rw [hheard, List.flatMap_append, List.flatMap_singleton, List.append_nil]
    · rw [hsent]
      exact hsub.append (List.Sublist.refl _)
    · unfold Stage
      rw [hpc]
      exact ⟨rfl, rfl⟩

/-- A response that a push sends is one more among those of the handler. -/
theorem Served.pushed (h : Served σ cfg p xs) (v : ℕ) (actions : List BucketAction) :
    Served σ cfg { p with sent := p.sent ++ [(v, actions)] } xs := by
  obtain ⟨rounds, responses, ss, rest, hxs, halone, hsub, hst⟩ := h
  refine ⟨rounds, responses, ss, rest, hxs, halone, ?_, hst⟩
  rw [List.map_append]
  exact hsub.trans (List.sublist_append_left _ _)

/-- Every stream, along any run. -/
theorem run_served {store : σ} {c : World σ × List (ℕ × Heard)}
    (h : Run (World.hear cfg) free (newWorld store, []) c) :
    (∀ e ∈ c.2, e.1 < c.1.pool.procs.length) ∧
      ∀ i p, c.1.pool.procs[i]? = some p → Served σ cfg p (logOf i c.2) := by
  refine Run.invariant (I := fun c : World σ × List (ℕ × Heard) =>
    (∀ e ∈ c.2, e.1 < c.1.pool.procs.length) ∧
      ∀ i p, c.1.pool.procs[i]? = some p → Served σ cfg p (logOf i c.2)) h
    ⟨(fun e he => nomatch he), fun i p hp => nomatch hp⟩ ?_
  rintro ⟨w, log⟩ m ⟨w', log'⟩ - ⟨hborn, hall⟩ - hn
  obtain ⟨hnext, hlog⟩ := observed_eq_some.mp hn
  dsimp only at hborn hall hnext hlog ⊢
  subst hlog
  rcases World.anyNext_cases hnext with ⟨rfl, rfl, -⟩ | ⟨i, x, p, sh', p', rfl, hp, hs, rfl, -⟩ |
    ⟨rfl, rfl, -⟩ | ⟨j, r, x, q, hs', pc', rfl, hq, hstep, rfl, -⟩ |
    ⟨j, q, i, actions, todo, rfl, -, -, rfl, -⟩
  · -- a new stream has been told nothing
    rw [show w.told .connect = [] from rfl, List.append_nil]
    refine ⟨fun e he => ?_, fun i p hp => ?_⟩
    · have hlt := hborn e he
      rw [List.length_append]
      omega
    · rcases Nat.lt_or_ge i w.pool.procs.length with hlt | hge
      · rw [List.getElem?_append_left hlt] at hp
        exact hall i p hp
      · rw [List.getElem?_append_right hge, List.getElem?_singleton] at hp
        split at hp
        · rw [logOf_eq_nil fun e he => ?_, ← Option.some.inj hp]
          · exact newHandler_served cfg
          · have := hborn e he
            omega
        · simp at hp
  · have hlt := (List.getElem?_eq_some_iff.mp hp).1
    have htold : w.told (.handler i x) = tagged i (p.hears x) := by
      simp only [World.told, hp]
    rw [htold]
    refine ⟨fun e he => ?_, fun k q hq => ?_⟩
    · rw [List.length_set]
      rcases List.mem_append.mp he with hold | hnew
      · exact hborn e hold
      · obtain ⟨y, -, rfl⟩ := List.mem_map.mp hnew
        exact hlt
    · rw [logOf_append]
      by_cases hik : i = k
      · subst hik
        rw [List.getElem?_set_self hlt] at hq
        rw [← Option.some.inj hq, logOf_tagged]
        exact (hall i p hp).step hs
      · rw [List.getElem?_set_ne hik] at hq
        rw [logOf_tagged_ne hik, List.append_nil]
        exact hall k q hq
  · rw [show w.told .swap = [] from rfl, List.append_nil]
    exact ⟨hborn, hall⟩
  · rw [show w.told (.push j r x) = [] from rfl, List.append_nil]
    refine ⟨fun e he => ?_, fun k p hp => ?_⟩
    · rw [pushStep_length hstep]
      exact hborn e he
    · have hlt := (List.getElem?_eq_some_iff.mp hp).1
      rw [pushStep_length hstep] at hlt
      have hold := List.getElem?_eq_getElem hlt
      rcases pushStep_on hstep hold with ⟨hsame, -⟩ | ⟨hsame, -⟩ | ⟨actions, todo, -, -, hsent, -⟩
      · rw [← Option.some.inj (hsame.symm.trans hp)]
        exact hall k _ hold
      · rw [← Option.some.inj (hsame.symm.trans hp)]
        exact hall k _ hold
      · rw [← Option.some.inj (hsent.symm.trans hp)]
        exact (hall k _ hold).pushed _ _
  · rw [show w.told (.pushFails j) = [] from rfl, List.append_nil]
    exact ⟨hborn, hall⟩

/-- The handler has left its loop over `Recv`. -/
def PC.left : PC → Bool
  | .closing | .unregister | .cleanup _ | .decRef _ (.cleanup _) | .remove _ (.cleanup _)
  | .done => true
  | _ => false

/-- The message in progress is one: what was told of it is the beginning of a round, or
the client has hung up. -/
theorem Stage.one_message {ss₀ : StreamState} (h : Stage σ cfg ss₀ p xs) :
    xs = [.hangup] ∨ ∃ r : Round, xs <+: r.heard := by
  have htracking : ∀ {ss us reports}, Stage.Tracking σ cfg ss₀ ss us reports xs →
      ∃ r : Round, xs <+: r.heard := by
    rintro ss us reports ⟨req, l, rfl, -⟩
    exact ⟨⟨req, l, none, none⟩, List.prefix_refl _⟩
  have hanswering : ∀ {ss reports}, Stage.Answering σ cfg ss₀ ss reports xs →
      ∃ r : Round, xs <+: r.heard := by
    rintro ss reports ⟨req, l, rfl, -⟩
    exact ⟨⟨req, l, none, none⟩, List.prefix_refl _⟩
  have habandoning : ∀ {ss todo all}, Stage.Abandoning σ cfg ss₀ ss todo all xs →
      ∃ r : Round, xs <+: r.heard := by
    rintro ss todo all ⟨req, l, domain, reports, rfl, -⟩
    exact ⟨⟨req, l, some (domain, reports, .ok all), none⟩, List.prefix_refl _⟩
  have hended : Stage.Ended σ cfg ss₀ p.ss xs → xs = [.hangup] ∨ ∃ r : Round, xs <+: r.heard := by
    rintro (⟨rfl, -⟩ | ⟨r, err, rfl, -⟩)
    · exact Or.inl rfl
    · exact Or.inr ⟨r, List.prefix_refl _⟩
  unfold Stage at h
  cases hpc : p.pc with
  | start | opened | recv =>
    rw [hpc] at h
    rw [h.1]
    exact Or.inr ⟨⟨⟨[], []⟩, [], none, none⟩, List.nil_prefix⟩
  | bind req =>
    rw [hpc] at h
    rw [h.1]
    exact Or.inr ⟨⟨req, [], none, none⟩, ⟨_, rfl⟩⟩
  | usages | incRef | gaugeInc | record =>
    rw [hpc] at h
    exact Or.inr (htracking h)
  | load | process =>
    rw [hpc] at h
    exact Or.inr (hanswering h)
  | actions | gaugeDec | send =>
    rw [hpc] at h
    exact Or.inr (habandoning h)
  | decRef key k | remove key k =>
    rw [hpc] at h
    cases k with
    | abandon => exact Or.inr (habandoning h)
    | cleanup => exact hended h
  | closing | unregister | cleanup | done =>
    rw [hpc] at h
    exact hended h

/-- **Every stream is served as if it were alone.** In every run of any number of
streams, pushes and swaps, what a handler was told are some rounds, in order, and one
message in progress. A server that has any state and no other stream, with engines that
reply the same to the same questions, handles these rounds without an error; the stream
is then what it was before the message in progress, and the responses are among those
sent here, in this order. Of the message in progress the beginning of a round was told,
and what is left of `handleMessage` at the handler's control point ends as the whole
call would from its beginning (`Stage`). When the handler waits for a message, none is
in progress. When it has left its loop, the client has hung up or the last message ended
in an error, as it would have for the server alone. -/
theorem streams_are_served_alone {store : σ} {c : World σ × List (ℕ × Heard)}
    (h : Run (World.hear cfg) free (newWorld store, []) c) {i : ℕ}
    (hp : c.1.pool.procs[i]? = some p) :
    ∃ rounds responses ss rest, logOf i c.2 = rounds.flatMap Round.heard ++ rest ∧
      AnsweredAlone σ cfg rounds ss responses ∧
      responses.Sublist (p.sent.map Prod.snd) ∧
      (rest = [.hangup] ∨ ∃ r : Round, rest <+: r.heard) ∧ Stage σ cfg ss p rest ∧
      (p.pc = .recv → rest = [] ∧ p.ss = ss) ∧
      (p.pc.left = true → (rest = [.hangup] ∧ p.ss = ss) ∨
        ∃ (r : Round) (err : HandlerError), rest = r.heard ∧
          ∀ (engine : Engine) (srv : Server σ), r.Agrees engine →
            (r.handle cfg engine srv ss).outcome = (p.ss, none, some err)) := by
  obtain ⟨rounds, responses, ss, rest, hlog, halone, hsub, hst⟩ := (run_served h).2 i p hp
  refine ⟨rounds, responses, ss, rest, hlog, halone, hsub, hst.one_message, hst, fun hpc => ?_,
    fun hleft => ?_⟩
  · unfold Stage at hst
    rw [hpc] at hst
    exact hst
  · have hended : Stage.Ended σ cfg ss p.ss rest := by
      unfold Stage at hst
      unfold PC.left at hleft
      split at hleft
      case h_7 => simp at hleft
      all_goals
        rename_i hpc
        rw [hpc] at hst
        exact hst
    exact hended

end Run

/-- Streams 0 and 1 are told the same, step by step in turn. -/
def bothTold (xs : List Input) : List AnyMove := xs.flatMap fun x => [.handler 0 x, .handler 1 x]

/-- Two streams report the sample bucket, a new engine is installed meanwhile, and the
engine abandons the bucket on the first stream; on the second it has not replied. -/
def sharedRounds : List AnyMove :=
  .connect :: .connect ::
    bothTold [.tick, .tick, .recv sampleReq, .label [], .tick, .tick, .tick, .tick] ++
    .swap :: bothTold [.tick, .tick] ++
    [.handler 0 (.reply (.ok [⟨some sampleId, .abandon⟩])),
     .handler 0 .tick, .handler 0 .tick, .handler 0 .tick, .handler 0 .tick,
     .handler 0 (.sent none)]

/-- On the first stream the message is handled, on the second it is in progress: the
engine has yet to reply. -/
theorem streams_are_served_alone_abandoned :
    ∃ c p, Run (World.hear noLimits) free (newWorld MemoryStorage.newMemoryStorage, []) c ∧
      c.1.pool.procs[0]? = some p ∧ bucketKeyFromProto (some sampleId) ∉ p.ss.subscriptions ∧
      c.1.pool.shared.store.len = 1 ∧
      (∃ rounds responses ss rest, logOf 0 c.2 = rounds.flatMap Round.heard ++ rest ∧
        AnsweredAlone MemoryStorage noLimits rounds ss responses ∧ rest = [] ∧ p.ss = ss) ∧
      ∃ rounds responses ss req l, logOf 1 c.2 = rounds.flatMap Round.heard ++
          [.message req, .label l] ∧
        AnsweredAlone MemoryStorage noLimits rounds ss responses := by
  have hrun := run_exec_free (World.hear noLimits) (newWorld MemoryStorage.newMemoryStorage, [])
    sharedRounds (by decide)
  obtain ⟨rounds, responses, ss, rest, hlog, halone, -, -, -, hrecv, -⟩ :=
    streams_are_served_alone hrun (i := 0) rfl
  obtain ⟨rounds₁, responses₁, ss₁, rest₁, hlog₁, halone₁, -, -, ⟨req, l, hrest₁, -⟩, -, -⟩ :=
    streams_are_served_alone hrun (i := 1) rfl
  exact ⟨_, _, hrun, rfl, by decide, by decide,
    ⟨rounds, responses, ss, rest, hlog, halone, hrecv rfl⟩,
    rounds₁, responses₁, ss₁, req, l, hrest₁ ▸ hlog₁, halone₁⟩

end Rlqs
