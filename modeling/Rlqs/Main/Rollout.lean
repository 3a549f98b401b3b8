import Rlqs.Main.Deployment
import Rlqs.Main.Assignments
import Rlqs.Main.Push
import Rlqs.Server.Convergence

/-!
# RLQS main — from the config file to the clients

The watcher, the reload loop and the server in one process. The loop takes a config
out of the channel, builds its engine and hands it to `SwapEngine`; from then on
messages are answered by the new engine, and a push sends its assignments to every
stream, while handlers that have loaded an older engine are still to send.

The parts are `Deployment` (the file, its watcher and the loop) and `World` (handlers,
pushes and swaps). They meet in one place: a swap of the world is an iteration of the
loop that installs an engine, and the engine is the one the loop has built
(`Site.next`). Three facts are put together:

* `Deployed.serves` — at rest the live engine is that of the file's last valid content;
* `Converging` — when nothing is in flight, the last action for a subscribed bucket was
  sent under the name of the installed engine;
* `Genuine` — what is sent under a name is what the engine of that name assigns.

The result is `config_reaches_clients`: what a client was told last about a bucket is
what the file says about it. It is about clients that listen: in `World` every `Send`
succeeds. As in `Main/Deployment.lean` the process is not shut down.
-/

namespace Rlqs

open Config Interleave Steps

-- ---------------------------------------------------------------------------
-- The process with its streams
-- ---------------------------------------------------------------------------

/-- A process with its config file and its streams. The server names its engines by
numbers; `built` has the engine named `v` at place `v`. -/
structure Site (σ : Type) where
  deployment : Deployment
  world : World σ
  built : List EngineValue

/-- Something happens to the file, its watcher, the loop, the classifier or the store,
or a handler or a push takes a step. -/
inductive SiteMove where
  | deploy (m : DeployMove)
  | serve (m : SwapMove)

/-- The engines by their names. -/
def enginesOf (built : List EngineValue) (v : ℕ) : Engine :=
  (built[v]?.getD (.default ⟨none, none⟩)).processUsage

section Model

variable (compile : Str → Except GoError Regexp) (loads : Str → Except GoError Config)

/-- The engine that an iteration of the reload loop installs. An iteration that calls
`SwapEngine` takes the new config, every other one keeps the current config. -/
def Process.installs (p : Process) (newCfg : Config) : Option EngineValue :=
  (p.reload compile newCfg).bind fun p' =>
    if p'.currentCfg = p.currentCfg then none else some p'.engine

/-- The engine that a move installs. -/
def Deployment.installs (d : Deployment) : DeployMove → Option EngineValue
  | .file .receive => d.process.bind fun p => d.file.buffer.bind fun c => p.installs compile c.2
  | _ => none

variable {σ : Type} [BucketStore σ]

/-- One move. `SwapEngine` is called by the reload loop only, and no stream is served
by a process that has panicked. -/
def Site.next (limits : Limits) (s : Site σ) : SiteMove → Option (Site σ)
  | .deploy m =>
    (s.deployment.next compile loads m).bind fun d =>
      match s.deployment.installs compile m with
      | none => some { s with deployment := d }
      | some e =>
        (s.world.next limits (enginesOf s.built) .swap).map fun w => ⟨d, w, s.built ++ [e]⟩
  | .serve .swap => none
  | .serve m =>
    if s.deployment.process.isNone then none
    else (s.world.next limits (enginesOf s.built) m).map fun w => { s with world := w }

/-- A process just started, with its file watched and no stream open. -/
def newSite (data : Str) (p : Process) (store : σ) : Site σ :=
  ⟨⟨watchStarted data, some p⟩, newWorld store, [p.engine]⟩

/-- The conditions on a move: those of the deployment, and a response of a replaced
engine is only sent while one of the installed engine is still to come. -/
def Site.Orderly (startup : Config) (s : Site σ) : SiteMove → Prop
  | .deploy m => s.deployment.Orderly compile loads startup m
  | .serve m => staleFirst s.world m = true

/-- What the config says about a bucket of a domain, as an action. -/
def Config.action (c : Config) (domain : Str) (id : Option BucketId) : BucketAction :=
  ⟨id, .quotaAssignment ⟨some (c.assigned compile domain (bucketKeyFromProto id)).2,
    some (c.assigned compile domain (bucketKeyFromProto id)).1⟩⟩

/-- The last action for the bucket. -/
def lastAction (sent : List (ℕ × List BucketAction)) (key : BucketKey) : Option BucketAction :=
  (sent.flatMap Prod.snd).reverse.find? fun a => bucketKeyFromProto a.bucketId = key

/-- Every registered stream was told last, about each bucket it is subscribed to, what
the config says. -/
def Site.Told (s : Site σ) (c : Config) : Prop :=
  ∀ p ∈ s.world.pool.procs, p.registered = true → ∀ key ∈ p.ss.subscriptions,
    ∃ id, bucketKeyFromProto id = key ∧
      lastAction p.sent key = some (c.action compile p.ss.domain id)

end Model

variable {compile : Str → Except GoError Regexp} {loads : Str → Except GoError Config}
  {σ : Type}

-- ---------------------------------------------------------------------------
-- What a move can do
-- ---------------------------------------------------------------------------

section Moves

variable {d d' : Deployment} {p p' : Process}

/-- The engine after an iteration. -/
theorem Process.reload_engine {c : Config} (h : p.reload compile c = some p') :
    p'.engine = (p.installs compile c).getD p.engine := by
  unfold Process.installs
  rw [h, Option.bind_some]
  by_cases hsame : p'.currentCfg = p.currentCfg
  · rw [if_pos hsame]
    rcases Process.reload_cases compile p c with ⟨-, hr⟩ | ⟨-, -, hr⟩ | ⟨-, e, -, -, hr⟩ |
      ⟨hcfg, e, k, -, -, -, hr⟩
    all_goals
      rw [hr] at h
    · exact Option.some.inj h ▸ rfl
    · exact Option.some.inj h ▸ rfl
    · cases h
    · -- the new config is not the current one
      obtain rfl := Option.some.inj h
      exact absurd hsame.symm hcfg
  · rw [if_neg hsame]
    rfl

theorem Deployment.installs_of_ne {m : DeployMove} (hm : m ≠ .file .receive) :
    d.installs compile m = none := by
  cases m with
  | file fm => cases fm <;> first | rfl | exact absurd rfl hm
  | bind domain => rfl
  | use u => rfl

/-- The engine after a move. -/
theorem Deployment.next_engine {m : DeployMove} (hn : d.next compile loads m = some d')
    (hp : d.process = some p) (hp' : d'.process = some p') :
    p'.engine = (d.installs compile m).getD p.engine := by
  rcases Deployment.next_cases hn with ⟨q, c, f, rfl, hq, hc, -, rfl⟩ | ⟨fm, f, rfl, hne, -, rfl⟩ |
    ⟨q, e, hown, hq, he, rfl⟩
  · obtain rfl : p = q := Option.some.inj (hp.symm.trans hq)
    have hinstalls : d.installs compile (.file .receive) = p.installs compile c.2 := by
      simp only [Deployment.installs, hp, hc, Option.bind_some]
    rw [hinstalls]
    exact Process.reload_engine hp'
  · obtain rfl : p = p' := Option.some.inj (hp.symm.trans hp')
    rw [Deployment.installs_of_ne (by simpa using hne)]
    rfl
  · obtain rfl : p = q := Option.some.inj (hp.symm.trans hq)
    have hm : m ≠ .file .receive := by
      rintro rfl
      cases hown
    rw [Deployment.installs_of_ne hm]
    cases e with
    | deliver c => cases he
    | bind domain => rw [← Option.some.inj hp']; rfl
    | use u => rw [← Option.some.inj hp']; rfl

variable [BucketStore σ] {limits : Limits} {s s' : Site σ} {m : SiteMove}

/-- Everything a move can do: the loop installs no engine, or it does, or the server
goes on. -/
theorem Site.next_cases (h : s.next compile loads limits m = some s') :
    (∃ dm d, m = .deploy dm ∧ s.deployment.next compile loads dm = some d ∧
      s.deployment.installs compile dm = none ∧ s' = { s with deployment := d }) ∨
    (∃ dm d e w, m = .deploy dm ∧ s.deployment.next compile loads dm = some d ∧
      s.deployment.installs compile dm = some e ∧
      s.world.next limits (enginesOf s.built) .swap = some w ∧ s' = ⟨d, w, s.built ++ [e]⟩) ∨
    (∃ sm w, m = .serve sm ∧ sm ≠ .swap ∧ s.world.next limits (enginesOf s.built) sm = some w ∧
      s' = { s with world := w }) := by
  cases m with
  | deploy dm =>
    obtain ⟨d, hd, h⟩ := Option.bind_eq_some_iff.mp h
    cases hi : s.deployment.installs compile dm with
    | none =>
      rw [hi] at h
      exact Or.inl ⟨dm, d, rfl, hd, hi, (Option.some.inj h).symm⟩
    | some e =>
      rw [hi] at h
      obtain ⟨w, hw, rfl⟩ := Option.map_eq_some_iff.mp h
      exact Or.inr (Or.inl ⟨dm, d, e, w, rfl, hd, hi, hw, rfl⟩)
  | serve sm =>
    have hserve : sm ≠ .swap → (if s.deployment.process.isNone then none
        else (s.world.next limits (enginesOf s.built) sm).map fun w =>
          ({ s with world := w } : Site σ)) = some s' := by
      intro hne
      cases sm <;> first | exact h | exact absurd rfl hne
    have hne : sm ≠ .swap := by
      rintro rfl
      cases h
    have h := hserve hne
    split at h
    · cases h
    · obtain ⟨w, hw, rfl⟩ := Option.map_eq_some_iff.mp h
      exact Or.inr (Or.inr ⟨sm, w, rfl, hne, hw, rfl⟩)

end Moves

-- ---------------------------------------------------------------------------
-- What is sent under a name
-- ---------------------------------------------------------------------------

/-- The stream is bound, and the engine of that name assigns these actions to the
buckets of its domain. -/
def Said (built : List EngineValue) (ss : StreamState) (r : ℕ × List BucketAction) : Prop :=
  ss.domainBound = true ∧
    ∃ e, built[r.1]? = some e ∧ ∀ a ∈ r.2, a = e.assignment ss.domain a.bucketId

/-- Of the engine a handler has loaded, of the response it is about to send, and of what
was sent on its stream. -/
structure Handler.Genuine (built : List EngineValue) (p : Handler) : Prop where
  response : ∀ v, p.pc.version = some v → Said built p.ss (v, p.pc.response)
  sent : ∀ r ∈ p.sent, Said built p.ss r

structure Push.Genuine (built : List EngineValue) (hs : List Handler) (q : Push) : Prop where
  version : q.version < built.length
  asks : q.pc.Asks hs
  sends : ∀ i actions todo, q.pc = .send i actions todo →
    ∃ p, hs[i]? = some p ∧ Said built p.ss (q.version, actions)

/-- The installed engine is the last one built, and what is sent or about to be sent is
genuine. -/
structure Genuine (built : List EngineValue) (w : World σ) : Prop where
  installed : built.length = w.engine + 1
  handlers : ∀ p ∈ w.pool.procs, p.Genuine built
  pushes : ∀ q ∈ w.pushes, q.Genuine built w.pool.procs

/-- Bound streams keep their domain. -/
def KeepsBound (hs hs' : List Handler) : Prop :=
  ∀ (i : ℕ) (p : Handler), hs[i]? = some p → p.ss.domainBound = true →
    ∃ p' : Handler, hs'[i]? = some p' ∧ p'.ss.domainBound = true ∧ p'.ss.domain = p.ss.domain

section Said

variable {built : List EngineValue} {ss ss' : StreamState} {r : ℕ × List BucketAction}

theorem enginesOf_answersAll (built : List EngineValue) (v : ℕ) :
    AnswersAll (enginesOf built v) := by
  unfold enginesOf
  cases built[v]?.getD (.default ⟨none, none⟩) with
  | default cfg => exact defaultEngine_answersAll cfg
  | policy cfg => exact policyEngine_answersAll cfg

theorem Said.keep (h : Said built ss r) (hbound : ss'.domainBound = true)
    (hdomain : ss'.domain = ss.domain) : Said built ss' r := by
  obtain ⟨-, e, he, hall⟩ := h
  refine ⟨hbound, e, he, ?_⟩
  rw [hdomain]
  exact hall

theorem Said.more (h : Said built ss r) (e : EngineValue) : Said (built ++ [e]) ss r := by
  obtain ⟨hbound, e', he', hall⟩ := h
  have hlt := (List.getElem?_eq_some_iff.mp he').1
  exact ⟨hbound, e', by rw [List.getElem?_append_left hlt, he'], hall⟩

/-- A loaded engine has answered nothing yet. -/
theorem Said.loaded (hbound : ss.domainBound = true) {v : ℕ} (hv : v < built.length) :
    Said built ss (v, []) :=
  ⟨hbound, _, List.getElem?_eq_getElem hv, fun _ h => nomatch h⟩

/-- The reply of an engine. -/
theorem Said.replied (hbound : ss.domainBound = true) {v : ℕ} (hv : v < built.length)
    {reports : List UsageReport} {actions : List BucketAction}
    (hreply : enginesOf built v ss.domain reports = .ok actions) : Said built ss (v, actions) := by
  have hget := List.getElem?_eq_getElem hv
  refine ⟨hbound, _, hget, fun a ha => ?_⟩
  unfold enginesOf at hreply
  rw [hget, Option.getD_some, EngineValue.processUsage_eq] at hreply
  rw [← Except.ok.inj hreply] at ha
  obtain ⟨u, -, rfl⟩ := List.mem_map.mp ha
  rfl

theorem newHandler_genuine : newHandler.Genuine built where
  response _ h := nomatch h
  sent _ h := nomatch h

variable {p p' : Handler}

theorem Handler.Genuine.more (h : p.Genuine built) (e : EngineValue) : p.Genuine (built ++ [e]) :=
  ⟨fun v hv => (h.response v hv).more e, fun r hr => (h.sent r hr).more e⟩

/-- The handler goes on; a bound stream has kept its domain. -/
theorem Handler.Genuine.goto (h : p.Genuine built)
    (hkeep : p.ss.domainBound = true → p'.ss.domainBound = true ∧ p'.ss.domain = p.ss.domain)
    (hsent : p'.sent = p.sent)
    (hnew : ∀ v, p'.pc.version = some v → Said built p'.ss (v, p'.pc.response)) :
    p'.Genuine built := by
  refine ⟨hnew, fun r hr => ?_⟩
  rw [hsent] at hr
  have hsaid := h.sent r hr
  exact hsaid.keep (hkeep hsaid.1).1 (hkeep hsaid.1).2

/-- The handler goes on to where it has no engine. -/
theorem Handler.Genuine.quiet (h : p.Genuine built)
    (hkeep : p.ss.domainBound = true → p'.ss.domainBound = true ∧ p'.ss.domain = p.ss.domain)
    (hsent : p'.sent = p.sent) (hnone : p'.pc.version = none) : p'.Genuine built := by
  apply h.goto hkeep hsent
  intro v hv
  rw [hnone] at hv
  cases hv

/-- The handler goes on with the same response. -/
theorem Handler.Genuine.same (h : p.Genuine built) {pc : PC} (hversion : pc.version = p.pc.version)
    (hresponse : pc.response = p.pc.response) : Handler.Genuine built { p with pc := pc } := by
  refine ⟨fun v hv => ?_, h.sent⟩
  rw [hresponse]
  exact h.response v (hversion ▸ hv)

/-- The response is sent. -/
theorem Handler.Genuine.append_sent (h : p.Genuine built) {v : ℕ} {all : List BucketAction}
    (hsaid : Said built p.ss (v, all)) {pc : PC}
    (hnew : ∀ u, pc.version = some u → Said built p.ss (u, pc.response)) :
    Handler.Genuine built { p with pc := pc, sent := p.sent ++ [(v, all)] } := by
  refine ⟨hnew, fun r hr => ?_⟩
  rcases List.mem_append.mp hr with hold | hlast
  · exact h.sent r hold
  · rw [List.mem_singleton.mp hlast]
    exact hsaid

theorem trackStep_keeps_sent (cfg : Limits) (p : Handler) (u : BucketQuotaUsage)
    (us : List BucketQuotaUsage) (reports : List UsageReport) :
    (trackStep cfg p u us reports).sent = p.sent ∧
      (trackStep cfg p u us reports).pc.version = none := by
  rcases trackStep_cases cfg p u us reports with
    ⟨-, ht⟩ | ht | ⟨id, -, -, -, ht⟩ | ⟨id, -, -, -, ht⟩
  all_goals
    rw [ht]
    exact ⟨rfl, rfl⟩

end Said

-- ---------------------------------------------------------------------------
-- Every step keeps it
-- ---------------------------------------------------------------------------

section Steps

variable {built : List EngineValue} {cfg : Limits} {p p' : Handler} {x : Input}

section Handler

variable [BucketStore σ] {sh sh' : Shared σ}

/-- One step of a handler. -/
theorem Handler.Genuine.step (h : p.Genuine built) (hwf : p.Wf) (hsound : p.Sound)
    (hlive : sh.engine < built.length)
    (hs : handlerStep cfg sh p (answered (enginesOf built) p x) = some (sh', p')) :
    p'.Genuine built := by
  have hkeep : p.ss.domainBound = true →
      p'.ss.domainBound = true ∧ p'.ss.domain = p.ss.domain := fun hb =>
    have hkept := (handlerStep_stream hwf hs).keeps_binding hb
    ⟨hkept.1, hkept.2.1⟩
  have habandons := hsound.abandons
  have hturn := handlerStep_turn hs
  generalize hx : answered (enginesOf built) p x = y at hturn
  cases hturn with
  | @bound req l ss hpc hbind =>
    refine h.quiet hkeep rfl ?_
    rcases afterBind_cases cfg req with ha | ha | ha
    all_goals
      dsimp only
      rw [ha]
      rfl
  | @usage u us reports hpc =>
    have hkept := trackStep_keeps_sent cfg p u us reports
    exact h.quiet hkeep hkept.1 hkept.2
  | load hpc =>
    refine h.goto hkeep rfl fun v hv => ?_
    cases hv
    exact Said.loaded (hwf.bound (by rw [hpc]; rfl)) hlive
  | @processed v reports a as hpc =>
    -- the reply is that of the engine that was loaded
    refine h.goto hkeep rfl fun v' hv => ?_
    cases hv
    obtain ⟨hbound, e, he, -⟩ := h.response v (by rw [hpc]; rfl)
    exact Said.replied hbound (List.getElem?_eq_some_iff.mp he).1 (answered_reply hpc hx).symm
  | actionsDone hpc => exact h.same (by rw [hpc]; rfl) (by rw [hpc]; rfl)
  | @action v a rest all hpc =>
    rcases abandonStep_cases p v a rest all with ht | ⟨-, -, ht⟩
    · rw [ht]
      exact h.same (by rw [hpc]; rfl) (by rw [hpc]; rfl)
    · rw [ht] at hkeep ⊢
      exact h.quiet hkeep rfl rfl
  | @gaugeDec v rest all hpc =>
    rw [hpc] at habandons
    cases habandons
  | @decRef key k hpc =>
    rw [hpc] at habandons
    cases k with
    | abandon v rest all => cases habandons
    | cleanup todo =>
      refine h.quiet hkeep rfl ?_
      dsimp only [After.resume]
      split <;> rfl
  | @remove key k hpc =>
    rw [hpc] at habandons
    cases k with
    | abandon v rest all => cases habandons
    | cleanup todo => exact h.quiet hkeep rfl rfl
  | @sent v all hpc =>
    have hsaid := h.response v (by rw [hpc]; rfl)
    rw [hpc] at hsaid
    exact h.append_sent hsaid fun _ hv => nomatch hv
  | unregister hpc =>
    refine h.quiet hkeep rfl ?_
    dsimp only
    split <;> rfl
  | _ => exact h.quiet hkeep rfl rfl

end Handler

variable {hs hs' : List Handler} {q : Push} {pc' : PushPC} {y : PushInput}

theorem Push.Genuine.more (h : q.Genuine built hs) (e : EngineValue) :
    q.Genuine (built ++ [e]) hs := by
  refine ⟨?_, h.asks, fun i actions todo hpc => ?_⟩
  · have := h.version
    simp only [List.length_append, List.length_singleton]
    omega
  · obtain ⟨p, hp, hsaid⟩ := h.sends i actions todo hpc
    exact ⟨p, hp, hsaid.more e⟩

theorem Push.Genuine.mono (h : q.Genuine built hs) (hkeep : KeepsBound hs hs') :
    q.Genuine built hs' := by
  refine ⟨h.version, h.asks.mono hkeep, fun i actions todo hpc => ?_⟩
  obtain ⟨p, hp, hsaid⟩ := h.sends i actions todo hpc
  obtain ⟨p', hp', hbound, hdomain⟩ := hkeep i p hp hsaid.1
  exact ⟨p', hp', hsaid.keep hbound hdomain⟩

/-- One step of a push. -/
theorem Push.Genuine.step (h : q.Genuine built hs)
    (hstep : pushStep (enginesOf built q.version) q.version hs q.pc y = some (hs', pc')) :
    Push.Genuine built hs { q with pc := pc' } := by
  refine ⟨h.version, pushStep_asks hstep, fun i actions todo hpc => ?_⟩
  have heffect := pushStep_cases hstep
  generalize hq : q.pc = pc at heffect
  cases heffect with
  | replied hreply =>
    cases hpc
    obtain ⟨p, hp, hbound, rfl⟩ := h.asks _ _ _ _ hq
    exact ⟨p, hp, Said.replied hbound h.version hreply⟩
  | _ => cases hpc

theorem pushStep_keepsBound {engine : Engine} {v : ℕ} {pc : PushPC}
    (hstep : pushStep engine v hs pc y = some (hs', pc')) : KeepsBound hs hs' := by
  intro i p hp hbound
  rcases pushStep_on hstep hp with ⟨hsame, -⟩ | ⟨hsame, -⟩ | ⟨actions, todo, -, -, hsent, -⟩
  · exact ⟨p, hsame, hbound, rfl⟩
  · exact ⟨p, hsame, hbound, rfl⟩
  · exact ⟨_, hsent, hbound, rfl⟩

/-- What a push sends is genuine, so its streams stay so. -/
theorem Push.Genuine.handlers (h : q.Genuine built hs) (hall : ∀ p ∈ hs, p.Genuine built)
    (hstep : pushStep (enginesOf built q.version) q.version hs q.pc y = some (hs', pc')) :
    ∀ p ∈ hs', p.Genuine built := by
  have heffect := pushStep_cases hstep
  generalize hq : q.pc = pc at heffect
  cases heffect with
  | @sent i actions todo p hp =>
    obtain ⟨p₁, hp₁, hsaid⟩ := h.sends _ _ _ hq
    obtain rfl : p = p₁ := Option.some.inj (hp.symm.trans hp₁)
    intro p' hp'
    rcases mem_set_cases hp' with rfl | hold
    · have hold := hall p (List.mem_of_getElem? hp)
      exact hold.append_sent hsaid hold.response
    · exact hall p' hold
  | _ => exact hall

variable [BucketStore σ] {w w' : World σ} {m : SwapMove}

/-- One move of the server other than a swap. -/
theorem Genuine.next (h : Genuine built w) (hc : Converging w) (hm : m ≠ .swap)
    (hn : w.next cfg (enginesOf built) m = some w') : Genuine built w' := by
  have hlive : w.engine < built.length := by
    have := h.installed
    omega
  rcases World.next_cases hn with ⟨-, rfl⟩ | ⟨i, x, p, sh', p', rfl, hp, hs, rfl⟩ | ⟨rfl, -⟩ |
    ⟨j, x, q, hs', pc', rfl, hq, hstep, rfl⟩
  · refine ⟨h.installed, fun p hp => ?_, fun q hq => (h.pushes q hq).mono fun i p hp hb => ?_⟩
    · rcases List.mem_append.mp hp with hold | hnew
      · exact h.handlers p hold
      · rw [List.mem_singleton.mp hnew]
        exact newHandler_genuine
    · have hlt := (List.getElem?_eq_some_iff.mp hp).1
      exact ⟨p, by rw [List.getElem?_append_left hlt, hp], hb, rfl⟩
  · have hmem : p ∈ w.pool.procs := List.mem_of_getElem? hp
    have hwf := hc.wf p hmem
    obtain ⟨-, -, hengine⟩ :=
      handlerStep_progress (enginesOf_answersAll built) (hc.sound p hmem) hs
    have hp' := (h.handlers p hmem).step hwf (hc.sound p hmem) hlive hs
    have hlt := (List.getElem?_eq_some_iff.mp hp).1
    refine ⟨?_, fun r hr => ?_, fun q hq => (h.pushes q hq).mono fun k r hr hb => ?_⟩
    · rw [h.installed]
      exact congrArg (· + 1) hengine.symm
    · rcases mem_set_cases hr with rfl | hold
      · exact hp'
      · exact h.handlers r hold
    · by_cases hik : i = k
      · subst hik
        obtain rfl : p = r := Option.some.inj (hp.symm.trans hr)
        have hkept := (handlerStep_stream hwf hs).keeps_binding hb
        exact ⟨p', List.getElem?_set_self hlt, hkept.1, hkept.2.1⟩
      · exact ⟨r, by rw [List.getElem?_set_ne hik, hr], hb, rfl⟩
  · exact absurd rfl hm
  · have hgenuine := h.pushes q (List.mem_of_getElem? hq)
    have hkeep := pushStep_keepsBound hstep
    refine ⟨h.installed, hgenuine.handlers h.handlers hstep, fun r hr => ?_⟩
    rcases mem_set_cases hr with rfl | hold
    · exact (hgenuine.step hstep).mono hkeep
    · exact (h.pushes r hold).mono hkeep

/-- An engine is installed. -/
theorem Genuine.swap (h : Genuine built w) (e : EngineValue)
    (hn : w.next cfg (enginesOf built) .swap = some w') : Genuine (built ++ [e]) w' := by
  obtain rfl := Option.some.inj hn
  refine ⟨?_, fun p hp => (h.handlers p hp).more e, fun q hq => ?_⟩
  · rw [List.length_append, h.installed]
    rfl
  · rcases List.mem_append.mp hq with hold | hnew
    · exact (h.pushes q hold).more e
    · rw [List.mem_singleton.mp hnew]
      refine ⟨?_, (fun _ _ _ _ hpc => nomatch hpc), fun _ _ _ hpc => nomatch hpc⟩
      rw [List.length_append, h.installed]
      exact Nat.lt_succ_self _

end Steps

-- ---------------------------------------------------------------------------
-- The last action
-- ---------------------------------------------------------------------------

theorem lastAction_append (sent : List (ℕ × List BucketAction)) (r : ℕ × List BucketAction)
    (key : BucketKey) :
    lastAction (sent ++ [r]) key =
      (r.2.reverse.find? fun a => bucketKeyFromProto a.bucketId = key).or
        (lastAction sent key) := by
  simp [lastAction, List.flatMap_append, List.find?_append]

/-- The last action is in a response of the engine that answered last. -/
theorem lastAction_of_lastVersion {sent : List (ℕ × List BucketAction)} {key : BucketKey} {v : ℕ}
    (h : lastVersion sent key = some v) :
    ∃ actions a, (v, actions) ∈ sent ∧ a ∈ actions ∧ bucketKeyFromProto a.bucketId = key ∧
      lastAction sent key = some a := by
  induction sent using List.reverseRecOn with
  | nil => cases h
  | append_singleton sent r ih =>
    obtain ⟨u, actions⟩ := r
    rw [lastVersion_append] at h
    rw [lastAction_append]
    by_cases hkey : key ∈ actionKeys actions
    · rw [if_pos hkey] at h
      cases h
      -- the response has an action for the bucket, and the last one is found
      cases hfind : actions.reverse.find? fun a => bucketKeyFromProto a.bucketId = key with
      | none =>
        obtain ⟨a, ha, hak⟩ := List.mem_map.mp hkey
        have hnot := List.find?_eq_none.mp hfind a (List.mem_reverse.mpr ha)
        exact absurd (decide_eq_true hak) hnot
      | some a =>
        have hak : bucketKeyFromProto a.bucketId = key := by simpa using List.find?_some hfind
        exact ⟨actions, a, List.mem_append_right _ (List.mem_singleton_self _),
          List.mem_reverse.mp (List.mem_of_find?_eq_some hfind), hak, rfl⟩
    · rw [if_neg hkey] at h
      obtain ⟨actions', a, hmem, ha, hak, hlast⟩ := ih h
      have hnone : actions.reverse.find? (fun a => bucketKeyFromProto a.bucketId = key) = none := by
        rw [List.find?_eq_none]
        intro b hb hbk
        exact hkey (List.mem_map.mpr ⟨b, List.mem_reverse.mp hb, by simpa using hbk⟩)
      rw [hnone, Option.none_or]
      exact ⟨actions', a, List.mem_append_left _ hmem, ha, hak, hlast⟩

-- ---------------------------------------------------------------------------
-- The clients have what the file says
-- ---------------------------------------------------------------------------

/-- When nothing is in flight, the installed engine has answered last for every bucket
a registered stream is subscribed to. -/
theorem Converging.last {w : World σ} (h : Converging w) (hquiet : w.quiescent = true)
    {p : Handler} (hp : p ∈ w.pool.procs) (hreg : p.registered = true) {key : BucketKey}
    (hsub : key ∈ p.ss.subscriptions) : lastVersion p.sent key = some w.engine := by
  simp only [World.quiescent, Bool.and_eq_true, List.all_eq_true] at hquiet
  -- an idle handler that is registered waits for a message, its first or another
  have hlisted : p.pc.listed = true := (h.wf p hp).registered_eq ▸ hreg
  have hserving : p.pc = .opened ∨ p.pc = .recv := by
    rcases PC.idle_cases (hquiet.1 p hp) with hpc | hpc | hpc | hpc
    · rw [hpc] at hlisted
      cases hlisted
    · exact Or.inl hpc
    · exact Or.inr hpc
    · rw [hpc] at hlisted
      cases hlisted
  obtain ⟨i, hi⟩ := List.getElem?_of_mem hp
  have hup : UpToDate w i p key := by
    apply h.upToDate i p hi _ key hsub
    rcases hserving with hpc | hpc <;> rw [hpc] <;> rfl
  rcases hup with hlast | howes | hpush
  · exact hlast
  · unfold Handler.owes at howes
    rcases hserving with hpc | hpc <;> simp [hpc, PC.reports, PC.response, actionKeys] at howes
  · obtain ⟨q, hq, -, howes⟩ := World.pushOwes_iff.mp hpush
    have hdone := hquiet.2 q hq
    unfold PushPC.finished at hdone
    split at hdone
    · rename_i hpc
      simp [hpc, PushPC.owes] at howes
    · cases hdone

/-- The file, the loop and the server agree on the live engine. -/
structure RolledOut (compile : Str → Except GoError Regexp) (loads : Str → Except GoError Config)
    (startup : Config) (p₀ : Process) (s : Site σ) : Prop where
  deployed : Deployed compile loads startup p₀ s.deployment
  converging : Converging s.world
  genuine : Genuine s.built s.world
  live : ∀ p, s.deployment.process = some p → s.built[s.world.engine]? = some p.engine

section Run

variable {limits : Limits} {s s' : Site σ} {m : SiteMove} {startup : Config} {redis : Redis}
  {p₀ p : Process}

theorem newSite_rolledOut {data : Str} (hload : loads data = .ok startup) (store : σ) :
    RolledOut compile loads startup p₀ (newSite data p₀ store) where
  deployed := ⟨watchStarted_tracked hload, p₀, [], rfl, rfl, rfl⟩
  converging := newWorld_converging store
  genuine := ⟨rfl, (fun _ h => nomatch h), fun _ h => nomatch h⟩
  live _ h := by
    rw [← Option.some.inj h]
    rfl

/-- Every orderly move. -/
theorem RolledOut.next [BucketStore σ] (h : RolledOut compile loads startup p₀ s)
    (hstart : startProcess compile startup redis = some p₀)
    (hok : s.Orderly compile loads startup m) (hn : s.next compile loads limits m = some s') :
    RolledOut compile loads startup p₀ s' := by
  obtain ⟨p, -, hp, -, -⟩ := h.deployed.process
  have hlive := h.live p hp
  have hinstalled := h.genuine.installed
  rcases Site.next_cases hn with ⟨dm, d, rfl, hd, hnone, rfl⟩ |
    ⟨dm, d, e, w, rfl, hd, he, hw, rfl⟩ | ⟨sm, w, rfl, hne, hw, rfl⟩
  · refine ⟨h.deployed.next hstart hok hd, h.converging, h.genuine, fun p' hp' => ?_⟩
    rw [Deployment.next_engine hd hp hp', hnone]
    exact hlive
  · -- the loop installs what it has built, under the next name
    refine ⟨h.deployed.next hstart hok hd,
      h.converging.next (enginesOf_answersAll s.built) rfl hw, h.genuine.swap e hw,
      fun p' hp' => ?_⟩
    have hname : w.engine = s.built.length := by
      rw [hinstalled, ← Option.some.inj hw]
      rfl
    rw [Deployment.next_engine hd hp hp', he, hname]
    exact List.getElem?_concat_length
  · have hgenuine := h.genuine.next h.converging hne hw
    refine ⟨h.deployed, h.converging.next (enginesOf_answersAll s.built) hok hw, hgenuine,
      fun p' hp' => ?_⟩
    have hname : w.engine = s.world.engine := by
      have := hgenuine.installed
      omega
    dsimp only
    rw [hname]
    exact h.live p' hp'

/-- What the clients have when nothing is in flight: the assignments of any config from
which the live engine is built. -/
theorem RolledOut.told (h : RolledOut compile loads startup p₀ s)
    (hquiet : s.world.quiescent = true) (hp : s.deployment.process = some p) {c : Config}
    (hbuild : buildEngine compile c = .ok p.engine) : s.Told compile c := by
  intro q hq hreg key hsub
  obtain ⟨actions, a, hmem, ha, hkey, hlast⟩ :=
    lastAction_of_lastVersion (h.converging.last hquiet hq hreg hsub)
  obtain ⟨-, e, he, hall⟩ := (h.genuine.handlers q hq).sent _ hmem
  obtain rfl : e = p.engine := Option.some.inj (he.symm.trans (h.live p hp))
  refine ⟨a.bucketId, hkey, ?_⟩
  calc lastAction q.sent key = some a := hlast
    _ = some (p.engine.assignment q.ss.domain a.bucketId) := congrArg some (hall a ha)
    _ = some (c.action compile q.ss.domain a.bucketId) := by
      rw [EngineValue.assignment, built_decision hbuild]
      rfl

/-- **The config reaches the clients.** In every run, up to the shutdown of the process
and with every `Send` succeeding, in which every write and replacement of the file is
timely (`FileWatch.Timely`; so at rest the file may be written in place, and may not be
replaced), new content keeps the concrete type of the engine, no timer fires while a
reload is under way, and a response of a replaced engine is only sent while one of the
installed engine is still to come: the process has not panicked, and whenever no handler
and no push is in flight, every registered stream was told last, about each bucket it is
subscribed to, what the current config says. When moreover nothing is pending at the file
and an engine can be built from the last content that `Load` accepts, this is what that
content says. -/
theorem config_reaches_clients [BucketStore σ] {data : Str} {store : σ}
    (hload : loads data = .ok startup) (hstart : startProcess compile startup redis = some p₀)
    (h : Run (Site.next compile loads limits) (Site.Orderly compile loads startup)
      (newSite data p₀ store) s) :
    (∃ p, s.deployment.process = some p ∧
      (s.world.quiescent = true → s.Told compile p.currentCfg)) ∧
    (s.deployment.file.AtRest → s.world.quiescent = true →
      valid compile (s.deployment.file.content startup) = true →
      s.Told compile (s.deployment.file.content startup)) := by
  have hs : RolledOut compile loads startup p₀ s := by
    refine Run.invariant (I := RolledOut compile loads startup p₀) h
      (newSite_rolledOut hload store) ?_
    intro s m s' _ hs hok hn
    exact hs.next hstart hok hn
  constructor
  · obtain ⟨p, hs', hp, hrun, -⟩ := hs.deployed.process
    exact ⟨p, hp, fun hquiet => hs.told hquiet hp (run_live hstart hrun).engine⟩
  · intro hrest hquiet hvalid
    obtain ⟨p, k, hp, hbuild, -⟩ := hs.deployed.serves hstart hrest hvalid
    exact hs.told hquiet hp hbuild

end Run

/-- A stream reports a bucket and is answered, the file is written and reloaded, and the
push runs to its end. -/
def rolloutMoves : List SiteMove :=
  (loadMoves ++ answerMoves).map .serve ++ servedMoves.map .deploy ++
    (swapMoves.drop 1).map .serve

/-- The process started from a file with one token. -/
def tokenProcess : Process :=
  ⟨withTokens 1, withTokens 1,
    .default ⟨some (withTokens 1).defaultStrategy, some (withTokens 1).defaultTTL⟩,
    freshClassifier [] (withTokens 1).server.maxMetricDomains, [],
    buildStore (withTokens 1) emptyRedis⟩

instance atRestDecidable (f : FileWatch) : Decidable f.AtRest :=
  inferInstanceAs (Decidable (f.events = [] ∧ f.armed = false ∧ f.buffer = none ∧
    ∀ pc ∈ f.reloads, pc = .done))

/-- The conditions on a move that depend on the state, as a check. -/
def rolloutCheck (s : Site MemoryStorage) : SiteMove → Bool
  | .deploy (.file m) =>
    decide (s.deployment.file.Timely sampleLoads m) && decide (s.deployment.file.Unhurried m)
  | .deploy _ => true
  | .serve m => staleFirst s.world m

theorem rolloutCheck_orderly (s : Site MemoryStorage) (m : SiteMove)
    (h : rolloutCheck s m = true) : s.Orderly compileAny sampleLoads (withTokens 1) m := by
  cases m with
  | serve m => exact h
  | deploy m =>
    cases m with
    | file m =>
      simp only [rolloutCheck, Bool.and_eq_true, decide_eq_true_eq] at h
      exact ⟨h.1, h.2, sampleLoads_keepsKind m⟩
    | bind domain => exact trivial
    | use u => exact trivial

/-- The site after these moves. -/
def rolledOut : Option (Site MemoryStorage) :=
  exec (Site.next compileAny sampleLoads noLimits) rolloutCheck
    (newSite (tokensFile 1) tokenProcess MemoryStorage.newMemoryStorage) rolloutMoves

theorem config_reaches_clients_written :
    ∃ s, startProcess compileAny (withTokens 1) emptyRedis = some tokenProcess ∧
      Run (Site.next compileAny sampleLoads noLimits)
        (Site.Orderly compileAny sampleLoads (withTokens 1))
        (newSite (tokensFile 1) tokenProcess MemoryStorage.newMemoryStorage) s ∧
      s.deployment.file.content (withTokens 1) = withTokens 2 ∧
      (s.world.pool.procs.any fun q => q.registered &&
        decide (bucketKeyFromProto (some sampleId) ∈ q.ss.subscriptions)) = true ∧
      s.Told compileAny (withTokens 2) := by
  obtain ⟨s, hs⟩ : ∃ s, rolledOut = some s := Option.isSome_iff_exists.mp (by decide +kernel)
  have hfacts : (rolledOut.all fun s => decide s.deployment.file.AtRest && s.world.quiescent &&
      decide (s.deployment.file.content (withTokens 1) = withTokens 2) &&
      s.world.pool.procs.any fun q => q.registered &&
        decide (bucketKeyFromProto (some sampleId) ∈ q.ss.subscriptions)) = true := by
    decide +kernel
  simp only [hs, Option.all_some, Bool.and_eq_true, decide_eq_true_eq] at hfacts
  obtain ⟨⟨⟨hrest, hquiet⟩, hcontent⟩, hstream⟩ := hfacts
  have hload : sampleLoads (tokensFile 1) = .ok (withTokens 1) := rfl
  have hstart : startProcess compileAny (withTokens 1) emptyRedis = some tokenProcess := rfl
  have hrun := run_of_exec rolloutCheck_orderly hs
  have htold := (config_reaches_clients hload hstart hrun).2 hrest hquiet
  rw [hcontent] at htold
  exact ⟨s, hstart, hrun, hcontent, hstream, htold rfl⟩

end Rlqs
