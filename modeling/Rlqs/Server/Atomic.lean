import Rlqs.Lib.Interleave
import Rlqs.Server.Definitions

/-!
# RLQS server — the handlers as interleaved processes

`StreamRateLimitQuotas` runs once per stream, in a goroutine of its own: it
registers the stream, loops over `Recv` and `handleMessage`, and ends in
`cleanupStream`. Here the goroutine is a process whose control point is a
`PC`; every lock-protected section, every store call, every gauge update, the
engine load and `Send` are one atomic step each, so the steps of different
streams interleave freely between them. Checks that only read the goroutine's
own data belong to the step that follows them.

What the environment decides is an `Input`: the message received or the end of
the stream, the metric label, the engine's reply (any actions or an error),
the result of `Send`, and the next key of `range ss.subscriptions`.

* `handlerStep` — the atomic step of one handler;
* `serverMachine` — all handlers over the shared server state;
* `handlerStep_turn` — everything a step can do, branch by branch: the one place
  where the step is unfolded, for the other modules to split on;
* `handlerStep_cases` — what a step can do to `bucketRefs`, the store and the
  ghost `held`.
-/

namespace Rlqs

open Interleave Steps

/-- The state the handlers share. `engine` names the installed engine: it
counts the engines installed since the server was made. -/
structure Shared (σ : Type) where
  bucketRefs : BucketRefs
  store : σ
  engine : ℕ
  activeStreams : Int
  activeBuckets : Str → Int

/-- Where a release of a bucket continues: in the abandon loop (response of
engine `v`, remaining actions, whole response) or in the loop of
`cleanupStream` (keys still to visit). -/
inductive After where
  | abandon (v : ℕ) (rest all : List BucketAction)
  | cleanup (todo : List BucketKey)

/-- The control points of a handler; each names the step it is about to take. -/
inductive PC where
  | start
  | opened
  | recv
  | bind (req : UsageReports)
  | usages (us : List BucketQuotaUsage) (reports : List UsageReport)
  | incRef (key : BucketKey) (u : BucketQuotaUsage) (us : List BucketQuotaUsage)
      (reports : List UsageReport)
  | gaugeInc (u : BucketQuotaUsage) (us : List BucketQuotaUsage) (reports : List UsageReport)
  | record (u : BucketQuotaUsage) (us : List BucketQuotaUsage) (reports : List UsageReport)
  | load (reports : List UsageReport)
  | process (v : ℕ) (reports : List UsageReport)
  | actions (v : ℕ) (todo all : List BucketAction)
  | decRef (key : BucketKey) (k : After)
  | remove (key : BucketKey) (k : After)
  | gaugeDec (v : ℕ) (todo all : List BucketAction)
  | send (v : ℕ) (all : List BucketAction)
  | closing
  | unregister
  | cleanup (todo : List BucketKey)
  | done

/-- One stream's goroutine. `registered` is membership in `s.streams`. `held` is
a ghost: the keys whose increment of `bucketRefs` has run and whose matching
decrement has not; no step reads it. `sent` lists the responses sent on the
stream, each with the engine that produced it. -/
structure Handler where
  pc : PC
  ss : StreamState
  registered : Bool
  held : List BucketKey
  sent : List (ℕ × List BucketAction)

def newHandler : Handler := ⟨.start, newStream, false, [], []⟩

/-- The choices of the environment. -/
inductive Input where
  | tick
  | recv (req : UsageReports)
  | hangup
  | label (l : Str)
  | reply (r : Except GoError (List BucketAction))
  | sent (e : Option GoError)
  | pick (key : BucketKey)

/-- After the domain section: no usages, too many, or the subscription loop. -/
def afterBind (cfg : Limits) (req : UsageReports) : PC :=
  if req.bucketQuotaUsages.isEmpty then .recv
  else
    match checkReportCount cfg req with
    | some _ => .closing
    | none => .usages req.bucketQuotaUsages []

/-- After a release: the abandon loop lowers the gauge, cleanup already did. -/
def After.resume : After → PC
  | .abandon v rest all => .gaugeDec v rest all
  | .cleanup todo => .cleanup todo

/-- The gauge vector with the value at one label moved by `d`. -/
def moveGauge (g : Str → Int) (l : Str) (d : Int) : Str → Int :=
  Function.update g l (g l + d)

variable {σ : Type} [BucketStore σ]

/-- The step that handles one usage: validation, then the `ss.mu` section that
tracks the subscription. -/
def trackStep (cfg : Limits) (p : Handler) (u : BucketQuotaUsage) (us : List BucketQuotaUsage)
    (reports : List UsageReport) : Handler :=
  match checkUsage cfg u with
  | .skip => { p with pc := .usages us reports }
  | .reject _ => { p with pc := .closing }
  | .accept id =>
    let key := bucketKeyFromProto (some id)
    match trackSubscription cfg p.ss key id with
    | .error _ => { p with pc := .closing }
    | .ok (ss, true) => { p with ss := ss, pc := .record u us reports }
    | .ok (ss, false) => { p with ss := ss, pc := .incRef key u us reports }

/-- The step that handles one action of a response: the `ss.mu` section of the
abandon loop. -/
def abandonStep (p : Handler) (v : ℕ) (a : BucketAction) (rest all : List BucketAction) :
    Handler :=
  match a.bucketAction with
  | .abandon =>
    let key := bucketKeyFromProto a.bucketId
    if key ∈ p.ss.subscriptions then
      { p with
        ss := { p.ss with subscriptions := p.ss.subscriptions.erase key }
        pc := .decRef key (.abandon v rest all) }
    else { p with pc := .actions v rest all }
  | _ => { p with pc := .actions v rest all }

/-- One atomic step of a handler. -/
def handlerStep (cfg : Limits) (sh : Shared σ) (p : Handler) (x : Input) :
    Option (Shared σ × Handler) :=
  match p.pc, x with
  | .start, .tick => some (sh, { p with pc := .opened, registered := true })
  | .opened, .tick =>
    some ({ sh with activeStreams := sh.activeStreams + 1 }, { p with pc := .recv })
  | .recv, .recv req => some (sh, { p with pc := .bind req })
  | .recv, .hangup => some (sh, { p with pc := .closing })
  | .bind req, .label l =>
    match bindDomain l p.ss req with
    | .error _ => some (sh, { p with pc := .closing })
    | .ok ss => some (sh, { p with ss := ss, pc := afterBind cfg req })
  | .usages [] reports, .tick => some (sh, { p with pc := .load reports })
  | .usages (u :: us) reports, .tick => some (sh, trackStep cfg p u us reports)
  | .incRef key u us reports, .tick =>
    some ({ sh with bucketRefs := addRef sh.bucketRefs (domainScopedKey p.ss.domain key) },
      { p with pc := .gaugeInc u us reports, held := key :: p.held })
  | .gaugeInc u us reports, .tick =>
    some ({ sh with activeBuckets := moveGauge sh.activeBuckets p.ss.metricDomain 1 },
      { p with pc := .record u us reports })
  | .record u us reports, .tick =>
    some ({ sh with store := (BucketStore.recordUsage sh.store p.ss.domain u.toReport).1 },
      { p with pc := .usages us (reports ++ [u.toReport]) })
  | .load reports, .tick => some (sh, { p with pc := .process sh.engine reports })
  | .process v _, .reply r =>
    match r with
    | .error _ => some (sh, { p with pc := .closing })
    | .ok [] => some (sh, { p with pc := .recv })
    | .ok (a :: as) => some (sh, { p with pc := .actions v (a :: as) (a :: as) })
  | .actions v [] all, .tick => some (sh, { p with pc := .send v all })
  | .actions v (a :: rest) all, .tick => some (sh, abandonStep p v a rest all)
  | .decRef key k, .tick =>
    let r := dropRef sh.bucketRefs (domainScopedKey p.ss.domain key)
    some ({ sh with bucketRefs := r.1 },
      { p with pc := if r.2 then .remove key k else k.resume, held := p.held.erase key })
  | .remove key k, .tick =>
    some ({ sh with store := (BucketStore.removeBucket sh.store p.ss.domain key).1 },
      { p with pc := k.resume })
  | .gaugeDec v rest all, .tick =>
    some ({ sh with activeBuckets := moveGauge sh.activeBuckets p.ss.metricDomain (-1) },
      { p with pc := .actions v rest all })
  | .send v all, .sent none => some (sh, { p with pc := .recv, sent := p.sent ++ [(v, all)] })
  | .send _ _, .sent (some _) => some (sh, { p with pc := .closing })
  | .closing, .tick =>
    some ({ sh with activeStreams := sh.activeStreams - 1 }, { p with pc := .unregister })
  | .unregister, .tick =>
    some (sh, { p with
      registered := false
      pc := if p.ss.domainBound then .cleanup p.ss.subscriptions.keys else .done })
  | .cleanup [], .tick => some (sh, { p with pc := .done })
  | .cleanup todo, .pick key =>
    if key ∈ todo then
      some ({ sh with activeBuckets := moveGauge sh.activeBuckets p.ss.metricDomain (-1) },
        { p with pc := .decRef key (.cleanup (todo.erase key)) })
    else none
  | _, _ => none

/-- All handlers of one server instance. -/
def serverMachine (σ : Type) [BucketStore σ] (cfg : Limits) :
    Machine (Shared σ) Handler Unit Input where
  init _ := newHandler
  step := handlerStep cfg

/-- A server just made: no stream, no reference, gauges at zero. -/
def newServer (store : σ) : Pool (Shared σ) Handler :=
  ⟨⟨∅, store, 0, 0, fun _ => 0⟩, []⟩

/-- Stream `i` opens and sends the sample report; the engine answers nothing. -/
def reportMoves (i : ℕ) : List (Move Unit Input) :=
  [.act i .tick, .act i .tick, .act i (.recv sampleReq), .act i (.label []), .act i .tick,
   .act i .tick, .act i .tick, .act i .tick, .act i .tick, .act i .tick, .act i (.reply (.ok []))]

-- ---------------------------------------------------------------------------
-- What a step can do
-- ---------------------------------------------------------------------------

theorem trackStep_cases (cfg : Limits) (p : Handler) (u : BucketQuotaUsage)
    (us : List BucketQuotaUsage) (reports : List UsageReport) :
    (checkUsage cfg u = .skip ∧
      trackStep cfg p u us reports = { p with pc := .usages us reports }) ∨
    trackStep cfg p u us reports = { p with pc := .closing } ∨
    (∃ id, u.bucketId = some id ∧ Admitted cfg id ∧
      bucketKeyFromProto u.bucketId ∈ p.ss.subscriptions ∧
      trackStep cfg p u us reports = { p with pc := .record u us reports }) ∨
    (∃ id, u.bucketId = some id ∧ Admitted cfg id ∧
      bucketKeyFromProto u.bucketId ∉ p.ss.subscriptions ∧
      trackStep cfg p u us reports =
        { p with
          ss := { p.ss with
            subscriptions := p.ss.subscriptions.insert (bucketKeyFromProto u.bucketId) id }
          pc := .incRef (bucketKeyFromProto u.bucketId) u us reports }) := by
  unfold trackStep
  split
  · rename_i hc
    exact Or.inl ⟨hc, rfl⟩
  · exact Or.inr (Or.inl rfl)
  · rename_i id hc
    obtain ⟨hid, hadm⟩ := checkUsage_accept hc
    rw [hid]
    rcases trackSubscription_cases cfg p.ss (bucketKeyFromProto (some id)) id with
      ⟨hmem, ht⟩ | ⟨e, ht⟩ | ⟨hmem, ht⟩
    · exact Or.inr (Or.inr (Or.inl ⟨id, rfl, hadm, hmem, by simp only [ht]⟩))
    · exact Or.inr (Or.inl (by simp only [ht]))
    · exact Or.inr (Or.inr (Or.inr ⟨id, rfl, hadm, hmem, by simp only [ht]⟩))

theorem abandonStep_cases (p : Handler) (v : ℕ) (a : BucketAction) (rest all : List BucketAction) :
    abandonStep p v a rest all = { p with pc := .actions v rest all } ∨
    (a.bucketAction = .abandon ∧ bucketKeyFromProto a.bucketId ∈ p.ss.subscriptions ∧
      abandonStep p v a rest all =
        { p with
          ss := { p.ss with
            subscriptions := p.ss.subscriptions.erase (bucketKeyFromProto a.bucketId) }
          pc := .decRef (bucketKeyFromProto a.bucketId) (.abandon v rest all) }) := by
  unfold abandonStep
  split
  · rename_i ha
    by_cases hmem : bucketKeyFromProto a.bucketId ∈ p.ss.subscriptions
    · exact Or.inr ⟨ha, hmem, if_pos hmem⟩
    · exact Or.inl (if_neg hmem)
  · exact Or.inl rfl

/-- The bucket a handler is about to remove from the store. -/
def PC.removing : PC → Option BucketKey
  | .remove key _ => some key
  | _ => none

/-- Everything a step does to `bucketRefs`, the store and the references held:
nothing, an increment, a recorded report, a decrement, or a removal. -/
inductive Effect (sh : Shared σ) (p : Handler) : Shared σ → Handler → Prop where
  | quiet {sh' p'} (hrefs : sh'.bucketRefs = sh.bucketRefs) (hstore : sh'.store = sh.store)
      (hheld : p'.held = p.held)
      (hdom : p.ss.domainBound = true → p'.ss.domain = p.ss.domain)
      (hnot : p.pc.removing = none) (hpend : p'.pc.removing = none) : Effect sh p sh' p'
  | counted {key u us reports} (hpc : p.pc = .incRef key u us reports) :
      Effect sh p
        { sh with bucketRefs := addRef sh.bucketRefs (domainScopedKey p.ss.domain key) }
        { p with pc := .gaugeInc u us reports, held := key :: p.held }
  | recorded {u us reports} (hpc : p.pc = .record u us reports) :
      Effect sh p
        { sh with store := (BucketStore.recordUsage sh.store p.ss.domain u.toReport).1 }
        { p with pc := .usages us (reports ++ [u.toReport]) }
  | released {key k} (hpc : p.pc = .decRef key k) :
      Effect sh p
        { sh with bucketRefs := (dropRef sh.bucketRefs (domainScopedKey p.ss.domain key)).1 }
        { p with
          pc := if (dropRef sh.bucketRefs (domainScopedKey p.ss.domain key)).2 then .remove key k
            else k.resume
          held := p.held.erase key }
  | removed {key k} (hpc : p.pc = .remove key k) :
      Effect sh p
        { sh with store := (BucketStore.removeBucket sh.store p.ss.domain key).1 }
        { p with pc := k.resume }

theorem After.resume_removing (k : After) : k.resume.removing = none := by
  cases k <;> rfl

theorem afterBind_cases (cfg : Limits) (req : UsageReports) :
    afterBind cfg req = .recv ∨ afterBind cfg req = .closing ∨
      afterBind cfg req = .usages req.bucketQuotaUsages [] := by
  unfold afterBind
  split
  · exact Or.inl rfl
  · split
    · exact Or.inr (Or.inl rfl)
    · exact Or.inr (Or.inr rfl)

-- ---------------------------------------------------------------------------
-- Inversion
-- ---------------------------------------------------------------------------

/-- Everything a step of a handler can do, branch by branch. -/
inductive HandlerTurn (cfg : Limits) (sh : Shared σ) (p : Handler) :
    Input → Shared σ → Handler → Prop
  | start (hpc : p.pc = .start) :
      HandlerTurn cfg sh p .tick sh { p with pc := .opened, registered := true }
  | opened (hpc : p.pc = .opened) :
      HandlerTurn cfg sh p .tick { sh with activeStreams := sh.activeStreams + 1 }
        { p with pc := .recv }
  | recv {req : UsageReports} (hpc : p.pc = .recv) :
      HandlerTurn cfg sh p (.recv req) sh { p with pc := .bind req }
  | hangup (hpc : p.pc = .recv) : HandlerTurn cfg sh p .hangup sh { p with pc := .closing }
  | bindFailed {req : UsageReports} {l : Str} {e : Status} (hpc : p.pc = .bind req)
      (hbind : bindDomain l p.ss req = .error e) :
      HandlerTurn cfg sh p (.label l) sh { p with pc := .closing }
  | bound {req : UsageReports} {l : Str} {ss : StreamState} (hpc : p.pc = .bind req)
      (hbind : bindDomain l p.ss req = .ok ss) :
      HandlerTurn cfg sh p (.label l) sh { p with ss := ss, pc := afterBind cfg req }
  | usagesDone {reports : List UsageReport} (hpc : p.pc = .usages [] reports) :
      HandlerTurn cfg sh p .tick sh { p with pc := .load reports }
  | usage {u : BucketQuotaUsage} {us : List BucketQuotaUsage} {reports : List UsageReport}
      (hpc : p.pc = .usages (u :: us) reports) :
      HandlerTurn cfg sh p .tick sh (trackStep cfg p u us reports)
  | incRef {key : BucketKey} {u : BucketQuotaUsage} {us : List BucketQuotaUsage}
      {reports : List UsageReport} (hpc : p.pc = .incRef key u us reports) :
      HandlerTurn cfg sh p .tick
        { sh with bucketRefs := addRef sh.bucketRefs (domainScopedKey p.ss.domain key) }
        { p with pc := .gaugeInc u us reports, held := key :: p.held }
  | gaugeInc {u : BucketQuotaUsage} {us : List BucketQuotaUsage} {reports : List UsageReport}
      (hpc : p.pc = .gaugeInc u us reports) :
      HandlerTurn cfg sh p .tick
        { sh with activeBuckets := moveGauge sh.activeBuckets p.ss.metricDomain 1 }
        { p with pc := .record u us reports }
  | record {u : BucketQuotaUsage} {us : List BucketQuotaUsage} {reports : List UsageReport}
      (hpc : p.pc = .record u us reports) :
      HandlerTurn cfg sh p .tick
        { sh with store := (BucketStore.recordUsage sh.store p.ss.domain u.toReport).1 }
        { p with pc := .usages us (reports ++ [u.toReport]) }
  | load {reports : List UsageReport} (hpc : p.pc = .load reports) :
      HandlerTurn cfg sh p .tick sh { p with pc := .process sh.engine reports }
  | processFailed {v : ℕ} {reports : List UsageReport} {e : GoError}
      (hpc : p.pc = .process v reports) :
      HandlerTurn cfg sh p (.reply (.error e)) sh { p with pc := .closing }
  | processedNone {v : ℕ} {reports : List UsageReport} (hpc : p.pc = .process v reports) :
      HandlerTurn cfg sh p (.reply (.ok [])) sh { p with pc := .recv }
  | processed {v : ℕ} {reports : List UsageReport} {a : BucketAction} {as : List BucketAction}
      (hpc : p.pc = .process v reports) :
      HandlerTurn cfg sh p (.reply (.ok (a :: as))) sh
        { p with pc := .actions v (a :: as) (a :: as) }
  | actionsDone {v : ℕ} {all : List BucketAction} (hpc : p.pc = .actions v [] all) :
      HandlerTurn cfg sh p .tick sh { p with pc := .send v all }
  | action {v : ℕ} {a : BucketAction} {rest all : List BucketAction}
      (hpc : p.pc = .actions v (a :: rest) all) :
      HandlerTurn cfg sh p .tick sh (abandonStep p v a rest all)
  | decRef {key : BucketKey} {k : After} (hpc : p.pc = .decRef key k) :
      HandlerTurn cfg sh p .tick
        { sh with bucketRefs := (dropRef sh.bucketRefs (domainScopedKey p.ss.domain key)).1 }
        { p with
          pc := if (dropRef sh.bucketRefs (domainScopedKey p.ss.domain key)).2 then .remove key k
            else k.resume
          held := p.held.erase key }
  | remove {key : BucketKey} {k : After} (hpc : p.pc = .remove key k) :
      HandlerTurn cfg sh p .tick
        { sh with store := (BucketStore.removeBucket sh.store p.ss.domain key).1 }
        { p with pc := k.resume }
  | gaugeDec {v : ℕ} {rest all : List BucketAction} (hpc : p.pc = .gaugeDec v rest all) :
      HandlerTurn cfg sh p .tick
        { sh with activeBuckets := moveGauge sh.activeBuckets p.ss.metricDomain (-1) }
        { p with pc := .actions v rest all }
  | sent {v : ℕ} {all : List BucketAction} (hpc : p.pc = .send v all) :
      HandlerTurn cfg sh p (.sent none) sh { p with pc := .recv, sent := p.sent ++ [(v, all)] }
  | sendFailed {v : ℕ} {all : List BucketAction} {e : GoError} (hpc : p.pc = .send v all) :
      HandlerTurn cfg sh p (.sent (some e)) sh { p with pc := .closing }
  | closing (hpc : p.pc = .closing) :
      HandlerTurn cfg sh p .tick { sh with activeStreams := sh.activeStreams - 1 }
        { p with pc := .unregister }
  | unregister (hpc : p.pc = .unregister) :
      HandlerTurn cfg sh p .tick sh
        { p with
          registered := false
          pc := if p.ss.domainBound then .cleanup p.ss.subscriptions.keys else .done }
  | cleanupDone (hpc : p.pc = .cleanup []) : HandlerTurn cfg sh p .tick sh { p with pc := .done }
  | picked {todo : List BucketKey} {key : BucketKey} (hpc : p.pc = .cleanup todo)
      (hkey : key ∈ todo) :
      HandlerTurn cfg sh p (.pick key)
        { sh with activeBuckets := moveGauge sh.activeBuckets p.ss.metricDomain (-1) }
        { p with pc := .decRef key (.cleanup (todo.erase key)) }

theorem handlerStep_turn {cfg : Limits} {sh sh' : Shared σ} {p p' : Handler} {x : Input}
    (h : handlerStep cfg sh p x = some (sh', p')) : HandlerTurn cfg sh p x sh' p' := by
  unfold handlerStep at h
  split at h
  case h_5 req l hpc =>
    split at h
    · rename_i hbind
      cases h
      exact .bindFailed hpc hbind
    · rename_i hbind
      cases h
      exact .bound hpc hbind
  case h_12 v reports r hpc =>
    split at h
    · cases h
      exact .processFailed hpc
    · cases h
      exact .processedNone hpc
    · cases h
      exact .processed hpc
  case h_23 todo key hpc =>
    split at h
    · rename_i hkey
      cases h
      exact .picked hpc hkey
    · simp at h
  case h_24 => cases h
  -- the other branches have one outcome
  all_goals
    rename_i hpc
    cases h
  · exact .start hpc
  · exact .opened hpc
  · exact .recv hpc
  · exact .hangup hpc
  · exact .usagesDone hpc
  · exact .usage hpc
  · exact .incRef hpc
  · exact .gaugeInc hpc
  · exact .record hpc
  · exact .load hpc
  · exact .actionsDone hpc
  · exact .action hpc
  · exact .decRef hpc
  · exact .remove hpc
  · exact .gaugeDec hpc
  · exact .sent hpc
  · exact .sendFailed hpc
  · exact .closing hpc
  · exact .unregister hpc
  · exact .cleanupDone hpc

/-- Every step is one of the five effects. -/
theorem handlerStep_cases {cfg : Limits} {sh sh' : Shared σ} {p p' : Handler} {x : Input}
    (h : handlerStep cfg sh p x = some (sh', p')) : Effect sh p sh' p' := by
  cases handlerStep_turn h with
  | @bound req l ss hpc hbind =>
    -- the domain section: an unbound stream may take its domain here
    refine .quiet rfl rfl rfl (fun hbound => by rw [(bindDomain_ok hbind).2.2.1 hbound])
      (by rw [hpc]; rfl) ?_
    rcases afterBind_cases cfg req with ha | ha | ha <;> rw [ha] <;> rfl
  | @usage u us reports hpc =>
    have hnot : p.pc.removing = none := by rw [hpc]; rfl
    rcases trackStep_cases cfg p u us reports with
      ⟨-, ht⟩ | ht | ⟨id, -, -, -, ht⟩ | ⟨id, -, -, -, ht⟩
    all_goals
      rw [ht]
      exact .quiet rfl rfl rfl (fun _ => rfl) hnot rfl
  | incRef hpc => exact .counted hpc
  | record hpc => exact .recorded hpc
  | @action v a rest all hpc =>
    have hnot : p.pc.removing = none := by rw [hpc]; rfl
    rcases abandonStep_cases p v a rest all with ht | ⟨-, -, ht⟩
    all_goals
      rw [ht]
      exact .quiet rfl rfl rfl (fun _ => rfl) hnot rfl
  | decRef hpc => exact .released hpc
  | remove hpc => exact .removed hpc
  | unregister hpc =>
    refine .quiet rfl rfl rfl (fun _ => rfl) (by rw [hpc]; rfl) ?_
    show PC.removing (if p.ss.domainBound then _ else _) = none
    split <;> rfl
  | _ hpc => exact .quiet rfl rfl rfl (fun _ => rfl) (by rw [hpc]; rfl) rfl

end Rlqs
