import Rlqs.Server.RefCount

/-!
# RLQS server — `SwapEngine` and the push goroutines

`SwapEngine` installs an engine and starts a goroutine that pushes assignments
of that engine to the streams. The model adds these goroutines to the handlers
of `Server/Atomic.lean`: the `s.mu` section that lists the streams, for each
stream the `ss.mu` section that lists its subscriptions, the call of the
engine, and `Send` are one step each, and interleave with the handlers' steps
and with each other. A stream's responses go to the `sent` list of its handler,
whoever sends them; `sendMu` makes each `Send` one step.

Engines are named by the order in which they are installed: `engines v` is the
`v`-th one. Here a handler's engine call answers what the loaded engine
answers, and no `Send` fails.

* `pushStep` — the atomic step of a push goroutine;
* `World.next` — handlers, pushes and swaps;
* `PushEffect`, `World.next_cases` — what a step can do;
* `World.owes` — a response of the installed engine for a stream and a bucket is
  still to come, from the stream's handler or from a push;
* `handlerStep_progress` — what a handler's step does to the subscriptions,
  the responses sent and the responses to come.
-/

namespace Rlqs

open Interleave Steps

-- ---------------------------------------------------------------------------
-- Push goroutines
-- ---------------------------------------------------------------------------

/-- The control points of `pushAssignments`. -/
inductive PushPC where
  | snapshot
  | visit (todo : List ℕ)
  | process (i : ℕ) (domain : Str) (reports : List UsageReport) (todo : List ℕ)
  | send (i : ℕ) (actions : List BucketAction) (todo : List ℕ)

/-- A push goroutine and the engine it was started with. -/
structure Push where
  version : ℕ
  pc : PushPC

/-- The choices of the environment: the iteration order of `range s.streams` and
of `range ss.subscriptions`. -/
inductive PushInput where
  | streams (order : List ℕ)
  | subscriptions (order : List BucketKey)
  | tick

/-- The streams in `s.streams`. -/
def registeredStreams (hs : List Handler) : List ℕ :=
  (List.range hs.length).filter fun i => hs[i]?.any Handler.registered

/-- The reports a push builds from the subscriptions. -/
def pushReports (ss : StreamState) (order : List BucketKey) : List UsageReport :=
  order.filterMap fun key => (ss.subscriptions.lookup key).map fun id => ⟨some id, 0, 0, 0⟩

/-- One atomic step of a push with engine `engine`, the `v`-th one. -/
def pushStep (engine : Engine) (v : ℕ) (hs : List Handler) :
    PushPC → PushInput → Option (List Handler × PushPC)
  | .snapshot, .streams order =>
    if order.Perm (registeredStreams hs) then some (hs, .visit order) else none
  | .visit (i :: todo), .subscriptions order =>
    match hs[i]? with
    | none => none
    | some p =>
      if !p.ss.domainBound || GoMap.len p.ss.subscriptions == 0 then some (hs, .visit todo)
      else if order.Perm p.ss.subscriptions.keys then
        some (hs, .process i p.ss.domain (pushReports p.ss order) todo)
      else none
  | .process i domain reports todo, .tick =>
    match engine domain reports with
    | .error _ => some (hs, .visit todo)
    | .ok [] => some (hs, .visit todo)
    | .ok (a :: as) => some (hs, .send i (a :: as) todo)
  | .send i actions todo, .tick =>
    match hs[i]? with
    | none => none
    | some p => some (hs.set i { p with sent := p.sent ++ [(v, actions)] }, .visit todo)
  | _, _ => none

-- ---------------------------------------------------------------------------
-- Handlers, pushes and swaps
-- ---------------------------------------------------------------------------

structure World (σ : Type) where
  pool : Pool (Shared σ) Handler
  pushes : List Push

/-- A stream is opened, a handler takes a step, an engine is installed, or a
push takes a step. -/
inductive SwapMove where
  | connect
  | handler (i : ℕ) (x : Input)
  | swap
  | push (j : ℕ) (x : PushInput)

/-- The engine's reply is that of the loaded engine, and `Send` succeeds; the
other choices are the environment's. -/
def answered (engines : ℕ → Engine) (p : Handler) : Input → Input
  | .reply r =>
    match p.pc with
    | .process v reports => .reply (engines v p.ss.domain reports)
    | _ => .reply r
  | .sent _ => .sent none
  | x => x

variable {σ : Type} [BucketStore σ]

/-- The name of the installed engine. -/
def World.engine (w : World σ) : ℕ := w.pool.shared.engine

/-- One move. The engines of a run are of one concrete type: the `atomic.Value`
that `SwapEngine` writes does not take another (`atomicStore` in
`Main/Reload.lean`). -/
def World.next (cfg : Limits) (engines : ℕ → Engine) (w : World σ) :
    SwapMove → Option (World σ)
  | .connect =>
    ((serverMachine σ cfg).next w.pool (.spawn ())).map fun pool => { w with pool := pool }
  | .handler i x =>
    match w.pool.procs[i]? with
    | none => none
    | some p => ((serverMachine σ cfg).next w.pool (.act i (answered engines p x))).map
        fun pool => { w with pool := pool }
  | .swap =>
    some ⟨{ w.pool with shared := { w.pool.shared with engine := w.engine + 1 } },
      w.pushes ++ [⟨w.engine + 1, .snapshot⟩]⟩
  | .push j x =>
    match w.pushes[j]? with
    | none => none
    | some q => (pushStep (engines q.version) q.version w.pool.procs q.pc x).map fun c =>
        ⟨{ w.pool with procs := c.1 }, w.pushes.set j { q with pc := c.2 }⟩

/-- A handler takes its stream's first message, the sample report, to the engine. -/
def askInputs : List Input :=
  [.tick, .tick, .recv sampleReq, .label [], .tick, .tick, .tick, .tick, .tick, .tick]

/-- A server just made, with its first engine. -/
def newWorld (store : σ) : World σ := ⟨newServer store, []⟩

-- ---------------------------------------------------------------------------
-- What pushes and moves can do
-- ---------------------------------------------------------------------------

/-- Everything a push's step can do, with the input it takes. -/
inductive PushEffect (engine : Engine) (v : ℕ) (hs : List Handler) :
    PushPC → PushInput → List Handler → PushPC → Prop where
  | listed {order : List ℕ} (horder : order.Perm (registeredStreams hs)) :
      PushEffect engine v hs .snapshot (.streams order) hs (.visit order)
  | skipped {i : ℕ} {todo : List ℕ} {order : List BucketKey} {p : Handler} (hp : hs[i]? = some p)
      (hnone : p.ss.domainBound = false ∨ GoMap.len p.ss.subscriptions = 0) :
      PushEffect engine v hs (.visit (i :: todo)) (.subscriptions order) hs (.visit todo)
  | collected {i : ℕ} {todo : List ℕ} {order : List BucketKey} {p : Handler}
      (hp : hs[i]? = some p) (hbound : p.ss.domainBound = true)
      (hsome : GoMap.len p.ss.subscriptions ≠ 0) (horder : order.Perm p.ss.subscriptions.keys) :
      PushEffect engine v hs (.visit (i :: todo)) (.subscriptions order) hs
        (.process i p.ss.domain (pushReports p.ss order) todo)
  | unanswered {i : ℕ} {domain : Str} {reports : List UsageReport} {todo : List ℕ}
      (hreply : ∀ a as, engine domain reports ≠ .ok (a :: as)) :
      PushEffect engine v hs (.process i domain reports todo) .tick hs (.visit todo)
  | replied {i : ℕ} {domain : Str} {reports : List UsageReport} {todo : List ℕ}
      {a : BucketAction} {as : List BucketAction} (hreply : engine domain reports = .ok (a :: as)) :
      PushEffect engine v hs (.process i domain reports todo) .tick hs (.send i (a :: as) todo)
  | sent {i : ℕ} {actions : List BucketAction} {todo : List ℕ} {p : Handler}
      (hp : hs[i]? = some p) :
      PushEffect engine v hs (.send i actions todo) .tick
        (hs.set i { p with sent := p.sent ++ [(v, actions)] }) (.visit todo)

theorem pushStep_cases {engine : Engine} {v : ℕ} {hs hs' : List Handler} {pc pc' : PushPC}
    {x : PushInput} (h : pushStep engine v hs pc x = some (hs', pc')) :
    PushEffect engine v hs pc x hs' pc' := by
  unfold pushStep at h
  split at h
  · split at h
    · rename_i horder
      cases h
      exact .listed horder
    · simp at h
  · split at h
    · simp at h
    · rename_i p hp
      split at h
      · rename_i hnone
        cases h
        exact .skipped hp (by simpa using hnone)
      · rename_i hask
        simp only [Bool.or_eq_true, Bool.not_eq_true', beq_iff_eq, not_or, Bool.not_eq_false]
          at hask
        split at h
        · rename_i horder
          cases h
          exact .collected hp hask.1 hask.2 horder
        · simp at h
  · split at h
    · rename_i e hreply
      cases h
      exact .unanswered fun a as heq => by rw [hreply] at heq; cases heq
    · rename_i hreply
      cases h
      exact .unanswered fun a as heq => by rw [hreply] at heq; cases heq
    · rename_i a as hreply
      cases h
      exact .replied hreply
  · split at h
    · simp at h
    · rename_i p hp
      cases h
      exact .sent hp
  · simp at h

/-- Everything a move can do. -/
theorem World.next_cases {cfg : Limits} {engines : ℕ → Engine} {w w' : World σ} {m : SwapMove}
    (h : w.next cfg engines m = some w') :
    (m = .connect ∧ w' = ⟨⟨w.pool.shared, w.pool.procs ++ [newHandler]⟩, w.pushes⟩) ∨
    (∃ i x p sh' p', m = .handler i x ∧ w.pool.procs[i]? = some p ∧
      handlerStep cfg w.pool.shared p (answered engines p x) = some (sh', p') ∧
      w' = ⟨⟨sh', w.pool.procs.set i p'⟩, w.pushes⟩) ∨
    (m = .swap ∧ w' = ⟨{ w.pool with shared := { w.pool.shared with engine := w.engine + 1 } },
      w.pushes ++ [⟨w.engine + 1, .snapshot⟩]⟩) ∨
    (∃ j x q hs' pc', m = .push j x ∧ w.pushes[j]? = some q ∧
      pushStep (engines q.version) q.version w.pool.procs q.pc x = some (hs', pc') ∧
      w' = ⟨{ w.pool with procs := hs' }, w.pushes.set j { q with pc := pc' }⟩) := by
  cases m with
  | connect => exact Or.inl ⟨rfl, (Option.some.inj h).symm⟩
  | handler i x =>
    simp only [World.next] at h
    split at h
    · simp at h
    · rename_i p hp
      obtain ⟨pool, hpool, rfl⟩ := Option.map_eq_some_iff.mp h
      rcases Interleave.next_cases hpool with ⟨a, hm, -⟩ | ⟨j, y, q, sh', p', hm, hq, hs, rfl⟩
      · simp at hm
      · cases hm
        obtain rfl : p = q := Option.some.inj (hp.symm.trans hq)
        exact Or.inr (Or.inl ⟨i, x, p, sh', p', rfl, hp, hs, rfl⟩)
  | swap => exact Or.inr (Or.inr (Or.inl ⟨rfl, (Option.some.inj h).symm⟩))
  | push j x =>
    simp only [World.next] at h
    split at h
    · simp at h
    · rename_i q hq
      obtain ⟨⟨hs', pc'⟩, hstep, rfl⟩ := Option.map_eq_some_iff.mp h
      exact Or.inr (Or.inr (Or.inr ⟨j, x, q, hs', pc', rfl, hq, hstep, rfl⟩))

-- ---------------------------------------------------------------------------
-- Responses sent and responses to come
-- ---------------------------------------------------------------------------

def UsageReport.key (r : UsageReport) : BucketKey := bucketKeyFromProto r.bucketId

/-- The buckets of a response. -/
def actionKeys (actions : List BucketAction) : List BucketKey :=
  actions.map fun a => bucketKeyFromProto a.bucketId

/-- The engine of the last response with an action for the bucket. -/
def lastVersion (sent : List (ℕ × List BucketAction)) (key : BucketKey) : Option ℕ :=
  sent.foldl (fun last r => if key ∈ actionKeys r.2 then some r.1 else last) none

/-- The reports of the message being handled that the response will answer. -/
def PC.reports : PC → List UsageReport
  | .usages _ reports => reports
  | .incRef _ u _ reports => u.toReport :: reports
  | .gaugeInc u _ reports => u.toReport :: reports
  | .record u _ reports => u.toReport :: reports
  | .load reports => reports
  | .process _ reports => reports
  | _ => []

/-- The response being handled. -/
def PC.response : PC → List BucketAction
  | .actions _ _ all => all
  | .gaugeDec _ _ all => all
  | .send _ all => all
  | _ => []

/-- The engine a handler has loaded for the message being handled. -/
def PC.version : PC → Option ℕ
  | .process v _ => some v
  | .actions v _ _ => some v
  | .gaugeDec v _ _ => some v
  | .send v _ => some v
  | _ => none

/-- The handler is going to answer for the bucket, with engine `v`: it has
loaded that engine, or none yet. -/
def Handler.owes (v : ℕ) (key : BucketKey) (p : Handler) : Bool :=
  p.pc.version.all (· == v) &&
    (key ∈ p.pc.reports.map UsageReport.key ∨ key ∈ actionKeys p.pc.response)

/-- The push is going to send to stream `i` for the bucket, or has yet to list
the stream's subscriptions. -/
def PushPC.owes (i : ℕ) (key : BucketKey) : PushPC → Bool
  | .snapshot => true
  | .visit todo => i ∈ todo
  | .process i' _ reports todo => (i = i' ∧ key ∈ reports.map UsageReport.key) ∨ i ∈ todo
  | .send i' actions todo => (i = i' ∧ key ∈ actionKeys actions) ∨ i ∈ todo

/-- A push of the installed engine is going to send to stream `i` for the bucket. -/
def World.pushOwes (w : World σ) (i : ℕ) (key : BucketKey) : Bool :=
  w.pushes.any fun q => q.version == w.engine && q.pc.owes i key

/-- A response of the installed engine is still to come. -/
def World.owes (w : World σ) (i : ℕ) (key : BucketKey) : Bool :=
  w.pool.procs[i]?.any (Handler.owes w.engine key) || w.pushOwes i key

/-- The response a move sends: stream, engine, actions. -/
def World.sends (w : World σ) : SwapMove → Option (ℕ × ℕ × List BucketAction)
  | .handler i (.sent _) =>
    match w.pool.procs[i]?.map Handler.pc with
    | some (.send v all) => some (i, v, all)
    | _ => none
  | .push j .tick =>
    match w.pushes[j]? with
    | some ⟨v, .send i actions _⟩ => some (i, v, actions)
    | _ => none
  | _ => none

/-- A response of a replaced engine is sent on a registered stream only while,
for each subscribed bucket in it, a response of the installed engine is still
to come on that stream. -/
def staleFirst (w : World σ) (m : SwapMove) : Bool :=
  match w.sends m with
  | none => true
  | some (i, v, actions) => v == w.engine || w.pool.procs[i]?.all fun p =>
      !p.registered || (actionKeys actions).all fun key =>
        !decide (key ∈ p.ss.subscriptions) || w.owes i key

/-- The handler is between messages, or not running. -/
def PC.idle : PC → Bool
  | .start => true
  | .opened => true
  | .recv => true
  | .done => true
  | _ => false

def PushPC.finished : PushPC → Bool
  | .visit [] => true
  | _ => false

/-- No handler and no push is in flight. -/
def World.quiescent (w : World σ) : Bool :=
  w.pool.procs.all (fun p => p.pc.idle) && w.pushes.all fun q => q.pc.finished

-- ---------------------------------------------------------------------------
-- What a handler's step does
-- ---------------------------------------------------------------------------

/-- The handler has not left its receive loop. The abandon loop's releases do
not count: the engines of this module abandon nothing. -/
def PC.serving : PC → Bool
  | .decRef _ _ => false
  | .remove _ _ => false
  | .closing => false
  | .unregister => false
  | .cleanup _ => false
  | .done => false
  | _ => true

/-- An action still to be handled abandons its bucket. -/
def PC.abandons : PC → Bool
  | .actions _ todo _ => todo.any fun a => a.bucketAction == .abandon
  | .gaugeDec _ _ _ => true
  | .decRef _ (.abandon _ _ _) => true
  | .remove _ (.abandon _ _ _) => true
  | _ => false

/-- Subscriptions are filed under the keys of their buckets, none of them empty,
the reports to be answered have buckets, and nothing is abandoned. -/
structure Handler.Sound (p : Handler) : Prop where
  entry : ∀ key id, p.ss.subscriptions.lookup key = some id →
    key = bucketKeyFromProto (some id) ∧ GoMap.len id.bucket ≠ 0
  reports : ∀ r ∈ p.pc.reports, r.nonEmpty = true
  abandons : p.pc.abandons = false

/-- What a step does with engine `v` installed: the handler leaves its loop; or
it goes on, and what is new in the subscriptions and what was to come is still
to come; or it sends. -/
inductive Progress (v : ℕ) (p : Handler) : Handler → Prop where
  | leaves {p'} (hpc : p'.pc.serving = false) : Progress v p p'
  | goes {p'} (hserving : p.pc.serving = true)
      (hsubs : ∀ key ∈ p'.ss.subscriptions,
        key ∈ p.ss.subscriptions ∨ p'.owes v key = true)
      (hsent : p'.sent = p.sent) (howes : ∀ key, p.owes v key = true → p'.owes v key = true) :
      Progress v p p'
  | sends (u : ℕ) (all : List BucketAction) (hpc : p.pc = .send u all) :
      Progress v p { p with pc := .recv, sent := p.sent ++ [(u, all)] }

theorem lastVersion_append (sent : List (ℕ × List BucketAction)) (v : ℕ)
    (actions : List BucketAction) (key : BucketKey) :
    lastVersion (sent ++ [(v, actions)]) key =
      if key ∈ actionKeys actions then some v else lastVersion sent key := by
  unfold lastVersion
  rw [List.foldl_append]
  rfl

/-- An engine that answers all gives each report with a bucket its action. -/
theorem AnswersAll.keys {e : Engine} (he : AnswersAll e) (domain : Str)
    {reports : List UsageReport} (hreports : ∀ r ∈ reports, r.nonEmpty = true) :
    ∃ actions, e domain reports = .ok actions ∧
      actionKeys actions = reports.map UsageReport.key ∧
      ∀ a ∈ actions, a.bucketAction ≠ .abandon := by
  obtain ⟨actions, hok, hids, hassign⟩ := he domain reports
  refine ⟨actions, hok, ?_, fun a ha => ?_⟩
  · rw [List.filter_eq_self.mpr hreports] at hids
    have hmap := congrArg (List.map bucketKeyFromProto) hids
    rw [List.map_map, List.map_map] at hmap
    exact hmap
  · obtain ⟨q, hq⟩ := hassign a ha
    rw [hq]
    exact fun h => nomatch h

theorem answered_reply {engines : ℕ → Engine} {p : Handler} {x : Input}
    {r : Except GoError (List BucketAction)} {v : ℕ} {reports : List UsageReport}
    (hpc : p.pc = .process v reports) (h : answered engines p x = .reply r) :
    r = engines v p.ss.domain reports := by
  cases x with
  | reply r' =>
    simp only [answered, hpc] at h
    exact (Input.reply.inj h).symm
  | tick => cases h
  | recv req => cases h
  | hangup => cases h
  | label l => cases h
  | sent e => cases h
  | pick key => cases h

theorem answered_sent {engines : ℕ → Engine} {p : Handler} {x : Input} {e : Option GoError}
    (h : answered engines p x = .sent e) : e = none := by
  cases x with
  | reply r' =>
    simp only [answered] at h
    split at h <;> cases h
  | tick => cases h
  | recv req => cases h
  | hangup => cases h
  | label l => cases h
  | sent e' =>
    cases h
    rfl
  | pick key => cases h

theorem Handler.owes_iff {v : ℕ} {key : BucketKey} {p : Handler} :
    p.owes v key = true ↔ (∀ u, p.pc.version = some u → u = v) ∧
      (key ∈ p.pc.reports.map UsageReport.key ∨ key ∈ actionKeys p.pc.response) := by
  unfold Handler.owes
  rw [Bool.and_eq_true, decide_eq_true_iff]
  refine and_congr_left fun _ => ?_
  cases p.pc.version with
  | none => simp
  | some u => simp

/-- A handler that has not loaded an engine answers with the installed one. -/
theorem Handler.owes_of_reports {v : ℕ} {key : BucketKey} {p : Handler}
    (hversion : p.pc.version = none) (hkey : key ∈ p.pc.reports.map UsageReport.key) :
    p.owes v key = true := by
  refine Handler.owes_iff.mpr ⟨fun u hu => ?_, Or.inl hkey⟩
  rw [hversion] at hu
  simp at hu

/-- A step to `pc` with the stream as it was. -/
theorem Handler.Sound.goto {p : Handler} (h : p.Sound) {pc : PC}
    (hreports : ∀ r ∈ pc.reports, r.nonEmpty = true) (habandons : pc.abandons = false) :
    ({ p with pc := pc } : Handler).Sound := ⟨h.entry, hreports, habandons⟩

/-- A step within the loop that neither subscribes nor sends, and keeps the
engine and the buckets to be answered; an engine loaded in it is the installed
one. -/
theorem Progress.carry {v : ℕ} {p p' : Handler} (hserving : p.pc.serving = true)
    (hsubs : p'.ss.subscriptions = p.ss.subscriptions) (hsent : p'.sent = p.sent)
    (hversion : ∀ u, p'.pc.version = some u → p.pc.version = some u ∨ u = v)
    (hkeys : ∀ key, key ∈ p.pc.reports.map UsageReport.key ∨ key ∈ actionKeys p.pc.response →
      key ∈ p'.pc.reports.map UsageReport.key ∨ key ∈ actionKeys p'.pc.response) :
    Progress v p p' := by
  refine .goes hserving (fun key hkey => Or.inl (hsubs ▸ hkey)) hsent fun key hkey => ?_
  obtain ⟨hold, hkey⟩ := Handler.owes_iff.mp hkey
  refine Handler.owes_iff.mpr ⟨fun u hu => ?_, hkeys key hkey⟩
  rcases hversion u hu with hu | hu
  · exact hold u hu
  · exact hu

/-- A step within the loop while nothing is to be answered. -/
theorem Progress.rest {v : ℕ} {p p' : Handler} (hserving : p.pc.serving = true)
    (hreports : p.pc.reports = []) (hresponse : p.pc.response = [])
    (hsubs : p'.ss.subscriptions = p.ss.subscriptions) (hsent : p'.sent = p.sent) :
    Progress v p p' := by
  refine .goes hserving (fun key hkey => Or.inl (hsubs ▸ hkey)) hsent fun key hkey => ?_
  rw [Handler.owes_iff, hreports, hresponse] at hkey
  simp [actionKeys] at hkey

theorem UsageReport.nonEmpty_of_accept {cfg : Limits} {u : BucketQuotaUsage} {id : BucketId}
    (hid : u.bucketId = some id) (hadm : Admitted cfg id) : u.toReport.nonEmpty = true := by
  simp only [UsageReport.nonEmpty, BucketQuotaUsage.toReport, hid]
  simpa using hadm.1

section Step

variable {cfg : Limits} {engines : ℕ → Engine} {v : ℕ} {p : Handler}

/-- The subscription step: a bucket that is new is one to be answered. -/
theorem trackStep_progress (h : p.Sound) {u : BucketQuotaUsage} {us : List BucketQuotaUsage}
    {reports : List UsageReport} (hpc : p.pc = .usages (u :: us) reports) :
    (trackStep cfg p u us reports).Sound ∧ Progress v p (trackStep cfg p u us reports) := by
  have hserving : p.pc.serving = true := by rw [hpc]; rfl
  have hold : ∀ r ∈ reports, r.nonEmpty = true := by
    have hreports := h.reports
    rw [hpc] at hreports
    exact hreports
  have howed : ∀ key, p.owes v key = true → key ∈ reports.map UsageReport.key := by
    intro key hkey
    rw [Handler.owes_iff, hpc] at hkey
    simpa [PC.reports, PC.response, actionKeys] using hkey.2
  rcases trackStep_cases cfg p u us reports with
    ⟨-, ht⟩ | ht | ⟨id, hid, hadm, -, ht⟩ | ⟨id, hid, hadm, -, ht⟩
  · rw [ht]
    refine ⟨h.goto hold rfl, .carry hserving rfl rfl (fun _ h => nomatch h) fun key hkey => ?_⟩
    rw [hpc] at hkey
    exact hkey
  · rw [ht]
    exact ⟨h.goto (fun _ h => nomatch h) rfl, .leaves rfl⟩
  · rw [ht]
    refine ⟨h.goto ?_ rfl, .carry hserving rfl rfl (fun _ h => nomatch h) fun key hkey => ?_⟩
    · exact List.forall_mem_cons.mpr ⟨UsageReport.nonEmpty_of_accept hid hadm, hold⟩
    · rw [hpc] at hkey
      exact hkey.imp (List.mem_cons_of_mem _) fun hin => hin
  · rw [ht]
    refine ⟨⟨fun key id' hkey => ?_, ?_, rfl⟩, .goes hserving (fun key hkey => ?_) rfl
      fun key hkey => ?_⟩
    · rw [show (p.ss.subscriptions.insert (bucketKeyFromProto u.bucketId) id).lookup key = _ from
        GoMap.lookup_insert_if _ _ _ _] at hkey
      split at hkey
      · rename_i hnew
        cases hkey
        rw [hnew, hid]
        exact ⟨rfl, hadm.1⟩
      · exact h.entry key id' hkey
    · exact List.forall_mem_cons.mpr ⟨UsageReport.nonEmpty_of_accept hid hadm, hold⟩
    · rcases (AList.mem_insert _).mp hkey with hnew | hsub
      · right
        rw [hnew]
        exact Handler.owes_of_reports rfl List.mem_cons_self
      · exact Or.inl hsub
    · exact Handler.owes_of_reports rfl (List.mem_cons_of_mem _ (howed key hkey))

/-- The binding step: nothing is to be answered yet. -/
theorem bind_progress (h : p.Sound) {req : UsageReports} {l : Str} {ss : StreamState}
    (hpc : p.pc = .bind req) (hbind : bindDomain l p.ss req = .ok ss) :
    ({ p with ss := ss, pc := afterBind cfg req } : Handler).Sound ∧
      Progress v p { p with ss := ss, pc := afterBind cfg req } := by
  obtain ⟨hsubs, -, -, -⟩ := bindDomain_ok hbind
  have hstay : Progress v p { p with ss := ss, pc := afterBind cfg req } :=
    .rest (by rw [hpc]; rfl) (by rw [hpc]; rfl) (by rw [hpc]; rfl) hsubs rfl
  refine ⟨⟨fun key id hkey => h.entry key id (hsubs ▸ hkey), ?_, ?_⟩, hstay⟩
  · rcases afterBind_cases cfg req with ha | ha | ha <;> rw [ha] <;> exact fun _ h => nomatch h
  · rcases afterBind_cases cfg req with ha | ha | ha <;> rw [ha] <;> rfl

/-- The recorded report joins those to be answered. -/
theorem record_progress (h : p.Sound) {u : BucketQuotaUsage} {us : List BucketQuotaUsage}
    {reports : List UsageReport} (hpc : p.pc = .record u us reports) :
    ({ p with pc := .usages us (reports ++ [u.toReport]) } : Handler).Sound ∧
      Progress v p { p with pc := .usages us (reports ++ [u.toReport]) } := by
  have hreports := h.reports
  rw [hpc] at hreports
  refine ⟨h.goto ?_ rfl, .carry (by rw [hpc]; rfl) rfl rfl (fun _ h => nomatch h) ?_⟩
  · intro r hr
    rcases List.mem_append.mp hr with hr | hr
    · exact hreports r (List.mem_cons_of_mem _ hr)
    · rw [List.mem_singleton.mp hr]
      exact hreports _ List.mem_cons_self
  · intro key hkey
    rw [hpc] at hkey
    simp only [PC.reports, List.map_append, List.map_cons, List.mem_append, List.mem_cons]
      at hkey ⊢
    tauto

/-- The abandon loop passes over an assignment. -/
theorem abandonStep_progress (h : p.Sound) {u : ℕ} {a : BucketAction} {rest all : List BucketAction}
    (hpc : p.pc = .actions u (a :: rest) all) :
    (abandonStep p u a rest all).Sound ∧ Progress v p (abandonStep p u a rest all) := by
  have habandons := h.abandons
  rw [hpc] at habandons
  have hall := List.any_eq_false.mp habandons
  have hstep : abandonStep p u a rest all = { p with pc := .actions u rest all } := by
    rcases abandonStep_cases p u a rest all with ht | ⟨ha, -, -⟩
    · exact ht
    · exact absurd (by simp [ha]) (hall a List.mem_cons_self)
  rw [hstep]
  refine ⟨h.goto (fun _ h => nomatch h) ?_, .carry (by rw [hpc]; rfl) rfl rfl
    (fun u hu => Or.inl (by rw [hpc]; exact hu)) fun key hkey => by rw [hpc] at hkey; exact hkey⟩
  exact List.any_eq_false.mpr fun b hb => hall b (List.mem_cons_of_mem _ hb)

/-- The engine's reply: every report to be answered has its action. -/
theorem reply_progress (hengines : ∀ v, AnswersAll (engines v)) (h : p.Sound) {u : ℕ}
    {reports : List UsageReport} (hpc : p.pc = .process u reports) :
    ∃ actions, engines u p.ss.domain reports = .ok actions ∧
      (∀ key, p.owes v key = true → u = v ∧ key ∈ actionKeys actions) ∧
      ∀ a ∈ actions, a.bucketAction ≠ .abandon := by
  have hreports : ∀ r ∈ reports, r.nonEmpty = true := by
    have hall := h.reports
    rw [hpc] at hall
    exact hall
  obtain ⟨actions, hok, hkeys, habandon⟩ := (hengines u).keys p.ss.domain hreports
  refine ⟨actions, hok, fun key hkey => ?_, habandon⟩
  rw [Handler.owes_iff, hpc] at hkey
  obtain ⟨hversion, hkey⟩ := hkey
  refine ⟨hversion u rfl, ?_⟩
  rw [hkeys]
  simpa [PC.reports, PC.response, actionKeys] using hkey

variable {sh sh' : Shared σ} {p' : Handler} {x : Input}

/-- One step of a handler whose engine answers all. -/
theorem handlerStep_progress (hengines : ∀ v, AnswersAll (engines v)) (h : p.Sound)
    (hs : handlerStep cfg sh p (answered engines p x) = some (sh', p')) :
    p'.Sound ∧ Progress sh.engine p p' ∧ sh'.engine = sh.engine := by
  have hreports := h.reports
  have habandons := h.abandons
  have hturn := handlerStep_turn hs
  generalize hx : answered engines p x = y at hturn
  cases hturn with
  | bound hpc hbind =>
    obtain ⟨hsound, hprogress⟩ := bind_progress (v := sh.engine) h hpc hbind
    exact ⟨hsound, hprogress, rfl⟩
  | usage hpc =>
    obtain ⟨hsound, hprogress⟩ := trackStep_progress (v := sh.engine) h hpc
    exact ⟨hsound, hprogress, rfl⟩
  | record hpc =>
    obtain ⟨hsound, hprogress⟩ := record_progress (v := sh.engine) h hpc
    exact ⟨hsound, hprogress, rfl⟩
  | processFailed hpc =>
    obtain ⟨actions, hok, -⟩ := reply_progress (v := sh.engine) hengines h hpc
    have hreply := answered_reply hpc hx
    rw [hok] at hreply
    cases hreply
  | processedNone hpc =>
    -- nothing was to be answered
    obtain ⟨actions, hok, howed, -⟩ := reply_progress (v := sh.engine) hengines h hpc
    have hreply := answered_reply hpc hx
    rw [hok] at hreply
    cases hreply
    refine ⟨h.goto (fun _ h => nomatch h) rfl, .goes (by rw [hpc]; rfl) (fun _ h => Or.inl h) rfl
      fun key hkey => ?_, rfl⟩
    cases (howed key hkey).2
  | processed hpc =>
    obtain ⟨actions, hok, howed, hassign⟩ := reply_progress (v := sh.engine) hengines h hpc
    have hreply := answered_reply hpc hx
    rw [hok] at hreply
    cases hreply
    refine ⟨h.goto (fun _ h => nomatch h) ?_, .goes (by rw [hpc]; rfl) (fun _ h => Or.inl h) rfl
      fun key hkey => ?_, rfl⟩
    · exact List.any_eq_false.mpr fun b hb => by simpa using hassign b hb
    · obtain ⟨rfl, hkey⟩ := howed key hkey
      exact Handler.owes_iff.mpr ⟨fun u hu => (Option.some.inj hu).symm, Or.inr hkey⟩
  | action hpc =>
    obtain ⟨hsound, hprogress⟩ := abandonStep_progress (v := sh.engine) h hpc
    exact ⟨hsound, hprogress, rfl⟩
  | @decRef key k hpc =>
    rw [hpc] at habandons
    cases k with
    | abandon v rest all => cases habandons
    | cleanup todo =>
      refine ⟨⟨h.entry, ?_, ?_⟩, .leaves ?_, rfl⟩
      all_goals
        dsimp only [After.resume]
        split <;> first | rfl | exact fun _ h => nomatch h
  | @remove key k hpc =>
    rw [hpc] at habandons
    cases k with
    | abandon v rest all => cases habandons
    | cleanup todo => exact ⟨h.goto (fun _ h => nomatch h) rfl, .leaves rfl, rfl⟩
  | gaugeDec hpc =>
    rw [hpc] at habandons
    cases habandons
  | @sent v all hpc => exact ⟨⟨h.entry, (fun _ h => nomatch h), rfl⟩, .sends v all hpc, rfl⟩
  | sendFailed hpc => cases answered_sent hx
  | unregister hpc =>
    refine ⟨⟨h.entry, ?_, ?_⟩, .leaves ?_, rfl⟩
    all_goals
      dsimp only
      split <;> first | rfl | exact fun _ h => nomatch h
  | hangup hpc | bindFailed hpc | closing hpc | cleanupDone hpc | picked hpc =>
    -- the stream ends
    exact ⟨h.goto (fun _ h => nomatch h) rfl, .leaves rfl, rfl⟩
  -- the other steps only move the control point on
  | _ hpc =>
    rw [hpc] at hreports
    refine ⟨⟨h.entry, hreports, rfl⟩, .carry (by rw [hpc]; rfl) rfl rfl ?_
      (fun key hkey => by rw [hpc] at hkey; exact hkey), rfl⟩
    intro u hu
    first
    | exact Or.inl (by rw [hpc]; exact hu)
    | exact Or.inr (Option.some.inj hu).symm

end Step

end Rlqs
