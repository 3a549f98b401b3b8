import Rlqs.Lib.Mutex
import Rlqs.Server.Observed

/-!
# RLQS server — the goroutines with their locks

`Server/Atomic.lean` and `Server/Swap.lean` take every section under `s.mu`,
`ss.mu` or `ss.sendMu` as one step. Here the locks are part of the state: a
section is `Lock`, the reads and writes of its body one at a time, and `Unlock`,
and the steps of all goroutines interleave between any two of them. The
goroutines are the stream handlers, the pushes of `SwapEngine`, and calls of
`StreamStats`, which takes `ss.mu` of each stream while it holds `s.mu`.

Everything outside the sections is the step of `Server/Atomic.lean`. `Classify`
releases its own lock before it returns and is one step here; its lock sections
are in `Metrics/Concurrent.lean`.

* `fineStep`, `finePushStep`, `statsStep` — one step of each kind of goroutine;
* `LockWorld.next` — all goroutines;
* `Thread.holds`, `Thread.wants` — the locks a goroutine holds and waits for;
* `FineTurn`, `FinePushTurn`, `StatsTurn` — everything a step can do.
-/

namespace Rlqs

open Interleave Steps

-- ---------------------------------------------------------------------------
-- Control points
-- ---------------------------------------------------------------------------

/-- The mutexes: `s.mu`, and `ss.mu` and `ss.sendMu` of each stream. -/
inductive Lock where
  | mu
  | ss (i : ℕ)
  | send (i : ℕ)
  deriving DecidableEq

/-- A usage that passed validation, on its way through the subscription loop. -/
structure Tracking where
  id : BucketId
  u : BucketQuotaUsage
  us : List BucketQuotaUsage
  reports : List UsageReport

def Tracking.key (t : Tracking) : BucketKey := bucketKeyFromProto (some t.id)

/-- An abandon action, on its way through the abandon loop. -/
structure Abandoning where
  v : ℕ
  a : BucketAction
  rest : List BucketAction
  all : List BucketAction

def Abandoning.key (t : Abandoning) : BucketKey := bucketKeyFromProto t.a.bucketId

/-- The control points of a handler: outside the sections, before each operation
of a section, and before the `Unlock` that ends it. -/
inductive FinePC where
  | out (pc : PC)
  -- `s.streams[ss] = struct{}{}`
  | register
  -- the domain section
  | bindTest (req : UsageReports)
  | bindDomain (req : UsageReports)
  | bindClassify (req : UsageReports)
  | bindMetric (l : Str) (req : UsageReports)
  | bindMark (req : UsageReports)
  | bindCheck (fresh : Bool) (req : UsageReports)
  -- the subscription section
  | trackTest (t : Tracking)
  | trackLimit (t : Tracking)
  | trackPut (t : Tracking)
  -- `s.bucketRefs[scopedKey]++`
  | incRead (key : BucketKey) (u : BucketQuotaUsage) (us : List BucketQuotaUsage)
      (reports : List UsageReport)
  | incWrite (n : Int) (key : BucketKey) (u : BucketQuotaUsage) (us : List BucketQuotaUsage)
      (reports : List UsageReport)
  -- the section of the abandon loop
  | abandonTest (t : Abandoning)
  | abandonDelete (t : Abandoning)
  -- `s.bucketRefs[scopedKey]--`, and the entry deleted at zero
  | decRead (key : BucketKey) (k : After)
  | decWrite (n : Int) (key : BucketKey) (k : After)
  | decTest (n : Int) (key : BucketKey) (k : After)
  | decDelete (key : BucketKey) (k : After)
  -- `stream.Send`
  | sending (v : ℕ) (all : List BucketAction)
  -- `delete(s.streams, ss)`
  | unregister
  | leave (l : Lock) (pc : PC)

/-- One stream's goroutine. `self` is the stream's number; the other fields are
those of `Handler`. -/
structure FineHandler where
  self : ℕ
  pc : FinePC
  ss : StreamState
  registered : Bool
  held : List BucketKey
  sent : List (ℕ × List BucketAction)

def newFineHandler (i : ℕ) : FineHandler := ⟨i, .out .start, newStream, false, [], []⟩

/-- The handler at the control point `pc` of the section model. -/
def FineHandler.at (h : FineHandler) (pc : PC) : Handler :=
  ⟨pc, h.ss, h.registered, h.held, h.sent⟩

/-- A handler of the section model, outside the sections. -/
def Handler.fine (p : Handler) (self : ℕ) : FineHandler :=
  ⟨self, .out p.pc, p.ss, p.registered, p.held, p.sent⟩

/-- The scoped key of one of the stream's buckets. -/
def FineHandler.scoped (h : FineHandler) (key : BucketKey) : BucketKey :=
  domainScopedKey h.ss.domain key

/-- The section that the step at `pc` is: its lock and its first operation. -/
def sectionOf (cfg : Limits) (self : ℕ) : PC → Option (Lock × FinePC)
  | .start => some (.mu, .register)
  | .bind req => some (.ss self, .bindTest req)
  | .usages (u :: us) reports =>
    match checkUsage cfg u with
    | .accept id => some (.ss self, .trackTest ⟨id, u, us, reports⟩)
    | _ => none
  | .incRef key u us reports => some (.mu, .incRead key u us reports)
  | .actions v (a :: rest) all =>
    if a.bucketAction = .abandon then some (.ss self, .abandonTest ⟨v, a, rest, all⟩) else none
  | .decRef key k => some (.mu, .decRead key k)
  | .send v all => some (.send self, .sending v all)
  | .unregister => some (.mu, .unregister)
  | _ => none

/-- One operation inside a section. -/
def innerStep (cfg : Limits) (refs : BucketRefs) (h : FineHandler) :
    FinePC → Input → Option (BucketRefs × FineHandler)
  | .register, .tick => some (refs, { h with registered := true, pc := .leave .mu .opened })
  | .bindTest req, .tick =>
    if h.ss.domainBound then some (refs, { h with pc := .bindCheck false req })
    else if req.domain = [] then some (refs, { h with pc := .leave (.ss h.self) .closing })
    else some (refs, { h with pc := .bindDomain req })
  | .bindDomain req, .tick =>
    some (refs, { h with ss := { h.ss with domain := req.domain }, pc := .bindClassify req })
  | .bindClassify req, .label l => some (refs, { h with pc := .bindMetric l req })
  | .bindMetric l req, .tick =>
    some (refs, { h with ss := { h.ss with metricDomain := l }, pc := .bindMark req })
  | .bindMark req, .tick =>
    some (refs, { h with ss := { h.ss with domainBound := true }, pc := .bindCheck true req })
  | .bindCheck _ req, .tick =>
    if req.domain ≠ [] ∧ req.domain ≠ h.ss.domain then
      some (refs, { h with pc := .leave (.ss h.self) .closing })
    else some (refs, { h with pc := .leave (.ss h.self) (afterBind cfg req) })
  | .trackTest t, .tick =>
    if t.key ∈ h.ss.subscriptions then
      some (refs, { h with pc := .leave (.ss h.self) (.record t.u t.us t.reports) })
    else some (refs, { h with pc := .trackLimit t })
  | .trackLimit t, .tick =>
    if 0 < cfg.maxBucketsPerStream ∧
        cfg.maxBucketsPerStream ≤ (GoMap.len h.ss.subscriptions : Int) then
      some (refs, { h with pc := .leave (.ss h.self) .closing })
    else some (refs, { h with pc := .trackPut t })
  | .trackPut t, .tick =>
    some (refs, { h with
      ss := { h.ss with subscriptions := h.ss.subscriptions.insert t.key t.id }
      pc := .leave (.ss h.self) (.incRef t.key t.u t.us t.reports) })
  | .incRead key u us reports, .tick =>
    some (refs, { h with pc := .incWrite (refCount refs (h.scoped key)) key u us reports })
  | .incWrite n key u us reports, .tick =>
    some (refs.insert (h.scoped key) (n + 1),
      { h with held := key :: h.held, pc := .leave .mu (.gaugeInc u us reports) })
  | .abandonTest t, .tick =>
    if t.key ∈ h.ss.subscriptions then some (refs, { h with pc := .abandonDelete t })
    else some (refs, { h with pc := .leave (.ss h.self) (.actions t.v t.rest t.all) })
  | .abandonDelete t, .tick =>
    some (refs, { h with
      ss := { h.ss with subscriptions := h.ss.subscriptions.erase t.key }
      pc := .leave (.ss h.self) (.decRef t.key (.abandon t.v t.rest t.all)) })
  | .decRead key k, .tick =>
    some (refs, { h with pc := .decWrite (refCount refs (h.scoped key)) key k })
  | .decWrite n key k, .tick =>
    some (refs.insert (h.scoped key) (n - 1),
      { h with held := h.held.erase key, pc := .decTest n key k })
  | .decTest _ key k, .tick =>
    if refCount refs (h.scoped key) ≤ 0 then some (refs, { h with pc := .decDelete key k })
    else some (refs, { h with pc := .leave .mu k.resume })
  | .decDelete key k, .tick =>
    some (refs.erase (h.scoped key), { h with pc := .leave .mu (.remove key k) })
  | .sending v all, .sent none =>
    some (refs, { h with sent := h.sent ++ [(v, all)], pc := .leave (.send h.self) .recv })
  | .sending _ _, .sent (some _) =>
    some (refs, { h with pc := .leave (.send h.self) .closing })
  | .unregister, .tick =>
    some (refs, { h with
      registered := false
      pc := .leave .mu
        (if h.ss.domainBound then .cleanup h.ss.subscriptions.keys else .done) })
  | _, _ => none

/-- One step of a handler: `Lock`, an operation of a section, `Unlock`, or a step
outside the sections. -/
def fineStep {σ : Type} [BucketStore σ] (cfg : Limits) (sh : Shared σ) (locks : Lock → Bool)
    (h : FineHandler) (x : Input) : Option (Shared σ × (Lock → Bool) × FineHandler) :=
  match h.pc with
  | .out pc =>
    match sectionOf cfg h.self pc, x with
    | some (l, first), .tick =>
      if locks l then none else some (sh, Function.update locks l true, { h with pc := first })
    | some _, _ => none
    | none, x => (handlerStep cfg sh (h.at pc) x).map fun c => (c.1, locks, c.2.fine h.self)
  | .leave l pc =>
    match x with
    | .tick => some (sh, Function.update locks l false, { h with pc := .out pc })
    | _ => none
  | pc => (innerStep cfg sh.bucketRefs h pc x).map fun c =>
      ({ sh with bucketRefs := c.1 }, locks, c.2)

-- ---------------------------------------------------------------------------
-- Pushes
-- ---------------------------------------------------------------------------

/-- The control points of `pushAssignments`. -/
inductive FinePushPC where
  | out (pc : PushPC)
  -- the streams that `range s.streams` has given so far
  | listing (got : List ℕ)
  | collectTest (i : ℕ) (todo : List ℕ)
  -- the buckets that `range ss.subscriptions` has given so far, and their reports
  | collecting (i : ℕ) (domain : Str) (got : List BucketKey) (reports : List UsageReport)
      (todo : List ℕ)
  | sending (i : ℕ) (actions : List BucketAction) (todo : List ℕ)
  | leave (l : Lock) (pc : PushPC)

structure FinePush where
  version : ℕ
  pc : FinePushPC

/-- The choices of the environment: the next stream or bucket of a `range` loop,
the end of the loop or any other step, the reply of the engine, the result of
`Send`. -/
inductive FinePushInput where
  | tick
  | stream (i : ℕ)
  | bucket (key : BucketKey)
  | reply (r : Except GoError (List BucketAction))
  | sent (e : Option GoError)

def pushSectionOf : PushPC → Option (Lock × FinePushPC)
  | .snapshot => some (.mu, .listing [])
  | .visit (i :: todo) => some (.ss i, .collectTest i todo)
  | .send i actions todo => some (.send i, .sending i actions todo)
  | _ => none

/-- The streams in `s.streams`. -/
def streamsOf (hs : List FineHandler) : List ℕ :=
  (List.range hs.length).filter fun i => hs[i]?.any FineHandler.registered

/-- One operation of a push inside a section. -/
def innerPushStep (v : ℕ) (hs : List FineHandler) :
    FinePushPC → FinePushInput → Option (List FineHandler × FinePushPC)
  | .listing got, .stream i =>
    if i ∈ streamsOf hs ∧ i ∉ got then some (hs, .listing (got ++ [i])) else none
  | .listing got, .tick =>
    if ∀ i ∈ streamsOf hs, i ∈ got then some (hs, .leave .mu (.visit got)) else none
  | .collectTest i todo, .tick =>
    match hs[i]? with
    | none => none
    | some h =>
      if !h.ss.domainBound || GoMap.len h.ss.subscriptions == 0 then
        some (hs, .leave (.ss i) (.visit todo))
      else some (hs, .collecting i h.ss.domain [] [] todo)
  | .collecting i domain got reports todo, .bucket key =>
    match hs[i]?.bind fun h => h.ss.subscriptions.lookup key with
    | none => none
    | some id =>
      if key ∈ got then none
      else some (hs, .collecting i domain (got ++ [key]) (reports ++ [⟨some id, 0, 0, 0⟩]) todo)
  | .collecting i domain got reports todo, .tick =>
    match hs[i]? with
    | none => none
    | some h =>
      if ∀ key ∈ h.ss.subscriptions.keys, key ∈ got then
        some (hs, .leave (.ss i) (.process i domain reports todo))
      else none
  | .sending i actions todo, .sent e =>
    match hs[i]?, e with
    | none, _ => none
    | some h, none =>
      some (hs.set i { h with sent := h.sent ++ [(v, actions)] }, .leave (.send i) (.visit todo))
    | some _, some _ => some (hs, .leave (.send i) (.visit todo))
  | _, _ => none

/-- One step of a push. -/
def finePushStep (v : ℕ) (hs : List FineHandler) (locks : Lock → Bool) (pc : FinePushPC)
    (x : FinePushInput) : Option (List FineHandler × (Lock → Bool) × FinePushPC) :=
  match pc with
  | .out pc =>
    match pushSectionOf pc with
    | some (l, first) =>
      match x with
      | .tick => if locks l then none else some (hs, Function.update locks l true, first)
      | _ => none
    | none =>
      match pc, x with
      | .process i _ _ todo, .reply (.ok (a :: as)) =>
        some (hs, locks, .out (.send i (a :: as) todo))
      | .process _ _ _ todo, .reply _ => some (hs, locks, .out (.visit todo))
      | _, _ => none
  | .leave l pc =>
    match x with
    | .tick => some (hs, Function.update locks l false, .out pc)
    | _ => none
  | pc => (innerPushStep v hs pc x).map fun c => (c.1, locks, c.2)

-- ---------------------------------------------------------------------------
-- StreamStats
-- ---------------------------------------------------------------------------

/-- `admin.StreamInfo`. -/
structure StreamInfo where
  domain : Str
  subscriptionCount : ℕ
  deriving DecidableEq

/-- What `StreamStats` reads off a stream. -/
def StreamState.info (ss : StreamState) : StreamInfo := ⟨ss.domain, GoMap.len ss.subscriptions⟩

/-- The control points of `StreamStats`; `stats` are the entries appended so far,
each with its stream. -/
inductive StatsPC where
  | call
  | listing (stats : List (ℕ × StreamInfo))
  | visiting (i : ℕ) (stats : List (ℕ × StreamInfo))
  | reading (i : ℕ) (stats : List (ℕ × StreamInfo))
  | leaving (i : ℕ) (stats : List (ℕ × StreamInfo))
  | unlocking (stats : List (ℕ × StreamInfo))
  | returned (stats : List (ℕ × StreamInfo))

/-- The next stream of `range s.streams`, or any other step. -/
inductive StatsInput where
  | tick
  | stream (i : ℕ)

/-- One step of a call of `StreamStats`. -/
def statsStep (hs : List FineHandler) (locks : Lock → Bool) :
    StatsPC → StatsInput → Option ((Lock → Bool) × StatsPC)
  | .call, .tick => if locks .mu then none else some (Function.update locks .mu true, .listing [])
  | .listing stats, .stream i =>
    if i ∈ streamsOf hs ∧ i ∉ stats.map Prod.fst then some (locks, .visiting i stats) else none
  | .listing stats, .tick =>
    if ∀ i ∈ streamsOf hs, i ∈ stats.map Prod.fst then some (locks, .unlocking stats) else none
  | .visiting i stats, .tick =>
    if locks (.ss i) then none else some (Function.update locks (.ss i) true, .reading i stats)
  | .reading i stats, .tick =>
    match hs[i]? with
    | none => none
    | some h => some (locks, .leaving i (stats ++ [(i, h.ss.info)]))
  | .leaving i stats, .tick => some (Function.update locks (.ss i) false, .listing stats)
  | .unlocking stats, .tick => some (Function.update locks .mu false, .returned stats)
  | _, _ => none

-- ---------------------------------------------------------------------------
-- All goroutines
-- ---------------------------------------------------------------------------

/-- The server with its locks and every goroutine started so far. -/
structure LockWorld (σ : Type) where
  shared : Shared σ
  locks : Lock → Bool
  handlers : List FineHandler
  pushes : List FinePush
  stats : List StatsPC

/-- A stream is opened, an engine is installed, `StreamStats` is called, or a
goroutine takes a step. -/
inductive LockMove where
  | connect
  | swap
  | call
  | handler (i : ℕ) (x : Input)
  | push (j : ℕ) (x : FinePushInput)
  | stats (j : ℕ) (x : StatsInput)

variable {σ : Type} [BucketStore σ]

def LockWorld.next (cfg : Limits) (w : LockWorld σ) : LockMove → Option (LockWorld σ)
  | .connect => some { w with handlers := w.handlers ++ [newFineHandler w.handlers.length] }
  | .swap => some { w with
      shared := { w.shared with engine := w.shared.engine + 1 }
      pushes := w.pushes ++ [⟨w.shared.engine + 1, .out .snapshot⟩] }
  | .call => some { w with stats := w.stats ++ [.call] }
  | .handler i x =>
    match w.handlers[i]? with
    | none => none
    | some h => (fineStep cfg w.shared w.locks h x).map fun c =>
        { w with shared := c.1, locks := c.2.1, handlers := w.handlers.set i c.2.2 }
  | .push j x =>
    match w.pushes[j]? with
    | none => none
    | some q => (finePushStep q.version w.handlers w.locks q.pc x).map fun c =>
        { w with
          handlers := c.1, locks := c.2.1, pushes := w.pushes.set j { q with pc := c.2.2 } }
  | .stats j x =>
    match w.stats[j]? with
    | none => none
    | some pc => (statsStep w.handlers w.locks pc x).map fun c =>
        { w with locks := c.1, stats := w.stats.set j c.2 }

/-- A server just made: no goroutine, every lock free. -/
def newLockWorld (store : σ) : LockWorld σ :=
  ⟨(newServer store).shared, fun _ => false, [], [], []⟩

-- ---------------------------------------------------------------------------
-- Locks held and wanted
-- ---------------------------------------------------------------------------

def FinePC.holds (self : ℕ) : FinePC → List Lock
  | .out _ => []
  | .register | .incRead .. | .incWrite .. | .decRead .. | .decWrite .. | .decTest ..
  | .decDelete .. | .unregister => [.mu]
  | .bindTest _ | .bindDomain _ | .bindClassify _ | .bindMetric .. | .bindMark _ | .bindCheck ..
  | .trackTest _ | .trackLimit _ | .trackPut _ | .abandonTest _ | .abandonDelete _ => [.ss self]
  | .sending .. => [.send self]
  | .leave l _ => [l]

def FinePushPC.holds : FinePushPC → List Lock
  | .out _ => []
  | .listing _ => [.mu]
  | .collectTest i _ | .collecting i .. => [.ss i]
  | .sending i .. => [.send i]
  | .leave l _ => [l]

def StatsPC.holds : StatsPC → List Lock
  | .call | .returned _ => []
  | .listing _ | .visiting .. | .unlocking _ => [.mu]
  | .reading i _ | .leaving i _ => [.ss i, .mu]

/-- A goroutine, by what says where it is: for a handler its stream too. -/
inductive Thread where
  | handler (self : ℕ) (pc : FinePC)
  | push (pc : FinePushPC)
  | stats (pc : StatsPC)

def Thread.holds : Thread → List Lock
  | .handler self pc => pc.holds self
  | .push pc => pc.holds
  | .stats pc => pc.holds

/-- The lock a goroutine is about to take. -/
def Thread.wants (cfg : Limits) : Thread → Option Lock
  | .handler self (.out pc) => (sectionOf cfg self pc).map Prod.fst
  | .push (.out pc) => (pushSectionOf pc).map Prod.fst
  | .stats .call => some .mu
  | .stats (.visiting i _) => some (.ss i)
  | _ => none

/-- The stream on which a goroutine is inside `Send`. -/
def Thread.sending : Thread → Option ℕ
  | .handler self (.sending ..) => some self
  | .push (.sending i ..) => some i
  | _ => none

theorem Thread.holds_of_sending {t : Thread} {i : ℕ} (h : t.sending = some i) :
    t.holds = [.send i] := by
  unfold Thread.sending at h
  split at h
  · cases h
    rfl
  · cases h
    rfl
  · cases h

def FineHandler.thread (h : FineHandler) : Thread := .handler h.self h.pc

def FinePush.thread (q : FinePush) : Thread := .push q.pc

def LockWorld.threads (w : LockWorld σ) : List Thread :=
  w.handlers.map FineHandler.thread ++ w.pushes.map FinePush.thread ++ w.stats.map Thread.stats

/-- The name of a goroutine. -/
inductive Goroutine where
  | handler (i : ℕ)
  | push (j : ℕ)
  | stats (j : ℕ)
  deriving DecidableEq

/-- The goroutine whose step a move is. -/
def LockMove.goroutine : LockMove → Option Goroutine
  | .handler i _ => some (.handler i)
  | .push j _ => some (.push j)
  | .stats j _ => some (.stats j)
  | .connect | .swap | .call => none

def LockWorld.thread (w : LockWorld σ) : Goroutine → Option Thread
  | .handler i => w.handlers[i]?.map FineHandler.thread
  | .push j => w.pushes[j]?.map FinePush.thread
  | .stats j => w.stats[j]?.map Thread.stats

-- ---------------------------------------------------------------------------
-- What a step can do
-- ---------------------------------------------------------------------------

/-- Everything an operation of a handler inside a section can do. -/
inductive InnerTurn (cfg : Limits) (refs : BucketRefs) (h : FineHandler) :
    Input → BucketRefs → FineHandler → Prop where
  | register (hpc : h.pc = .register) :
      InnerTurn cfg refs h .tick refs { h with registered := true, pc := .leave .mu .opened }
  | bindBound {req : UsageReports} (hpc : h.pc = .bindTest req) (hb : h.ss.domainBound = true) :
      InnerTurn cfg refs h .tick refs { h with pc := .bindCheck false req }
  | bindEmpty {req : UsageReports} (hpc : h.pc = .bindTest req) (hb : h.ss.domainBound = false)
      (hd : req.domain = []) :
      InnerTurn cfg refs h .tick refs { h with pc := .leave (.ss h.self) .closing }
  | bindFirst {req : UsageReports} (hpc : h.pc = .bindTest req) (hb : h.ss.domainBound = false)
      (hd : req.domain ≠ []) :
      InnerTurn cfg refs h .tick refs { h with pc := .bindDomain req }
  | bindDomain {req : UsageReports} (hpc : h.pc = .bindDomain req) :
      InnerTurn cfg refs h .tick refs
        { h with ss := { h.ss with domain := req.domain }, pc := .bindClassify req }
  | bindClassify {req : UsageReports} {l : Str} (hpc : h.pc = .bindClassify req) :
      InnerTurn cfg refs h (.label l) refs { h with pc := .bindMetric l req }
  | bindMetric {req : UsageReports} {l : Str} (hpc : h.pc = .bindMetric l req) :
      InnerTurn cfg refs h .tick refs
        { h with ss := { h.ss with metricDomain := l }, pc := .bindMark req }
  | bindMark {req : UsageReports} (hpc : h.pc = .bindMark req) :
      InnerTurn cfg refs h .tick refs
        { h with ss := { h.ss with domainBound := true }, pc := .bindCheck true req }
  | bindMismatch {req : UsageReports} {fresh : Bool} (hpc : h.pc = .bindCheck fresh req)
      (hd : req.domain ≠ [] ∧ req.domain ≠ h.ss.domain) :
      InnerTurn cfg refs h .tick refs { h with pc := .leave (.ss h.self) .closing }
  | bound {req : UsageReports} {fresh : Bool} (hpc : h.pc = .bindCheck fresh req)
      (hd : ¬(req.domain ≠ [] ∧ req.domain ≠ h.ss.domain)) :
      InnerTurn cfg refs h .tick refs { h with pc := .leave (.ss h.self) (afterBind cfg req) }
  | known {t : Tracking} (hpc : h.pc = .trackTest t) (hkey : t.key ∈ h.ss.subscriptions) :
      InnerTurn cfg refs h .tick refs
        { h with pc := .leave (.ss h.self) (.record t.u t.us t.reports) }
  | unknown {t : Tracking} (hpc : h.pc = .trackTest t) (hkey : t.key ∉ h.ss.subscriptions) :
      InnerTurn cfg refs h .tick refs { h with pc := .trackLimit t }
  | full {t : Tracking} (hpc : h.pc = .trackLimit t)
      (hfull : 0 < cfg.maxBucketsPerStream ∧
        cfg.maxBucketsPerStream ≤ (GoMap.len h.ss.subscriptions : Int)) :
      InnerTurn cfg refs h .tick refs { h with pc := .leave (.ss h.self) .closing }
  | room {t : Tracking} (hpc : h.pc = .trackLimit t)
      (hroom : ¬(0 < cfg.maxBucketsPerStream ∧
        cfg.maxBucketsPerStream ≤ (GoMap.len h.ss.subscriptions : Int))) :
      InnerTurn cfg refs h .tick refs { h with pc := .trackPut t }
  | trackPut {t : Tracking} (hpc : h.pc = .trackPut t) :
      InnerTurn cfg refs h .tick refs
        { h with
          ss := { h.ss with subscriptions := h.ss.subscriptions.insert t.key t.id }
          pc := .leave (.ss h.self) (.incRef t.key t.u t.us t.reports) }
  | incRead {key : BucketKey} {u : BucketQuotaUsage} {us : List BucketQuotaUsage}
      {reports : List UsageReport} (hpc : h.pc = .incRead key u us reports) :
      InnerTurn cfg refs h .tick refs
        { h with pc := .incWrite (refCount refs (h.scoped key)) key u us reports }
  | incWrite {n : Int} {key : BucketKey} {u : BucketQuotaUsage} {us : List BucketQuotaUsage}
      {reports : List UsageReport} (hpc : h.pc = .incWrite n key u us reports) :
      InnerTurn cfg refs h .tick (refs.insert (h.scoped key) (n + 1))
        { h with held := key :: h.held, pc := .leave .mu (.gaugeInc u us reports) }
  | subscribed {t : Abandoning} (hpc : h.pc = .abandonTest t)
      (hkey : t.key ∈ h.ss.subscriptions) :
      InnerTurn cfg refs h .tick refs { h with pc := .abandonDelete t }
  | notSubscribed {t : Abandoning} (hpc : h.pc = .abandonTest t)
      (hkey : t.key ∉ h.ss.subscriptions) :
      InnerTurn cfg refs h .tick refs
        { h with pc := .leave (.ss h.self) (.actions t.v t.rest t.all) }
  | abandonDelete {t : Abandoning} (hpc : h.pc = .abandonDelete t) :
      InnerTurn cfg refs h .tick refs
        { h with
          ss := { h.ss with subscriptions := h.ss.subscriptions.erase t.key }
          pc := .leave (.ss h.self) (.decRef t.key (.abandon t.v t.rest t.all)) }
  | decRead {key : BucketKey} {k : After} (hpc : h.pc = .decRead key k) :
      InnerTurn cfg refs h .tick refs
        { h with pc := .decWrite (refCount refs (h.scoped key)) key k }
  | decWrite {n : Int} {key : BucketKey} {k : After} (hpc : h.pc = .decWrite n key k) :
      InnerTurn cfg refs h .tick (refs.insert (h.scoped key) (n - 1))
        { h with held := h.held.erase key, pc := .decTest n key k }
  | last {n : Int} {key : BucketKey} {k : After} (hpc : h.pc = .decTest n key k)
      (hlast : refCount refs (h.scoped key) ≤ 0) :
      InnerTurn cfg refs h .tick refs { h with pc := .decDelete key k }
  | notLast {n : Int} {key : BucketKey} {k : After} (hpc : h.pc = .decTest n key k)
      (hlast : ¬ refCount refs (h.scoped key) ≤ 0) :
      InnerTurn cfg refs h .tick refs { h with pc := .leave .mu k.resume }
  | decDelete {key : BucketKey} {k : After} (hpc : h.pc = .decDelete key k) :
      InnerTurn cfg refs h .tick (refs.erase (h.scoped key))
        { h with pc := .leave .mu (.remove key k) }
  | sent {v : ℕ} {all : List BucketAction} (hpc : h.pc = .sending v all) :
      InnerTurn cfg refs h (.sent none) refs
        { h with sent := h.sent ++ [(v, all)], pc := .leave (.send h.self) .recv }
  | sendFailed {v : ℕ} {all : List BucketAction} {e : GoError} (hpc : h.pc = .sending v all) :
      InnerTurn cfg refs h (.sent (some e)) refs { h with pc := .leave (.send h.self) .closing }
  | unregister (hpc : h.pc = .unregister) :
      InnerTurn cfg refs h .tick refs
        { h with
          registered := false
          pc := .leave .mu
            (if h.ss.domainBound then .cleanup h.ss.subscriptions.keys else .done) }

theorem innerStep_turn {cfg : Limits} {refs refs' : BucketRefs} {h h' : FineHandler} {x : Input}
    (hs : innerStep cfg refs h h.pc x = some (refs', h')) : InnerTurn cfg refs h x refs' h' := by
  generalize hpc : h.pc = pc at hs
  unfold innerStep at hs
  split at hs
  · cases hs
    exact .register hpc
  · split at hs
    · rename_i hb
      cases hs
      exact .bindBound hpc hb
    · rename_i hb
      rw [Bool.not_eq_true] at hb
      split at hs
      · rename_i hd
        cases hs
        exact .bindEmpty hpc hb hd
      · rename_i hd
        cases hs
        exact .bindFirst hpc hb hd
  · cases hs
    exact .bindDomain hpc
  · cases hs
    exact .bindClassify hpc
  · cases hs
    exact .bindMetric hpc
  · cases hs
    exact .bindMark hpc
  · split at hs
    · rename_i hd
      cases hs
      exact .bindMismatch hpc hd
    · rename_i hd
      cases hs
      exact .bound hpc hd
  · split at hs
    · rename_i hkey
      cases hs
      exact .known hpc hkey
    · rename_i hkey
      cases hs
      exact .unknown hpc hkey
  · split at hs
    · rename_i hfull
      cases hs
      exact .full hpc hfull
    · rename_i hroom
      cases hs
      exact .room hpc hroom
  · cases hs
    exact .trackPut hpc
  · cases hs
    exact .incRead hpc
  · cases hs
    exact .incWrite hpc
  · split at hs
    · rename_i hkey
      cases hs
      exact .subscribed hpc hkey
    · rename_i hkey
      cases hs
      exact .notSubscribed hpc hkey
  · cases hs
    exact .abandonDelete hpc
  · cases hs
    exact .decRead hpc
  · cases hs
    exact .decWrite hpc
  · split at hs
    · rename_i hlast
      cases hs
      exact .last hpc hlast
    · rename_i hlast
      cases hs
      exact .notLast hpc hlast
  · cases hs
    exact .decDelete hpc
  · cases hs
    exact .sent hpc
  · cases hs
    exact .sendFailed hpc
  · cases hs
    exact .unregister hpc
  · cases hs

/-- Everything a step of a handler can do. -/
inductive FineTurn (cfg : Limits) (sh : Shared σ) (locks : Lock → Bool) (h : FineHandler) :
    Input → Shared σ → (Lock → Bool) → FineHandler → Prop where
  | lock {pc : PC} {l : Lock} {first : FinePC} (hpc : h.pc = .out pc)
      (hsec : sectionOf cfg h.self pc = some (l, first)) (hfree : locks l = false) :
      FineTurn cfg sh locks h .tick sh (Function.update locks l true) { h with pc := first }
  | outside {pc : PC} {x : Input} {sh' : Shared σ} {p' : Handler} (hpc : h.pc = .out pc)
      (hsec : sectionOf cfg h.self pc = none)
      (hstep : handlerStep cfg sh (h.at pc) x = some (sh', p')) :
      FineTurn cfg sh locks h x sh' locks (p'.fine h.self)
  | inner {x : Input} {refs' : BucketRefs} {h' : FineHandler}
      (hturn : InnerTurn cfg sh.bucketRefs h x refs' h') :
      FineTurn cfg sh locks h x { sh with bucketRefs := refs' } locks h'
  | unlock {l : Lock} {pc : PC} (hpc : h.pc = .leave l pc) :
      FineTurn cfg sh locks h .tick sh (Function.update locks l false) { h with pc := .out pc }

theorem fineStep_turn {cfg : Limits} {sh sh' : Shared σ} {locks locks' : Lock → Bool}
    {h h' : FineHandler} {x : Input} (hs : fineStep cfg sh locks h x = some (sh', locks', h')) :
    FineTurn cfg sh locks h x sh' locks' h' := by
  unfold fineStep at hs
  split at hs
  · rename_i pc hpc
    split at hs
    · rename_i l first hsec
      split at hs
      · simp at hs
      · rename_i hfree
        cases hs
        exact .lock hpc hsec (by simpa using hfree)
    · simp at hs
    · rename_i hsec
      obtain ⟨⟨sh'', p'⟩, hstep, heq⟩ := Option.map_eq_some_iff.mp hs
      cases heq
      exact .outside hpc hsec hstep
  · rename_i l pc hpc
    split at hs
    · cases hs
      exact .unlock hpc
    · simp at hs
  · obtain ⟨⟨refs', h''⟩, hstep, heq⟩ := Option.map_eq_some_iff.mp hs
    cases heq
    exact .inner (innerStep_turn hstep)

/-- Everything a step of a push can do. -/
inductive FinePushTurn (v : ℕ) (hs : List FineHandler) (locks : Lock → Bool) :
    FinePushPC → List FineHandler → (Lock → Bool) → FinePushPC → Prop where
  | lock {pc : PushPC} {l : Lock} {first : FinePushPC}
      (hsec : pushSectionOf pc = some (l, first)) (hfree : locks l = false) :
      FinePushTurn v hs locks (.out pc) hs (Function.update locks l true) first
  | replied {i : ℕ} {domain : Str} {reports : List UsageReport} {todo : List ℕ}
      (a : BucketAction) (as : List BucketAction) :
      FinePushTurn v hs locks (.out (.process i domain reports todo)) hs locks
        (.out (.send i (a :: as) todo))
  | unanswered {i : ℕ} {domain : Str} {reports : List UsageReport} {todo : List ℕ} :
      FinePushTurn v hs locks (.out (.process i domain reports todo)) hs locks (.out (.visit todo))
  | unlock {l : Lock} {pc : PushPC} :
      FinePushTurn v hs locks (.leave l pc) hs (Function.update locks l false) (.out pc)
  | listed {got : List ℕ} {i : ℕ} (hreg : i ∈ streamsOf hs) (hnew : i ∉ got) :
      FinePushTurn v hs locks (.listing got) hs locks (.listing (got ++ [i]))
  | listedAll {got : List ℕ} (hall : ∀ i ∈ streamsOf hs, i ∈ got) :
      FinePushTurn v hs locks (.listing got) hs locks (.leave .mu (.visit got))
  | skipped {i : ℕ} {todo : List ℕ} {h : FineHandler} (hh : hs[i]? = some h)
      (hnone : h.ss.domainBound = false ∨ GoMap.len h.ss.subscriptions = 0) :
      FinePushTurn v hs locks (.collectTest i todo) hs locks (.leave (.ss i) (.visit todo))
  | bound {i : ℕ} {todo : List ℕ} {h : FineHandler} (hh : hs[i]? = some h)
      (hb : h.ss.domainBound = true) (hsome : GoMap.len h.ss.subscriptions ≠ 0) :
      FinePushTurn v hs locks (.collectTest i todo) hs locks
        (.collecting i h.ss.domain [] [] todo)
  | collected {i : ℕ} {domain : Str} {got : List BucketKey} {reports : List UsageReport}
      {todo : List ℕ} {h : FineHandler} {key : BucketKey} {id : BucketId} (hh : hs[i]? = some h)
      (hid : h.ss.subscriptions.lookup key = some id) (hnew : key ∉ got) :
      FinePushTurn v hs locks (.collecting i domain got reports todo) hs locks
        (.collecting i domain (got ++ [key]) (reports ++ [⟨some id, 0, 0, 0⟩]) todo)
  | collectedAll {i : ℕ} {domain : Str} {got : List BucketKey} {reports : List UsageReport}
      {todo : List ℕ} {h : FineHandler} (hh : hs[i]? = some h)
      (hall : ∀ key ∈ h.ss.subscriptions.keys, key ∈ got) :
      FinePushTurn v hs locks (.collecting i domain got reports todo) hs locks
        (.leave (.ss i) (.process i domain reports todo))
  | sent {i : ℕ} {actions : List BucketAction} {todo : List ℕ} {h : FineHandler}
      (hh : hs[i]? = some h) :
      FinePushTurn v hs locks (.sending i actions todo)
        (hs.set i { h with sent := h.sent ++ [(v, actions)] }) locks
        (.leave (.send i) (.visit todo))
  | sendFailed {i : ℕ} {actions : List BucketAction} {todo : List ℕ} :
      FinePushTurn v hs locks (.sending i actions todo) hs locks (.leave (.send i) (.visit todo))

theorem finePushStep_turn {v : ℕ} {hs hs' : List FineHandler} {locks locks' : Lock → Bool}
    {pc pc' : FinePushPC} {x : FinePushInput}
    (h : finePushStep v hs locks pc x = some (hs', locks', pc')) :
    FinePushTurn v hs locks pc hs' locks' pc' := by
  unfold finePushStep at h
  split at h
  · split at h
    · rename_i hsec
      split at h
      · split at h
        · simp at h
        · rename_i hfree
          cases h
          exact .lock hsec (by simpa using hfree)
      · simp at h
    · split at h
      · cases h
        exact .replied _ _
      · cases h
        exact .unanswered
      · simp at h
  · split at h
    · cases h
      exact .unlock
    · simp at h
  · obtain ⟨⟨hs'', pc''⟩, hstep, heq⟩ := Option.map_eq_some_iff.mp h
    cases heq
    unfold innerPushStep at hstep
    split at hstep
    · split at hstep
      · rename_i hreg
        cases hstep
        exact .listed hreg.1 hreg.2
      · simp at hstep
    · split at hstep
      · rename_i hall
        cases hstep
        exact .listedAll hall
      · simp at hstep
    · split at hstep
      · simp at hstep
      · rename_i hh
        split at hstep
        · rename_i hnone
          cases hstep
          exact .skipped hh (by simpa using hnone)
        · rename_i hask
          simp only [Bool.or_eq_true, Bool.not_eq_true', beq_iff_eq, not_or, Bool.not_eq_false]
            at hask
          cases hstep
          exact .bound hh hask.1 hask.2
    · split at hstep
      · simp at hstep
      · rename_i id hid
        obtain ⟨h₁, hh, hlookup⟩ := Option.bind_eq_some_iff.mp hid
        split at hstep
        · simp at hstep
        · rename_i hnew
          cases hstep
          exact .collected hh hlookup hnew
    · split at hstep
      · simp at hstep
      · rename_i hh
        split at hstep
        · rename_i hall
          cases hstep
          exact .collectedAll hh hall
        · simp at hstep
    · split at hstep
      · simp at hstep
      · rename_i hh
        cases hstep
        exact .sent hh
      · cases hstep
        exact .sendFailed
    · simp at hstep

/-- Everything a step of `StreamStats` can do. -/
inductive StatsTurn (hs : List FineHandler) (locks : Lock → Bool) :
    StatsPC → (Lock → Bool) → StatsPC → Prop where
  | lock (hfree : locks .mu = false) :
      StatsTurn hs locks .call (Function.update locks .mu true) (.listing [])
  | listed {stats : List (ℕ × StreamInfo)} {i : ℕ} (hreg : i ∈ streamsOf hs)
      (hnew : i ∉ stats.map Prod.fst) :
      StatsTurn hs locks (.listing stats) locks (.visiting i stats)
  | listedAll {stats : List (ℕ × StreamInfo)}
      (hall : ∀ i ∈ streamsOf hs, i ∈ stats.map Prod.fst) :
      StatsTurn hs locks (.listing stats) locks (.unlocking stats)
  | lockStream {i : ℕ} {stats : List (ℕ × StreamInfo)} (hfree : locks (.ss i) = false) :
      StatsTurn hs locks (.visiting i stats) (Function.update locks (.ss i) true)
        (.reading i stats)
  | read {i : ℕ} {stats : List (ℕ × StreamInfo)} {h : FineHandler} (hh : hs[i]? = some h) :
      StatsTurn hs locks (.reading i stats) locks (.leaving i (stats ++ [(i, h.ss.info)]))
  | unlockStream {i : ℕ} {stats : List (ℕ × StreamInfo)} :
      StatsTurn hs locks (.leaving i stats) (Function.update locks (.ss i) false) (.listing stats)
  | unlock {stats : List (ℕ × StreamInfo)} :
      StatsTurn hs locks (.unlocking stats) (Function.update locks .mu false) (.returned stats)

theorem statsStep_turn {hs : List FineHandler} {locks locks' : Lock → Bool} {pc pc' : StatsPC}
    {x : StatsInput} (h : statsStep hs locks pc x = some (locks', pc')) :
    StatsTurn hs locks pc locks' pc' := by
  unfold statsStep at h
  split at h
  · split at h
    · simp at h
    · rename_i hfree
      cases h
      exact .lock (by simpa using hfree)
  · split at h
    · rename_i hreg
      cases h
      exact .listed hreg.1 hreg.2
    · simp at h
  · split at h
    · rename_i hall
      cases h
      exact .listedAll hall
    · simp at h
  · split at h
    · simp at h
    · rename_i hfree
      cases h
      exact .lockStream (by simpa using hfree)
  · split at h
    · simp at h
    · rename_i hh
      cases h
      exact .read hh
  · cases h
    exact .unlockStream
  · cases h
    exact .unlock
  · simp at h

-- ---------------------------------------------------------------------------
-- What stays
-- ---------------------------------------------------------------------------

section Frame

variable {cfg : Limits} {sh sh' : Shared σ} {locks locks' : Lock → Bool} {h h' : FineHandler}
  {x : Input}

/-- A step outside the sections leaves alone what the sections are for. -/
theorem outside_keeps {p p' : Handler} {self : ℕ} (hsec : sectionOf cfg self p.pc = none)
    (hstep : handlerStep cfg sh p x = some (sh', p')) :
    sh'.bucketRefs = sh.bucketRefs ∧ p'.ss = p.ss ∧ p'.registered = p.registered ∧
      p'.sent = p.sent := by
  cases handlerStep_turn hstep with
  | bindFailed hpc | bound hpc => simp [hpc, sectionOf] at hsec
  | @usage u us reports hpc =>
    rw [hpc] at hsec
    unfold trackStep
    cases hu : checkUsage cfg u with
    | skip => exact ⟨rfl, rfl, rfl, rfl⟩
    | reject e => exact ⟨rfl, rfl, rfl, rfl⟩
    | accept id => simp [sectionOf, hu] at hsec
  | @action v a rest all hpc =>
    rw [hpc] at hsec
    rcases abandonStep_cases p v a rest all with hs | ⟨ha, -, -⟩
    · rw [hs]
      exact ⟨rfl, rfl, rfl, rfl⟩
    · simp [sectionOf, ha] at hsec
  | start hpc | incRef hpc | decRef hpc | sent hpc | unregister hpc =>
    simp [hpc, sectionOf] at hsec
  | _ => exact ⟨rfl, rfl, rfl, rfl⟩

/-- Nor does it look at the references, at `s.streams` or at what was sent. -/
theorem outside_elsewhere {p p' : Handler} {self : ℕ} (hsec : sectionOf cfg self p.pc = none)
    (hstep : handlerStep cfg sh p x = some (sh', p')) (refs : BucketRefs) (registered : Bool)
    (sent : List (ℕ × List BucketAction)) :
    handlerStep cfg { sh with bucketRefs := refs }
        { p with registered := registered, sent := sent } x =
      some ({ sh' with bucketRefs := refs },
        { p' with registered := registered, sent := sent }) := by
  cases handlerStep_turn hstep with
  | bindFailed hpc | bound hpc | start hpc | incRef hpc | decRef hpc | sent hpc | unregister hpc =>
    simp [hpc, sectionOf] at hsec
  | @usage u us reports hpc =>
    rw [hpc] at hsec
    cases hu : checkUsage cfg u with
    | skip => simp only [handlerStep, hpc, trackStep, hu]
    | reject e => simp only [handlerStep, hpc, trackStep, hu]
    | accept id => simp [sectionOf, hu] at hsec
  | @action v a rest all hpc =>
    rw [hpc] at hsec
    have ha : a.bucketAction ≠ .abandon := fun ha => by simp [sectionOf, ha] at hsec
    have hnext : ∀ q : Handler, abandonStep q v a rest all = { q with pc := .actions v rest all } :=
      fun q => (abandonStep_cases q v a rest all).resolve_right fun h => ha h.1
    simp only [handlerStep, hpc, hnext]
  | picked hpc hkey => simp only [handlerStep, hpc, if_pos hkey]
  | _ hpc => simp only [handlerStep, hpc]

/-- `s.streams` and `s.bucketRefs` change under `s.mu` only. -/
theorem FineTurn.keeps_mu (ht : FineTurn cfg sh locks h x sh' locks' h')
    (hmu : .mu ∉ h.pc.holds h.self) :
    sh'.bucketRefs = sh.bucketRefs ∧ h'.registered = h.registered := by
  cases ht with
  | lock | unlock => exact ⟨rfl, rfl⟩
  | outside hpc hsec hstep =>
    obtain ⟨hrefs, -, hreg, -⟩ := outside_keeps hsec hstep
    exact ⟨hrefs, hreg⟩
  | inner hturn =>
    cases hturn with
    | register hpc | incWrite hpc | decWrite hpc | decDelete hpc | unregister hpc =>
      simp [hpc, FinePC.holds] at hmu
    | _ => exact ⟨rfl, rfl⟩

/-- The fields of a stream change under its `ss.mu` only. -/
theorem FineTurn.keeps_ss (ht : FineTurn cfg sh locks h x sh' locks' h')
    (hss : .ss h.self ∉ h.pc.holds h.self) : h'.ss = h.ss := by
  cases ht with
  | lock | unlock => rfl
  | outside hpc hsec hstep => exact (outside_keeps hsec hstep).2.1
  | inner hturn =>
    cases hturn with
    | bindDomain hpc | bindMetric hpc | bindMark hpc | trackPut hpc | abandonDelete hpc =>
      simp [hpc, FinePC.holds] at hss
    | _ => rfl

/-- Responses are sent under `ss.sendMu` only. -/
theorem FineTurn.keeps_sent (ht : FineTurn cfg sh locks h x sh' locks' h')
    (hsend : .send h.self ∉ h.pc.holds h.self) : h'.sent = h.sent := by
  cases ht with
  | lock | unlock => rfl
  | outside hpc hsec hstep => exact (outside_keeps hsec hstep).2.2.2
  | inner hturn =>
    cases hturn with
    | sent hpc => simp [hpc, FinePC.holds] at hsend
    | _ => rfl

/-- A step that leaves `registered` alone leaves `s.streams` alone. -/
theorem streamsOf_set {hs : List FineHandler} {i : ℕ} {h h' : FineHandler}
    (hh : hs[i]? = some h) (hreg : h'.registered = h.registered) :
    streamsOf (hs.set i h') = streamsOf hs := by
  unfold streamsOf
  rw [List.length_set]
  congr 1
  funext j
  rw [List.getElem?_set]
  split
  · rename_i hij
    subst hij
    rw [if_pos (List.getElem?_eq_some_iff.mp hh).1, hh]
    simp [hreg]
  · rfl

/-- A stream just opened is not in `s.streams` yet. -/
theorem streamsOf_connect (hs : List FineHandler) (i : ℕ) :
    streamsOf (hs ++ [newFineHandler i]) = streamsOf hs := by
  unfold streamsOf
  rw [List.length_append, List.length_singleton, List.range_succ, List.filter_append]
  have hnew : ([hs.length].filter fun j =>
      (hs ++ [newFineHandler i])[j]?.any FineHandler.registered) = [] := by
    simp [newFineHandler]
  rw [hnew, List.append_nil]
  refine List.filter_congr fun j hj => ?_
  rw [List.getElem?_append_left (List.mem_range.mp hj)]

end Frame

end Rlqs
