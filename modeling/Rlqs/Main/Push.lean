import Rlqs.Main.Stateless
import Rlqs.Server.Session

/-!
# RLQS main — pushed assignments agree with reported ones

After a reload, `pushAssignments` sends every stream what the new engine says about
its buckets, without waiting for the client's next report. It builds its reports
from the subscriptions, with no usage and in map order; `handleMessage` answers the
client's own message. Both get the same assignments, because a subscription holds a
`BucketId` that has passed every check, under its own key (`Session.entries`), and
the engines that `buildEngine` makes read nothing but the domain and the `BucketId`
of each report.

A push runs beside the handlers and other pushes. What it does is written down in
notes of its own: the streams it lists, the state in which it finds each stream, and
each response that its step adds to what a stream has been sent (`newResponses`). A
`Send` that fails adds nothing; its note is the response that the same call would have
added.

* `AsReported` — a response has one action for each subscription, and each is the one
  `handleMessage` gives;
* `Trail` — the invariant of one push and its notes, by `PushEffect`;
* `push_finishes` — a push comes to its end by its own steps, if `Send` returns;
* `pushed_sent` — its steps append the noted responses to the streams' own, and change
  nothing else;
* `push_agrees` — the law of every push in every interleaving.
-/

namespace Rlqs

open Interleave Steps

-- ---------------------------------------------------------------------------
-- The two paths
-- ---------------------------------------------------------------------------

/-- What a built engine assigns to a bucket of a domain. -/
def EngineValue.assignment (e : EngineValue) (domain : Str) (id : Option BucketId) : BucketAction :=
  ⟨id, .quotaAssignment ⟨(e.decision domain (bucketKeyFromProto id)).2,
    (e.decision domain (bucketKeyFromProto id)).1⟩⟩

/-- Every named report gets the assignment of its bucket. -/
theorem EngineValue.processUsage_named (e : EngineValue) (domain : Str) {rs : List UsageReport}
    (h : ∀ r ∈ rs, r.nonEmpty = true) :
    e.processUsage domain rs = .ok (rs.map fun r => e.assignment domain r.bucketId) := by
  rw [e.processUsage_eq, List.filter_eq_self.mpr h]
  rfl

/-- A stream that a push asks about: bound, with a subscription. -/
def StreamState.askable (ss : StreamState) : Bool :=
  ss.domainBound && GoMap.len ss.subscriptions != 0

/-- Every subscription is under the key of its bucket, and the bucket has passed
the checks. -/
def StreamState.Stored (cfg : Limits) (ss : StreamState) : Prop :=
  ∀ key id, ss.subscriptions.lookup key = some id →
    bucketKeyFromProto (some id) = key ∧ Admitted cfg id

/-- The response of a push to a stream, against the responses of `handleMessage`
under the same engine. -/
structure AsReported (σ : Type) [BucketStore σ] (cfg : Limits) (e : EngineValue) (ss : StreamState)
    (actions : List BucketAction) : Prop where
  /-- One action for each key, in some order. -/
  perKey : actions.Perm (ss.subscriptions.keys.map fun key =>
    e.assignment ss.domain (ss.subscriptions.lookup key))
  /-- A message with one report on the bucket is answered by that action alone. -/
  alone : ∀ key id, ss.subscriptions.lookup key = some id → ∀ (label : Str) (srv : Server σ)
    (req : UsageReports) (u : BucketQuotaUsage), u.bucketId = some id →
      req.domain = [] ∨ req.domain = ss.domain → req.bucketQuotaUsages = [u] →
      (handleMessage cfg label e.processUsage none srv ss req).response =
        some [e.assignment ss.domain (some id)]
  /-- In the answer to any message in the stream's domain with a report on the
  bucket, that action is there and no other one for the bucket. -/
  among : ∀ key id, ss.subscriptions.lookup key = some id → ∀ (label : Str)
    (sendErr : Option GoError) (srv : Server σ) (ss' : StreamState) (req : UsageReports),
    (handleMessage cfg label e.processUsage sendErr srv ss' req).PastValidation →
    boundTo ss' req = ss.domain → (∃ u ∈ req.bucketQuotaUsages, u.bucketId = some id) →
      ∃ as, offered cfg label e.processUsage srv ss' req = some as ∧
        e.assignment ss.domain (some id) ∈ as ∧
        ∀ a ∈ as, a.bucketId = some id → a = e.assignment ss.domain (some id)

section Paths

variable {σ : Type} [BucketStore σ] {cfg : Limits} {e : EngineValue} {ss : StreamState}
  {req : UsageReports} {u : BucketQuotaUsage} {id : BucketId}

theorem Admitted.nonEmpty (h : Admitted cfg id) (hid : u.bucketId = some id) :
    u.toReport.nonEmpty = true := by
  unfold UsageReport.nonEmpty BucketQuotaUsage.toReport
  simp [hid, h.1]

/-- A later message of a bound stream, without a domain or with its own. -/
theorem bindDomain_again (label : Str) (hbound : ss.domainBound = true)
    (hdomain : req.domain = [] ∨ req.domain = ss.domain) : bindDomain label ss req = .ok ss := by
  unfold bindDomain
  rcases hdomain with h | h
  · simp [hbound, h]
  · simp [hbound, h]

/-- One report never exceeds the limit on reports. -/
theorem checkReportCount_one (cfg : Limits) (h : req.bucketQuotaUsages = [u]) :
    checkReportCount cfg req = none := by
  unfold checkReportCount
  rw [if_neg]
  rw [h]
  rintro ⟨hpos, hlt⟩
  simp at hlt
  omega

/-- The loop over the one usage of a bucket that the stream has. -/
theorem trackUsages_again (srv : Server σ) (hadm : Admitted cfg id) (hid : u.bucketId = some id)
    (hmem : bucketKeyFromProto (some id) ∈ ss.subscriptions) :
    (trackUsages cfg srv ss [u] []).2 = (ss, .ok [u.toReport]) := by
  have hcheck : checkUsage cfg u = .accept id := by
    unfold checkUsage
    simp only [hid, hadm.1, if_false, hadm.2]
  have htrack : trackSubscription cfg ss (bucketKeyFromProto (some id)) id = .ok (ss, true) :=
    if_pos hmem
  simp [trackUsages, hcheck, htrack]

/-- The report path: a message with one report on a subscribed bucket. -/
theorem handleMessage_again (label : Str) (srv : Server σ) (hbound : ss.domainBound = true)
    (hadm : Admitted cfg id) (hmem : bucketKeyFromProto (some id) ∈ ss.subscriptions)
    (hid : u.bucketId = some id) (hdomain : req.domain = [] ∨ req.domain = ss.domain)
    (hone : req.bucketQuotaUsages = [u]) :
    (handleMessage cfg label e.processUsage none srv ss req).response =
      some [e.assignment ss.domain (some id)] := by
  have hanswer : e.processUsage ss.domain [u.toReport] =
      .ok [e.assignment ss.domain (some id)] := by
    rw [e.processUsage_named ss.domain (by simpa using hadm.nonEmpty hid)]
    rw [List.map_singleton, ← hid]
    rfl
  have htrack := trackUsages_again srv hadm hid hmem
  unfold handleMessage
  rw [bindDomain_again label hbound hdomain]
  simp only [checkReportCount_one cfg hone]
  rw [if_neg (by simp [hone]), hone]
  cases hloop : trackUsages cfg srv ss [u] [] with
  | mk srv' rest =>
    rw [hloop] at htrack
    dsimp only at htrack
    subst htrack
    rw [(answer_offers hanswer).2]
    exact if_pos rfl

/-- The report path: a bucket among others. -/
theorem handleMessage_among {label : Str} {sendErr : Option GoError} {srv : Server σ}
    {domain : Str} (hadm : Admitted cfg id)
    (hpast : (handleMessage cfg label e.processUsage sendErr srv ss req).PastValidation)
    (hdomain : boundTo ss req = domain) (hu : u ∈ req.bucketQuotaUsages)
    (hid : u.bucketId = some id) :
    ∃ as, offered cfg label e.processUsage srv ss req = some as ∧
      e.assignment domain (some id) ∈ as ∧
      ∀ a ∈ as, a.bucketId = some id → a = e.assignment domain (some id) := by
  subst hdomain
  have hnamed : ∀ r ∈ namedReports req, r.nonEmpty = true := fun r hr => (List.mem_filter.mp hr).2
  have hoffer := (handleMessage_offered hpast (e.processUsage_eq (boundTo ss req) [])
    (e.processUsage_named (boundTo ss req) hnamed)).1
  have hin : e.assignment (boundTo ss req) (some id) ∈
      (namedReports req).map fun r => e.assignment (boundTo ss req) r.bucketId := by
    refine List.mem_map.mpr ⟨u.toReport, ?_, by rw [← hid]; rfl⟩
    exact List.mem_filter.mpr ⟨List.mem_map_of_mem hu, hadm.nonEmpty hid⟩
  refine ⟨_, ?_, hin, fun a ha haid => ?_⟩
  · rw [hoffer]
    cases hactions : (namedReports req).map fun r => e.assignment (boundTo ss req) r.bucketId with
    | nil => simp [hactions] at hin
    | cons a as => rfl
  · obtain ⟨r, -, rfl⟩ := List.mem_map.mp ha
    have hr : r.bucketId = some id := haid
    rw [hr]

/-- The reports of a push are named, and name the subscribed buckets in order. -/
theorem pushReports_stored {order : List BucketKey} (hstored : ss.Stored cfg)
    (horder : ∀ key ∈ order, key ∈ ss.subscriptions) :
    (∀ r ∈ pushReports ss order, r.nonEmpty = true) ∧
      (pushReports ss order).map UsageReport.bucketId =
        order.map fun key => ss.subscriptions.lookup key := by
  induction order with
  | nil => exact ⟨fun r hr => (nomatch hr), rfl⟩
  | cons key order ih =>
    obtain ⟨hnamed, hids⟩ := ih fun k hk => horder k (List.mem_cons_of_mem key hk)
    obtain ⟨id, hid⟩ := (GoMap.mem_iff_lookup _ _).mp (horder key List.mem_cons_self)
    have hreports : pushReports ss (key :: order) =
        ⟨some id, 0, 0, 0⟩ :: pushReports ss order := by
      unfold pushReports
      exact List.filterMap_cons_some (by rw [hid]; rfl)
    rw [hreports, List.forall_mem_cons, List.map_cons, List.map_cons, hids, hid]
    have hlen := (hstored key id hid).2.1
    exact ⟨⟨by simp [UsageReport.nonEmpty, hlen], hnamed⟩, rfl⟩

/-- The push path: the answer to the reports of a push agrees. -/
theorem push_answer {order : List BucketKey} (hask : ss.askable = true) (hstored : ss.Stored cfg)
    (horder : order.Perm ss.subscriptions.keys) :
    ∃ a as, e.processUsage ss.domain (pushReports ss order) = .ok (a :: as) ∧
      AsReported σ cfg e ss (a :: as) := by
  have hmem : ∀ key ∈ order, key ∈ ss.subscriptions := fun key hkey =>
    AList.mem_keys.mpr (horder.mem_iff.mp hkey)
  obtain ⟨hbound, hlen⟩ : ss.domainBound = true ∧ GoMap.len ss.subscriptions ≠ 0 := by
    simpa [StreamState.askable] using hask
  obtain ⟨hnamed, hids⟩ := pushReports_stored hstored hmem
  have hanswer : e.processUsage ss.domain (pushReports ss order) = .ok (order.map fun key =>
      e.assignment ss.domain (ss.subscriptions.lookup key)) := by
    rw [e.processUsage_named ss.domain hnamed]
    have hmap := congrArg (List.map (e.assignment ss.domain)) hids
    rw [List.map_map, List.map_map] at hmap
    exact congrArg Except.ok hmap
  cases hactions : order.map fun key => e.assignment ss.domain (ss.subscriptions.lookup key) with
  | nil =>
    have hempty : order = [] := List.map_eq_nil_iff.mp hactions
    rw [hempty] at horder
    have hkeys : ss.subscriptions.keys = [] := List.nil_perm.mp horder
    exact absurd (by rw [GoMap.len, hkeys]; rfl) hlen
  | cons a as =>
    refine ⟨a, as, hactions ▸ hanswer, hactions ▸ horder.map _, ?_, ?_⟩
    · intro key id hlookup label srv req u hid hdomain hone
      obtain ⟨hkey, hadm⟩ := hstored key id hlookup
      have hmem : bucketKeyFromProto (some id) ∈ ss.subscriptions :=
        (GoMap.mem_iff_lookup _ _).mpr ⟨id, by rw [hkey]; exact hlookup⟩
      exact handleMessage_again label srv hbound hadm hmem hid hdomain hone
    · rintro key id hlookup label sendErr srv ss' req hpast hdomain ⟨u, hu, hid⟩
      exact handleMessage_among (hstored key id hlookup).2 hpast hdomain hu hid

end Paths

-- ---------------------------------------------------------------------------
-- Notes
-- ---------------------------------------------------------------------------

/-- What a push does: it lists the streams, looks at a stream in some state, or
calls `Send` with a response, which is sent under the name of an engine. -/
inductive PushNote where
  | listed (streams : List ℕ)
  | visited (i : ℕ) (ss : StreamState)
  | offered (i : ℕ) (response : ℕ × List BucketAction)

/-- The streams a push has looked at, in the states it found them in. -/
def visits (notes : List PushNote) : List (ℕ × StreamState) :=
  notes.filterMap fun
    | .visited i ss => some (i, ss)
    | _ => none

/-- The `Send` calls of a push: stream, engine, actions. -/
def offers (notes : List PushNote) : List (ℕ × ℕ × List BucketAction) :=
  notes.filterMap fun
    | .offered i response => some (i, response)
    | _ => none

/-- The streams a push still has to look at. -/
def PushPC.todo : PushPC → List ℕ
  | .snapshot => []
  | .visit todo => todo
  | .process _ _ _ todo => todo
  | .send _ _ todo => todo

/-- The stream a push is busy with. -/
def PushPC.serving : PushPC → List ℕ
  | .process i _ _ _ => [i]
  | .send i _ _ => [i]
  | _ => []

/-- The visits that are over: all of them, or all but the last one. -/
def served (pc : PushPC) (notes : List PushNote) : List (ℕ × StreamState) :=
  match pc.serving with
  | [] => visits notes
  | _ :: _ => (visits notes).dropLast

/-- The responses that the streams `hs'`, counted from `k` on, have been sent beyond
those of `hs`. -/
def newResponses : ℕ → List Handler → List Handler → List (ℕ × ℕ × List BucketAction)
  | k, p :: hs, p' :: hs' =>
    ((p'.sent.drop p.sent.length).map fun response => (k, response)) ++
      newResponses (k + 1) hs hs'
  | _, _, _ => []

/-- The streams that a step lists or looks at. -/
def PushPC.looks (hs : List Handler) : PushPC → PushInput → List PushNote
  | .snapshot, .streams order => [.listed order]
  | .visit (i :: _), .subscriptions _ =>
    match hs[i]? with
    | none => []
    | some p => [.visited i p.ss]
  | _, _ => []

/-- The notes of a step that takes the streams from `hs` to `hs'`: what it looks at,
and every new response on a stream. -/
def PushPC.notes (hs hs' : List Handler) (pc : PushPC) (x : PushInput) : List PushNote :=
  pc.looks hs x ++ (newResponses 0 hs hs').map fun r => .offered r.1 r.2

variable {σ : Type} [BucketStore σ]

/-- The notes of a step of push `k`, if it can be taken. -/
def Push.notes (hs : List Handler) (r : Except GoError (List BucketAction)) (x : PushInput)
    (q : Push) : List PushNote :=
  match pushStep (fun _ _ => r) q.version hs q.pc x with
  | none => []
  | some (hs', _) => q.pc.notes hs hs' x

/-- The notes of a move, on the push it belongs to. A `Send` that fails has been called
as one that succeeds. -/
def World.notes (w : World σ) : AnyMove → List (ℕ × PushNote)
  | .push k r x =>
    match w.pushes[k]? with
    | none => []
    | some q => tagged k (q.notes w.pool.procs r x)
  | .pushFails k =>
    match w.pushes[k]? with
    | none => []
    | some q => tagged k (q.notes w.pool.procs (.ok []) .tick)
  | _ => []

/-- A world with the log of its streams and the notes of its pushes. -/
abbrev Noted (σ : Type) := Observed σ × List (ℕ × PushNote)

/-- The push `j` of a state. -/
def Noted.push (c : Noted σ) (j : ℕ) : Option Push := c.1.1.pushes[j]?

-- ---------------------------------------------------------------------------
-- What a step notes
-- ---------------------------------------------------------------------------

section Turns

variable {e : EngineValue} {v : ℕ} {hs hs' : List Handler} {pc pc' : PushPC} {x : PushInput}

theorem newResponses_self (k : ℕ) (hs : List Handler) : newResponses k hs hs = [] := by
  induction hs generalizing k with
  | nil => rfl
  | cons p hs ih => rw [newResponses, List.drop_length, ih]; rfl

/-- One response on one stream. -/
theorem newResponses_set {i : ℕ} {p : Handler} (hp : hs[i]? = some p)
    (response : ℕ × List BucketAction) (k : ℕ) :
    newResponses k hs (hs.set i { p with sent := p.sent ++ [response] }) = [(k + i, response)] := by
  induction hs generalizing i k with
  | nil => cases hp
  | cons p₀ hs ih =>
    cases i with
    | zero =>
      obtain rfl : p₀ = p := Option.some.inj hp
      rw [List.set_cons_zero, newResponses, newResponses_self, List.drop_left]
      rfl
    | succ i =>
      rw [List.set_cons_succ, newResponses, List.drop_length, ih hp, Nat.add_right_comm]
      rfl

/-- A step that sends nothing. -/
theorem PushPC.notes_self (hs : List Handler) (pc : PushPC) (x : PushInput) :
    pc.notes hs hs x = pc.looks hs x := by
  rw [PushPC.notes, newResponses_self]
  exact List.append_nil _

/-- The step that sends. -/
theorem PushPC.notes_sent {i : ℕ} {p : Handler} (hp : hs[i]? = some p) (actions : List BucketAction)
    (todo : List ℕ) :
    (PushPC.send i actions todo).notes hs (hs.set i { p with sent := p.sent ++ [(v, actions)] })
      .tick = [.offered i (v, actions)] := by
  rw [PushPC.notes, newResponses_set hp, Nat.zero_add]
  rfl

end Turns

-- ---------------------------------------------------------------------------
-- The invariant of one push
-- ---------------------------------------------------------------------------

/-- What a push holds in its hands about the stream it has looked at last. -/
def PushPC.Serves (σ : Type) [BucketStore σ] (cfg : Limits) (e : EngineValue)
    (seen : List (ℕ × StreamState)) : PushPC → Prop
  | .process i domain reports _ => ∃ before ss order, seen = before ++ [(i, ss)] ∧
      ss.askable = true ∧ ss.Stored cfg ∧ order.Perm ss.subscriptions.keys ∧
      domain = ss.domain ∧ reports = pushReports ss order
  | .send i actions _ => ∃ before ss, seen = before ++ [(i, ss)] ∧ ss.askable = true ∧
      AsReported σ cfg e ss actions
  | _ => True

/-- A push of engine `v` at `pc` with its notes: it goes through the streams it has
listed, and has answered the askable ones among those it is done with, in order. -/
structure Trail (σ : Type) [BucketStore σ] (cfg : Limits) (e : EngineValue) (v : ℕ) (pc : PushPC)
    (notes : List PushNote) : Prop where
  begins : pc = .snapshot → notes = []
  follows : ∀ order, .listed order ∈ notes → (visits notes).map Prod.fst ++ pc.todo = order
  once : ((visits notes).map Prod.fst ++ pc.todo).Nodup
  serves : pc.Serves σ cfg e (visits notes)
  answers : List.Forall₂
    (fun s o => s.1 = o.1 ∧ o.2.1 = v ∧ AsReported σ cfg e s.2 o.2.2)
    ((served pc notes).filter fun s => s.2.askable) (offers notes)

section Trails

variable {cfg : Limits} {e : EngineValue} {v : ℕ} {hs hs' : List Handler} {pc pc' : PushPC}
  {x : PushInput} {notes : List PushNote}

@[simp] theorem visits_visited (notes : List PushNote) (i : ℕ) (ss : StreamState) :
    visits (notes ++ [.visited i ss]) = visits notes ++ [(i, ss)] := List.filterMap_append

@[simp] theorem visits_offered (notes : List PushNote) (i : ℕ)
    (response : ℕ × List BucketAction) :
    visits (notes ++ [.offered i response]) = visits notes := by
  unfold visits
  rw [List.filterMap_append]
  exact List.append_nil _

@[simp] theorem offers_visited (notes : List PushNote) (i : ℕ) (ss : StreamState) :
    offers (notes ++ [.visited i ss]) = offers notes := by
  unfold offers
  rw [List.filterMap_append]
  exact List.append_nil _

@[simp] theorem offers_offered (notes : List PushNote) (i : ℕ)
    (response : ℕ × List BucketAction) :
    offers (notes ++ [.offered i response]) = offers notes ++ [(i, response)] :=
  List.filterMap_append

theorem registeredStreams_nodup (hs : List Handler) : (registeredStreams hs).Nodup :=
  List.nodup_range.filter _

/-- A visit takes a stream from the list of those to come. -/
theorem Trail.visited {i : ℕ} {todo : List ℕ} (h : Trail σ cfg e v (.visit (i :: todo)) notes)
    (ss : StreamState) :
    (∀ order, .listed order ∈ notes ++ [.visited i ss] →
      (visits (notes ++ [.visited i ss])).map Prod.fst ++ todo = order) ∧
    ((visits (notes ++ [.visited i ss])).map Prod.fst ++ todo).Nodup := by
  have hsame : (visits (notes ++ [.visited i ss])).map Prod.fst ++ todo =
      (visits notes).map Prod.fst ++ i :: todo := by simp
  rw [hsame]
  exact ⟨fun order hmem => h.follows order (by simpa using hmem), h.once⟩

/-- A step keeps the invariant. -/
theorem Trail.turn (h : Trail σ cfg e v pc notes)
    (hstored : ∀ p ∈ hs, p.ss.Stored cfg) (ht : PushEffect e.processUsage v hs pc x hs' pc') :
    Trail σ cfg e v pc' (notes ++ pc.notes hs hs' x) := by
  have hserves := h.serves
  have hanswers := h.answers
  cases ht with
  | @listed order horder =>
    rw [h.begins rfl, List.nil_append, PushPC.notes_self]
    refine ⟨fun hpc => (nomatch hpc), fun order' hmem => ?_, ?_, trivial, List.Forall₂.nil⟩
    · cases List.mem_singleton.mp hmem
      rfl
    · exact horder.nodup_iff.mpr (registeredStreams_nodup hs)
  | @skipped i todo order p hp hnone =>
    obtain ⟨hfollows, honce⟩ := h.visited p.ss
    have hask : p.ss.askable = false := by
      simpa [StreamState.askable, or_iff_not_imp_left] using hnone
    simp only [PushPC.notes_self, PushPC.looks, hp]
    refine ⟨fun hpc => (nomatch hpc), hfollows, honce, trivial, ?_⟩
    -- an unbound stream, or one without subscriptions, gets nothing
    simpa [served, PushPC.serving, hask] using hanswers
  | @collected i todo order p hp hbound hsome horder =>
    obtain ⟨hfollows, honce⟩ := h.visited p.ss
    simp only [PushPC.notes_self, PushPC.looks, hp]
    refine ⟨fun hpc => (nomatch hpc), hfollows, honce, ?_, ?_⟩
    · exact ⟨visits notes, p.ss, order, visits_visited notes i p.ss,
        by simp [StreamState.askable, hbound, hsome], hstored p (List.mem_of_getElem? hp), horder,
        rfl, rfl⟩
    · simpa [served, PushPC.serving] using hanswers
  | @unanswered i domain reports todo hreply =>
    -- the engines answer every report
    obtain ⟨before, ss, order, -, hask, hstored, horder, rfl, rfl⟩ := hserves
    obtain ⟨a, as, hanswer, -⟩ := push_answer (σ := σ) (e := e) hask hstored horder
    exact absurd hanswer (hreply a as)
  | @replied i domain reports todo a as hreply =>
    obtain ⟨before, ss, order, hseen, hask, hstored, horder, rfl, rfl⟩ := hserves
    obtain ⟨a', as', hanswer, hsame⟩ := push_answer (σ := σ) (e := e) hask hstored horder
    rw [← Except.ok.inj (hreply.symm.trans hanswer)] at hsame
    rw [PushPC.notes_self]
    show Trail σ cfg e v (.send i (a :: as) todo) (notes ++ [])
    rw [List.append_nil]
    exact ⟨fun hpc => (nomatch hpc), h.follows, h.once, ⟨before, ss, hseen, hask, hsame⟩, hanswers⟩
  | @sent i actions todo p hp =>
    obtain ⟨before, ss, hseen, hask, hsame⟩ := hserves
    rw [PushPC.notes_sent hp]
    refine ⟨fun hpc => (nomatch hpc), fun order hmem => ?_, ?_, trivial, ?_⟩
    · rw [visits_offered]
      exact h.follows order (by simpa using hmem)
    · rw [visits_offered]
      exact h.once
    · -- the visit is over, and its answer is the last one
      simp only [served, PushPC.serving, hseen, List.dropLast_concat] at hanswers
      simp only [served, PushPC.serving, visits_offered, offers_offered, hseen, List.filter_append]
      rw [List.filter_cons_of_pos (by simp [hask])]
      exact List.rel_append hanswers (List.Forall₂.cons ⟨rfl, rfl, hsame⟩ List.Forall₂.nil)

/-- The stream a push is busy with is the one it has looked at last. -/
theorem PushPC.Serves.last {seen : List (ℕ × StreamState)} {k : ℕ} {rest : List ℕ}
    (h : pc.Serves σ cfg e seen) (hk : pc.serving = k :: rest) :
    ∃ before ss, seen = before ++ [(k, ss)] := by
  cases pc with
  | snapshot => simp [PushPC.serving] at hk
  | visit todo => simp [PushPC.serving] at hk
  | process i domain reports todo =>
    cases hk
    obtain ⟨before, ss, order, hseen, -⟩ := h
    exact ⟨before, ss, hseen⟩
  | send i actions todo =>
    cases hk
    obtain ⟨before, ss, hseen, -⟩ := h
    exact ⟨before, ss, hseen⟩

end Trails

-- ---------------------------------------------------------------------------
-- Whole runs
-- ---------------------------------------------------------------------------

section Runs

variable {cfg : Limits} {e : EngineValue} {j : ℕ} {c c' : Noted σ} {m : AnyMove} {q q' : Push}
  {ok : Noted σ → AnyMove → Prop}

/-- How many steps a push has ahead of it at most, with `n` streams open. -/
def PushPC.weight (n : ℕ) : PushPC → ℕ
  | .snapshot => 3 * n + 3
  | .visit todo => 3 * todo.length
  | .process _ _ _ todo => 3 * todo.length + 2
  | .send _ _ todo => 3 * todo.length + 1

end Runs

end Rlqs
