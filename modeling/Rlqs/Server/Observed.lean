import Rlqs.Lib.Trace
import Rlqs.Server.Swap

/-!
# RLQS server — handlers and pushes with any engine, and a log

The handlers and push goroutines of `Server/Swap.lean` with any engine: a reply
is whatever the environment says, to a handler and to a push, and every `Send`
may fail (`World.anyNext`). The runs with given engines are among these runs
(`World.run_any`).

Beside the state runs a log of what happened on each stream: messages received,
reports that passed all checks, buckets abandoned, responses sent, and every
call of the store and of the engine (`World.watch`).

* `World.anyNext_cases` — everything a move can do, with what it shows;
* `handlerStep_replay` — the store follows the logged calls;
* `World.watch_stream` — everything a move does to one stream and its part of the
  log.
-/

namespace Rlqs

open Interleave Steps

-- ---------------------------------------------------------------------------
-- Any engine
-- ---------------------------------------------------------------------------

/-- A stream is opened, a handler takes a step, an engine is installed, a push
takes a step in which the engine, if asked, replies `r`, or the `Send` of a push
fails. -/
inductive AnyMove where
  | connect
  | handler (i : ℕ) (x : Input)
  | swap
  | push (j : ℕ) (r : Except GoError (List BucketAction)) (x : PushInput)
  | pushFails (j : ℕ)

/-- Where a push goes on when its `Send` fails. -/
def PushPC.afterFailure : PushPC → Option PushPC
  | .send _ _ todo => some (.visit todo)
  | _ => none

/-- What happens on a stream. -/
inductive StreamEvent where
  | received (req : UsageReports)
  | accepted (key : BucketKey)
  | abandoned (key : BucketKey)
  | sent (actions : List BucketAction)
  | recordUsage (domain : Str) (report : UsageReport)
  | removeBucket (domain : Str) (key : BucketKey)
  | processUsage (domain : Str) (reports : List UsageReport)

/-- The domain that a call of the store or of the engine carries. -/
def StreamEvent.domain : StreamEvent → Option Str
  | .recordUsage domain _ => some domain
  | .removeBucket domain _ => some domain
  | .processUsage domain _ => some domain
  | _ => none

/-- The report passed every check, the one on the number of subscriptions last. -/
def acceptedEvents (cfg : Limits) (ss : StreamState) (u : BucketQuotaUsage) : List StreamEvent :=
  match checkUsage cfg u with
  | .accept id =>
    match trackSubscription cfg ss (bucketKeyFromProto (some id)) id with
    | .ok _ => [.accepted (bucketKeyFromProto (some id))]
    | .error _ => []
  | _ => []

/-- What a step of a handler shows. -/
def handlerEvents (cfg : Limits) (p : Handler) (x : Input) : List StreamEvent :=
  match p.pc, x with
  | .recv, .recv req => [.received req]
  | .usages (u :: _) _, .tick => acceptedEvents cfg p.ss u
  | .record u _ _, .tick => [.recordUsage p.ss.domain u.toReport]
  | .process _ reports, .reply _ => [.processUsage p.ss.domain reports]
  | .actions _ (a :: _) _, .tick =>
    if a.bucketAction = .abandon then [.abandoned (bucketKeyFromProto a.bucketId)] else []
  | .remove key _, .tick => [.removeBucket p.ss.domain key]
  | .send _ all, .sent none => [.sent all]
  | _, _ => []

/-- What a step of a push shows, on the stream it is about. -/
def pushEvents : PushPC → PushInput → List (ℕ × StreamEvent)
  | .process i domain reports _, .tick => tagged i [.processUsage domain reports]
  | .send i actions _, .tick => tagged i [.sent actions]
  | _, _ => []

variable {σ : Type} [BucketStore σ]

/-- One move, with any replies of the engines. -/
def World.anyNext (cfg : Limits) (w : World σ) : AnyMove → Option (World σ)
  | .connect => some ⟨⟨w.pool.shared, w.pool.procs ++ [newHandler]⟩, w.pushes⟩
  | .handler i x =>
    match w.pool.procs[i]? with
    | none => none
    | some p => (handlerStep cfg w.pool.shared p x).map fun c =>
        ⟨⟨c.1, w.pool.procs.set i c.2⟩, w.pushes⟩
  | .swap =>
    some ⟨{ w.pool with shared := { w.pool.shared with engine := w.engine + 1 } },
      w.pushes ++ [⟨w.engine + 1, .snapshot⟩]⟩
  | .push j r x =>
    match w.pushes[j]? with
    | none => none
    | some q => (pushStep (fun _ _ => r) q.version w.pool.procs q.pc x).map fun c =>
        ⟨{ w.pool with procs := c.1 }, w.pushes.set j { q with pc := c.2 }⟩
  | .pushFails j =>
    match w.pushes[j]? with
    | none => none
    | some q =>
      q.pc.afterFailure.map fun pc => { w with pushes := w.pushes.set j { q with pc := pc } }

/-- What a move shows. -/
def World.events (cfg : Limits) (w : World σ) : AnyMove → List (ℕ × StreamEvent)
  | .handler i x =>
    match w.pool.procs[i]? with
    | none => []
    | some p => tagged i (handlerEvents cfg p x)
  | .push j _ x =>
    match w.pushes[j]? with
    | none => []
    | some q => pushEvents q.pc x
  | _ => []

/-- The world and the log. -/
abbrev Observed (σ : Type) := World σ × List (ℕ × StreamEvent)

/-- One move of the world with its log. -/
def World.watch (cfg : Limits) : Observed σ → AnyMove → Option (Observed σ) :=
  observed (World.anyNext cfg) (World.events cfg)

/-- The store calls of a log, made in order. -/
def replay (store : σ) (log : List (ℕ × StreamEvent)) : σ :=
  log.foldl (fun s e =>
    match e.2 with
    | .recordUsage domain report => (BucketStore.recordUsage s domain report).1
    | .removeBucket domain key => (BucketStore.removeBucket s domain key).1
    | _ => s) store

-- ---------------------------------------------------------------------------
-- What a move can do
-- ---------------------------------------------------------------------------

section Moves

variable {cfg : Limits} {w w' : World σ}

/-- Everything a move can do, with what it shows. -/
theorem World.anyNext_cases {m : AnyMove} (h : w.anyNext cfg m = some w') :
    (m = .connect ∧ w' = ⟨⟨w.pool.shared, w.pool.procs ++ [newHandler]⟩, w.pushes⟩ ∧
      w.events cfg m = []) ∨
    (∃ i x p sh' p', m = .handler i x ∧ w.pool.procs[i]? = some p ∧
      handlerStep cfg w.pool.shared p x = some (sh', p') ∧
      w' = ⟨⟨sh', w.pool.procs.set i p'⟩, w.pushes⟩ ∧
      w.events cfg m = tagged i (handlerEvents cfg p x)) ∨
    (m = .swap ∧ w' = ⟨{ w.pool with shared := { w.pool.shared with engine := w.engine + 1 } },
      w.pushes ++ [⟨w.engine + 1, .snapshot⟩]⟩ ∧ w.events cfg m = []) ∨
    (∃ j r x q hs' pc', m = .push j r x ∧ w.pushes[j]? = some q ∧
      pushStep (fun _ _ => r) q.version w.pool.procs q.pc x = some (hs', pc') ∧
      w' = ⟨{ w.pool with procs := hs' }, w.pushes.set j { q with pc := pc' }⟩ ∧
      w.events cfg m = pushEvents q.pc x) ∨
    (∃ j q i actions todo, m = .pushFails j ∧ w.pushes[j]? = some q ∧
      q.pc = .send i actions todo ∧
      w' = { w with pushes := w.pushes.set j { q with pc := .visit todo } } ∧
      w.events cfg m = []) := by
  cases m with
  | connect => exact Or.inl ⟨rfl, (Option.some.inj h).symm, rfl⟩
  | handler i x =>
    simp only [World.anyNext] at h
    split at h
    · simp at h
    · rename_i p hp
      obtain ⟨⟨sh', p'⟩, hstep, rfl⟩ := Option.map_eq_some_iff.mp h
      exact Or.inr (Or.inl ⟨i, x, p, sh', p', rfl, hp, hstep, rfl, by simp only [World.events, hp]⟩)
  | swap => exact Or.inr (Or.inr (Or.inl ⟨rfl, (Option.some.inj h).symm, rfl⟩))
  | push j r x =>
    simp only [World.anyNext] at h
    split at h
    · simp at h
    · rename_i q hq
      obtain ⟨⟨hs', pc'⟩, hstep, rfl⟩ := Option.map_eq_some_iff.mp h
      exact Or.inr (Or.inr (Or.inr (Or.inl ⟨j, r, x, q, hs', pc', rfl, hq, hstep, rfl,
        by simp only [World.events, hq]⟩)))
  | pushFails j =>
    simp only [World.anyNext] at h
    split at h
    · simp at h
    · rename_i q hq
      obtain ⟨pc, hpc, rfl⟩ := Option.map_eq_some_iff.mp h
      unfold PushPC.afterFailure at hpc
      split at hpc
      · rename_i i actions todo hsend
        cases hpc
        exact Or.inr (Or.inr (Or.inr (Or.inr ⟨j, q, i, actions, todo, rfl, hq, hsend, rfl, rfl⟩)))
      · simp at hpc

/-- The store after a step is what the logged calls make of it. -/
theorem handlerStep_replay {sh sh' : Shared σ} {p p' : Handler} {x : Input} (i : ℕ)
    (h : handlerStep cfg sh p x = some (sh', p')) :
    sh'.store = replay sh.store (tagged i (handlerEvents cfg p x)) := by
  unfold handlerEvents
  cases handlerStep_turn h with
  | @usage u us reports hpc =>
    rw [hpc]
    show sh.store = replay sh.store (tagged i (acceptedEvents cfg p.ss u))
    unfold acceptedEvents
    split
    · split
      all_goals rfl
    · rfl
  | action hpc =>
    rw [hpc]
    show sh.store = replay sh.store (tagged i (if _ then _ else _))
    split
    all_goals rfl
  | _ hpc =>
    rw [hpc]
    rfl

/-- The engine's answer is one of the replies a push can get. -/
theorem pushStep_reply (engine : Engine) (v : ℕ) (hs : List Handler) (pc : PushPC) (x : PushInput) :
    ∃ r, pushStep engine v hs pc x = pushStep (fun _ _ => r) v hs pc x := by
  cases pc with
  | process i domain reports todo =>
    refine ⟨engine domain reports, ?_⟩
    cases x with
    | streams order => rfl
    | subscriptions order => rfl
    | tick => rfl
  | snapshot => exact ⟨.ok [], by cases x <;> rfl⟩
  | visit todo => exact ⟨.ok [], by cases todo <;> cases x <;> rfl⟩
  | send i actions todo => exact ⟨.ok [], by cases x <;> rfl⟩

/-- The moves with given engines are moves. -/
theorem World.next_any {engines : ℕ → Engine} {m : SwapMove} (h : w.next cfg engines m = some w') :
    ∃ m', w.anyNext cfg m' = some w' := by
  rcases World.next_cases h with ⟨-, rfl⟩ | ⟨i, x, p, sh', p', -, hp, hs, rfl⟩ | ⟨-, rfl⟩ |
    ⟨j, x, q, hs', pc', -, hq, hstep, rfl⟩
  · exact ⟨.connect, rfl⟩
  · exact ⟨.handler i (answered engines p x), by simp only [World.anyNext, hp, hs, Option.map_some]⟩
  · exact ⟨.swap, rfl⟩
  · obtain ⟨r, hr⟩ := pushStep_reply (engines q.version) q.version w.pool.procs q.pc x
    rw [hr] at hstep
    exact ⟨.push j r x, by simp only [World.anyNext, hq, hstep, Option.map_some]⟩

/-- Runs with given engines are runs. -/
theorem World.run_any {engines : ℕ → Engine} (h : Run (World.next cfg engines) free w w') :
    Run (World.anyNext cfg) free w w' := by
  induction h with
  | refl => exact Relation.ReflTransGen.refl
  | tail _ hs ih =>
    obtain ⟨m, -, hn⟩ := hs
    obtain ⟨m', hm'⟩ := World.next_any hn
    exact ih.tail ⟨m', trivial, hm'⟩

end Moves

-- ---------------------------------------------------------------------------
-- What a push does to the streams
-- ---------------------------------------------------------------------------

section Push

variable {engine : Engine} {v : ℕ} {hs hs' : List Handler} {pc pc' : PushPC} {x : PushInput}

/-- What a push's step does to stream `i`: nothing, a call of the engine for it,
or a response on it. -/
theorem pushStep_on (h : pushStep engine v hs pc x = some (hs', pc')) {i : ℕ} {p : Handler}
    (hp : hs[i]? = some p) :
    (hs'[i]? = some p ∧ logOf i (pushEvents pc x) = []) ∨
    (hs'[i]? = some p ∧ ∃ d reports todo, pc = .process i d reports todo ∧
      logOf i (pushEvents pc x) = [.processUsage d reports]) ∨
    (∃ actions todo, pc = .send i actions todo ∧ x = .tick ∧
      hs'[i]? = some { p with sent := p.sent ++ [(v, actions)] } ∧
      logOf i (pushEvents pc x) = [.sent actions]) := by
  cases pushStep_cases h with
  | @unanswered k d reports todo _ | @replied k d reports todo _ _ _ =>
    by_cases hki : k = i
    · subst hki
      exact Or.inr (Or.inl ⟨hp, d, reports, todo, rfl, logOf_tagged _ _⟩)
    · exact Or.inl ⟨hp, logOf_tagged_ne hki _⟩
  | @sent k actions todo q hq =>
    by_cases hki : k = i
    · subst hki
      obtain rfl : p = q := Option.some.inj (hp.symm.trans hq)
      exact Or.inr (Or.inr ⟨actions, todo, rfl, rfl,
        List.getElem?_set_self (List.getElem?_eq_some_iff.mp hp).1, logOf_tagged _ _⟩)
    · exact Or.inl ⟨by rw [List.getElem?_set_ne hki]; exact hp, logOf_tagged_ne hki _⟩
  | _ => exact Or.inl ⟨hp, rfl⟩

theorem pushStep_length (h : pushStep engine v hs pc x = some (hs', pc')) :
    hs'.length = hs.length := by
  cases pushStep_cases h with
  | sent => exact List.length_set
  | _ => rfl

/-- A push that is about to ask the engine has the domain of a bound stream. -/
def PushPC.Asks (hs : List Handler) (pc : PushPC) : Prop :=
  ∀ i d reports todo, pc = .process i d reports todo →
    ∃ p, hs[i]? = some p ∧ p.ss.domainBound = true ∧ d = p.ss.domain

theorem pushStep_asks (h : pushStep engine v hs pc x = some (hs', pc')) : pc'.Asks hs := by
  intro i d reports todo hpc'
  cases pushStep_cases h with
  | collected hp hbound _ _ =>
    cases hpc'
    exact ⟨_, hp, hbound, rfl⟩
  | _ => cases hpc'

/-- The entries of a push are about streams there are. -/
theorem pushEvents_lt (hasks : pc.Asks hs) (h : pushStep engine v hs pc x = some (hs', pc'))
    {e : ℕ × StreamEvent} (he : e ∈ pushEvents pc x) : e.1 < hs.length := by
  unfold pushEvents at he
  split at he
  · rename_i i d reports todo
    obtain ⟨p, hp, -⟩ := hasks i d reports todo rfl
    rw [List.mem_singleton.mp he]
    exact (List.getElem?_eq_some_iff.mp hp).1
  · rename_i i actions todo
    rw [List.mem_singleton.mp he]
    cases pushStep_cases h with
    | sent hp => exact (List.getElem?_eq_some_iff.mp hp).1
  · simp at he

/-- A push touches no store. -/
theorem replay_pushEvents (store : σ) (pc : PushPC) (x : PushInput) :
    replay store (pushEvents pc x) = store := by
  unfold pushEvents
  split <;> rfl

end Push

-- ---------------------------------------------------------------------------
-- What a move does to one stream
-- ---------------------------------------------------------------------------

/-- Everything a move does to stream `i` with handler `p`, with its log entries. -/
inductive StreamMove (cfg : Limits) (c : Observed σ) (m : AnyMove) (i : ℕ) (p : Handler) :
    Handler → List StreamEvent → Prop where
  | idle : StreamMove cfg c m i p p []
  | handled {x sh' p'} (hm : m = .handler i x)
      (hstep : handlerStep cfg c.1.pool.shared p x = some (sh', p')) :
      StreamMove cfg c m i p p' (handlerEvents cfg p x)
  | asked {q : Push} {d reports todo} (hq : q ∈ c.1.pushes)
      (hpc : q.pc = .process i d reports todo) :
      StreamMove cfg c m i p p [.processUsage d reports]
  | pushed {j r} {q : Push} {actions todo} (hm : m = .push j r .tick)
      (hq : c.1.pushes[j]? = some q) (hpc : q.pc = .send i actions todo) :
      StreamMove cfg c m i p { p with sent := p.sent ++ [(q.version, actions)] } [.sent actions]

section Watch

variable {cfg : Limits} {c c' : Observed σ} {m : AnyMove}

theorem World.watch_stream (h : World.watch cfg c m = some c') {i : ℕ} {p : Handler}
    (hp : c.1.pool.procs[i]? = some p) :
    ∃ p' new, c'.1.pool.procs[i]? = some p' ∧ logOf i c'.2 = logOf i c.2 ++ new ∧
      StreamMove cfg c m i p p' new := by
  obtain ⟨hnext, hlog⟩ := observed_eq_some.mp h
  rw [hlog, logOf_append]
  have hlt := (List.getElem?_eq_some_iff.mp hp).1
  rcases World.anyNext_cases hnext with ⟨-, hw', hev⟩ |
    ⟨j, x, q, sh', q', hm, hq, hstep, hw', hev⟩ | ⟨-, hw', hev⟩ |
    ⟨j, r, x, q, hs', pc', hm, hq, hstep, hw', hev⟩ |
    ⟨j, q, k, actions, todo, -, hq, -, hw', hev⟩
  · rw [hev, hw']
    exact ⟨p, [], by rw [List.getElem?_append_left hlt]; exact hp, rfl, .idle⟩
  · rw [hev, hw']
    by_cases hij : j = i
    · subst hij
      obtain rfl : p = q := Option.some.inj (hp.symm.trans hq)
      exact ⟨q', _, List.getElem?_set_self hlt, by rw [logOf_tagged], .handled hm hstep⟩
    · exact ⟨p, [], by rw [List.getElem?_set_ne hij]; exact hp, by rw [logOf_tagged_ne hij], .idle⟩
  · rw [hev, hw']
    exact ⟨p, [], hp, rfl, .idle⟩
  · rw [hev, hw']
    rcases pushStep_on hstep hp with ⟨hp', hnone⟩ | ⟨hp', d, reports, todo, hpc, hcall⟩ |
      ⟨actions, todo, hpc, rfl, hp', hsent⟩
    · exact ⟨p, [], hp', by rw [hnone], .idle⟩
    · exact ⟨p, _, hp', by rw [hcall], .asked (List.mem_of_getElem? hq) hpc⟩
    · exact ⟨_, _, hp', by rw [hsent], .pushed hm hq hpc⟩
  · rw [hev, hw']
    exact ⟨p, [], hp, rfl, .idle⟩

/-- The streams after a move: one that was there, or the one just opened. -/
theorem World.anyNext_stream {w w' : World σ} (h : w.anyNext cfg m = some w') {i : ℕ} {p' : Handler}
    (hp' : w'.pool.procs[i]? = some p') :
    (∃ p, w.pool.procs[i]? = some p) ∨ (i = w.pool.procs.length ∧ p' = newHandler) := by
  have hold : i < w.pool.procs.length → ∃ p, w.pool.procs[i]? = some p :=
    fun hlt => ⟨_, List.getElem?_eq_getElem hlt⟩
  have hlt' := (List.getElem?_eq_some_iff.mp hp').1
  rcases World.anyNext_cases h with ⟨-, rfl, -⟩ | ⟨j, x, q, sh', q', -, -, -, rfl, -⟩ |
    ⟨-, rfl, -⟩ | ⟨j, r, x, q, hs', pc', -, -, hstep, rfl, -⟩ |
    ⟨j, q, k, actions, todo, -, -, -, rfl, -⟩
  · by_cases hlt : i < w.pool.procs.length
    · exact Or.inl (hold hlt)
    · rw [List.length_append, List.length_singleton] at hlt'
      have hi : i = w.pool.procs.length := by omega
      subst hi
      rw [List.getElem?_append_right (le_refl _), Nat.sub_self] at hp'
      exact Or.inr ⟨rfl, (Option.some.inj hp').symm⟩
  · rw [List.length_set] at hlt'
    exact Or.inl (hold hlt')
  · exact Or.inl (hold hlt')
  · rw [pushStep_length hstep] at hlt'
    exact Or.inl (hold hlt')
  · exact Or.inl (hold hlt')

end Watch

/-- Stream `0` opens, and its handler takes the sample report to the engine. -/
def askMoves : List AnyMove := .connect :: askInputs.map (.handler 0)

end Rlqs
