import Rlqs.Storage.Callers
import Rlqs.Storage.Deletion

/-!
# RLQS storage — instances that share a Redis

Every instance of the server has a `RedisStorage` of its own: its breaker, its
fallback and its log are its own, the Redis behind them is one. Here any number
of instances run any number of overlapping `RecordUsage` and `RemoveBucket`
calls, one operation at a time in any order, and each of them may find Redis
down while the others find it up. An instance that stops for good is one that
takes no further step.

Redis has a clock, and drops a key once its time to live is over. How it does that is
no part of the repository, and neither is what the client makes of `keyTTL` on the way.
The server is therefore a parameter, `RedisServer`, and what is taken for granted about
it is stated by name:

* `RedisServer.Stores` — commands act on the data as in `Storage.Redis`, and time
  changes no counter but takes whole keys away;
* `RedisServer.Expires` — `EXPIRE` gives a key its time, and the key is there until
  that is over, and not after it;
* `Fleet.next` — an operation of an instance, the start of an instance, or the
  passage of time;
* `Replica.next_sends` — an instance touches Redis by the commands it sends only.
-/

namespace Rlqs

open Interleave Steps

-- ---------------------------------------------------------------------------
-- A Redis with a clock
-- ---------------------------------------------------------------------------

/-- The key exists: it has a field. -/
def Redis.has (r : Redis) (k : BucketKey) : Bool :=
  (r.hashes k .allowed).isSome || (r.hashes k .denied).isSome

theorem Redis.has_congr {r r' : Redis} {k : BucketKey} (h : r'.hashes k = r.hashes k) :
    r'.has k = r.has k := by
  unfold Redis.has
  rw [h]

/-- A Redis server with a clock, of which nothing is said yet. `exec` is a command at
a time, and `pass` the passage of time to a later one. `ends` is the last instant of a
key that has a time to live, and `life` the time that `EXPIRE` gives a key, for what the
client is asked to send. -/
structure RedisServer where
  State : Type
  empty : State
  data : State → Redis
  exec : Nanos → State → Command → State
  pass : Nanos → State → State
  ends : State → BucketKey → Option Nanos
  life : Nanos → Nanos

namespace RedisServer

def execAll (R : RedisServer) (now : Nanos) (t : R.State) (cmds : List Command) : R.State :=
  cmds.foldl (R.exec now) t

/-- What is assumed about the data: a server begins empty, commands act on it as in
`Storage.Redis`, and as time passes a key stays as it is or goes as a whole. -/
structure Stores (R : RedisServer) : Prop where
  empty : R.data R.empty = emptyRedis
  exec : ∀ now t c, R.data (R.exec now t c) = ((R.data t).exec c).1
  pass : ∀ now t k, (R.data (R.pass now t)).hashes k = (R.data t).hashes k ∨
    (R.data (R.pass now t)).has k = false

/-- What is assumed about time to live: `EXPIRE` sets the last instant of a key that
exists, and commands for other keys leave it alone; up to that instant the key stays as
it is, and after it the key is gone. -/
structure Expires (R : RedisServer) : Prop where
  life : ∀ ttl, 0 < ttl → 0 ≤ R.life ttl
  expire : ∀ now t k ttl, 0 < ttl → (R.data t).has k = true →
    R.ends (R.exec now t (.expire k ttl)) k = some (now + R.life ttl)
  frame : ∀ now t c k, c.key ≠ k → R.ends (R.exec now t c) k = R.ends t k
  stays : ∀ now t k d, R.ends t k = some d → now ≤ d →
    (R.data (R.pass now t)).hashes k = (R.data t).hashes k ∧ R.ends (R.pass now t) k = some d
  goes : ∀ now t k d, R.ends t k = some d → d < now → (R.data (R.pass now t)).has k = false

variable {R : RedisServer}

theorem execAll_append (now : Nanos) (t : R.State) (cs ds : List Command) :
    R.execAll now t (cs ++ ds) = R.execAll now (R.execAll now t cs) ds :=
  List.foldl_append

theorem Stores.execAll (h : R.Stores) (now : Nanos) (t : R.State) (cmds : List Command) :
    R.data (R.execAll now t cmds) = ((R.data t).execAll cmds).1 := by
  induction cmds generalizing t with
  | nil => rfl
  | cons c cs ih =>
    rw [Redis.execAll_cons, ← h.exec now t c]
    exact ih (R.exec now t c)

/-- A key that is not there does not come back by the passage of time. -/
theorem Stores.pass_gone (h : R.Stores) {t : R.State} {k : BucketKey}
    (hgone : (R.data t).has k = false) (now : Nanos) :
    (R.data (R.pass now t)).has k = false := by
  rcases h.pass now t k with hsame | hnone
  · exact (Redis.has_congr hsame).trans hgone
  · exact hnone

end RedisServer

-- ---------------------------------------------------------------------------
-- The instances
-- ---------------------------------------------------------------------------

/-- An instance's store and its calls. The hashes in its store are those it saw
last. -/
abbrev Replica := Pool RedisStorage StoreProc

/-- The instance, with the hashes as they are now. -/
def Replica.attach (rep : Replica) (r : Redis) : Replica :=
  { rep with shared := { rep.shared with redis := r } }

/-- The pipeline a call is about to send. -/
def StoreProc.pipeline (s : RedisStorage) (p : StoreProc) : List Command :=
  if p.atDirect || p.atRetry then p.commands s
  else
    match p.flushing with
    | some entries => flushCommands s.keyTTL entries
    | none => []

/-- The commands an operation has Redis execute. -/
def StoreProc.sends (s : RedisStorage) (p : StoreProc) : RecordInput → List Command
  | .redis o => o.executed (p.pipeline s)
  | _ => []

/-- The counts an operation deletes: by a `DEL` that was answered, or by a removal
from the fallback. -/
def StoreProc.removes (s : RedisStorage) (p : StoreProc) (x : RecordInput) (k : BucketKey)
    (f : Field) : ℕ :=
  match p with
  | .record _ => 0
  | .remove p =>
    if k = p.scopedKey then
      match p.pc, x with
      | .retry, .redis .reached => (s.redis.count k f).toNat
      | .direct, .redis .reached => (s.redis.count k f).toNat
      | .update, .tick => s.fallback.count k f
      | _, _ => 0
    else 0

def Replica.sends (rep : Replica) : Move StoreRequest RecordInput → List Command
  | .spawn _ => []
  | .act i x =>
    match rep.procs[i]? with
    | none => []
    | some c => c.sends rep.shared x

def Replica.removes (rep : Replica) (k : BucketKey) (f : Field) : Move StoreRequest RecordInput → ℕ
  | .spawn _ => 0
  | .act i x =>
    match rep.procs[i]? with
    | none => 0
    | some c => c.removes rep.shared x k f

/-- The instances, the Redis they share and its clock. `expired` and `removed` are
ghosts: the counts that went with a key whose time was over, and those that a
removal deleted in Redis or in a fallback. -/
structure Fleet (R : RedisServer) where
  server : R.State
  now : Nanos
  replicas : List Replica
  expired : BucketKey → Field → ℕ
  removed : BucketKey → Field → ℕ

def newFleet (R : RedisServer) : Fleet R := ⟨R.empty, 0, [], fun _ _ => 0, fun _ _ => 0⟩

inductive FleetMove where
  | start (cfg : RedisConfig)
  | wait (t : Nanos)
  | op (i : ℕ) (m : Move StoreRequest RecordInput)

section Moves

variable {R : RedisServer}

/-- One move. The ghost `expired` grows by the counters of the keys that are gone. -/
def Fleet.next (w : Fleet R) : FleetMove → Option (Fleet R)
  | .start cfg => some { w with
      replicas := w.replicas ++ [⟨newRedisStorage cfg emptyRedis, []⟩] }
  | .wait t =>
    if w.now ≤ t then
      some { w with
        server := R.pass t w.server
        now := t
        expired := fun k f => w.expired k f +
          if (R.data (R.pass t w.server)).has k then 0
          else ((R.data w.server).count k f).toNat }
    else none
  | .op i m =>
    match w.replicas[i]? with
    | none => none
    | some rep =>
      (storeMachine.next (rep.attach (R.data w.server)) m).map fun rep' => { w with
        server := R.execAll w.now w.server (rep.sends m)
        replicas := w.replicas.set i rep'
        removed := fun k f => w.removed k f + (rep.attach (R.data w.server)).removes k f m }

/-- A pipeline that fails has had no effect. -/
def RecordInput.whole : RecordInput → Bool
  | .redis (.failed ran _) => ran.isEmpty
  | _ => true

/-- Pipelines are all-or-nothing. -/
def wholePipelines : FleetMove → Bool
  | .op _ (.act _ x) => x.whole
  | _ => true

/-- The move sends no command for the key. -/
def untouched (k : BucketKey) (w : Fleet R) : FleetMove → Bool
  | .op i m =>
    match w.replicas[i]? with
    | none => true
    | some rep => (rep.sends m).all fun c => c.key ≠ k
  | _ => true

end Moves

-- ---------------------------------------------------------------------------
-- What an operation sends
-- ---------------------------------------------------------------------------

/-- A pipeline run by the store, as its executed commands. -/
theorem pipeline_sends {s : RedisStorage} {cmds : List Command} {o : Outcome}
    {out : RedisStorage × Option RedisError} (h : s.pipeline cmds o = out) :
    out.1.redis = (s.redis.execAll (o.executed cmds)).1 ∧ out.1.keyTTL = s.keyTTL := by
  subst h
  exact ⟨Redis.runPipeline_fst s.redis cmds o, rfl⟩

theorem StoreProc.pipeline_own {p : StoreProc} (h : p.atDirect = true ∨ p.atRetry = true)
    (s : RedisStorage) : p.pipeline s = p.commands s :=
  if_pos (by simpa using h)

theorem StoreProc.pipeline_flush {p : StoreProc} {entries : GoMap BucketKey UsageState}
    (h : p.flushing = some entries) (s : RedisStorage) :
    p.pipeline s = flushCommands s.keyTTL entries := by
  have hown : (p.atDirect || p.atRetry) = false := by
    rcases p with ⟨pc, domain, report⟩ | ⟨pc, domain, key⟩ <;> cases pc <;>
      first | rfl | cases h
  unfold StoreProc.pipeline
  rw [hown, h]
  rfl

/-- An operation touches Redis by the commands it sends only. -/
theorem recordStep_sends {s s' : RedisStorage} {p p' : Recorder} {x : RecordInput}
    (h : recordStep s p x = some (s', p')) :
    s'.redis = (s.redis.execAll ((StoreProc.record p).sends s x)).1 ∧ s'.keyTTL = s.keyTTL := by
  cases recordStep_turn h with
  | retried hpc hatt | retryFailed hpc hatt =>
    unfold StoreProc.sends
    rw [StoreProc.pipeline_own (Or.inr (by simp [StoreProc.atRetry, hpc]))]
    exact pipeline_sends hatt
  | direct hpc hatt | directFailed hpc hatt =>
    unfold StoreProc.sends
    rw [StoreProc.pipeline_own (Or.inl (by simp [StoreProc.atDirect, hpc]))]
    exact pipeline_sends hatt
  | @flush entries o line hpc =>
    have hflushing : (StoreProc.record p).flushing = some entries := by
      simp [StoreProc.flushing, hpc]
    unfold StoreProc.sends
    rw [StoreProc.pipeline_flush hflushing]
    exact pipeline_sends (s := s) (o := o) rfl
  | _ => exact ⟨rfl, rfl⟩

/-- Where a removal does not delete, it sends what a record sends. -/
theorem Remover.pipeline_common {p : Remover} (hretry : p.pc ≠ .retry) (hdirect : p.pc ≠ .direct)
    (s : RedisStorage) :
    (StoreProc.remove p).pipeline s = (StoreProc.record p.recorder).pipeline s := by
  obtain ⟨pc, domain, key⟩ := p
  cases pc <;> first | rfl | contradiction

theorem Remover.sends_common {p : Remover} (hretry : p.pc ≠ .retry) (hdirect : p.pc ≠ .direct)
    (s : RedisStorage) (x : RecordInput) :
    (StoreProc.remove p).sends s x = (StoreProc.record p.recorder).sends s x := by
  unfold StoreProc.sends
  rw [Remover.pipeline_common hretry hdirect]

theorem removeStep_sends {s s' : RedisStorage} {p p' : Remover} {x : RecordInput}
    (h : removeStep s p x = some (s', p')) :
    s'.redis = (s.redis.execAll ((StoreProc.remove p).sends s x)).1 ∧ s'.keyTTL = s.keyTTL := by
  cases removeStep_turn h with
  | common hpc hstep =>
    rw [Remover.sends_common hpc.1 hpc.2.1]
    exact recordStep_sends hstep
  | retryLater => exact ⟨rfl, rfl⟩
  | deleted hpc hdel | deleteFailed hpc hdel =>
    unfold StoreProc.sends
    rw [StoreProc.pipeline_own]
    · exact pipeline_sends hdel
    · rcases hpc with ⟨hpc, -⟩ | ⟨hpc, -⟩
      · exact Or.inr (by simp [StoreProc.atRetry, hpc])
      · exact Or.inl (by simp [StoreProc.atDirect, hpc])
  | update => exact ⟨rfl, rfl⟩

theorem StoreProc.step_sends {s s' : RedisStorage} {c c' : StoreProc} {x : RecordInput}
    (h : c.step s x = some (s', c')) :
    s'.redis = (s.redis.execAll (c.sends s x)).1 ∧ s'.keyTTL = s.keyTTL := by
  rcases StoreProc.step_cases h with ⟨p, p', rfl, rfl, hrecord⟩ | ⟨p, p', rfl, rfl, hremove⟩
  · exact recordStep_sends hrecord
  · exact removeStep_sends hremove

/-- A move of an instance touches Redis by the commands it sends only: the hashes are
as they leave them, and these are the `DEL` and `EXPIRE` commands there were. -/
theorem Replica.next_sends {rep rep' : Replica} {m : Move StoreRequest RecordInput}
    (h : storeMachine.next rep m = some rep') :
    rep'.shared.redis = (rep.shared.redis.execAll (rep.sends m)).1 ∧
      rep'.shared.keyTTL = rep.shared.keyTTL := by
  rcases next_cases h with ⟨op, rfl, rfl⟩ | ⟨i, x, c, s', c', rfl, hc, hs, rfl⟩
  · exact ⟨rfl, rfl⟩
  · have hsends : rep.sends (.act i x) = c.sends rep.shared x := by simp [Replica.sends, hc]
    rw [hsends]
    exact StoreProc.step_sends hs

-- ---------------------------------------------------------------------------
-- One move of the fleet
-- ---------------------------------------------------------------------------

/-- Everything a move can do. -/
theorem Fleet.next_cases {R : RedisServer} {w w' : Fleet R} {m : FleetMove}
    (h : w.next m = some w') :
    (∃ cfg, m = .start cfg ∧
      w' = { w with replicas := w.replicas ++ [⟨newRedisStorage cfg emptyRedis, []⟩] }) ∨
    (∃ t, m = .wait t ∧ w.now ≤ t ∧ w' = { w with
      server := R.pass t w.server
      now := t
      expired := fun k f => w.expired k f +
        if (R.data (R.pass t w.server)).has k then 0
        else ((R.data w.server).count k f).toNat }) ∨
    (∃ i mv rep rep', m = .op i mv ∧ w.replicas[i]? = some rep ∧
      storeMachine.next (rep.attach (R.data w.server)) mv = some rep' ∧
      w' = { w with
        server := R.execAll w.now w.server (rep.sends mv)
        replicas := w.replicas.set i rep'
        removed := fun k f => w.removed k f + (rep.attach (R.data w.server)).removes k f mv }) := by
  cases m with
  | start cfg => exact Or.inl ⟨cfg, rfl, (Option.some.inj h).symm⟩
  | wait t =>
    simp only [Fleet.next] at h
    split at h
    · rename_i hle
      exact Or.inr (Or.inl ⟨t, rfl, hle, (Option.some.inj h).symm⟩)
    · cases h
  | op i mv =>
    simp only [Fleet.next] at h
    split at h
    · cases h
    · rename_i rep hrep
      obtain ⟨rep', hnext, rfl⟩ := Option.map_eq_some_iff.mp h
      exact Or.inr (Or.inr ⟨i, mv, rep, rep', rfl, hrep, hnext, rfl⟩)

-- ---------------------------------------------------------------------------
-- Servers there are
-- ---------------------------------------------------------------------------

/-- The last instants after a command at time `now`. -/
def endsAfter (now : Nanos) (ends : BucketKey → Option Nanos) : Command → BucketKey → Option Nanos
  | .expire k ttl => Function.update ends k (some (now + ttl))
  | _ => ends

/-- The key's time is over at time `now`. -/
def lapsed (ends : BucketKey → Option Nanos) (now : Nanos) (k : BucketKey) : Bool :=
  (ends k).any fun d => d < now

/-- A server that keeps the last instant of every key beside its data, and gives a key
the very time that it is asked for. -/
def sampleServer : RedisServer where
  State := Redis × (BucketKey → Option Nanos)
  empty := (emptyRedis, fun _ => none)
  data := Prod.fst
  exec now t c := ((t.1.exec c).1, endsAfter now t.2 c)
  pass now t :=
    ({ t.1 with hashes := fun k f => if lapsed t.2 now k then none else t.1.hashes k f }, t.2)
  ends := Prod.snd
  life := id

theorem sampleServer_stores : sampleServer.Stores where
  empty := rfl
  exec _ _ _ := rfl
  pass now t k := by
    cases hl : lapsed t.2 now k with
    | true => exact Or.inr (by simp [sampleServer, Redis.has, hl])
    | false => exact Or.inl (by funext f; simp [sampleServer, hl])

theorem sampleServer_expires : sampleServer.Expires where
  life _ hpos := hpos.le
  expire _ _ _ _ _ _ := Function.update_self _ _ _
  frame now t c k hne := by
    cases c with
    | expire k' ttl => exact Function.update_of_ne (Ne.symm hne) _ _
    | hIncrBy k' f n => rfl
    | del k' => rfl
  stays now t k d hd hle := by
    have hends : t.2 k = some d := hd
    have hl : lapsed t.2 now k = false := by simp [lapsed, hends, hle]
    exact ⟨by funext f; simp [sampleServer, hl], hd⟩
  goes now t k d hd hlt := by
    have hends : t.2 k = some d := hd
    have hl : lapsed t.2 now k = true := by simp [lapsed, hends, hlt]
    simp [sampleServer, Redis.has, hl]

end Rlqs
