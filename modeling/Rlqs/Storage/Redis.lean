import Rlqs.Storage.Definitions

/-!
# RLQS storage — the Redis store and its circuit breaker

The executable model of `internal/storage/redis.go`. The Redis server is the
hashes it holds; a pipeline is a list of commands; what becomes of one is an
`Outcome` chosen by the environment: executed as a whole with its replies
received, or failed after any part of it was executed. Counters in Redis are
signed 64-bit integers, and `HINCRBY` refuses to overflow them.

`RedisStorage` carries the server's data along with the fields of the Go
struct, so that one call is one function (`recordUsage`, `removeBucket`); the
clock reading and the outcomes are its inputs (`Env`). Expiry is left out: no
key is dropped by its TTL.

* `exec`, `runPipeline` — commands and pipelines;
* `recordUsage`, `removeBucket` — the two calls of `BucketStore`;
* `Redis.execAll_increments` — what a pipeline of small increments does.
-/

namespace Rlqs

-- ---------------------------------------------------------------------------
-- The Redis server
-- ---------------------------------------------------------------------------

/-- The hash fields `fieldAllowed` and `fieldDenied`. -/
inductive Field where
  | allowed
  | denied
  deriving DecidableEq

/-- The errors a Redis call can return. -/
inductive RedisError where
  | unreachable
  | contextDone
  | command (text : String)
  deriving DecidableEq

inductive Command where
  | hIncrBy (key : BucketKey) (field : Field) (incr : Int)
  | expire (key : BucketKey) (ttl : Nanos)
  | del (key : BucketKey)

/-- The data of the Redis server: the hashes, where a key exists when it has a
field. `deleted` and `expiries` are ghosts: the `DEL` and the `EXPIRE` commands
executed. -/
structure Redis where
  hashes : BucketKey → Field → Option Int
  deleted : List BucketKey
  expiries : List (BucketKey × Nanos)

def emptyRedis : Redis := ⟨fun _ _ => none, [], []⟩

/-- A counter as a reader sees it: zero when absent. -/
def Redis.count (r : Redis) (k : BucketKey) (f : Field) : Int := (r.hashes k f).getD 0

/-- The hash of `k` with one field written. -/
def Redis.write (r : Redis) (k : BucketKey) (f : Field) (n : Int) : Redis :=
  { r with hashes := fun k' f' => if k' = k ∧ f' = f then some n else r.hashes k' f' }

/-- One command, and the error it replies with. -/
def Redis.exec (r : Redis) : Command → Redis × Option RedisError
  | .hIncrBy k f incr =>
    let n := r.count k f + incr
    if -2 ^ 63 ≤ n ∧ n < 2 ^ 63 then (r.write k f n, none)
    else (r, some (.command "ERR increment or decrement would overflow"))
  | .expire k ttl => ({ r with expiries := r.expiries ++ [(k, ttl)] }, none)
  | .del k =>
    ({ r with
      hashes := fun k' f => if k' = k then none else r.hashes k' f
      deleted := r.deleted ++ [k] }, none)

/-- The commands in order, and the first error among the replies. -/
def Redis.execAll (r : Redis) : List Command → Redis × Option RedisError
  | [] => (r, none)
  | c :: cs =>
    let (r₁, e₁) := r.exec c
    let (r₂, e₂) := r₁.execAll cs
    (r₂, e₁.or e₂)

/-- What becomes of a pipeline: executed and answered, or failed with an error
after the commands marked in `ran` were executed. -/
inductive Outcome where
  | reached
  | failed (ran : List Bool) (e : RedisError)

/-- `pipe.Exec`, or a single command. -/
def Redis.runPipeline (r : Redis) (cmds : List Command) : Outcome → Redis × Option RedisError
  | .reached => r.execAll cmds
  | .failed ran e =>
    ((r.execAll ((cmds.zip ran).filterMap fun (c, b) => if b then some c else none)).1, some e)

/-- The commands of a pipeline that were executed. -/
def Outcome.executed (o : Outcome) (cmds : List Command) : List Command :=
  match o with
  | .reached => cmds
  | .failed ran _ => (cmds.zip ran).filterMap fun (c, b) => if b then some c else none

-- ---------------------------------------------------------------------------
-- RedisStorage
-- ---------------------------------------------------------------------------

/-- Go's conversion `int64(u)` of a `uint64`. -/
def int64 (u : UInt64) : Int := Int.bmod u.toNat (2 ^ 64)

/-- The lines written to `s.logger`. The two warnings carry the usage they are
about, where the Go code logs a number: the report dropped, or the entries
whose flush failed. -/
inductive LogLine where
  | dropping (scopedKey : BucketKey) (report : UsageReport)
  | flushFailed (entries : GoMap BucketKey UsageState) (e : RedisError)
  | flushed (entries : ℕ)

/-- `storage.RedisStorage`, together with the data of the server it talks to. -/
structure RedisStorage where
  redis : Redis
  fallback : MemoryStorage
  keyTTL : Nanos
  maxFallbackKeys : Int
  tripped : Bool
  lastAttempt : Nanos
  retryInterval : Nanos
  log : List LogLine

def defaultRetryInterval : Nanos := 5000000000
def defaultKeyTTL : Nanos := 60000000000
def defaultMaxFallback : Int := 10000

/-- `RedisConfig`, as far as the store's behaviour depends on it. -/
structure RedisConfig where
  keyTTL : Nanos
  maxFallbackKeys : Int

/-- `NewRedisStorage`, on a server with the data `redis`. The zero `time.Time`
of `lastAttempt` is only read after `trip` has replaced it. -/
def newRedisStorage (cfg : RedisConfig) (redis : Redis) : RedisStorage where
  redis := redis
  fallback := MemoryStorage.newMemoryStorage
  keyTTL := if cfg.keyTTL ≤ 0 then defaultKeyTTL else cfg.keyTTL
  maxFallbackKeys := if cfg.maxFallbackKeys ≤ 0 then defaultMaxFallback else cfg.maxFallbackKeys
  tripped := false
  lastAttempt := 0
  retryInterval := defaultRetryInterval
  log := []

/-- What the environment decides in one call: the clock reading of `trip` or of
`shouldRetry` (a call takes at most one of them), the outcome of the call's own
pipeline, and the outcome of the flush. -/
structure Env where
  now : Nanos
  attempt : Outcome
  flush : Outcome

/-- The commands of `tryRedisRecordUsage`. -/
def recordCommands (key : BucketKey) (ttl : Nanos) (report : UsageReport) : List Command :=
  [.hIncrBy key .allowed (int64 report.numRequestsAllowed),
    .hIncrBy key .denied (int64 report.numRequestsDenied), .expire key ttl]

/-- The command `flushFallback` adds for one counter; a zero counter is skipped. -/
def counterCommand (key : BucketKey) (field : Field) (n : UInt64) : List Command :=
  if 0 < n then [.hIncrBy key field (int64 n)] else []

/-- The commands of `flushFallback` for one entry. -/
def entryCommands (ttl : Nanos) (e : Σ _ : BucketKey, UsageState) : List Command :=
  counterCommand e.1 .allowed e.2.allowed ++ counterCommand e.1 .denied e.2.denied ++
    [.expire e.1 ttl]

/-- The pipeline of `flushFallback`. -/
def flushCommands (ttl : Nanos) (entries : GoMap BucketKey UsageState) : List Command :=
  entries.entries.flatMap (entryCommands ttl)

namespace RedisStorage

def shouldRetry (s : RedisStorage) (now : Nanos) : Bool := s.retryInterval ≤ now - s.lastAttempt

def trip (s : RedisStorage) (now : Nanos) : RedisStorage :=
  { s with tripped := true, lastAttempt := now }

/-- A pipeline run by this store. -/
def pipeline (s : RedisStorage) (cmds : List Command) (o : Outcome) :
    RedisStorage × Option RedisError :=
  let (r, e) := s.redis.runPipeline cmds o
  ({ s with redis := r }, e)

def tryRedisRecordUsage (s : RedisStorage) (key : BucketKey) (report : UsageReport) (o : Outcome) :
    RedisStorage × Option RedisError :=
  s.pipeline (recordCommands key s.keyTTL report) o

def flushFallback (s : RedisStorage) (o : Outcome) : RedisStorage :=
  let entries := s.fallback.all
  if GoMap.len entries = 0 then s
  else
    let (s, err) := s.pipeline (flushCommands s.keyTTL entries) o
    let line : LogLine := match err with
      | some e => .flushFailed entries e
      | none => .flushed (GoMap.len entries)
    { s with fallback := s.fallback.clear, log := s.log ++ [line] }

def recoverFromFallback (s : RedisStorage) (o : Outcome) : RedisStorage :=
  { s.flushFallback o with tripped := false }

/-- The fallback is full and has no entry for the key: the report would be
dropped. -/
def atCapacity (s : RedisStorage) (scopedKey : BucketKey) : Bool :=
  0 < s.maxFallbackKeys && s.maxFallbackKeys ≤ (s.fallback.len : Int) &&
    (s.fallback.get scopedKey).isNone

/-- `s.fallback.RecordUsage`. -/
def fallbackRecord (s : RedisStorage) (domain : Str) (report : UsageReport) :
    RedisStorage × Option GoError :=
  let (fallback, err) := BucketStore.recordUsage s.fallback domain report
  ({ s with fallback := fallback }, err)

/-- `s.fallback.RemoveBucket`. -/
def fallbackRemove (s : RedisStorage) (domain : Str) (key : BucketKey) :
    RedisStorage × Option GoError :=
  let (fallback, err) := BucketStore.removeBucket s.fallback domain key
  ({ s with fallback := fallback }, err)

/-- The end of a tripped call that did not reach Redis: the report is dropped
at capacity, and goes to the fallback otherwise. -/
def recordTripped (s : RedisStorage) (domain : Str) (report : UsageReport) :
    RedisStorage × Option GoError :=
  if s.atCapacity (report.scopedKey domain) then
    ({ s with log := s.log ++ [.dropping (report.scopedKey domain) report] }, none)
  else s.fallbackRecord domain report

/-- `RedisStorage.RecordUsage`. -/
def recordUsage (s : RedisStorage) (env : Env) (domain : Str) (report : UsageReport) :
    RedisStorage × Option GoError :=
  let scopedKey := report.scopedKey domain
  if s.tripped then
    if s.shouldRetry env.now then
      match s.tryRedisRecordUsage scopedKey report env.attempt with
      | (s, none) => (s.recoverFromFallback env.flush, none)
      | (s, some _) => s.recordTripped domain report
    else s.recordTripped domain report
  else
    match s.tryRedisRecordUsage scopedKey report env.attempt with
    | (s, none) => (s, none)
    | (s, some _) => (s.trip env.now).fallbackRecord domain report

/-- `RedisStorage.RemoveBucket`. -/
def removeBucket (s : RedisStorage) (env : Env) (domain : Str) (key : BucketKey) :
    RedisStorage × Option GoError :=
  let scopedKey := domainScopedKey domain key
  if s.tripped then
    if s.shouldRetry env.now then
      match s.pipeline [.del scopedKey] env.attempt with
      | (s, none) => (s.recoverFromFallback env.flush, none)
      | (s, some _) => s.fallbackRemove domain key
    else s.fallbackRemove domain key
  else
    match s.pipeline [.del scopedKey] env.attempt with
    | (s, none) => (s, none)
    | (s, some _) => (s.trip env.now).fallbackRemove domain key

end RedisStorage

/-- A call of either kind, with its clock reading and its outcomes. -/
inductive StoreCall where
  | record (env : Env) (domain : Str) (report : UsageReport)
  | remove (env : Env) (domain : Str) (key : BucketKey)

def StoreCall.env : StoreCall → Env
  | .record env _ _ => env
  | .remove env _ _ => env

/-- The state after the call. -/
def StoreCall.run (c : StoreCall) (s : RedisStorage) : RedisStorage :=
  match c with
  | .record env domain report => (s.recordUsage env domain report).1
  | .remove env domain key => (s.removeBucket env domain key).1

/-- The state after some calls. -/
def runCalls (s : RedisStorage) (cs : List StoreCall) : RedisStorage :=
  cs.foldl (fun s c => c.run s) s

theorem runCalls_append_one (s : RedisStorage) (cs : List StoreCall) (c : StoreCall) :
    runCalls s (cs ++ [c]) = c.run (runCalls s cs) := by
  simp [runCalls]

-- ---------------------------------------------------------------------------
-- Pipelines in part
-- ---------------------------------------------------------------------------

theorem Redis.runPipeline_fst (r : Redis) (cmds : List Command) (o : Outcome) :
    (r.runPipeline cmds o).1 = (r.execAll (o.executed cmds)).1 := by
  cases o with
  | reached => rfl
  | failed ran e => rfl

theorem Outcome.executed_sublist (o : Outcome) (cmds : List Command) :
    (o.executed cmds).Sublist cmds := by
  cases o with
  | reached => exact List.Sublist.refl cmds
  | failed ran e =>
    unfold Outcome.executed
    dsimp only
    induction cmds generalizing ran with
    | nil => simp
    | cons c cs ih =>
      cases ran with
      | nil => simp
      | cons b ran =>
        rw [List.zip_cons_cons, List.filterMap_cons]
        cases b with
        | true => exact (ih ran).cons_cons c
        | false => exact (ih ran).cons c

-- ---------------------------------------------------------------------------
-- The ways through a call
-- ---------------------------------------------------------------------------

namespace RedisStorage

/-- A pipeline changes the server's data only. -/
theorem pipeline_eq {s s₁ : RedisStorage} {cmds : List Command} {o : Outcome}
    {err : Option RedisError} (h : s.pipeline cmds o = (s₁, err)) :
    s₁ = { s with redis := (s.redis.runPipeline cmds o).1 } ∧
      err = (s.redis.runPipeline cmds o).2 :=
  ⟨(congrArg Prod.fst h).symm, (congrArg Prod.snd h).symm⟩

/-- The five ways through `RecordUsage`. -/
theorem recordUsage_cases (s : RedisStorage) (env : Env) (domain : Str) (r : UsageReport) :
    (s.tripped = false ∧ ∃ s₁,
      s.tryRedisRecordUsage (r.scopedKey domain) r env.attempt = (s₁, none) ∧
      s.recordUsage env domain r = (s₁, none)) ∨
    (s.tripped = false ∧ ∃ s₁ e,
      s.tryRedisRecordUsage (r.scopedKey domain) r env.attempt = (s₁, some e) ∧
      s.recordUsage env domain r = (s₁.trip env.now).fallbackRecord domain r) ∨
    (s.tripped = true ∧ s.shouldRetry env.now = true ∧ ∃ s₁,
      s.tryRedisRecordUsage (r.scopedKey domain) r env.attempt = (s₁, none) ∧
      s.recordUsage env domain r = (s₁.recoverFromFallback env.flush, none)) ∨
    (s.tripped = true ∧ s.shouldRetry env.now = true ∧ ∃ s₁ e,
      s.tryRedisRecordUsage (r.scopedKey domain) r env.attempt = (s₁, some e) ∧
      s.recordUsage env domain r = s₁.recordTripped domain r) ∨
    (s.tripped = true ∧ s.shouldRetry env.now = false ∧
      s.recordUsage env domain r = s.recordTripped domain r) := by
  unfold recordUsage
  rcases hatt : s.tryRedisRecordUsage (r.scopedKey domain) r env.attempt with ⟨s₁, err⟩
  cases ht : s.tripped <;> cases hr : s.shouldRetry env.now <;> cases err <;> simp [hatt]

/-- The five ways through `RemoveBucket`. -/
theorem removeBucket_cases (s : RedisStorage) (env : Env) (domain : Str) (key : BucketKey) :
    (s.tripped = false ∧ ∃ s₁,
      s.pipeline [.del (domainScopedKey domain key)] env.attempt = (s₁, none) ∧
      s.removeBucket env domain key = (s₁, none)) ∨
    (s.tripped = false ∧ ∃ s₁ e,
      s.pipeline [.del (domainScopedKey domain key)] env.attempt = (s₁, some e) ∧
      s.removeBucket env domain key = (s₁.trip env.now).fallbackRemove domain key) ∨
    (s.tripped = true ∧ s.shouldRetry env.now = true ∧ ∃ s₁,
      s.pipeline [.del (domainScopedKey domain key)] env.attempt = (s₁, none) ∧
      s.removeBucket env domain key = (s₁.recoverFromFallback env.flush, none)) ∨
    (s.tripped = true ∧ s.shouldRetry env.now = true ∧ ∃ s₁ e,
      s.pipeline [.del (domainScopedKey domain key)] env.attempt = (s₁, some e) ∧
      s.removeBucket env domain key = s₁.fallbackRemove domain key) ∨
    (s.tripped = true ∧ s.shouldRetry env.now = false ∧
      s.removeBucket env domain key = s.fallbackRemove domain key) := by
  unfold removeBucket
  rcases hatt : s.pipeline [.del (domainScopedKey domain key)] env.attempt with ⟨s₁, err⟩
  cases ht : s.tripped <;> cases hr : s.shouldRetry env.now <;> cases err <;> simp [hatt]

end RedisStorage

-- ---------------------------------------------------------------------------
-- Counters
-- ---------------------------------------------------------------------------

/-- The counter of a report that goes to a field. -/
def UsageReport.amount (r : UsageReport) : Field → UInt64
  | .allowed => r.numRequestsAllowed
  | .denied => r.numRequestsDenied

/-- The counter of a store entry that goes to a field. -/
def UsageState.amount (st : UsageState) : Field → UInt64
  | .allowed => st.allowed
  | .denied => st.denied

/-- A counter of the in-memory store, zero when absent. -/
def MemoryStorage.count (s : MemoryStorage) (k : BucketKey) (f : Field) : ℕ :=
  ((s.get k).map fun st => (st.amount f).toNat).getD 0

/-- What a command adds to one counter. -/
def Command.adds (k : BucketKey) (f : Field) : Command → Int
  | .hIncrBy k' f' n => if k' = k ∧ f' = f then n else 0
  | _ => 0

/-- What a pipeline adds to one counter. -/
def pipelineAdds (k : BucketKey) (f : Field) (cmds : List Command) : Int :=
  (cmds.map (Command.adds k f)).sum

/-- Neither a deletion nor a negative increment. -/
def Command.Increments : Command → Prop
  | .hIncrBy _ _ n => 0 ≤ n
  | .expire _ _ => True
  | .del _ => False

theorem int64_of_lt {u : UInt64} (h : u.toNat < 2 ^ 63) : int64 u = u.toNat := by
  unfold int64 Int.bmod
  norm_num at h ⊢
  omega

theorem int64_bounds (u : UInt64) : -2 ^ 63 ≤ int64 u ∧ int64 u < 2 ^ 63 := by
  unfold int64 Int.bmod
  have hu : u.toNat < 2 ^ 64 := u.toNat_lt
  norm_num at hu ⊢
  omega

theorem MemoryStorage.count_recordUsage (s : MemoryStorage) (domain : Str) (r : UsageReport)
    (k : BucketKey) (f : Field) :
    (s.recordUsage domain r).count k f =
      if k = r.scopedKey domain then (s.count k f + (r.amount f).toNat) % 2 ^ 64
      else s.count k f := by
  unfold MemoryStorage.count
  rw [MemoryStorage.get_recordUsage]
  by_cases hk : k = r.scopedKey domain
  · rw [if_pos hk, if_pos hk]
    cases hst : s.get k with
    | none => cases f <;> simp [UsageState.amount, UsageReport.amount]
    | some st => cases f <;> simp [UsageState.amount, UsageReport.amount, UInt64.toNat_add]
  · rw [if_neg hk, if_neg hk]

theorem MemoryStorage.count_lt (s : MemoryStorage) (k : BucketKey) (f : Field) :
    s.count k f < 2 ^ 64 := by
  unfold MemoryStorage.count
  cases s.get k with
  | none => exact Nat.two_pow_pos 64
  | some st => exact (st.amount f).toNat_lt

theorem Redis.count_write (r : Redis) (k k' : BucketKey) (f f' : Field) (n : Int) :
    (r.write k f n).count k' f' = if k' = k ∧ f' = f then n else r.count k' f' := by
  unfold Redis.write Redis.count
  by_cases h : k' = k ∧ f' = f
  · simp only [if_pos h, Option.getD_some]
  · simp only [if_neg h]

theorem Redis.execAll_cons (r : Redis) (c : Command) (cs : List Command) :
    r.execAll (c :: cs) =
      (((r.exec c).1.execAll cs).1, (r.exec c).2.or ((r.exec c).1.execAll cs).2) := rfl

theorem pipelineAdds_cons (k : BucketKey) (f : Field) (c : Command) (cs : List Command) :
    pipelineAdds k f (c :: cs) = c.adds k f + pipelineAdds k f cs := by
  simp [pipelineAdds]

theorem pipelineAdds_append (k : BucketKey) (f : Field) (cs ds : List Command) :
    pipelineAdds k f (cs ++ ds) = pipelineAdds k f cs + pipelineAdds k f ds := by
  simp [pipelineAdds]

theorem Command.Increments.adds_nonneg {c : Command} (h : c.Increments) (k : BucketKey)
    (f : Field) : 0 ≤ c.adds k f := by
  cases c with
  | hIncrBy k' f' n =>
    simp only [Command.adds]
    split
    · exact h
    · exact le_refl 0
  | expire k' ttl => exact le_refl 0
  | del k' => exact h.elim

theorem pipelineAdds_nonneg {cmds : List Command} (h : ∀ c ∈ cmds, c.Increments) (k : BucketKey)
    (f : Field) : 0 ≤ pipelineAdds k f cmds := by
  apply List.sum_nonneg
  intro n hn
  obtain ⟨c, hc, rfl⟩ := List.mem_map.mp hn
  exact (h c hc).adds_nonneg k f

/-- One increment that stays below 2^63. -/
theorem Redis.exec_increment {r : Redis} {c : Command} (hc : c.Increments)
    (hpos : ∀ k f, 0 ≤ r.count k f) (hfits : ∀ k f, r.count k f + c.adds k f < 2 ^ 63) :
    (r.exec c).2 = none ∧ (r.exec c).1.deleted = r.deleted ∧
      ∀ k f, (r.exec c).1.count k f = r.count k f + c.adds k f := by
  cases c with
  | hIncrBy k f n =>
    have hn : 0 ≤ n := hc
    have hp := hpos k f
    have hfit := hfits k f
    simp only [Command.adds, and_self, if_true] at hfit
    have hexec : r.exec (.hIncrBy k f n) = (r.write k f (r.count k f + n), none) := by
      unfold Redis.exec
      exact if_pos ⟨by omega, hfit⟩
    rw [hexec]
    refine ⟨rfl, rfl, fun k' f' => ?_⟩
    rw [Redis.count_write, Command.adds]
    by_cases h : k' = k ∧ f' = f
    · rw [if_pos h, if_pos ⟨h.1.symm, h.2.symm⟩, h.1, h.2]
    · rw [if_neg h, if_neg (fun h' => h ⟨h'.1.symm, h'.2.symm⟩), add_zero]
  | expire k ttl => exact ⟨rfl, rfl, fun k' f' => (add_zero (r.count k' f')).symm⟩
  | del k => exact hc.elim

/-- A pipeline of increments that stays below 2^63: no error, and every counter
has grown by what the pipeline adds to it. -/
theorem Redis.execAll_increments {cmds : List Command} :
    ∀ {r : Redis}, (∀ c ∈ cmds, c.Increments) → (∀ k f, 0 ≤ r.count k f) →
      (∀ k f, r.count k f + pipelineAdds k f cmds < 2 ^ 63) →
      (r.execAll cmds).2 = none ∧ (r.execAll cmds).1.deleted = r.deleted ∧
        ∀ k f, (r.execAll cmds).1.count k f = r.count k f + pipelineAdds k f cmds := by
  induction cmds with
  | nil => exact fun _ _ _ => ⟨rfl, rfl, fun k f => (add_zero _).symm⟩
  | cons c cs ih =>
    intro r hinc hpos hfits
    have hc := hinc c List.mem_cons_self
    have hcs := fun d hd => hinc d (List.mem_cons_of_mem c hd)
    obtain ⟨herr, hdel, hcount⟩ := Redis.exec_increment hc hpos fun k f => by
      have hfit := hfits k f
      have hrest := pipelineAdds_nonneg hcs k f
      rw [pipelineAdds_cons] at hfit
      omega
    have hrest := ih (r := (r.exec c).1) hcs
      (fun k f => by
        have hp := hpos k f
        have hadd := hc.adds_nonneg k f
        rw [hcount k f]
        omega)
      (fun k f => by
        have hfit := hfits k f
        rw [pipelineAdds_cons] at hfit
        rw [hcount k f]
        omega)
    obtain ⟨herr', hdel', hcount'⟩ := hrest
    rw [Redis.execAll_cons]
    refine ⟨?_, hdel'.trans hdel, fun k f => ?_⟩
    · show (r.exec c).2.or ((r.exec c).1.execAll cs).2 = none
      rw [herr, herr']
      rfl
    · show ((r.exec c).1.execAll cs).1.count k f = _
      rw [hcount' k f, hcount k f, pipelineAdds_cons]
      omega

/-- The commands of one report. -/
theorem recordCommands_adds {r : UsageReport} (hsmall : ∀ f, (r.amount f).toNat < 2 ^ 63)
    (key : BucketKey) (ttl : Nanos) :
    (∀ c ∈ recordCommands key ttl r, c.Increments) ∧
    ∀ k f, pipelineAdds k f (recordCommands key ttl r) =
      if k = key then ((r.amount f).toNat : Int) else 0 := by
  have ha : int64 r.numRequestsAllowed = r.numRequestsAllowed.toNat := int64_of_lt (hsmall .allowed)
  have hd : int64 r.numRequestsDenied = r.numRequestsDenied.toNat := int64_of_lt (hsmall .denied)
  refine ⟨?_, fun k f => ?_⟩
  · unfold recordCommands
    rw [ha, hd]
    simp [Command.Increments]
  · unfold recordCommands pipelineAdds
    rw [ha, hd]
    by_cases hk : k = key
    · subst hk
      cases f <;> simp [Command.adds, UsageReport.amount]
    · cases f <;> simp [Command.adds, Ne.symm hk, hk]

/-- The flush command of one counter. -/
theorem counterCommand_adds {n : UInt64} (hsmall : n.toNat < 2 ^ 63) (key : BucketKey)
    (field : Field) :
    (∀ c ∈ counterCommand key field n, c.Increments) ∧
    ∀ k f, pipelineAdds k f (counterCommand key field n) =
      if k = key ∧ f = field then (n.toNat : Int) else 0 := by
  unfold counterCommand
  by_cases hn : 0 < n
  · rw [if_pos hn, int64_of_lt hsmall]
    refine ⟨by simp [Command.Increments], fun k f => ?_⟩
    by_cases h : k = key ∧ f = field
    · simp [pipelineAdds, Command.adds, h]
    · rw [if_neg h]
      simp only [pipelineAdds, List.map_cons, List.map_nil, List.sum_cons, List.sum_nil, add_zero,
        Command.adds]
      exact if_neg fun h' => h ⟨h'.1.symm, h'.2.symm⟩
  · -- a skipped counter is zero
    have hzero : n.toNat = 0 := by
      rw [UInt64.lt_iff_toNat_lt] at hn
      simpa using hn
    rw [if_neg hn, hzero]
    exact ⟨fun c hc => (List.not_mem_nil hc).elim, fun k f => by simp [pipelineAdds]⟩

/-- The flush commands of one entry. -/
theorem entryCommands_adds {e : Σ _ : BucketKey, UsageState}
    (hsmall : ∀ f, (e.2.amount f).toNat < 2 ^ 63) (ttl : Nanos) :
    (∀ c ∈ entryCommands ttl e, c.Increments) ∧
    ∀ k f, pipelineAdds k f (entryCommands ttl e) =
      if k = e.1 then ((e.2.amount f).toNat : Int) else 0 := by
  obtain ⟨hincA, haddA⟩ := counterCommand_adds (hsmall .allowed) e.1 .allowed
  obtain ⟨hincD, haddD⟩ := counterCommand_adds (hsmall .denied) e.1 .denied
  refine ⟨?_, fun k f => ?_⟩
  · intro c hc
    rcases List.mem_append.mp hc with hc | hc
    · rcases List.mem_append.mp hc with hc | hc
      · exact hincA c hc
      · exact hincD c hc
    · rw [List.mem_singleton.mp hc]
      trivial
  · have hexpire : pipelineAdds k f [.expire e.1 ttl] = 0 := rfl
    have hsum : pipelineAdds k f (entryCommands ttl e) =
        (if k = e.1 ∧ f = .allowed then ((e.2.amount .allowed).toNat : Int) else 0) +
          (if k = e.1 ∧ f = .denied then ((e.2.amount .denied).toNat : Int) else 0) := by
      rw [← haddA k f, ← haddD k f]
      unfold entryCommands
      rw [pipelineAdds_append, pipelineAdds_append, hexpire, add_zero]
      rfl
    rw [hsum]
    cases f <;> simp

/-- The flush commands of a list of entries with distinct keys. -/
theorem entries_adds (ttl : Nanos) {es : List (Σ _ : BucketKey, UsageState)} :
    es.NodupKeys → (∀ e ∈ es, ∀ f, (e.2.amount f).toNat < 2 ^ 63) →
    (∀ c ∈ es.flatMap (entryCommands ttl), c.Increments) ∧
    ∀ k f, pipelineAdds k f (es.flatMap (entryCommands ttl)) =
      (((es.dlookup k).map fun st => (st.amount f).toNat).getD 0 : ℕ) := by
  induction es with
  | nil => exact fun _ _ => ⟨fun c hc => (List.not_mem_nil hc).elim, fun k f => rfl⟩
  | cons e es ih =>
    intro hnodup hsmall
    obtain ⟨hnotin, hrest⟩ := List.nodupKeys_cons.mp hnodup
    obtain ⟨hinc, hadd⟩ := entryCommands_adds (hsmall e List.mem_cons_self) ttl
    obtain ⟨hincs, hadds⟩ := ih hrest fun d hd => hsmall d (List.mem_cons_of_mem e hd)
    rw [List.flatMap_cons]
    refine ⟨?_, fun k f => ?_⟩
    · intro c hc
      rcases List.mem_append.mp hc with hc | hc
      · exact hinc c hc
      · exact hincs c hc
    · rw [pipelineAdds_append, hadd, hadds]
      obtain ⟨key, st⟩ := e
      by_cases hk : k = key
      · -- the key is not among the remaining entries
        subst hk
        rw [if_pos rfl, List.dlookup_eq_none.mpr hnotin, List.dlookup_cons_eq]
        simp
      · rw [if_neg hk, List.dlookup_cons_ne _ _ hk, zero_add]

/-- Flushing a fallback with counters below 2^63 adds its counters. -/
theorem flushCommands_adds {s : MemoryStorage} (hsmall : ∀ k f, s.count k f < 2 ^ 63)
    (ttl : Nanos) :
    (∀ c ∈ flushCommands ttl s.all, c.Increments) ∧
    ∀ k f, pipelineAdds k f (flushCommands ttl s.all) = s.count k f := by
  apply entries_adds ttl s.buckets.nodupKeys
  intro e he f
  have hlookup : s.get e.1 = some e.2 := AList.mem_lookup_iff.mpr he
  have hcount := hsmall e.1 f
  unfold MemoryStorage.count at hcount
  rw [hlookup] at hcount
  exact hcount

end Rlqs
