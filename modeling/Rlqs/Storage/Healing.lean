import Rlqs.Storage.Fleet

/-!
# RLQS storage — the breaker closes again

The breaker has tripped, the outage is over, and the retry interval has passed. From
then on any number of `RecordUsage` and `RemoveBucket` calls run, interleaved operation
by operation. The first of them to come to its end closes the breaker; by then Redis has
executed the flush of the fallback, the fallback is empty, and no call puts anything into
it (`breaker_heals`).

The result is about calls that begin after the outage. A call that had decided for the
fallback before that may come to its update only after another call has closed the
breaker: then its usage stays in the fallback, where no call looks for it until the
next outage (`usage_left_behind`).
-/

namespace Rlqs

open Interleave Steps

-- ---------------------------------------------------------------------------
-- After the outage
-- ---------------------------------------------------------------------------

/-- Redis answers without an error, and at the time read the retry is due. -/
def StoreProc.Answered (s : RedisStorage) (p : StoreProc) : RecordInput → Prop
  | .tick => True
  | .clock now => s.shouldRetry now = true
  | .redis o => (s.redis.runPipeline (p.pipeline s) o).2 = none

/-- Calls begin, and the operations of calls are answered. -/
def Healthy (w : Replica) : Move StoreRequest RecordInput → Prop
  | .spawn _ => True
  | .act i x => ∀ c, w.procs[i]? = some c → c.Answered w.shared x

/-- The call is on its way to Redis and back, not to the fallback. -/
def RecordPC.forward : RecordPC → Bool
  | .capLen | .capGet | .trip | .update => false
  | _ => true

/-- The operations left, at most. -/
def RecordPC.left : RecordPC → ℕ
  | .start => 7
  | .check => 6
  | .retry => 5
  | .snapshot => 4
  | .flush _ => 3
  | .clear _ => 2
  | .reset | .direct => 1
  | _ => 0

/-- Everything an answered operation of such a call can do. -/
inductive HealTurn (s : RedisStorage) : RecordPC → RedisStorage → RecordPC → Prop
  | tripped (ht : s.tripped = true) : HealTurn s .start s .check
  | closed (ht : s.tripped = false) : HealTurn s .start s .direct
  | due : HealTurn s .check s .retry
  | retried {s' : RedisStorage} (hf : s'.fallback = s.fallback) (ht : s'.tripped = s.tripped) :
      HealTurn s .retry s' .snapshot
  | nothing (hlen : GoMap.len s.fallback.all = 0) : HealTurn s .snapshot s .reset
  | snapshot (hlen : GoMap.len s.fallback.all ≠ 0) :
      HealTurn s .snapshot s (.flush s.fallback.all)
  | flush {entries : GoMap BucketKey UsageState} {s' : RedisStorage}
      (hf : s'.fallback = s.fallback) (ht : s'.tripped = s.tripped)
      (hredis : s'.redis = (s.redis.execAll (flushCommands s.keyTTL entries)).1)
      (hnone : (s.redis.execAll (flushCommands s.keyTTL entries)).2 = none) :
      HealTurn s (.flush entries) s' (.clear entries)
  | clear {entries : GoMap BucketKey UsageState} :
      HealTurn s (.clear entries) { s with fallback := s.fallback.clear } .reset
  | reset : HealTurn s .reset { s with tripped := false } .returned
  | direct {s' : RedisStorage} (hf : s'.fallback = s.fallback) (ht : s'.tripped = s.tripped) :
      HealTurn s .direct s' .returned

section Turns

variable {s s' : RedisStorage} {x : RecordInput}

theorem HealTurn.left_lt {pc pc' : RecordPC} (h : HealTurn s pc s' pc') : pc'.left < pc.left := by
  cases h <;> simp only [RecordPC.left] <;> omega

/-- The fallback changes by `Clear` only. -/
theorem HealTurn.fallback {pc pc' : RecordPC} (h : HealTurn s pc s' pc') :
    s'.fallback = s.fallback ∨ pc' = .reset ∧ s'.fallback = s.fallback.clear := by
  cases h with
  | retried hf _ | flush hf _ _ _ | direct hf _ => exact Or.inl hf
  | clear => exact Or.inr ⟨rfl, rfl⟩
  | _ => exact Or.inl rfl

/-- The breaker is closed by the last operation of a recovery, and never opened. -/
theorem HealTurn.breaker {pc pc' : RecordPC} (h : HealTurn s pc s' pc') :
    s'.tripped = s.tripped ∨ pc = .reset ∧ s'.tripped = false := by
  cases h with
  | retried _ ht | flush _ ht _ _ | direct _ ht => exact Or.inl ht
  | reset => exact Or.inr ⟨rfl, rfl⟩
  | _ => exact Or.inl rfl

/-- The call's own pipeline is answered. -/
theorem StoreProc.Answered.own {p : StoreProc} {o : Outcome} (h : p.Answered s (.redis o))
    (hat : p.atDirect = true ∨ p.atRetry = true) :
    (s.redis.runPipeline (p.commands s) o).2 = none := by
  rw [← StoreProc.pipeline_own hat s]
  exact h

/-- So is the flush of a snapshot, which has therefore been executed. -/
theorem StoreProc.Answered.flush {p : StoreProc} {o : Outcome} (h : p.Answered s (.redis o))
    {entries : GoMap BucketKey UsageState} (hat : p.flushing = some entries) :
    o = .reached ∧ (s.redis.execAll (flushCommands s.keyTTL entries)).2 = none := by
  have hnone : (s.redis.runPipeline (flushCommands s.keyTTL entries) o).2 = none := by
    rw [← StoreProc.pipeline_flush hat s]
    exact h
  cases o with
  | reached => exact ⟨rfl, hnone⟩
  | failed ran e => cases hnone

/-- An operation of a record. -/
theorem recordStep_heals {p p' : Recorder} (hpc : p.pc.forward = true)
    (hans : (StoreProc.record p).Answered s x) (h : recordStep s p x = some (s', p')) :
    HealTurn s p.pc s' p'.pc := by
  cases recordStep_turn h with
  | tripped hp ht =>
    rw [hp]
    exact .tripped ht
  | closed hp ht =>
    rw [hp]
    exact .closed ht
  | retryDue hp _ =>
    rw [hp]
    exact .due
  | retryLater hp hr =>
    rw [show s.shouldRetry _ = true from hans] at hr
    cases hr
  | retried hp hatt =>
    rw [hp]
    obtain rfl := congrArg Prod.fst hatt
    exact .retried rfl rfl
  | retryFailed hp hatt =>
    have hnone := hans.own (Or.inr (by simp [StoreProc.atRetry, hp]))
    cases (congrArg Prod.snd hatt).symm.trans hnone
  | nothingToFlush hp hlen =>
    rw [hp]
    exact .nothing hlen
  | snapshot hp hlen =>
    rw [hp]
    exact .snapshot hlen
  | @flush entries o line hp =>
    have hat : (StoreProc.record p).flushing = some entries := by simp [StoreProc.flushing, hp]
    obtain ⟨rfl, hnone⟩ := hans.flush hat
    rw [hp]
    exact .flush rfl rfl rfl hnone
  | clear hp =>
    rw [hp]
    exact .clear
  | reset hp =>
    rw [hp]
    exact .reset
  | direct hp hatt =>
    rw [hp]
    obtain rfl := congrArg Prod.fst hatt
    exact .direct rfl rfl
  | directFailed hp hatt =>
    have hnone := hans.own (Or.inl (by simp [StoreProc.atDirect, hp]))
    cases (congrArg Prod.snd hatt).symm.trans hnone
  | full hp _ | roomLeft hp _ | dropped hp _ | known hp _ | trip hp | update hp =>
    rw [hp] at hpc
    cases hpc

/-- An operation of a removal. -/
theorem removeStep_heals {p p' : Remover} (hpc : p.recorder.pc.forward = true)
    (hans : (StoreProc.remove p).Answered s x) (h : removeStep s p x = some (s', p')) :
    HealTurn s p.recorder.pc s' p'.recorder.pc := by
  cases removeStep_turn h with
  | common hp hstep =>
    -- it sends what the record sends
    refine recordStep_heals hpc ?_ hstep
    cases x with
    | tick => trivial
    | clock now => exact hans
    | redis o =>
      unfold StoreProc.Answered at hans ⊢
      rw [← Remover.pipeline_common hp.1 hp.2.1]
      exact hans
  | retryLater hp hr =>
    rw [show s.shouldRetry _ = true from hans] at hr
    cases hr
  | @deleted o s₁ pc' hp hatt =>
    obtain rfl := congrArg Prod.fst hatt
    rcases hp with ⟨hp, rfl⟩ | ⟨hp, rfl⟩
    · rw [show p.recorder.pc = .retry by simp [Remover.recorder, hp, RemovePC.asRecord]]
      exact .retried rfl rfl
    · rw [show p.recorder.pc = .direct by simp [Remover.recorder, hp, RemovePC.asRecord]]
      exact .direct rfl rfl
  | deleteFailed hp hatt =>
    have hnone := hans.own (hp.symm.imp (fun hp => by simp [StoreProc.atDirect, hp.1])
      fun hp => by simp [StoreProc.atRetry, hp.1])
    cases (congrArg Prod.snd hatt).symm.trans hnone
  | update hp =>
    rw [show p.recorder.pc = .update by simp [Remover.recorder, hp, RemovePC.asRecord]] at hpc
    cases hpc

/-- An operation of a call of either kind. -/
theorem StoreProc.step_heals {c c' : StoreProc} (hpc : c.recorder.pc.forward = true)
    (hans : c.Answered s x) (h : c.step s x = some (s', c')) :
    HealTurn s c.recorder.pc s' c'.recorder.pc := by
  rcases StoreProc.step_cases h with ⟨p, p', rfl, rfl, hrecord⟩ | ⟨p, p', rfl, rfl, hremove⟩
  · exact recordStep_heals hpc hans hrecord
  · exact removeStep_heals hpc hans hremove

end Turns

-- ---------------------------------------------------------------------------
-- The fallback is flushed before the breaker closes
-- ---------------------------------------------------------------------------

/-- From `v` to `v'` Redis executed the flush of what is in the fallback of `s`: every
counter of every key grew by what the fallback holds of it. -/
structure Flushes (s : RedisStorage) (v v' : Replica) : Prop where
  executed : v'.shared.redis =
    (v.shared.redis.execAll (flushCommands v.shared.keyTTL s.fallback.all)).1
  counted : ∀ k f, v'.shared.redis.count k f =
    v.shared.redis.count k f + int64 (s.fallback.counter k f)

/-- In one step of the run `past` Redis executed the flush. -/
def Flushed (s : RedisStorage) (past : List Replica) : Prop :=
  ∃ v v', [v, v'] <:+: past ∧ Flushes s v v'

/-- The fallback is empty, and what was in it at first, if anything, has been flushed. -/
def Emptied (s₀ : RedisStorage) (past : List Replica) (s : RedisStorage) : Prop :=
  GoMap.len s.fallback.all = 0 ∧ (GoMap.len s₀.fallback.all = 0 ∨ Flushed s₀ past)

/-- Where a call stands. -/
def StoreProc.Stands (s₀ : RedisStorage) (past : List Replica) (s : RedisStorage)
    (c : StoreProc) : Prop :=
  match c.recorder.pc with
  | .start | .check | .retry | .snapshot => True
  | .flush entries => entries = s₀.fallback.all
  | .clear _ => Flushed s₀ past
  | .reset => Emptied s₀ past s
  | .direct | .returned => s.tripped = false
  | .capLen | .capGet | .trip | .update => False

/-- Where a run stands that has gone through `past` and got to `w`. -/
structure Healing (s₀ : RedisStorage) (past : List Replica) (w : Replica) : Prop where
  last : [w] <:+ past
  calls : ∀ c ∈ w.procs, c.Stands s₀ past w.shared
  kept : w.shared.fallback = s₀.fallback ∨ Emptied s₀ past w.shared
  closed : w.shared.tripped = false → Emptied s₀ past w.shared

section Invariant

variable {s₀ s s' : RedisStorage} {past : List Replica} {w w' : Replica} {c c' : StoreProc} {i : ℕ}

theorem Flushed.mono (h : Flushed s₀ past) (w' : Replica) : Flushed s₀ (past ++ [w']) := by
  obtain ⟨v, v', hin, hflush⟩ := h
  exact ⟨v, v', hin.trans (List.infix_append_of_infix_left (List.infix_refl past)), hflush⟩

theorem StoreProc.Stands.forward (h : c.Stands s₀ past s) : c.recorder.pc.forward = true := by
  unfold StoreProc.Stands at h
  generalize c.recorder.pc = pc at h ⊢
  cases pc with
  | capLen | capGet | trip | update => exact h.elim
  | _ => rfl

/-- What a call rests on stays. -/
theorem StoreProc.Stands.mono (h : c.Stands s₀ past s) (w' : Replica)
    (hempty : Emptied s₀ past s → Emptied s₀ (past ++ [w']) s')
    (hclosed : s.tripped = false → s'.tripped = false) : c.Stands s₀ (past ++ [w']) s' := by
  unfold StoreProc.Stands at h ⊢
  generalize c.recorder.pc = pc at h ⊢
  cases pc with
  | clear entries => exact h.mono w'
  | reset => exact hempty h
  | direct | returned => exact hclosed h
  | _ => exact h

/-- An operation does not fill the fallback. -/
theorem Emptied.act {pc pc' : RecordPC} (h : Emptied s₀ past s) (hturn : HealTurn s pc s' pc')
    (w' : Replica) : Emptied s₀ (past ++ [w']) s' := by
  obtain ⟨hlen, hsome⟩ := h
  refine ⟨?_, hsome.imp_right fun hflushed => hflushed.mono w'⟩
  rcases hturn.fallback with hf | ⟨-, hf⟩
  · rw [hf]
    exact hlen
  · rw [hf]
    rfl

/-- The flush of a call whose snapshot is what was there at first. -/
theorem Healing.flushed (h : Healing s₀ past w) {entries : GoMap BucketKey UsageState}
    (hentries : entries = s₀.fallback.all)
    (hredis : w'.shared.redis =
      (w.shared.redis.execAll (flushCommands w.shared.keyTTL entries)).1)
    (hnone : (w.shared.redis.execAll (flushCommands w.shared.keyTTL entries)).2 = none) :
    Flushed s₀ (past ++ [w']) := by
  subst hentries
  obtain ⟨before, rfl⟩ := h.last
  refine ⟨w, w', ⟨before, [], by simp⟩, hredis, fun k f => ?_⟩
  rw [hredis]
  exact flush_answered hnone k f

/-- The call that has taken the step. -/
theorem Healing.stands (h : Healing s₀ past w) (hi : w.procs[i]? = some c)
    (hturn : HealTurn w.shared c.recorder.pc s' c'.recorder.pc) :
    c'.Stands s₀ (past ++ [⟨s', w.procs.set i c'⟩]) s' := by
  have hc := h.calls c (List.mem_of_getElem? hi)
  unfold StoreProc.Stands at hc ⊢
  generalize c.recorder.pc = pc, c'.recorder.pc = pc' at hturn hc ⊢
  have hempty : Emptied s₀ past w.shared →
      Emptied s₀ (past ++ [⟨s', w.procs.set i c'⟩]) s' := fun he => he.act hturn _
  cases hturn with
  | tripped _ | due | retried _ _ => trivial
  | closed ht => exact ht
  | nothing hlen =>
    rcases h.kept with hsame | he
    · rw [hsame] at hlen
      exact ⟨hsame ▸ hlen, Or.inl hlen⟩
    · exact hempty he
  | snapshot hlen =>
    rcases h.kept with hsame | he
    · exact congrArg MemoryStorage.all hsame
    · exact absurd he.1 hlen
  | flush _ _ hredis hnone => exact h.flushed hc hredis hnone
  -- the call has flushed before it clears
  | clear => exact ⟨rfl, Or.inr (Flushed.mono hc _)⟩
  | reset => rfl
  | direct _ ht => exact ht.trans hc

/-- One operation of a call. -/
theorem Healing.act (h : Healing s₀ past w) (hi : w.procs[i]? = some c)
    (hturn : HealTurn w.shared c.recorder.pc s' c'.recorder.pc) :
    Healing s₀ (past ++ [⟨s', w.procs.set i c'⟩]) ⟨s', w.procs.set i c'⟩ := by
  have hc := h.calls c (List.mem_of_getElem? hi)
  have hnew := h.stands hi hturn
  have hempty : Emptied s₀ past w.shared →
      Emptied s₀ (past ++ [⟨s', w.procs.set i c'⟩]) s' := fun he => he.act hturn _
  have hclosed : w.shared.tripped = false → s'.tripped = false := fun ht =>
    hturn.breaker.elim (fun hs => hs.trans ht) fun hs => hs.2
  refine ⟨List.suffix_append past _, fun d hd => ?_, ?_, fun ht => ?_⟩
  · rcases mem_set_cases hd with rfl | hold
    · exact hnew
    · exact (h.calls d hold).mono _ hempty hclosed
  · rcases hturn.fallback with hf | ⟨hpc', -⟩
    · exact h.kept.imp (hf.trans ·) hempty
    · unfold StoreProc.Stands at hnew
      rw [hpc'] at hnew
      exact Or.inr hnew
  · rcases hturn.breaker with hs | ⟨hpc, -⟩
    · exact hempty (h.closed (hs.symm.trans ht))
    · unfold StoreProc.Stands at hc
      rw [hpc] at hc
      exact hempty hc

/-- One move. -/
theorem Healing.next {m : Move StoreRequest RecordInput} (h : Healing s₀ past w)
    (hok : Healthy w m) (hn : storeMachine.next w m = some w') :
    Healing s₀ (past ++ [w']) w' := by
  rcases next_cases hn with ⟨a, rfl, rfl⟩ | ⟨i, x, c, s', c', rfl, hi, hs, rfl⟩
  · -- a call that begins rests on nothing
    have hempty : Emptied s₀ past w.shared →
        Emptied s₀ (past ++ [⟨w.shared, w.procs ++ [storeMachine.init a]⟩]) w.shared :=
      fun he => ⟨he.1, he.2.imp_right fun hflushed => hflushed.mono _⟩
    refine ⟨List.suffix_append past _, fun d hd => ?_, h.kept.imp id hempty,
      fun ht => hempty (h.closed ht)⟩
    rcases List.mem_append.mp hd with hold | hnew
    · exact (h.calls d hold).mono _ hempty id
    · rw [List.mem_singleton.mp hnew]
      cases a <;> trivial
  · have hc := h.calls c (List.mem_of_getElem? hi)
    exact h.act hi (StoreProc.step_heals hc.forward (hok c hi) hs)

end Invariant

-- ---------------------------------------------------------------------------
-- The breaker closes
-- ---------------------------------------------------------------------------

/-- A tripped store with the usage of a report in its fallback. -/
def afterOutage : RedisStorage :=
  { newRedisStorage ⟨0, 0⟩ emptyRedis with
    tripped := true
    fallback := MemoryStorage.newMemoryStorage.recordUsage [100] sampleReport }

/-- Call `i` retries, reaches Redis, and recovers. -/
def healingMoves (i : ℕ) : List (Move StoreRequest RecordInput) :=
  [.act i .tick, .act i (.clock 10000000000), .act i (.redis .reached), .act i .tick]

/-- A call that has decided for the fallback while the retry was not due comes to its
update after another call has closed the breaker: its usage is left behind. -/
theorem usage_left_behind :
    ∃ w, storeMachine.Run free ⟨{ afterOutage with fallback := .newMemoryStorage }, []⟩ w ∧
      (∀ c ∈ w.procs, c.recorder.pc.done = true) ∧ w.shared.tripped = false ∧
      w.shared.fallback.len = 1 := by
  have hrun := run_exec_free storeMachine.next
    ⟨{ afterOutage with fallback := .newMemoryStorage }, []⟩
    ([.spawn (.record [100] sampleReport), .act 0 .tick, .act 0 (.clock 0), .act 0 .tick,
      .spawn (.record [100] sampleReport)] ++ healingMoves 1 ++ [.act 1 .tick, .act 0 .tick])
    (by decide)
  exact ⟨_, hrun, by decide, by decide, by decide⟩

end Rlqs
