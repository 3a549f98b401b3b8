import Rlqs.Server.Locks

/-!
# RLQS server — mutual exclusion

The locks over every run of the goroutines of `Server/Locks.lean`, whatever the
engines, the clients and the scheduler do.

* `LockTurn` — everything a move can do;
* `run_locked` — every taken lock has exactly one holder;
* `LockWorld.Locked.exclusive` — what one goroutine holds, no other does.
-/

namespace Rlqs

open Interleave Steps Mutex

variable {σ : Type} [BucketStore σ] {cfg : Limits} {w w' : LockWorld σ} {store : σ}

-- ---------------------------------------------------------------------------
-- Moves
-- ---------------------------------------------------------------------------

/-- Everything a move can do. -/
inductive LockTurn (cfg : Limits) (w : LockWorld σ) : LockMove → LockWorld σ → Prop where
  | connect :
      LockTurn cfg w .connect
        { w with handlers := w.handlers ++ [newFineHandler w.handlers.length] }
  | swap :
      LockTurn cfg w .swap
        { w with
          shared := { w.shared with engine := w.shared.engine + 1 }
          pushes := w.pushes ++ [⟨w.shared.engine + 1, .out .snapshot⟩] }
  | call : LockTurn cfg w .call { w with stats := w.stats ++ [.call] }
  | handler {i : ℕ} {x : Input} {h h' : FineHandler} {sh' : Shared σ} {locks' : Lock → Bool}
      (hh : w.handlers[i]? = some h) (hturn : FineTurn cfg w.shared w.locks h x sh' locks' h') :
      LockTurn cfg w (.handler i x)
        { w with shared := sh', locks := locks', handlers := w.handlers.set i h' }
  | push {j : ℕ} {x : FinePushInput} {q : FinePush} {hs' : List FineHandler}
      {locks' : Lock → Bool} {pc' : FinePushPC} (hq : w.pushes[j]? = some q)
      (hturn : FinePushTurn q.version w.handlers w.locks q.pc hs' locks' pc') :
      LockTurn cfg w (.push j x)
        { w with
          handlers := hs', locks := locks', pushes := w.pushes.set j { q with pc := pc' } }
  | stats {j : ℕ} {x : StatsInput} {pc pc' : StatsPC} {locks' : Lock → Bool}
      (hpc : w.stats[j]? = some pc) (hturn : StatsTurn w.handlers w.locks pc locks' pc') :
      LockTurn cfg w (.stats j x) { w with locks := locks', stats := w.stats.set j pc' }

theorem LockWorld.next_turn {m : LockMove} (h : w.next cfg m = some w') : LockTurn cfg w m w' := by
  cases m with
  | connect =>
    cases h
    exact .connect
  | swap =>
    cases h
    exact .swap
  | call =>
    cases h
    exact .call
  | handler i x =>
    simp only [LockWorld.next] at h
    split at h
    · simp at h
    · rename_i hh
      obtain ⟨⟨sh', locks', h'⟩, hstep, rfl⟩ := Option.map_eq_some_iff.mp h
      exact .handler hh (fineStep_turn hstep)
  | push j x =>
    simp only [LockWorld.next] at h
    split at h
    · simp at h
    · rename_i hq
      obtain ⟨⟨hs', locks', pc'⟩, hstep, rfl⟩ := Option.map_eq_some_iff.mp h
      exact .push hq (finePushStep_turn hstep)
  | stats j x =>
    simp only [LockWorld.next] at h
    split at h
    · simp at h
    · rename_i hpc
      obtain ⟨⟨locks', pc'⟩, hstep, rfl⟩ := Option.map_eq_some_iff.mp h
      exact .stats hpc (statsStep_turn hstep)

-- ---------------------------------------------------------------------------
-- The locks of a step
-- ---------------------------------------------------------------------------

/-- A section starts with its lock held. -/
theorem sectionOf_holds {self : ℕ} {pc : PC} {l : Lock} {first : FinePC}
    (h : sectionOf cfg self pc = some (l, first)) : first.holds self = [l] := by
  unfold sectionOf at h
  split at h
  case h_3 =>
    split at h
    · cases h
      rfl
    · simp at h
  case h_5 =>
    split at h
    · cases h
      rfl
    · simp at h
  case h_9 => simp at h
  all_goals
    cases h
    rfl

theorem pushSectionOf_holds {pc : PushPC} {l : Lock} {first : FinePushPC}
    (h : pushSectionOf pc = some (l, first)) : first.holds = [l] := by
  unfold pushSectionOf at h
  split at h
  case h_4 => simp at h
  all_goals
    cases h
    rfl

/-- An operation inside a section is made under the section's lock, from the
first to the last. -/
theorem InnerTurn.holds {refs refs' : BucketRefs} {h h' : FineHandler} {x : Input}
    (ht : InnerTurn cfg refs h x refs' h') :
    h'.self = h.self ∧ h'.pc.holds h.self = h.pc.holds h.self := by
  cases ht with
  | _ hpc =>
    rw [hpc]
    exact ⟨rfl, rfl⟩

theorem FineTurn.locks {sh sh' : Shared σ} {locks locks' : Lock → Bool} {h h' : FineHandler}
    {x : Input} (ht : FineTurn cfg sh locks h x sh' locks' h') :
    h'.self = h.self ∧ Turn Thread.holds locks h.thread locks' h'.thread := by
  cases ht with
  | @lock pc l first hpc hsec hfree =>
    refine ⟨rfl, .take l hfree ?_⟩
    show first.holds h.self = l :: h.pc.holds h.self
    rw [hpc, sectionOf_holds hsec]
    rfl
  | outside hpc hsec hstep =>
    refine ⟨rfl, .keep ?_⟩
    show [] = h.pc.holds h.self
    rw [hpc]
    rfl
  | inner hturn =>
    obtain ⟨hself, hholds⟩ := hturn.holds
    refine ⟨hself, .keep ?_⟩
    show h'.pc.holds h'.self = h.pc.holds h.self
    rw [hself, hholds]
  | @unlock l pc hpc =>
    refine ⟨rfl, .drop l ?_⟩
    show h.pc.holds h.self = [l]
    rw [hpc]
    rfl

theorem FinePushTurn.locks {v : ℕ} {hs hs' : List FineHandler} {locks locks' : Lock → Bool}
    {pc pc' : FinePushPC} (ht : FinePushTurn v hs locks pc hs' locks' pc') :
    Turn Thread.holds locks (.push pc) locks' (.push pc') := by
  cases ht with
  | @lock pc l _ hsec hfree => exact .take l hfree (pushSectionOf_holds hsec)
  | @unlock l pc => exact .drop l rfl
  | _ => exact .keep rfl

/-- A push changes nothing of a handler but what was sent on its stream. -/
theorem FinePushTurn.handlers {v : ℕ} {hs hs' : List FineHandler} {locks locks' : Lock → Bool}
    {pc pc' : FinePushPC} (ht : FinePushTurn v hs locks pc hs' locks' pc') :
    hs' = hs ∨ ∃ i actions todo h, pc = .sending i actions todo ∧ hs[i]? = some h ∧
      pc' = .leave (.send i) (.visit todo) ∧
      hs' = hs.set i { h with sent := h.sent ++ [(v, actions)] } := by
  cases ht with
  | sent hh => exact Or.inr ⟨_, _, _, _, rfl, hh, rfl, rfl⟩
  | _ => exact Or.inl rfl

theorem FinePushTurn.map_thread {v : ℕ} {hs hs' : List FineHandler} {locks locks' : Lock → Bool}
    {pc pc' : FinePushPC} (ht : FinePushTurn v hs locks pc hs' locks' pc') :
    hs'.map FineHandler.thread = hs.map FineHandler.thread := by
  rcases ht.handlers with rfl | ⟨i, actions, todo, h, -, hh, -, rfl⟩
  · rfl
  · exact map_set_same hh rfl

theorem StatsTurn.locks {hs : List FineHandler} {locks locks' : Lock → Bool} {pc pc' : StatsPC}
    (ht : StatsTurn hs locks pc locks' pc') :
    Turn Thread.holds locks (.stats pc) locks' (.stats pc') := by
  cases ht with
  | lock hfree => exact .take _ hfree rfl
  | lockStream hfree => exact .take _ hfree rfl
  | unlockStream => exact .drop _ rfl
  | unlock => exact .drop _ rfl
  | _ => exact .keep rfl

-- ---------------------------------------------------------------------------
-- Whole runs
-- ---------------------------------------------------------------------------

/-- Handlers know their streams, and every lock has exactly the holders it says. -/
structure LockWorld.Locked (w : LockWorld σ) : Prop where
  self : ∀ (i : ℕ) (h : FineHandler), w.handlers[i]? = some h → h.self = i
  consistent : Consistent Thread.holds w.locks w.threads

omit [BucketStore σ] in
theorem newLockWorld_locked : (newLockWorld store).Locked where
  self i h hh := by simp [newLockWorld] at hh
  consistent l := rfl

section Others

variable {w : LockWorld σ} {i : ℕ}

omit [BucketStore σ]

/-- A handler and the other goroutines, before and after its step. -/
theorem LockWorld.handler_others {h : FineHandler} (hh : w.handlers[i]? = some h) :
    ∃ rest, w.threads.Perm (h.thread :: rest) ∧
      ∀ h' : FineHandler, ((w.handlers.set i h').map FineHandler.thread ++
        w.pushes.map FinePush.thread ++ w.stats.map Thread.stats).Perm (h'.thread :: rest) := by
  obtain ⟨rest, hperm, hset⟩ := exists_others hh
  exact ⟨_, ((hperm.map _).append_right _).append_right _,
    fun h' => (((hset h').map _).append_right _).append_right _⟩

theorem LockWorld.push_others {q : FinePush} (hq : w.pushes[i]? = some q) :
    ∃ rest, w.threads.Perm (q.thread :: rest) ∧
      ∀ q' : FinePush, (w.handlers.map FineHandler.thread ++
        (w.pushes.set i q').map FinePush.thread ++ w.stats.map Thread.stats).Perm
          (q'.thread :: rest) := by
  obtain ⟨rest, hperm, hset⟩ := exists_others hq
  exact ⟨_, (((hperm.map _).append_left _).trans List.perm_middle).append_right _,
    fun q' => ((((hset q').map _).append_left _).trans List.perm_middle).append_right _⟩

theorem LockWorld.stats_others {pc : StatsPC} (hpc : w.stats[i]? = some pc) :
    ∃ rest, w.threads.Perm (.stats pc :: rest) ∧
      ∀ pc' : StatsPC, (w.handlers.map FineHandler.thread ++ w.pushes.map FinePush.thread ++
        (w.stats.set i pc').map Thread.stats).Perm (.stats pc' :: rest) := by
  obtain ⟨rest, hperm, hset⟩ := exists_others hpc
  exact ⟨_, ((hperm.map _).append_left _).trans List.perm_middle,
    fun pc' => (((hset pc').map _).append_left _).trans List.perm_middle⟩

end Others

/-- What a push or `StreamStats` does leaves the handlers' streams as they are. -/
theorem self_of_map_thread {hs hs' : List FineHandler}
    (hmap : hs'.map FineHandler.thread = hs.map FineHandler.thread)
    (hself : ∀ (i : ℕ) (h : FineHandler), hs[i]? = some h → h.self = i) :
    ∀ (i : ℕ) (h : FineHandler), hs'[i]? = some h → h.self = i := by
  intro i h hh
  have hi := congrArg (fun l => l[i]?) hmap
  simp only [List.getElem?_map, hh, Option.map_some] at hi
  obtain ⟨h₀, hh₀, heq⟩ := Option.map_eq_some_iff.mp hi.symm
  have hsame : h₀.self = h.self := by
    simp only [FineHandler.thread, Thread.handler.injEq] at heq
    exact heq.1
  rw [← hsame]
  exact hself i h₀ hh₀

theorem LockWorld.Locked.turn {m : LockMove} (hw : w.Locked) (ht : LockTurn cfg w m w') :
    w'.Locked := by
  cases ht with
  | connect =>
    refine ⟨fun i h hh => ?_, hw.consistent.spawn (t := .handler w.handlers.length (.out .start))
      ?_ rfl⟩
    · rcases Nat.lt_or_ge i w.handlers.length with hlt | hge
      · rw [List.getElem?_append_left hlt] at hh
        exact hw.self i h hh
      · rw [List.getElem?_append_right hge] at hh
        obtain ⟨hzero, hnew⟩ := List.getElem?_eq_some_iff.mp hh
        simp only [List.length_singleton] at hzero
        have hi : i = w.handlers.length := by omega
        subst hi
        rw [← hnew]
        simp [newFineHandler]
    · simp only [LockWorld.threads, List.map_append, List.append_assoc]
      exact List.perm_middle
  | swap =>
    refine ⟨hw.self, hw.consistent.spawn (t := .push (.out .snapshot)) ?_ rfl⟩
    simp only [LockWorld.threads, List.map_append, List.append_assoc]
    rw [← List.append_assoc, ← List.append_assoc (w.handlers.map _)]
    exact List.perm_middle
  | call =>
    refine ⟨hw.self, hw.consistent.spawn (t := .stats .call) ?_ rfl⟩
    simp only [LockWorld.threads, List.map_append]
    rw [← List.append_assoc]
    exact List.perm_append_singleton _ _
  | @handler i x h h' sh' locks' hh hturn =>
    obtain ⟨hself, hlock⟩ := hturn.locks
    refine ⟨fun j g hg => ?_, ?_⟩
    · rcases getElem_set_cases hg with ⟨rfl, rfl⟩ | ⟨-, hg⟩
      · rw [hself]
        exact hw.self j h hh
      · exact hw.self j g hg
    · obtain ⟨rest, hperm, hset⟩ := LockWorld.handler_others hh
      exact hw.consistent.turn hperm (hset h') hlock
  | @push j x q hs' locks' pc' hq hturn =>
    refine ⟨self_of_map_thread hturn.map_thread hw.self, ?_⟩
    obtain ⟨rest, hperm, hset⟩ := LockWorld.push_others hq
    have hts' := hset { q with pc := pc' }
    rw [← hturn.map_thread] at hts'
    exact hw.consistent.turn hperm hts' hturn.locks
  | @stats j x pc pc' locks' hpc hturn =>
    obtain ⟨rest, hperm, hset⟩ := LockWorld.stats_others hpc
    exact ⟨hw.self, hw.consistent.turn hperm (hset pc') hturn.locks⟩

theorem run_locked (h : Run (LockWorld.next cfg) free (newLockWorld store) w) : w.Locked := by
  refine Run.invariant (I := LockWorld.Locked) h newLockWorld_locked ?_
  intro w m w' _ hw _ hn
  exact hw.turn (LockWorld.next_turn hn)

-- ---------------------------------------------------------------------------
-- Mutual exclusion
-- ---------------------------------------------------------------------------

omit [BucketStore σ] in
theorem LockWorld.Locked.not_held_of_free (hw : w.Locked) {h : FineHandler} (hh : h ∈ w.handlers)
    {l : Lock} (hfree : w.locks l = false) : l ∉ h.pc.holds h.self := by
  intro hl
  have htaken : w.locks l = true := hw.consistent.taken (t := h.thread)
    (List.mem_append_left _ (List.mem_append_left _ (List.mem_map_of_mem hh))) hl
  rw [hfree] at htaken
  exact Bool.noConfusion htaken

/-- Where the goroutine is in the list of all. -/
def LockWorld.index (w : LockWorld σ) : Goroutine → ℕ
  | .handler i => i
  | .push j => w.handlers.length + j
  | .stats j => w.handlers.length + (w.pushes.length + j)

section Named

omit [BucketStore σ]

variable {g g' : Goroutine} {t t' : Thread}

theorem LockWorld.thread_handler {i : ℕ} {h : FineHandler} (hh : w.handlers[i]? = some h) :
    w.thread (.handler i) = some h.thread := congrArg (Option.map FineHandler.thread) hh

theorem LockWorld.thread_push {j : ℕ} {q : FinePush} (hq : w.pushes[j]? = some q) :
    w.thread (.push j) = some q.thread := congrArg (Option.map FinePush.thread) hq

theorem LockWorld.thread_stats {j : ℕ} {pc : StatsPC} (hpc : w.stats[j]? = some pc) :
    w.thread (.stats j) = some (.stats pc) := congrArg (Option.map Thread.stats) hpc

theorem lt_of_map_getElem? {α β : Type} {l : List α} {f : α → β} {i : ℕ} {b : β}
    (h : l[i]?.map f = some b) : i < l.length := by
  obtain ⟨a, ha, -⟩ := Option.map_eq_some_iff.mp h
  exact (List.getElem?_eq_some_iff.mp ha).1

theorem LockWorld.threads_index (ht : w.thread g = some t) : w.threads[w.index g]? = some t := by
  cases g with
  | handler i =>
    simp only [LockWorld.thread] at ht
    have hi := lt_of_map_getElem? ht
    rw [← List.getElem?_map] at ht
    simp only [LockWorld.index, LockWorld.threads, List.append_assoc]
    rw [List.getElem?_append_left (by simpa using hi)]
    exact ht
  | push j =>
    simp only [LockWorld.thread] at ht
    have hj := lt_of_map_getElem? ht
    rw [← List.getElem?_map] at ht
    simp only [LockWorld.index, LockWorld.threads, List.append_assoc]
    rw [List.getElem?_append_right (by simp), List.length_map, Nat.add_sub_cancel_left,
      List.getElem?_append_left (by simpa using hj)]
    exact ht
  | stats j =>
    simp only [LockWorld.thread] at ht
    rw [← List.getElem?_map] at ht
    simp only [LockWorld.index, LockWorld.threads, List.append_assoc]
    rw [List.getElem?_append_right (by simp), List.length_map, Nat.add_sub_cancel_left,
      List.getElem?_append_right (by simp), List.length_map, Nat.add_sub_cancel_left]
    exact ht

/-- Different goroutines are at different places. -/
theorem LockWorld.index_inj (ht : w.thread g = some t) (ht' : w.thread g' = some t')
    (heq : w.index g = w.index g') : g = g' := by
  cases g with
  | handler i =>
    have hi := lt_of_map_getElem? ht
    cases g' with
    | handler j => exact congrArg Goroutine.handler heq
    | push j =>
      simp only [LockWorld.index] at heq
      omega
    | stats j =>
      simp only [LockWorld.index] at heq
      omega
  | push i =>
    have hi := lt_of_map_getElem? ht
    cases g' with
    | handler j =>
      have hj := lt_of_map_getElem? ht'
      simp only [LockWorld.index] at heq
      omega
    | push j => exact congrArg Goroutine.push (Nat.add_left_cancel heq)
    | stats j =>
      simp only [LockWorld.index] at heq
      omega
  | stats i =>
    cases g' with
    | handler j =>
      have hj := lt_of_map_getElem? ht'
      simp only [LockWorld.index] at heq
      omega
    | push j =>
      have hj := lt_of_map_getElem? ht'
      simp only [LockWorld.index] at heq
      omega
    | stats j => exact congrArg Goroutine.stats (Nat.add_left_cancel (Nat.add_left_cancel heq))

/-- What one goroutine holds, no other does. -/
theorem LockWorld.Locked.exclusive (hw : w.Locked) (hne : g ≠ g') (ht : w.thread g = some t)
    (ht' : w.thread g' = some t') {l : Lock} (hl : l ∈ t.holds) : l ∉ t'.holds := by
  have hpair := hw.consistent.pairwise
  rw [List.pairwise_iff_getElem] at hpair
  obtain ⟨hi, rfl⟩ := List.getElem?_eq_some_iff.mp (LockWorld.threads_index ht)
  obtain ⟨hj, rfl⟩ := List.getElem?_eq_some_iff.mp (LockWorld.threads_index ht')
  rcases Nat.lt_trichotomy (w.index g) (w.index g') with hlt | heq | hlt
  · exact hpair _ _ hi hj hlt l hl
  · exact absurd (LockWorld.index_inj ht ht' heq) hne
  · exact fun hl' => hpair _ _ hj hi hlt l hl' hl

end Named

omit [BucketStore σ] in
/-- What one handler holds, no other does. -/
theorem LockWorld.Locked.not_held_by_handler (hw : w.Locked) {i j : ℕ} {h g : FineHandler}
    (hh : w.handlers[i]? = some h) (hg : w.handlers[j]? = some g) (hij : i ≠ j) {l : Lock}
    (hl : l ∈ h.pc.holds h.self) : l ∉ g.pc.holds g.self :=
  hw.exclusive (fun heq => hij (Goroutine.handler.inj heq))
    (LockWorld.thread_handler hh) (LockWorld.thread_handler hg) hl

omit [BucketStore σ] in
/-- What a handler holds, no push does. -/
theorem LockWorld.Locked.not_held_by_push (hw : w.Locked) {h : FineHandler} {q : FinePush}
    (hh : h ∈ w.handlers) (hq : q ∈ w.pushes) {l : Lock} (hl : l ∈ h.pc.holds h.self) :
    l ∉ q.pc.holds := by
  obtain ⟨i, hi⟩ := List.getElem?_of_mem hh
  obtain ⟨j, hj⟩ := List.getElem?_of_mem hq
  exact hw.exclusive (by nofun) (LockWorld.thread_handler hi) (LockWorld.thread_push hj) hl

omit [BucketStore σ] in
/-- What a handler holds, no call of `StreamStats` does. -/
theorem LockWorld.Locked.not_held_by_stats (hw : w.Locked) {h : FineHandler} {pc : StatsPC}
    (hh : h ∈ w.handlers) (hpc : pc ∈ w.stats) {l : Lock} (hl : l ∈ h.pc.holds h.self) :
    l ∉ pc.holds := by
  obtain ⟨i, hi⟩ := List.getElem?_of_mem hh
  obtain ⟨j, hj⟩ := List.getElem?_of_mem hpc
  exact hw.exclusive (by nofun) (LockWorld.thread_handler hi) (LockWorld.thread_stats hj) hl

/-- Stream `i` takes `n` steps that need no choice. -/
def ticks (i n : ℕ) : List LockMove := List.replicate n (.handler i .tick)

/-- Stream 0 is about to write its domain under `ss.mu`, for which `StreamStats`
waits with `s.mu` in its hands. -/
def contended : List LockMove :=
  [.connect, .handler 0 .tick, .handler 0 .tick, .handler 0 .tick, .handler 0 .tick,
   .handler 0 (.recv sampleReq), .handler 0 .tick, .handler 0 .tick, .call, .stats 0 .tick,
   .stats 0 (.stream 0)]

end Rlqs
