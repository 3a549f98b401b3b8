import Rlqs.Config.Definitions
import Rlqs.Lib.Steps

/-!
# RLQS config — the file watcher and its channel

`internal/config/watcher.go`: the goroutine of `Watch`, which arms a debounce
timer on file events and closes the channel when it ends, and `reload`, which
runs in a goroutine of its own each time a timer fires, and ends by sending the
new config or by seeing the context cancelled. A `select` takes any branch that
is ready. A send on a closed channel is ready, and panics.

Stopping the timer does not stop a `reload` that is already running, and nothing
waits for it: when the channel is closed while one is running, it can still
choose to send (`cancelled_reload_panics`). When the event channel of `fsnotify`
is closed, the goroutine does not even stop the timer.

* `Watcher.next` — the goroutine, the timer, the reloads and the receiver;
* `no_send_on_closed_channel` — no panic in runs that close the channel only when
  no reload is running and no timer is armed; and a close can be followed by a
  panic exactly if it does not meet this condition.
-/

namespace Rlqs

open Steps

-- ---------------------------------------------------------------------------
-- The goroutines
-- ---------------------------------------------------------------------------

/-- The control points of the goroutine of `Watch`: its `select`, the stopping of
the timer, and the two deferred calls. -/
inductive WatchPC where
  | select
  | stopTimer
  | closeChan
  | closeWatcher
  | done
  deriving DecidableEq

/-- The control points of a `reload`. -/
inductive ReloadPC where
  | load
  | rewatch (cfg : Config)
  | select (cfg : Config)
  | done

/-- The watcher. `armed` is the timer last made; one that was stopped or has
fired is not armed. `buffer` is what the channel holds, it has room for one. -/
structure Watcher where
  ctxDone : Bool
  pc : WatchPC
  armed : Bool
  buffer : Option Config
  closed : Bool
  reloads : List ReloadPC
  panicked : Bool

/-- `Watch` has just started the goroutine. -/
def newWatcher : Watcher := ⟨false, .select, false, none, false, [], false⟩

/-- The context is cancelled; the goroutine takes a branch of its `select` (the
context, an event with or without `Write` and `Create`, an error, or the end of
one of the two channels of `fsnotify`) or goes on; the timer fires; reload `j`
loads the file, adds the watch again, sends, or sees the context cancelled; the
receiver takes a config. -/
inductive WatchMove where
  | cancel
  | ctxDone
  | event (write create : Bool)
  | fsError
  | fsClosed
  | stopTimer
  | closeChan
  | closeWatcher
  | fire
  | loaded (j : ℕ) (r : Except GoError Config)
  | rewatched (j : ℕ) (e : Option GoError)
  | send (j : ℕ)
  | cancelled (j : ℕ)
  | receive

/-- Reload `j` goes on at `pc`. -/
def Watcher.goto (w : Watcher) (j : ℕ) (pc : ReloadPC) : Watcher :=
  { w with reloads := w.reloads.set j pc }

/-- The steps of the goroutine of `Watch`. -/
def Watcher.watchStep (w : Watcher) : WatchMove → Option Watcher
  | .ctxDone => if w.pc = .select ∧ w.ctxDone then some { w with pc := .stopTimer } else none
  | .event write create =>
    -- the old timer is stopped and a new one armed
    if w.pc = .select then some (if write || create then { w with armed := true } else w) else none
  | .fsError => if w.pc = .select then some w else none
  | .fsClosed => if w.pc = .select then some { w with pc := .closeChan } else none
  | .stopTimer =>
    if w.pc = .stopTimer then some { w with pc := .closeChan, armed := false } else none
  | .closeChan =>
    if w.pc = .closeChan then some { w with pc := .closeWatcher, closed := true } else none
  | .closeWatcher => if w.pc = .closeWatcher then some { w with pc := .done } else none
  | _ => none

/-- The steps of a `reload`. Its error returns and a failed `Add` are only logged. -/
def Watcher.reloadStep (w : Watcher) : WatchMove → Option Watcher
  | .loaded j r =>
    match w.reloads[j]?, r with
    | some .load, .error _ => some (w.goto j .done)
    | some .load, .ok cfg => some (w.goto j (.rewatch cfg))
    | _, _ => none
  | .rewatched j _ =>
    match w.reloads[j]? with
    | some (.rewatch cfg) => some (w.goto j (.select cfg))
    | _ => none
  | .send j =>
    match w.reloads[j]? with
    | some (.select cfg) =>
      if w.closed then some { w with panicked := true }
      else if w.buffer.isNone then some { w.goto j .done with buffer := some cfg }
      else none
    | _ => none
  | .cancelled j =>
    match w.reloads[j]? with
    | some (.select _) => if w.ctxDone then some (w.goto j .done) else none
    | _ => none
  | _ => none

/-- One move. Nothing runs after a panic. -/
def Watcher.next (w : Watcher) (m : WatchMove) : Option Watcher :=
  if w.panicked then none
  else
    match m with
    | .cancel => some { w with ctxDone := true }
    | .fire =>
      if w.armed then some { w with armed := false, reloads := w.reloads ++ [.load] } else none
    | .receive => if w.buffer.isSome then some { w with buffer := none } else none
    | .loaded _ _ | .rewatched _ _ | .send _ | .cancelled _ => w.reloadStep m
    | _ => w.watchStep m

-- ---------------------------------------------------------------------------
-- The condition
-- ---------------------------------------------------------------------------

def ReloadPC.running : ReloadPC → Bool
  | .done => false
  | _ => true

/-- A reload is running, or a timer is armed that will start one. -/
def Watcher.inFlight (w : Watcher) : Bool := w.armed || w.reloads.any ReloadPC.running

/-- The channel is closed only while nothing is in flight. -/
def quietClose (w : Watcher) : WatchMove → Bool
  | .closeChan => !w.inFlight
  | _ => true

-- ---------------------------------------------------------------------------
-- Before and after the close
-- ---------------------------------------------------------------------------

/-- The channel is open. -/
structure Watcher.Open (w : Watcher) : Prop where
  closed : w.closed = false
  panicked : w.panicked = false
  pc : w.pc = .select ∨ w.pc = .stopTimer ∨ w.pc = .closeChan

/-- The channel was closed with nothing in flight. -/
structure Watcher.Sealed (w : Watcher) : Prop where
  pc : w.pc = .closeWatcher ∨ w.pc = .done
  armed : w.armed = false
  reloads : ∀ pc ∈ w.reloads, pc.running = false
  panicked : w.panicked = false

theorem Watcher.inFlight_iff {w : Watcher} :
    w.inFlight = false ↔ w.armed = false ∧ ∀ pc ∈ w.reloads, pc.running = false := by
  unfold Watcher.inFlight
  rw [Bool.or_eq_false_iff, List.any_eq_false]
  simp

section Steps

variable {w w' : Watcher} {m : WatchMove}

/-- A reload that takes a step was running, it leaves the channel and the
goroutine as they are, and panics only on a closed channel. -/
theorem Watcher.reloadStep_spec (h : w.reloadStep m = some w') :
    (∃ pc ∈ w.reloads, pc.running = true) ∧ w'.closed = w.closed ∧ w'.pc = w.pc ∧
      (w'.panicked = w.panicked ∨ w.closed = true) := by
  unfold Watcher.reloadStep at h
  split at h
  · split at h
    · rename_i hj
      cases h
      exact ⟨⟨_, List.mem_of_getElem? hj, rfl⟩, rfl, rfl, Or.inl rfl⟩
    · rename_i hj
      cases h
      exact ⟨⟨_, List.mem_of_getElem? hj, rfl⟩, rfl, rfl, Or.inl rfl⟩
    · simp at h
  · split at h
    · rename_i hj
      cases h
      exact ⟨⟨_, List.mem_of_getElem? hj, rfl⟩, rfl, rfl, Or.inl rfl⟩
    · simp at h
  · split at h
    · rename_i hj
      split at h
      · rename_i hclosed
        cases h
        exact ⟨⟨_, List.mem_of_getElem? hj, rfl⟩, rfl, rfl, Or.inr hclosed⟩
      · split at h
        · cases h
          exact ⟨⟨_, List.mem_of_getElem? hj, rfl⟩, rfl, rfl, Or.inl rfl⟩
        · simp at h
    · simp at h
  · split at h
    · rename_i hj
      split at h
      · cases h
        exact ⟨⟨_, List.mem_of_getElem? hj, rfl⟩, rfl, rfl, Or.inl rfl⟩
      · simp at h
    · simp at h
  · simp at h

/-- What closing the channel does. -/
theorem Watcher.next_closeChan (h : w.next .closeChan = some w') :
    w' = { w with pc := .closeWatcher, closed := true } := by
  unfold Watcher.next at h
  split at h
  · simp at h
  · simp only [Watcher.watchStep] at h
    split at h
    · exact (Option.some.inj h).symm
    · simp at h

theorem Watcher.Open.reloadStep (ho : w.Open) (h : w.reloadStep m = some w') : w'.Open := by
  obtain ⟨-, hclosed, hpc, hpanic⟩ := Watcher.reloadStep_spec h
  refine ⟨hclosed.trans ho.closed, ?_, hpc ▸ ho.pc⟩
  rcases hpanic with hpanic | hc
  · exact hpanic.trans ho.panicked
  · rw [ho.closed] at hc
    simp at hc

/-- A step of the goroutine keeps the channel open, or closes it. -/
theorem Watcher.Open.watchStep (ho : w.Open) (hquiet : quietClose w m = true)
    (h : w.watchStep m = some w') : w'.Open ∨ w'.Sealed := by
  unfold Watcher.watchStep at h
  split at h
  · split at h
    · cases h
      exact Or.inl ⟨ho.closed, ho.panicked, Or.inr (Or.inl rfl)⟩
    · simp at h
  · split at h
    · cases h
      split
      · exact Or.inl ⟨ho.closed, ho.panicked, ho.pc⟩
      · exact Or.inl ho
    · simp at h
  · split at h
    · cases h
      exact Or.inl ho
    · simp at h
  · split at h
    · cases h
      exact Or.inl ⟨ho.closed, ho.panicked, Or.inr (Or.inr rfl)⟩
    · simp at h
  · split at h
    · cases h
      exact Or.inl ⟨ho.closed, ho.panicked, Or.inr (Or.inr rfl)⟩
    · simp at h
  · split at h
    · cases h
      obtain ⟨harmed, hreloads⟩ := Watcher.inFlight_iff.mp (by simpa [quietClose] using hquiet)
      exact Or.inr ⟨Or.inl rfl, harmed, hreloads, ho.panicked⟩
    · simp at h
  · split at h
    · rename_i hpc
      rcases ho.pc with hpc' | hpc' | hpc' <;> simp [hpc'] at hpc
    · simp at h
  · simp at h

/-- On a sealed watcher the goroutine can only end. -/
theorem Watcher.Sealed.watchStep (hs : w.Sealed) (h : w.watchStep m = some w') : w'.Sealed := by
  have hselect : w.pc ≠ .select := by rcases hs.pc with hpc | hpc <;> simp [hpc]
  have hstop : w.pc ≠ .stopTimer := by rcases hs.pc with hpc | hpc <;> simp [hpc]
  have hclose : w.pc ≠ .closeChan := by rcases hs.pc with hpc | hpc <;> simp [hpc]
  unfold Watcher.watchStep at h
  split at h
  · simp [hselect] at h
  · simp [hselect] at h
  · simp [hselect] at h
  · simp [hselect] at h
  · simp [hstop] at h
  · simp [hclose] at h
  · split at h
    · cases h
      exact ⟨Or.inr rfl, hs.armed, hs.reloads, hs.panicked⟩
    · simp at h
  · simp at h

/-- Nothing wakes a sealed watcher up. -/
theorem Watcher.Sealed.next (hs : w.Sealed) (h : w.next m = some w') : w'.Sealed := by
  unfold Watcher.next at h
  rw [if_neg (by simp [hs.panicked])] at h
  have hreload : ∀ {m}, w.reloadStep m = some w' → w'.Sealed := by
    intro m hstep
    obtain ⟨⟨pc, hmem, hrun⟩, -⟩ := Watcher.reloadStep_spec hstep
    rw [hs.reloads pc hmem] at hrun
    simp at hrun
  split at h
  · cases h
    exact ⟨hs.pc, hs.armed, hs.reloads, hs.panicked⟩
  · rw [hs.armed] at h
    simp at h
  · split at h
    · cases h
      exact ⟨hs.pc, hs.armed, hs.reloads, hs.panicked⟩
    · simp at h
  · exact hreload h
  · exact hreload h
  · exact hreload h
  · exact hreload h
  · exact hs.watchStep h

/-- A move on an open channel that meets the condition. -/
theorem Watcher.Open.next (ho : w.Open) (hquiet : quietClose w m = true)
    (h : w.next m = some w') : w'.Open ∨ w'.Sealed := by
  unfold Watcher.next at h
  rw [if_neg (by simp [ho.panicked])] at h
  split at h
  · cases h
    exact Or.inl ⟨ho.closed, ho.panicked, ho.pc⟩
  · split at h
    · cases h
      exact Or.inl ⟨ho.closed, ho.panicked, ho.pc⟩
    · simp at h
  · split at h
    · cases h
      exact Or.inl ⟨ho.closed, ho.panicked, ho.pc⟩
    · simp at h
  · exact Or.inl (ho.reloadStep h)
  · exact Or.inl (ho.reloadStep h)
  · exact Or.inl (ho.reloadStep h)
  · exact Or.inl (ho.reloadStep h)
  · exact ho.watchStep hquiet h

end Steps

-- ---------------------------------------------------------------------------
-- Whole runs
-- ---------------------------------------------------------------------------

theorem run_open_or_sealed {w : Watcher}
    (h : Run Watcher.next (fun w m => quietClose w m = true) newWatcher w) :
    w.Open ∨ w.Sealed := by
  refine Run.invariant (I := fun w => w.Open ∨ w.Sealed) h (Or.inl ⟨rfl, rfl, Or.inl rfl⟩) ?_
  rintro w m w' - (ho | hs) hquiet hn
  · exact ho.next hquiet hn
  · exact Or.inr (hs.next hn)

theorem Watcher.Sealed.run {w w' : Watcher} (hs : w.Sealed) (h : Run Watcher.next free w w') :
    w'.Sealed := Run.invariant h hs fun _ _ _ _ hs _ hn => hs.next hn

section Panic

variable {w : Watcher} {j : ℕ}

/-- A reload at its `select` can send on the closed channel. -/
theorem select_panics (hclosed : w.closed = true) (hp : w.panicked = false) {cfg : Config}
    (hj : w.reloads[j]? = some (.select cfg)) :
    ∃ w', Run Watcher.next free w w' ∧ w'.panicked = true := by
  refine ⟨{ w with panicked := true }, Relation.ReflTransGen.single ⟨.send j, trivial, ?_⟩, rfl⟩
  simp [Watcher.next, Watcher.reloadStep, hp, hj, hclosed]

/-- One move, and then a panic. -/
theorem panics_after {w₁ : Watcher} {m : WatchMove} (hn : w.next m = some w₁)
    (h : ∃ w', Run Watcher.next free w₁ w' ∧ w'.panicked = true) :
    ∃ w', Run Watcher.next free w w' ∧ w'.panicked = true := by
  obtain ⟨w', hrun, hp⟩ := h
  exact ⟨w', Relation.ReflTransGen.head ⟨m, trivial, hn⟩ hrun, hp⟩

theorem rewatch_panics (hclosed : w.closed = true) (hp : w.panicked = false) {cfg : Config}
    (hj : w.reloads[j]? = some (.rewatch cfg)) :
    ∃ w', Run Watcher.next free w w' ∧ w'.panicked = true := by
  have hlt := (List.getElem?_eq_some_iff.mp hj).1
  have hn : w.next (.rewatched j none) = some (w.goto j (.select cfg)) := by
    simp [Watcher.next, Watcher.reloadStep, hp, hj]
  exact panics_after hn (select_panics (j := j) hclosed hp (List.getElem?_set_self hlt))

/-- A reload that is about to load the file can find a valid config. -/
theorem load_panics (hclosed : w.closed = true) (hp : w.panicked = false)
    (hj : w.reloads[j]? = some .load) :
    ∃ w', Run Watcher.next free w w' ∧ w'.panicked = true := by
  have hlt := (List.getElem?_eq_some_iff.mp hj).1
  have hn : w.next (.loaded j (.ok defaultConfig)) = some (w.goto j (.rewatch defaultConfig)) := by
    simp [Watcher.next, Watcher.reloadStep, hp, hj]
  exact panics_after hn (rewatch_panics (j := j) hclosed hp (List.getElem?_set_self hlt))

/-- With a closed channel and something in flight, a panic can follow. -/
theorem inFlight_panics (hclosed : w.closed = true) (hp : w.panicked = false)
    (hflight : w.inFlight = true) : ∃ w', Run Watcher.next free w w' ∧ w'.panicked = true := by
  unfold Watcher.inFlight at hflight
  rw [Bool.or_eq_true, List.any_eq_true] at hflight
  rcases hflight with harmed | ⟨pc, hmem, hrun⟩
  · have hn : w.next .fire = some { w with armed := false, reloads := w.reloads ++ [.load] } := by
      simp [Watcher.next, hp, harmed]
    exact panics_after hn (load_panics (j := w.reloads.length) hclosed hp
      List.getElem?_concat_length)
  · obtain ⟨j, hj⟩ := List.getElem?_of_mem hmem
    cases pc with
    | load => exact load_panics hclosed hp hj
    | rewatch cfg => exact rewatch_panics hclosed hp hj
    | select cfg => exact select_panics hclosed hp hj
    | done => simp [ReloadPC.running] at hrun

end Panic

/-- **No send on the closed channel, when nothing is in flight at the close.** In
every run in which the goroutine closes the channel only while no reload is
running and no timer is armed, no reload sends on the closed channel. And this is
exact: whether a close can be followed by a panic is whether something is in
flight at it. -/
theorem no_send_on_closed_channel {w : Watcher}
    (h : Run Watcher.next (fun w m => quietClose w m = true) newWatcher w) :
    w.panicked = false ∧
    ∀ w', w.next .closeChan = some w' →
      ((∃ w'', Run Watcher.next free w' w'' ∧ w''.panicked = true) ↔ w.inFlight = true) := by
  have hinv := run_open_or_sealed h
  have hp : w.panicked = false := by
    rcases hinv with ho | hs
    · exact ho.panicked
    · exact hs.panicked
  refine ⟨hp, fun w' hn => ⟨?_, fun hflight => ?_⟩⟩
  · rintro ⟨w'', hrun, hpanic⟩
    by_contra hquiet
    have hs : w'.Sealed := by
      rcases hinv with ho | hs
      · rcases ho.next (by simpa [quietClose] using hquiet) hn with ho' | hs'
        · -- the close leaves no open channel
          have hclosed := ho'.closed
          rw [Watcher.next_closeChan hn] at hclosed
          simp at hclosed
        · exact hs'
      · exact hs.next hn
    rw [(hs.run hrun).panicked] at hpanic
    simp at hpanic
  · rw [Watcher.next_closeChan hn]
    exact inFlight_panics rfl hp hflight

-- ---------------------------------------------------------------------------
-- A reload at shutdown
-- ---------------------------------------------------------------------------

/-- The file is written, the timer fires, and the reload gets to its `select`. -/
def reloadMoves : List WatchMove :=
  [.event true false, .fire, .loaded 0 (.ok defaultConfig), .rewatched 0 none]

/-- The context is cancelled and the goroutine closes the channel. -/
def shutdownMoves : List WatchMove := [.cancel, .ctxDone, .stopTimer, .closeChan]

/-- The reload is at its `select` when the channel is closed. Both branches are
ready, and it sends. -/
theorem cancelled_reload_panics :
    ∃ w, Run Watcher.next free newWatcher w ∧ w.ctxDone = true ∧ w.panicked = true := by
  have hrun := run_exec_free Watcher.next newWatcher (reloadMoves ++ shutdownMoves ++ [.send 0])
    (by decide)
  exact ⟨_, hrun, by decide, by decide⟩

/-- The reload has sent before the context is cancelled. -/
theorem finished_reload_is_safe :
    ∃ w, Run Watcher.next (fun w m => quietClose w m = true) newWatcher w ∧ w.closed = true ∧
      w.reloads.length = 1 ∧ w.panicked = false := by
  have hrun := run_exec Watcher.next quietClose newWatcher
    (reloadMoves ++ [.send 0] ++ shutdownMoves) (by decide)
  exact ⟨_, hrun, by decide, by decide, (no_send_on_closed_channel hrun).1⟩

end Rlqs
