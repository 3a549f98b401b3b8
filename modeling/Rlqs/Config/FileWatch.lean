import Rlqs.Config.Watcher

/-!
# RLQS config — the watcher and the file it watches

The watcher of `internal/config/watcher.go` next to the config file. The file is
written in place or atomically replaced, with content that `Load` accepts or not.
A watch belongs to a file and not to a path: a replacement drops it, and `fsnotify`
reports `Remove`, `Rename` or `Chmod`, which the goroutine of `Watch` skips. A
reload that has loaded the file removes the watch and adds it again, in two steps.

Every write and replacement makes a new version of the file, and a loaded config
remembers its version: delivering an older version of the same content is not
delivering the last one. The path always exists here, so `fsw.Add` succeeds, and
the context is not cancelled.

* `FileWatch.next` — the file, the watch, the event queue, the timer, the reloads
  and the receiver;
* `OwnTurn` — everything that a step of the watcher itself can do;
* `FileWatch.watcher_run` — without the file it is the watcher of `Watcher.next`.
-/

namespace Rlqs

open Steps

-- ---------------------------------------------------------------------------
-- The file and its watcher
-- ---------------------------------------------------------------------------

/-- The operations that `fsnotify` reports. -/
inductive FsOp where
  | create
  | write
  | remove
  | rename
  | chmod
  deriving DecidableEq

/-- The events that the goroutine of `Watch` does not skip. -/
def FsOp.triggers : FsOp → Bool
  | .create | .write => true
  | .remove | .rename | .chmod => false

/-- A config and the version of the file it was loaded from. -/
abbrev Loaded := ℕ × Config

/-- The control points of a `reload`; between `fsw.Remove` and `fsw.Add` nothing
is watched. -/
inductive RewatchPC where
  | load
  | remove (c : Loaded)
  | add (c : Loaded)
  | select (c : Loaded)
  | done
  deriving DecidableEq

/-- The watcher and its file. `inode` is the file at the path, `watch` the one
that `fsw` watches; `version` counts the writes and replacements, and `lastValid`
is the last valid content among them. -/
structure FileWatch where
  inode : ℕ
  version : ℕ
  data : Str
  watch : Option ℕ
  events : List FsOp
  armed : Bool
  reloads : List RewatchPC
  buffer : Option Loaded
  delivered : List Loaded
  lastValid : Option Loaded

/-- `Watch` has added the watch and started its goroutine. -/
def watchStarted (data : Str) : FileWatch := ⟨0, 0, data, some 0, [], false, [], none, [], none⟩

/-- The file is written in place, or replaced (with what `fsnotify` reports of
the loss of the watch); the goroutine takes an event; the timer fires; reload `j`
loads the file, removes the watch, adds it, or sends; the receiver takes a
config. -/
inductive FileMove where
  | write (data : Str)
  | replace (data : Str) (ops : List FsOp)
  | event
  | fire
  | load (j : ℕ)
  | remove (j : ℕ)
  | add (j : ℕ)
  | send (j : ℕ)
  | receive

/-- The move is one of the watcher and its receiver. -/
def FileMove.own : FileMove → Bool
  | .write _ | .replace _ _ => false
  | _ => true

/-- The watch is on the file at the path. -/
def FileWatch.Watched (f : FileWatch) : Prop := f.watch = some f.inode

instance watchedDecidable (f : FileWatch) : Decidable f.Watched :=
  inferInstanceAs (Decidable (f.watch = some f.inode))

/-- Reload `j` goes on at `pc`. -/
def FileWatch.goto (f : FileWatch) (j : ℕ) (pc : RewatchPC) : FileWatch :=
  { f with reloads := f.reloads.set j pc }

section Model

-- what `Load` makes of the content of the file
variable (loads : Str → Except GoError Config)

/-- The file has new content. -/
def FileWatch.put (f : FileWatch) (data : Str) : FileWatch :=
  { f with
    version := f.version + 1
    data := data
    lastValid :=
      match loads data with
      | .ok cfg => some (f.version + 1, cfg)
      | .error _ => f.lastValid }

/-- One move. -/
def FileWatch.next (f : FileWatch) : FileMove → Option FileWatch
  | .write data =>
    some { f.put loads data with events := if f.Watched then f.events ++ [.write] else f.events }
  | .replace data ops =>
    -- neither `Create` nor `Write` is reported for the file that is gone
    if ops.all (fun op => !op.triggers) then
      some { f.put loads data with
        inode := f.inode + 1
        watch := if f.Watched then none else f.watch
        events := if f.Watched then f.events ++ ops else f.events }
    else none
  | .event =>
    match f.events with
    | [] => none
    | op :: ops => some { f with events := ops, armed := f.armed || op.triggers }
  | .fire =>
    if f.armed then some { f with armed := false, reloads := f.reloads ++ [.load] } else none
  | .load j =>
    match f.reloads[j]? with
    | some .load =>
      match loads f.data with
      | .error _ => some (f.goto j .done)
      | .ok cfg => some (f.goto j (.remove (f.version, cfg)))
    | _ => none
  | .remove j =>
    match f.reloads[j]? with
    | some (.remove c) => some { f.goto j (.add c) with watch := none }
    | _ => none
  | .add j =>
    match f.reloads[j]? with
    | some (.add c) => some { f.goto j (.select c) with watch := some f.inode }
    | _ => none
  | .send j =>
    match f.reloads[j]? with
    | some (.select c) =>
      if f.buffer.isNone then some { f.goto j .done with buffer := some c } else none
    | _ => none
  | .receive =>
    match f.buffer with
    | some c => some { f with buffer := none, delivered := f.delivered ++ [c] }
    | none => none

-- ---------------------------------------------------------------------------
-- Without the file
-- ---------------------------------------------------------------------------

/-- The two steps of the watch are one in `Watcher`. -/
def RewatchPC.reload : RewatchPC → ReloadPC
  | .load => .load
  | .remove c => .rewatch c.2
  | .add c => .rewatch c.2
  | .select c => .select c.2
  | .done => .done

/-- The watcher, with its context not cancelled. -/
def FileWatch.watcher (f : FileWatch) : Watcher :=
  { ctxDone := false
    pc := .select
    armed := f.armed
    buffer := f.buffer.map Prod.snd
    closed := false
    reloads := f.reloads.map RewatchPC.reload
    panicked := false }

theorem FileWatch.watcher_goto (f : FileWatch) (j : ℕ) (pc : RewatchPC) :
    (f.goto j pc).watcher = f.watcher.goto j pc.reload := by
  unfold FileWatch.watcher FileWatch.goto Watcher.goto
  rw [List.map_set]

/-- What a step of the watcher itself can do. -/
inductive OwnTurn (f : FileWatch) : FileWatch → Prop
  | event {op : FsOp} {ops : List FsOp} (he : f.events = op :: ops) :
      OwnTurn f { f with events := ops, armed := f.armed || op.triggers }
  | fire (ha : f.armed = true) :
      OwnTurn f { f with armed := false, reloads := f.reloads ++ [.load] }
  | failed {j : ℕ} {e : GoError} (hj : f.reloads[j]? = some .load)
      (hl : loads f.data = .error e) : OwnTurn f (f.goto j .done)
  | loaded {j : ℕ} {cfg : Config} (hj : f.reloads[j]? = some .load)
      (hl : loads f.data = .ok cfg) : OwnTurn f (f.goto j (.remove (f.version, cfg)))
  | remove {j : ℕ} {c : Loaded} (hj : f.reloads[j]? = some (.remove c)) :
      OwnTurn f { f.goto j (.add c) with watch := none }
  | add {j : ℕ} {c : Loaded} (hj : f.reloads[j]? = some (.add c)) :
      OwnTurn f { f.goto j (.select c) with watch := some f.inode }
  | send {j : ℕ} {c : Loaded} (hj : f.reloads[j]? = some (.select c)) (hb : f.buffer = none) :
      OwnTurn f { f.goto j .done with buffer := some c }
  | receive {c : Loaded} (hb : f.buffer = some c) :
      OwnTurn f { f with buffer := none, delivered := f.delivered ++ [c] }

variable {loads} {f f' : FileWatch} {m : FileMove}

theorem FileWatch.next_own (hm : m.own = true) (h : f.next loads m = some f') :
    OwnTurn loads f f' := by
  cases m with
  | write data => simp [FileMove.own] at hm
  | replace data ops => simp [FileMove.own] at hm
  | event =>
    simp only [FileWatch.next] at h
    split at h
    · simp at h
    · rename_i op ops he
      cases h
      exact .event he
  | fire =>
    simp only [FileWatch.next] at h
    split at h
    · rename_i ha
      cases h
      exact .fire ha
    · simp at h
  | load j =>
    simp only [FileWatch.next] at h
    split at h
    · rename_i hj
      split at h
      · rename_i hl
        cases h
        exact .failed hj hl
      · rename_i hl
        cases h
        exact .loaded hj hl
    · simp at h
  | remove j =>
    simp only [FileWatch.next] at h
    split at h
    · rename_i hj
      cases h
      exact .remove hj
    · simp at h
  | add j =>
    simp only [FileWatch.next] at h
    split at h
    · rename_i hj
      cases h
      exact .add hj
    · simp at h
  | send j =>
    simp only [FileWatch.next] at h
    split at h
    · rename_i hj
      split at h
      · rename_i hb
        cases h
        exact .send hj (Option.isNone_iff_eq_none.mp hb)
      · simp at h
    · simp at h
  | receive =>
    simp only [FileWatch.next] at h
    split at h
    · rename_i hb
      cases h
      exact .receive hb
    · simp at h

/-- A step of the watcher is a step of `Watcher.next`, or the removal of the watch,
which `Watcher.next` does not tell apart from adding it. -/
theorem OwnTurn.watcher_next (h : OwnTurn loads f f') :
    f'.watcher = f.watcher ∨ ∃ m, f.watcher.next m = some f'.watcher := by
  have hp : f.watcher.panicked = false := rfl
  have hclosed : f.watcher.closed = false := rfl
  have hreload : ∀ {j : ℕ} {pc : RewatchPC}, f.reloads[j]? = some pc →
      f.watcher.reloads[j]? = some pc.reload := by
    intro j pc hj
    simp [FileWatch.watcher, hj]
  cases h with
  | @event op ops he =>
    refine Or.inr ⟨.event op.triggers false, ?_⟩
    cases op.triggers <;> simp [Watcher.next, Watcher.watchStep, FileWatch.watcher]
  | fire ha =>
    refine Or.inr ⟨.fire, ?_⟩
    simp [Watcher.next, FileWatch.watcher, ha, RewatchPC.reload]
  | @failed j e hj hl =>
    refine Or.inr ⟨.loaded j (.error e), ?_⟩
    rw [f.watcher_goto]
    simp [Watcher.next, Watcher.reloadStep, hp, hreload hj, RewatchPC.reload]
  | @loaded j cfg hj hl =>
    refine Or.inr ⟨.loaded j (.ok cfg), ?_⟩
    rw [f.watcher_goto]
    simp [Watcher.next, Watcher.reloadStep, hp, hreload hj, RewatchPC.reload]
  | @remove j c hj =>
    refine Or.inl ((f.watcher_goto j (.add c)).trans ?_)
    obtain ⟨hlt, hget⟩ := List.getElem?_eq_some_iff.mp (hreload hj)
    have hset : f.watcher.reloads.set j (RewatchPC.add c).reload = f.watcher.reloads := by
      rw [show (RewatchPC.add c).reload = f.watcher.reloads[j] from hget.symm,
        List.set_getElem_self]
    rw [Watcher.goto, hset]
  | @add j c hj =>
    refine Or.inr ⟨.rewatched j none, ?_⟩
    rw [show f.watcher.next (.rewatched j none) = some (f.watcher.goto j (.select c.2)) by
      simp [Watcher.next, Watcher.reloadStep, hp, hreload hj, RewatchPC.reload]]
    exact congrArg some (f.watcher_goto j (.select c)).symm
  | @send j c hj hb =>
    have hbuffer : f.watcher.buffer = none := by simp [FileWatch.watcher, hb]
    refine Or.inr ⟨.send j, ?_⟩
    rw [show f.watcher.next (.send j) =
        some { f.watcher.goto j .done with buffer := some c.2 } by
      simp [Watcher.next, Watcher.reloadStep, hp, hclosed, hbuffer, hreload hj, RewatchPC.reload]]
    rw [show f.watcher.goto j .done = (f.goto j .done).watcher from (f.watcher_goto j .done).symm]
    rfl
  | @receive c hb =>
    refine Or.inr ⟨.receive, ?_⟩
    simp [Watcher.next, FileWatch.watcher, hb]

/-- Forgetting the file leaves the watcher of `Watcher.next`. -/
theorem FileWatch.watcher_next (h : f.next loads m = some f') :
    f'.watcher = f.watcher ∨ ∃ m, f.watcher.next m = some f'.watcher := by
  cases hm : m.own with
  | true => exact (FileWatch.next_own hm h).watcher_next
  | false =>
    cases m with
    | write data =>
      cases h
      exact Or.inl rfl
    | replace data ops =>
      simp only [FileWatch.next] at h
      split at h
      · cases h
        exact Or.inl rfl
      · simp at h
    | _ => simp [FileMove.own] at hm

/-- Runs of the watcher with its file are runs of the watcher. -/
theorem FileWatch.watcher_run {data : Str}
    (h : Run (FileWatch.next loads) free (watchStarted data) f) :
    Run Watcher.next free newWatcher f.watcher := by
  have hstart : Run Watcher.next free newWatcher (watchStarted data).watcher :=
    Relation.ReflTransGen.refl
  refine Run.invariant (I := fun f : FileWatch => Run Watcher.next free newWatcher f.watcher) h
    hstart ?_
  intro f m f' _ hrun _ hn
  rcases FileWatch.watcher_next hn with hsame | ⟨m', hn'⟩
  · rw [hsame]
    exact hrun
  · exact Relation.ReflTransGen.tail hrun ⟨m', trivial, hn'⟩

end Model

end Rlqs
