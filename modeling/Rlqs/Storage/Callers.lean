import Rlqs.Storage.Tripping

/-!
# RLQS storage — a removal seen as a record of no usage

`RecordUsage` and `RemoveBucket` calls on one store, one operation at a time, as in
`Storage.Tripping`. The two have most operations in common: the read of `tripped`, the
retry check, all of recovery, and `trip`. A removal is therefore looked at as the
record of no usage (`StoreProc.recorder`), and what is left is what only a removal does:
`DEL`, and the update of the fallback.

* `storeMachine` — any number of calls of both kinds on one store;
* `removeStep_turn` — everything an operation of a removal can do.
-/

namespace Rlqs

open Interleave Steps

-- ---------------------------------------------------------------------------
-- Calls of both kinds
-- ---------------------------------------------------------------------------

/-- The snapshot a call is about to flush. -/
def StoreProc.flushing : StoreProc → Option (GoMap BucketKey UsageState)
  | .record p => match p.pc with
    | .flush entries => some entries
    | _ => none
  | .remove p => match p.pc with
    | .flush entries => some entries
    | _ => none

/-- Any number of calls on one store. -/
def storeMachine : Machine RedisStorage StoreProc StoreRequest RecordInput where
  init
    | .record domain report => .record ⟨.start, domain, report⟩
    | .remove domain key => .remove ⟨.start, domain, key⟩
  step := StoreProc.step

-- ---------------------------------------------------------------------------
-- Removals as records of no usage
-- ---------------------------------------------------------------------------

/-- A report of no usage. -/
def noReport : UsageReport := ⟨none, 0, 0, 0⟩

/-- The control point of a record that does the same operation. -/
def RemovePC.asRecord : RemovePC → RecordPC
  | .start => .start
  | .check => .check
  | .retry => .retry
  | .snapshot => .snapshot
  | .flush entries => .flush entries
  | .clear entries => .clear entries
  | .reset => .reset
  | .direct => .direct
  | .trip => .trip
  | .update => .update
  | .returned => .returned

def Remover.recorder (p : Remover) : Recorder := ⟨p.pc.asRecord, p.domain, noReport⟩

/-- A call, with a removal taken for the record of no usage. -/
def StoreProc.recorder : StoreProc → Recorder
  | .record p => p
  | .remove p => p.recorder

/-- Everything an operation of a removal can do. Those it has in common with a
record are stated as such. -/
inductive RemoveTurn (s : RedisStorage) (p : Remover) :
    RecordInput → RedisStorage → Remover → Prop
  | common {x : RecordInput} {s' : RedisStorage} {p' : Remover}
      (hpc : p.pc ≠ .retry ∧ p.pc ≠ .direct ∧ p.pc ≠ .update)
      (hstep : recordStep s p.recorder x = some (s', p'.recorder)) :
      RemoveTurn s p x s' p'
  | retryLater {now : Nanos} (hpc : p.pc = .check) (hr : s.shouldRetry now = false) :
      RemoveTurn s p (.clock now) s { p with pc := .update }
  | deleted {o : Outcome} {s' : RedisStorage} {pc' : RemovePC}
      (hpc : p.pc = .retry ∧ pc' = .snapshot ∨ p.pc = .direct ∧ pc' = .returned)
      (hdel : s.pipeline [.del p.scopedKey] o = (s', none)) :
      RemoveTurn s p (.redis o) s' { p with pc := pc' }
  | deleteFailed {o : Outcome} {s' : RedisStorage} {e : RedisError} {pc' : RemovePC}
      (hpc : p.pc = .retry ∧ pc' = .update ∨ p.pc = .direct ∧ pc' = .trip)
      (hdel : s.pipeline [.del p.scopedKey] o = (s', some e)) :
      RemoveTurn s p (.redis o) s' { p with pc := pc' }
  | update (hpc : p.pc = .update) :
      RemoveTurn s p .tick (s.fallbackRemove p.domain p.key).1 { p with pc := .returned }

theorem removeStep_turn {s s' : RedisStorage} {p p' : Remover} {x : RecordInput}
    (h : removeStep s p x = some (s', p')) : RemoveTurn s p x s' p' := by
  obtain ⟨pc, domain, key⟩ := p
  unfold removeStep at h
  split at h
  case h_1 hpc =>
    cases hpc
    cases h
    refine .common (by simp) ?_
    cases ht : s.tripped <;>
      simp [recordStep, Remover.recorder, RemovePC.asRecord, ht]
  case h_2 now hpc =>
    cases hpc
    cases h
    cases hr : s.shouldRetry now with
    | true =>
      exact .common (by simp) (by simp [recordStep, Remover.recorder, RemovePC.asRecord, hr])
    | false => exact .retryLater rfl hr
  case h_3 o hpc =>
    cases hpc
    rcases hdel : s.pipeline [.del (Remover.scopedKey ⟨.retry, domain, key⟩)] o with ⟨s₁, err⟩
    rw [hdel] at h
    cases h
    cases err with
    | none => exact .deleted (Or.inl ⟨rfl, rfl⟩) hdel
    | some e => exact .deleteFailed (Or.inl ⟨rfl, rfl⟩) hdel
  case h_4 hpc =>
    cases hpc
    cases h
    refine .common (by simp) ?_
    by_cases hlen : GoMap.len s.fallback.all = 0 <;>
      simp [recordStep, Remover.recorder, RemovePC.asRecord, hlen]
  case h_8 o hpc =>
    cases hpc
    rcases hdel : s.pipeline [.del (Remover.scopedKey ⟨.direct, domain, key⟩)] o with ⟨s₁, err⟩
    rw [hdel] at h
    cases h
    cases err with
    | none => exact .deleted (Or.inr ⟨rfl, rfl⟩) hdel
    | some e => exact .deleteFailed (Or.inr ⟨rfl, rfl⟩) hdel
  case h_10 hpc =>
    cases hpc
    cases h
    exact .update rfl
  case h_11 => cases h
  -- the rest of recovery and the trip are those of a record
  all_goals
    rename_i hpc
    cases hpc
    cases h
    exact .common (by simp) rfl

end Rlqs
