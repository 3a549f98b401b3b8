import Rlqs.Server.RefCount

/-!
# RLQS server — removing buckets from the store

The last decrement of a scoped key decides, under `s.mu`, that the bucket is
to be removed; `store.RemoveBucket` runs after the lock is released. Two
results about that window, both over every interleaving of the atomic steps:

* `removal_unreferenced` — as long as no increment of a key runs while a
  removal of that key is on its way, a removal is only executed when
  `bucketRefs` has no entry for the key and no stream holds a reference on it.
  Without the condition this fails (`removal_of_referenced_bucket`): a stream
  that subscribes and reports inside the window loses its usage.
* `no_leak` — with the in-memory store nothing is left behind: once every
  stream has ended, the store and `bucketRefs` are empty. The invariant is
  that a stored bucket has a reference or a removal on its way (`Covered`).
-/

namespace Rlqs

open Interleave Steps

/-- The handler is about to call `store.RemoveBucket` for the scoped key `k`. -/
def Handler.removes (k : BucketKey) (p : Handler) : Bool :=
  match p.pc.removing with
  | some key => domainScopedKey p.ss.domain key = k
  | none => false

/-- The scoped key whose count the handler is about to increment. -/
def Handler.counting (p : Handler) : Option BucketKey :=
  match p.pc with
  | .incRef key _ _ _ => some (domainScopedKey p.ss.domain key)
  | _ => none

/-- The move does not increment `bucketRefs[k]` while some handler is between
dropping the last reference on `k` and its `RemoveBucket` call. -/
def noLateCount {σ : Type} (w : Pool (Shared σ) Handler) : Move Unit Input → Bool
  | .spawn _ => true
  | .act i _ =>
    match w.procs[i]? with
    | none => true
    | some p =>
      match p.counting with
      | none => true
      | some k => w.procs.all fun q => !q.removes k

section Step

variable {p p' : Handler} {k : BucketKey}

theorem Handler.removes_false (h : p.pc.removing = none) (k : BucketKey) : p.removes k = false := by
  unfold Handler.removes
  rw [h]

/-- A stream that holds a key accounts for its scoped key. -/
theorem Handler.heldAt_pos {key : BucketKey} (h : key ∈ p.held) :
    1 ≤ p.heldAt (domainScopedKey p.ss.domain key) :=
  List.countP_pos_iff.mpr ⟨key, h, by simp⟩

end Step

section Run

variable {σ : Type} [BucketStore σ] {cfg : Limits} {store : σ} {w : Pool (Shared σ) Handler}
  {ok : Pool (Shared σ) Handler → Move Unit Input → Prop}

/-- A key that some stream holds has an entry. -/
theorem run_lookup_of_held (h : (serverMachine σ cfg).Run ok (newServer store) w) {p : Handler}
    (hp : p ∈ w.procs) {key : BucketKey} (hkey : key ∈ p.held) :
    w.shared.bucketRefs.lookup (domainScopedKey p.ss.domain key) ≠ none := by
  intro hnone
  have hcount := run_refCount h (domainScopedKey p.ss.domain key)
  have hle := le_tally (Handler.heldAt (domainScopedKey p.ss.domain key)) hp
  have hpos := Handler.heldAt_pos hkey
  unfold refCount at hcount
  rw [hnone] at hcount
  simp only [Option.getD_none] at hcount
  omega

/-- An absent entry means that no stream holds the key. -/
theorem run_heldAt_zero (h : (serverMachine σ cfg).Run ok (newServer store) w) {k : BucketKey}
    (hnone : w.shared.bucketRefs.lookup k = none) : ∀ p ∈ w.procs, p.heldAt k = 0 := by
  have hcount := run_refCount h k
  unfold refCount at hcount
  rw [hnone] at hcount
  rw [← tally_eq_zero_iff]
  simp only [Option.getD_none] at hcount
  omega

/-- A handler that goes on to remove the bucket it has released has taken the last
reference. -/
theorem released_removes {refs : BucketRefs} {p : Handler} {key k : BucketKey} {l : After}
    (hrem : ({ p with
      pc := if (dropRef refs (domainScopedKey p.ss.domain key)).2 then .remove key l else l.resume
      held := p.held.erase key } : Handler).removes k = true) :
    (dropRef refs (domainScopedKey p.ss.domain key)).1.lookup k = none := by
  cases hflag : (dropRef refs (domainScopedKey p.ss.domain key)).2 with
  | true =>
    rw [if_pos hflag] at hrem
    have hk : domainScopedKey p.ss.domain key = k := by
      simpa [Handler.removes, PC.removing] using hrem
    rw [← hk]
    exact (dropRef_removed_iff _ _).mp hflag
  | false =>
    rw [if_neg (by rw [hflag]; simp), Handler.removes_false (After.resume_removing l)] at hrem
    simp at hrem

/-- Under the guard, a removal on its way finds no entry for its key. -/
theorem run_removes_absent
    (h : (serverMachine σ cfg).Run (fun w m => noLateCount w m = true) (newServer store) w) :
    ∀ k, ∀ q ∈ w.procs, q.removes k = true → w.shared.bucketRefs.lookup k = none := by
  refine Run.invariant
    (I := fun w => ∀ k, ∀ q ∈ w.procs, q.removes k = true → w.shared.bucketRefs.lookup k = none)
    h (by simp [newServer]) ?_
  intro w m w' hrun hI hok hn k q hq hrem
  rcases next_cases hn with ⟨a, -, rfl⟩ | ⟨i, x, p, sh', p', rfl, hp, hs, rfl⟩
  · rcases List.mem_append.mp hq with hq | hq
    · exact hI k q hq hrem
    · rw [List.mem_singleton.mp hq] at hrem
      cases hrem
  · have hmem : p ∈ w.procs := List.mem_of_getElem? hp
    cases handlerStep_cases hs with
    | quiet hrefs _ _ _ _ hpend =>
      rw [hrefs]
      rcases mem_set_cases hq with rfl | hq
      · rw [Handler.removes_false hpend] at hrem
        simp at hrem
      · exact hI k q hq hrem
    | @counted key u us reports hpc =>
      -- the guard rules out that the counted key is the one being removed
      rcases mem_set_cases hq with rfl | hq
      · cases hrem
      · rw [lookup_addRef]
        split
        · rename_i hk
          have hguard : w.procs.all (fun q => !q.removes (domainScopedKey p.ss.domain key))
              = true := by
            simpa [noLateCount, hp, Handler.counting, hpc] using hok
          have := List.all_eq_true.mp hguard q hq
          rw [← hk, hrem] at this
          simp at this
        · exact hI k q hq hrem
    | recorded hpc =>
      rcases mem_set_cases hq with rfl | hq
      · cases hrem
      · exact hI k q hq hrem
    | @released key l hpc =>
      -- the releasing stream still holds the key, so nobody else removes it
      have hheld := (run_wf hrun p hmem).decRef_held hpc
      have hentry := run_lookup_of_held hrun hmem hheld
      rcases mem_set_cases hq with rfl | hq
      · exact released_removes hrem
      · rw [lookup_dropRef]
        split
        · rename_i hk
          rw [← hk] at hentry
          exact absurd (hI k q hq hrem) hentry
        · exact hI k q hq hrem
    | removed hpc =>
      rcases mem_set_cases hq with rfl | hq
      · rw [Handler.removes_false (After.resume_removing _)] at hrem
        simp at hrem
      · exact hI k q hq hrem

/-- A registered stream whose subscription to `key` is not held is still about
to count it: it has recorded nothing under this subscription. -/
theorem Handler.Wf.subscribed_not_held {p : Handler} (hw : p.Wf) (hreg : p.registered = true)
    {key : BucketKey} (hsub : key ∈ p.ss.subscriptions) (hheld : key ∉ p.held) :
    ∃ u us reports, p.pc = .incRef key u us reports := by
  rw [hw.registered_eq] at hreg
  rw [hw.held_perm.mem_iff] at hheld
  have hkeys := AList.mem_keys.mp hsub
  unfold Handler.claimed at hheld
  cases hpc : p.pc with
  | incRef key' u us reports =>
    rw [hpc] at hheld
    by_cases hk : key = key'
    · exact ⟨u, us, reports, by rw [hk]⟩
    · exact absurd ((List.mem_erase_of_ne hk).mpr hkeys) hheld
  | decRef key' l =>
    cases l with
    | abandon v rest all =>
      rw [hpc] at hheld
      exact absurd (List.mem_cons_of_mem _ hkeys) hheld
    | cleanup todo => rw [hpc] at hreg; cases hreg
  | remove key' l =>
    cases l with
    | abandon v rest all =>
      rw [hpc] at hheld
      exact absurd hkeys hheld
    | cleanup todo => rw [hpc] at hreg; cases hreg
  | start => rw [hpc] at hreg; cases hreg
  | cleanup todo => rw [hpc] at hreg; cases hreg
  | done => rw [hpc] at hreg; cases hreg
  | _ =>
    rw [hpc] at hheld
    exact absurd hkeys hheld

/-- **A removal never hits a referenced bucket**, in every run in which no
increment of a key runs while a removal of that key is on its way: when a
handler or a cleanup is about to execute `RemoveBucket` for `k`, `bucketRefs`
has no entry for `k`, no stream holds a reference on it, and a registered
stream already subscribed to it has not got past its own increment. -/
theorem removal_unreferenced (cfg : Limits) (store : σ)
    (h : (serverMachine σ cfg).Run (fun w m => noLateCount w m = true) (newServer store) w)
    (k : BucketKey) (p : Handler) (hp : p ∈ w.procs) (hrem : p.removes k = true) :
    refCount w.shared.bucketRefs k = 0 ∧
    (∀ q ∈ w.procs, q.heldAt k = 0) ∧
    (∀ q ∈ w.procs, q.registered = true → ∀ key ∈ q.ss.subscriptions,
      domainScopedKey q.ss.domain key = k → ∃ u us reports, q.pc = .incRef key u us reports) := by
  have hnone := run_removes_absent h k p hp hrem
  have hzero := run_heldAt_zero h hnone
  refine ⟨by unfold refCount; rw [hnone]; rfl, hzero, ?_⟩
  intro q hq hreg key hkey hk
  refine (run_wf h q hq).subscribed_not_held hreg hkey ?_
  intro hheld
  have hpos := Handler.heldAt_pos hheld
  rw [hk, hzero q hq] at hpos
  omega

end Run

-- ---------------------------------------------------------------------------
-- The window between the last decrement and the removal
-- ---------------------------------------------------------------------------

/-- Stream `i` hangs up and cleans up, up to and including its decrement of the
sample bucket. -/
def hangupMoves (i : ℕ) : List (Move Unit Input) :=
  [.act i .hangup, .act i .tick, .act i .tick,
   .act i (.pick (bucketKeyFromProto (some sampleId))), .act i .tick]

/-- A stream that opens and reports after another stream's last decrement and
before its removal. -/
def lateReport : List (Move Unit Input) :=
  [.spawn (), .spawn ()] ++ reportMoves 0 ++ hangupMoves 0 ++ reportMoves 1

/-- The removal runs while the other stream is subscribed, counted and has
recorded usage, and deletes that usage. -/
theorem removal_of_referenced_bucket :
    ∃ w w', (serverMachine MemoryStorage noLimits).Run Machine.free
        (newServer MemoryStorage.newMemoryStorage) w ∧
      (serverMachine MemoryStorage noLimits).next w (.act 0 .tick) = some w' ∧
      (∃ p, w.procs[0]? = some p ∧ p.removes sampleKey = true) ∧
      0 < refCount w.shared.bucketRefs sampleKey ∧
      (∃ q, w.procs[1]? = some q ∧ q.registered = true ∧ q.heldAt sampleKey = 1) ∧
      w.shared.store.get sampleKey = some ⟨10, 2⟩ ∧ w'.shared.store.get sampleKey = none := by
  have hrun := run_exec_free (serverMachine MemoryStorage noLimits).next
    (newServer MemoryStorage.newMemoryStorage) lateReport (by decide)
  exact ⟨_, _, hrun, rfl, ⟨_, rfl, by decide⟩, by decide, ⟨_, rfl, by decide, by decide⟩,
    by decide, by decide⟩

/-- The same streams one after the other meet the condition. -/
theorem removal_unreferenced_in_turn :
    ∃ w p, (serverMachine MemoryStorage noLimits).Run (fun w m => noLateCount w m = true)
        (newServer MemoryStorage.newMemoryStorage) w ∧
      w.procs[1]? = some p ∧ p.removes sampleKey = true ∧
      refCount w.shared.bucketRefs sampleKey = 0 := by
  have hrun := run_exec (serverMachine MemoryStorage noLimits).next noLateCount
    (newServer MemoryStorage.newMemoryStorage)
    ([.spawn (), .spawn ()] ++ reportMoves 0 ++ reportMoves 1 ++ hangupMoves 0 ++
      hangupMoves 1) (by decide)
  refine ⟨_, _, hrun, rfl, by decide, ?_⟩
  exact (removal_unreferenced _ _ hrun sampleKey _ (List.mem_of_getElem? (i := 1) rfl)
    (by decide)).1

-- ---------------------------------------------------------------------------
-- Nothing is left behind
-- ---------------------------------------------------------------------------

/-- The stream has ended and its cleanup has run to its end. -/
def PC.finished : PC → Bool
  | .done => true
  | _ => false

theorem PC.eq_done {pc : PC} (h : pc.finished = true) : pc = .done := by
  cases pc <;> first | rfl | cases h

/-- Every stored bucket has a reference, or a removal on its way. -/
def Covered (w : Pool (Shared MemoryStorage) Handler) : Prop :=
  ∀ k, w.shared.store.get k ≠ none →
    w.shared.bucketRefs.lookup k ≠ none ∨ ∃ q ∈ w.procs, q.removes k = true

section Leak

variable {cfg : Limits} {store : MemoryStorage} {w : Pool (Shared MemoryStorage) Handler}
  {ok : Pool (Shared MemoryStorage) Handler → Move Unit Input → Prop}

/-- A removal on its way stays on its way while other handlers step. -/
theorem removes_of_set {ps : List Handler} {i : ℕ} {p p' : Handler} {k : BucketKey}
    (hp : ps[i]? = some p) (hnot : p.removes k = false) (h : ∃ q ∈ ps, q.removes k = true) :
    ∃ q ∈ ps.set i p', q.removes k = true := by
  have hset := exists_mem_set p' (fun q => q.removes k = true) hp
  rcases hset.mpr (Or.inr h) with hrem | hrem
  · rw [hnot] at hrem
    simp at hrem
  · exact hrem

/-- One step, of a stream that has counted the bucket it records for. -/
theorem Covered.step (hI : Covered w) {i : ℕ} {p p' : Handler} {x : Input}
    {sh' : Shared MemoryStorage} (hp : w.procs[i]? = some p)
    (hcounted : ∀ u us reports, p.pc = .record u us reports →
      w.shared.bucketRefs.lookup (u.toReport.scopedKey p.ss.domain) ≠ none)
    (hs : handlerStep cfg w.shared p x = some (sh', p')) : Covered ⟨sh', w.procs.set i p'⟩ := by
  intro k hk
  cases handlerStep_cases hs with
  | quiet hrefs hstore _ _ hnot _ =>
    simp only [hstore] at hk
    rw [hrefs]
    exact (hI k hk).imp_right (removes_of_set hp (Handler.removes_false hnot k))
  | @counted key u us reports hpc =>
    have hnot : p.removes k = false := Handler.removes_false (by rw [hpc]; rfl) k
    rcases hI k hk with href | hrem
    · left
      rw [lookup_addRef]
      split
      · simp
      · exact href
    · exact Or.inr (removes_of_set hp hnot hrem)
  | @recorded u us reports hpc =>
    have hnot : p.removes k = false := Handler.removes_false (by rw [hpc]; rfl) k
    by_cases hkey : k = u.toReport.scopedKey p.ss.domain
    · left
      rw [hkey]
      exact hcounted u us reports hpc
    · have hget : (w.shared.store.recordUsage p.ss.domain u.toReport).get k =
          w.shared.store.get k := by
        rw [MemoryStorage.get_recordUsage, if_neg hkey]
      have hk' : w.shared.store.get k ≠ none := by
        rw [← hget]
        exact hk
      exact (hI k hk').imp_right (removes_of_set hp hnot)
  | @released key l hpc =>
    have hnot : p.removes k = false := Handler.removes_false (by rw [hpc]; rfl) k
    by_cases hkey : k = domainScopedKey p.ss.domain key
    · -- either an entry remains, or this handler goes on to remove the bucket
      cases hflag : (dropRef w.shared.bucketRefs (domainScopedKey p.ss.domain key)).2 with
      | true =>
        right
        refine ⟨_, List.mem_of_getElem? (i := i) (List.getElem?_set_self ?_), ?_⟩
        · exact (List.getElem?_eq_some_iff.mp hp).1
        · simp [Handler.removes, PC.removing, hkey]
      | false =>
        left
        intro hnone
        rw [hkey, ← dropRef_removed_iff, hflag] at hnone
        simp at hnone
    · rcases hI k hk with href | hrem
      · left
        rw [lookup_dropRef, if_neg hkey]
        exact href
      · exact Or.inr (removes_of_set hp hnot hrem)
  | @removed key l hpc =>
    by_cases hkey : k = domainScopedKey p.ss.domain key
    · have hget : (w.shared.store.removeBucket p.ss.domain key).get k = none := by
        rw [MemoryStorage.get_removeBucket, if_pos hkey]
      exact absurd hget hk
    · have hget : (w.shared.store.removeBucket p.ss.domain key).get k =
          w.shared.store.get k := by
        rw [MemoryStorage.get_removeBucket, if_neg hkey]
      have hk' : w.shared.store.get k ≠ none := by
        rw [← hget]
        exact hk
      have hnot : p.removes k = false := by
        simp [Handler.removes, PC.removing, hpc, Ne.symm hkey]
      exact (hI k hk').imp_right (removes_of_set hp hnot)

theorem run_covered (h : (serverMachine MemoryStorage cfg).Run ok
    (newServer MemoryStorage.newMemoryStorage) w) : Covered w := by
  refine Run.invariant (I := Covered) h (fun k hk => absurd rfl hk) ?_
  intro w m w' hrun hI _ hn
  rcases next_cases hn with ⟨a, -, rfl⟩ | ⟨i, x, p, sh', p', rfl, hp, hs, rfl⟩
  · intro k hk
    rcases hI k hk with href | ⟨q, hq, hrem⟩
    · exact Or.inl href
    · exact Or.inr ⟨q, List.mem_append_left _ hq, hrem⟩
  · have hmem : p ∈ w.procs := List.mem_of_getElem? hp
    refine hI.step hp (fun u us reports hpc => ?_) hs
    -- the reporting stream holds the bucket it records for
    exact run_lookup_of_held hrun hmem ((run_wf hrun p hmem).tracked_held hpc)

/-- **No leaked bucket or reference.** In every run, for any messages and any
engine, once every handler has finished, the in-memory store holds no bucket
and `bucketRefs` is empty. -/
theorem no_leak (cfg : Limits)
    (h : (serverMachine MemoryStorage cfg).Run Machine.free
      (newServer MemoryStorage.newMemoryStorage) w)
    (hdone : ∀ p ∈ w.procs, p.pc.finished = true) :
    w.shared.store.len = 0 ∧ w.shared.store.buckets = ∅ ∧ w.shared.bucketRefs = ∅ := by
  have hnone : ∀ k, w.shared.bucketRefs.lookup k = none := by
    intro k
    have hheld : ∀ p ∈ w.procs, p.heldAt k = 0 := by
      intro p hp
      have hperm := (run_wf h p hp).held_perm
      unfold Handler.claimed at hperm
      rw [PC.eq_done (hdone p hp)] at hperm
      unfold Handler.heldAt
      rw [hperm.eq_nil]
      rfl
    have hcount := run_refCount h k
    rw [(tally_eq_zero_iff _ _).mpr hheld] at hcount
    unfold refCount at hcount
    cases hlook : w.shared.bucketRefs.lookup k with
    | none => rfl
    | some n =>
      have hpos := run_refs_pos h k n hlook
      rw [hlook] at hcount
      simp only [Option.getD_some] at hcount
      omega
  have hempty : w.shared.store.buckets = ∅ := by
    apply GoMap.eq_empty_of_lookup
    intro k
    by_contra hk
    rcases run_covered h k hk with href | ⟨q, hq, hrem⟩
    · exact href (hnone k)
    · rw [Handler.removes_false (by rw [PC.eq_done (hdone q hq)]; rfl)] at hrem
      simp at hrem
  refine ⟨?_, hempty, GoMap.eq_empty_of_lookup hnone⟩
  unfold MemoryStorage.len GoMap.len
  rw [hempty]
  rfl

end Leak

/-- A run with a late report, a removal in its window, and both streams ended. -/
theorem no_leak_late_report :
    ∃ w, (serverMachine MemoryStorage noLimits).Run Machine.free
        (newServer MemoryStorage.newMemoryStorage) w ∧
      w.procs.length = 2 ∧ (∀ p ∈ w.procs, p.pc.finished = true) ∧
      w.shared.store.buckets = ∅ := by
  have hrun := run_exec_free (serverMachine MemoryStorage noLimits).next
    (newServer MemoryStorage.newMemoryStorage)
    (lateReport ++ [.act 0 .tick, .act 0 .tick] ++ hangupMoves 1 ++ [.act 1 .tick, .act 1 .tick])
    (by decide)
  exact ⟨_, hrun, by decide, by decide, (no_leak _ hrun (by decide)).2.1⟩

end Rlqs
