import Rlqs.Server.Sections

/-!
# RLQS server — what `StreamStats` returns

`StreamStats` goes over `s.streams` under `s.mu` and reads each stream under its
`ss.mu`, while handlers and pushes go on. Its result is not one state of the
server, since streams bind and subscribe while it is at work; but the streams in it
are those registered at one moment during the call, each exactly once, and each
entry is what its stream was at one moment during the call at which its handler was
inside no section under `s.mu` or `ss.mu`, so never half of a section
(`streamStats_consistent`).
-/

namespace Rlqs

open Interleave Steps Mutex

variable {σ : Type} [BucketStore σ] {cfg : Limits} {w u u' : LockWorld σ} {store : σ}

-- ---------------------------------------------------------------------------
-- What stays during a call
-- ---------------------------------------------------------------------------

/-- While a call has `s.mu`, no stream comes or goes. -/
theorem LockTurn.streamsOf_eq {m : LockMove} (ht : LockTurn cfg u m u') (hu : u.Locked)
    {pc : StatsPC} (hpc : pc ∈ u.stats) (hmu : .mu ∈ pc.holds) :
    streamsOf u'.handlers = streamsOf u.handlers := by
  cases ht with
  | connect => exact streamsOf_connect _ _
  | swap | call | stats => rfl
  | handler hh hturn =>
    refine streamsOf_set hh (hturn.keeps_mu fun hmu' => ?_).2
    exact hu.not_held_by_stats (List.mem_of_getElem? hh) hpc hmu' hmu
  | push hq hturn =>
    rcases hturn.handlers with rfl | ⟨i, actions, todo, h, -, hh, -, rfl⟩
    · rfl
    · exact streamsOf_set hh rfl

/-- A move is a step of call `j`, or leaves it where it is. -/
theorem LockTurn.stats_at {m : LockMove} (ht : LockTurn cfg u m u') {j : ℕ} {pc : StatsPC}
    (hpc : u.stats[j]? = some pc) :
    u'.stats[j]? = some pc ∨ ∃ pc', StatsTurn u.handlers u.locks pc u'.locks pc' ∧
      u'.handlers = u.handlers ∧ u'.stats[j]? = some pc' := by
  cases ht with
  | connect | swap | handler | push => exact Or.inl hpc
  | call =>
    left
    rw [List.getElem?_append_left (List.getElem?_eq_some_iff.mp hpc).1]
    exact hpc
  | @stats k x pc₁ pc' locks' hpc₁ hturn =>
    by_cases hkj : k = j
    · subst hkj
      obtain rfl : pc = pc₁ := Option.some.inj (hpc.symm.trans hpc₁)
      exact Or.inr ⟨pc', hturn, rfl, List.getElem?_set_self (List.getElem?_eq_some_iff.mp hpc).1⟩
    · left
      rw [List.getElem?_set_ne hkj]
      exact hpc

-- ---------------------------------------------------------------------------
-- The entries so far
-- ---------------------------------------------------------------------------

/-- Among the states so far is one, with the streams of `u` registered, in which the entry
is what `StreamStats` reads off its stream and the handler of the stream is inside no
section under `s.mu` or `ss.mu`. -/
def Seen (past : List (LockWorld σ)) (u : LockWorld σ) (e : ℕ × StreamInfo) : Prop :=
  ∃ v ∈ past, streamsOf v.handlers = streamsOf u.handlers ∧ ∃ h, v.handlers[e.1]? = some h ∧
    e.2 = h.ss.info ∧ .ss e.1 ∉ h.pc.holds h.self ∧ .mu ∉ h.pc.holds h.self

/-- The entries of a call that has `s.mu`. -/
structure Entries (past : List (LockWorld σ)) (u : LockWorld σ) (stats : List (ℕ × StreamInfo)) :
    Prop where
  nodup : (stats.map Prod.fst).Nodup
  registered : ∀ i ∈ stats.map Prod.fst, i ∈ streamsOf u.handlers
  seen : ∀ e ∈ stats, Seen past u e

/-- The result of a call. -/
def Returned (past : List (LockWorld σ)) (stats : List (ℕ × StreamInfo)) : Prop :=
  ∃ v ∈ past, (stats.map Prod.fst).Perm (streamsOf v.handlers) ∧ ∀ e ∈ stats, Seen past v e

/-- How far a call has come in the state `u`, after the states `past`. -/
def StatsPC.Progress (past : List (LockWorld σ)) (u : LockWorld σ) : StatsPC → Prop
  | .call => True
  | .listing stats | .leaving _ stats => Entries past u stats
  | .visiting i stats | .reading i stats =>
    Entries past u stats ∧ i ∈ streamsOf u.handlers ∧ i ∉ stats.map Prod.fst
  | .unlocking stats =>
    Entries past u stats ∧ ∀ i ∈ streamsOf u.handlers, i ∈ stats.map Prod.fst
  | .returned stats => Returned past stats

section Steps

variable {past past' : List (LockWorld σ)}

omit [BucketStore σ]

theorem Seen.step {e : ℕ × StreamInfo} (h : Seen past u e) (hpast : past ⊆ past')
    (hstreams : streamsOf u'.handlers = streamsOf u.handlers) : Seen past' u' e := by
  obtain ⟨v, hv, heq, hrest⟩ := h
  exact ⟨v, hpast hv, heq.trans hstreams.symm, hrest⟩

theorem Entries.step {stats : List (ℕ × StreamInfo)} (h : Entries past u stats)
    (hpast : past ⊆ past') (hstreams : streamsOf u'.handlers = streamsOf u.handlers) :
    Entries past' u' stats where
  nodup := h.nodup
  registered := by
    rw [hstreams]
    exact h.registered
  seen e he := (h.seen e he).step hpast hstreams

/-- Moves of others. -/
theorem StatsPC.Progress.others {pc : StatsPC} (h : pc.Progress past u) (hpast : past ⊆ past')
    (hstreams : .mu ∈ pc.holds → streamsOf u'.handlers = streamsOf u.handlers) :
    pc.Progress past' u' := by
  cases pc with
  | call => trivial
  | listing stats => exact h.step hpast (hstreams (List.mem_singleton_self _))
  | leaving i stats => exact h.step hpast (hstreams (by simp [StatsPC.holds]))
  | visiting i stats =>
    have heq := hstreams (List.mem_singleton_self _)
    exact ⟨h.1.step hpast heq, by rw [heq]; exact h.2.1, h.2.2⟩
  | reading i stats =>
    have heq := hstreams (by simp [StatsPC.holds])
    exact ⟨h.1.step hpast heq, by rw [heq]; exact h.2.1, h.2.2⟩
  | unlocking stats =>
    have heq := hstreams (List.mem_singleton_self _)
    exact ⟨h.1.step hpast heq, by rw [heq]; exact h.2⟩
  | returned stats =>
    obtain ⟨v, hv, hperm, hseen⟩ := h
    exact ⟨v, hpast hv, hperm, fun e he => (hseen e he).step hpast rfl⟩

/-- A call that reads a stream has `s.mu` and the stream's `ss.mu`. -/
theorem seen_now (hu : u.Locked) (hmem : u ∈ past) {i : ℕ} {stats : List (ℕ × StreamInfo)}
    (hpc : .reading i stats ∈ u.stats) {g : FineHandler} (hg : u.handlers[i]? = some g) :
    Seen past u (i, g.ss.info) := by
  have hg' := List.mem_of_getElem? hg
  refine ⟨u, hmem, rfl, g, hg, rfl, fun hheld => ?_, fun hheld => ?_⟩
  · exact hu.not_held_by_stats hg' hpc hheld (by simp [StatsPC.holds])
  · exact hu.not_held_by_stats hg' hpc hheld (by simp [StatsPC.holds])

/-- A step of the call. -/
theorem StatsPC.Progress.own {pc pc' : StatsPC} (h : pc.Progress past u) (hu : u.Locked)
    (hmem : u ∈ past) (hpc : pc ∈ u.stats) {locks' : Lock → Bool}
    (ht : StatsTurn u.handlers u.locks pc locks' pc') (hpast : past ⊆ past') (hmem' : u' ∈ past')
    (hhandlers : u'.handlers = u.handlers) : pc'.Progress past' u' := by
  have hstreams : streamsOf u'.handlers = streamsOf u.handlers := by rw [hhandlers]
  have h' := h.others hpast fun _ => hstreams
  cases ht with
  | lock =>
    exact ⟨List.nodup_nil, fun _ hi => absurd hi List.not_mem_nil,
      fun _ he => absurd he List.not_mem_nil⟩
  | listed hreg hnew => exact ⟨h', by rw [hstreams]; exact hreg, hnew⟩
  | listedAll hall => exact ⟨h', by rw [hstreams]; exact hall⟩
  | lockStream => exact h'
  | @read i stats g hg =>
    obtain ⟨hentries, hreg, hnew⟩ := h'
    constructor
    case nodup =>
      rw [List.map_append]
      exact hentries.nodup.append (List.nodup_singleton _) (by simpa using hnew)
    case registered =>
      intro k hk
      rw [List.map_append, List.mem_append] at hk
      rcases hk with hk | hk
      · exact hentries.registered k hk
      · rw [List.mem_singleton.mp hk]
        exact hreg
    case seen =>
      intro e he
      rcases List.mem_append.mp he with he | he
      · exact hentries.seen e he
      · rw [List.mem_singleton.mp he]
        exact (seen_now hu hmem hpc hg).step hpast hstreams
  | unlockStream => exact h'
  | unlock =>
    obtain ⟨hentries, hall⟩ := h'
    refine ⟨u', hmem', ?_, hentries.seen⟩
    rw [List.perm_ext_iff_of_nodup hentries.nodup (streamsOf_nodup _)]
    exact fun i => ⟨hentries.registered i, hall i⟩

end Steps

-- ---------------------------------------------------------------------------
-- Whole calls
-- ---------------------------------------------------------------------------

/-- A call on its way, in the last of the states so far. -/
structure Calling (j : ℕ) (past : List (LockWorld σ)) (u : LockWorld σ) : Prop where
  locked : u.Locked
  last : u ∈ past
  progress : ∃ pc, u.stats[j]? = some pc ∧ pc.Progress past u

theorem Calling.step {j : ℕ} {past : List (LockWorld σ)} {m : LockMove} (h : Calling j past u)
    (hn : u.next cfg m = some u') : Calling j (past ++ [u']) u' := by
  obtain ⟨pc, hpc, hprogress⟩ := h.progress
  have ht := LockWorld.next_turn hn
  have hmem := List.mem_of_getElem? hpc
  have hpast : past ⊆ past ++ [u'] := List.subset_append_left past [u']
  have hlast : u' ∈ past ++ [u'] := List.mem_append_right past (List.mem_singleton_self u')
  refine ⟨h.locked.turn ht, hlast, ?_⟩
  rcases ht.stats_at hpc with hpc' | ⟨pc', hturn, hhandlers, hpc'⟩
  · exact ⟨pc, hpc', hprogress.others hpast fun hmu => ht.streamsOf_eq h.locked hmem hmu⟩
  · exact ⟨pc', hpc', hprogress.own h.locked h.last hmem hturn hpast hlast hhandlers⟩

/-- **`StreamStats` is consistent.** Take a run and a call in it: `w` is the state in which
the call is made, and `us` are the states after it up to the return. What the call
returns has the streams registered in one of these states, each exactly once; and each
entry is the domain and the number of subscriptions that its stream has in one of these
states, with the same streams registered, and with the stream's handler inside no section
under `s.mu` or `ss.mu`, so never in the middle of a change. -/
theorem streamStats_consistent (cfg : Limits) (store : σ)
    (h : Run (LockWorld.next cfg) free (newLockWorld store) w) {j : ℕ}
    (hcall : w.stats[j]? = some .call) {us : List (LockWorld σ)}
    (hrun : List.IsChain (Step (LockWorld.next cfg) free) (w :: us))
    {stats : List (ℕ × StreamInfo)}
    (hret : ((w :: us).getLast (List.cons_ne_nil w us)).stats[j]? = some (.returned stats)) :
    ∃ v ∈ w :: us, (stats.map Prod.fst).Perm (streamsOf v.handlers) ∧
      ∀ e ∈ stats, Seen (w :: us) v e := by
  have hcalling : Calling j (w :: us) _ := chain_invariant (I := Calling j) hrun
    ⟨run_locked h, List.mem_singleton_self w, .call, hcall, trivial⟩
    fun _ _ _ _ hI _ hn => hI.step hn
  obtain ⟨pc, hpc, hprogress⟩ := hcalling.progress
  obtain rfl : pc = .returned stats := Option.some.inj (hpc.symm.trans hret)
  exact hprogress

/-- Stream 0 is in its domain section when `StreamStats` is called. -/
def calledInBind : List LockMove :=
  [.connect, .handler 0 .tick, .handler 0 .tick, .handler 0 .tick, .handler 0 .tick,
   .handler 0 (.recv sampleReq), .handler 0 .tick, .handler 0 .tick, .handler 0 .tick, .call]

/-- The call has to wait for the section to end. -/
def returnedAfterBind : List LockMove :=
  [.stats 0 .tick, .stats 0 (.stream 0), .handler 0 (.label []), .handler 0 .tick,
   .handler 0 .tick, .handler 0 .tick, .handler 0 .tick, .stats 0 .tick, .stats 0 .tick,
   .stats 0 .tick, .stats 0 .tick, .stats 0 .tick]

theorem streamStats_consistent_bind :
    ∃ w us, Run (LockWorld.next noLimits) free (newLockWorld MemoryStorage.newMemoryStorage) w ∧
      w.stats = [.call] ∧ List.IsChain (Step (LockWorld.next noLimits) free) (w :: us) ∧
      us.length = 12 ∧
      ((w :: us).getLast (List.cons_ne_nil w us)).stats = [.returned [(0, ⟨[100], 0⟩)]] ∧
      ∃ v ∈ w :: us, [0].Perm (streamsOf v.handlers) ∧
        ∀ e ∈ [(0, StreamInfo.mk [100] 0)], Seen (w :: us) v e := by
  have hcall := run_exec_free (LockWorld.next noLimits)
    (newLockWorld MemoryStorage.newMemoryStorage) calledInBind (by decide)
  have hchain := chain_states_free (LockWorld.next noLimits)
    ((exec (LockWorld.next noLimits) (fun _ _ => true)
      (newLockWorld MemoryStorage.newMemoryStorage) calledInBind).get (by decide))
    returnedAfterBind (by decide)
  exact ⟨_, _, hcall, rfl, hchain, rfl, rfl,
    streamStats_consistent (j := 0) _ _ hcall rfl hchain rfl⟩

end Rlqs
