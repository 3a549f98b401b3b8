import Mathlib
import Rlqs.Lib.Steps

/-!
# Interleaved processes over a shared state

A small library for programs in which any number of processes take atomic
steps on one shared state, in any order. A `Machine` gives the atomic step of
one process (its control point is part of its local state, the choices of its
environment are an input of the step); a `Pool` is the shared state with
every process started so far; a `Move` starts a process or lets one of them
take a step.

* `Machine.Run` — the pools reachable by moves that all meet a guard; the
  guard `Machine.free` allows every interleaving.
* `Machine.Leads` — what a process that runs alone for a while can get to, with
  the rules to compose it, and `run_of_alone`: the same inside a pool.
* `Run.forall_procs` — a local invariant of every process.
* `Run.balance` — the counting rule: a shared counter that every step
  changes exactly as much as it changes the stepping process's own account
  equals the sum of the accounts in every reachable pool.
-/

namespace Interleave

open Steps

/-- The shared state and every process started so far. A process is named by
its position. -/
structure Pool (σ π : Type*) where
  shared : σ
  procs : List π

/-- What the scheduler can do: start a process, or let process `i` take one
atomic step in which the environment supplies `x`. -/
inductive Move (α ι : Type*) where
  | spawn (a : α)
  | act (i : ℕ) (x : ι)

/-- The program of the processes: the local state a process started with
argument `a` begins in, and the atomic step (`none` when it is not enabled). -/
structure Machine (σ π α ι : Type*) where
  init : α → π
  step : σ → π → ι → Option (σ × π)

variable {σ π α ι : Type*}

namespace Machine

/-- One move of the scheduler. -/
def next (M : Machine σ π α ι) (w : Pool σ π) : Move α ι → Option (Pool σ π)
  | .spawn a => some ⟨w.shared, w.procs ++ [M.init a]⟩
  | .act i x =>
    match w.procs[i]? with
    | none => none
    | some p =>
      match M.step w.shared p x with
      | none => none
      | some (s', p') => some ⟨s', w.procs.set i p'⟩

/-- The guard that allows every move. -/
abbrev free : Pool σ π → Move α ι → Prop := Steps.free

/-- Runs whose moves all meet the guard `ok`. -/
abbrev Run (M : Machine σ π α ι) (ok : Pool σ π → Move α ι → Prop) : Pool σ π → Pool σ π → Prop :=
  Steps.Run M.next ok

/-- A process and the shared state it runs on, without the other processes. -/
def Alone (M : Machine σ π α ι) : σ × π → σ × π → Prop :=
  Relation.ReflTransGen fun c c' => ∃ x, M.step c.1 c.2 x = some c'

/-- Alone, a process gets from every state with `A` to a state with `B`. -/
def Leads (M : Machine σ π α ι) (A B : σ × π → Prop) : Prop :=
  ∀ c, A c → ∃ c', M.Alone c c' ∧ B c'

end Machine

-- ---------------------------------------------------------------------------
-- One move
-- ---------------------------------------------------------------------------

section Moves

variable {M : Machine σ π α ι} {ok : Pool σ π → Move α ι → Prop} {w w' : Pool σ π} {m : Move α ι}

/-- Everything a move can do. -/
theorem next_cases (h : M.next w m = some w') :
    (∃ a, m = .spawn a ∧ w' = ⟨w.shared, w.procs ++ [M.init a]⟩) ∨
    (∃ i x p s' p', m = .act i x ∧ w.procs[i]? = some p ∧
      M.step w.shared p x = some (s', p') ∧ w' = ⟨s', w.procs.set i p'⟩) := by
  cases m with
  | spawn a => exact Or.inl ⟨a, rfl, (Option.some.inj h).symm⟩
  | act i x =>
    simp only [Machine.next] at h
    split at h
    · simp at h
    · rename_i p hp
      split at h
      · simp at h
      · rename_i s' p' hs
        exact Or.inr ⟨i, x, p, s', p', rfl, hp, hs, (Option.some.inj h).symm⟩

/-- A move of process `i`, as a step of the pool. -/
theorem next_act {i : ℕ} {x : ι} {p p' : π} {s' : σ} (hp : w.procs[i]? = some p)
    (hs : M.step w.shared p x = some (s', p')) :
    M.next w (.act i x) = some ⟨s', w.procs.set i p'⟩ := by
  simp [Machine.next, hp, hs]

/-- After a step of process `i`, a process is the stepped one or an old one. -/
theorem mem_set_cases {l : List π} {i : ℕ} {p' q : π} (h : q ∈ l.set i p') :
    q = p' ∨ q ∈ l := by
  rcases List.mem_or_eq_of_mem_set h with hq | hq
  · exact Or.inr hq
  · exact Or.inl hq

/-- Replacing one entry that has a property or not by one that has it or not
leaves the rest as it was. -/
theorem exists_mem_set {l : List π} {i : ℕ} {p : π} (p' : π) (P : π → Prop)
    (hp : l[i]? = some p) : (P p ∨ ∃ q ∈ l.set i p', P q) ↔ (P p' ∨ ∃ q ∈ l, P q) := by
  have hlt := (List.getElem?_eq_some_iff.mp hp).1
  constructor
  · rintro (hP | ⟨q, hq, hP⟩)
    · exact Or.inr ⟨p, List.mem_of_getElem? hp, hP⟩
    · rcases mem_set_cases hq with rfl | hq
      · exact Or.inl hP
      · exact Or.inr ⟨q, hq, hP⟩
  · rintro (hP | ⟨q, hq, hP⟩)
    · exact Or.inr ⟨p', List.mem_set hlt p', hP⟩
    · obtain ⟨j, hj⟩ := List.getElem?_of_mem hq
      by_cases hij : i = j
      · -- the entry that was replaced
        subst hij
        rw [hp] at hj
        exact Or.inl (Option.some.inj hj ▸ hP)
      · refine Or.inr ⟨q, List.mem_of_getElem? (i := j) ?_, hP⟩
        rw [List.getElem?_set_ne hij]
        exact hj

/-- Replacing one entry by one with the same image changes no image. -/
theorem map_set_same {β : Type*} {l : List π} {i : ℕ} {p p' : π} {f : π → β}
    (hp : l[i]? = some p) (hf : f p' = f p) : (l.set i p').map f = l.map f := by
  have hget : (l.map f)[i]? = some (f p) := by rw [List.getElem?_map, hp, Option.map_some]
  obtain ⟨hi, hfp⟩ := List.getElem?_eq_some_iff.mp hget
  rw [List.map_set, hf, ← hfp, List.set_getElem_self]

/-- The process at `j` after process `i` has moved. -/
theorem getElem_set_cases {l : List π} {i j : ℕ} {p' q : π} (h : (l.set i p')[j]? = some q) :
    (j = i ∧ q = p') ∨ (j ≠ i ∧ l[j]? = some q) := by
  rw [List.getElem?_set] at h
  split at h
  · rename_i hij
    split at h
    · exact Or.inl ⟨hij.symm, (Option.some.inj h).symm⟩
    · simp at h
  · rename_i hij
    exact Or.inr ⟨Ne.symm hij, h⟩

/-- Two lists of processes, related one by one: the partner of a process. -/
theorem forall₂_getElem? {β : Type*} {R : π → β → Prop} {l : List π} {l' : List β}
    (h : List.Forall₂ R l l') {i : ℕ} {p : π} (hp : l[i]? = some p) :
    ∃ q, l'[i]? = some q ∧ R p q := by
  induction h generalizing i with
  | nil => simp at hp
  | cons hr _ ih =>
    cases i with
    | zero => exact ⟨_, rfl, Option.some.inj hp ▸ hr⟩
    | succ i => exact ih hp

theorem forall₂_imp_mem {β : Type*} {R S : π → β → Prop} {l : List π} {l' : List β}
    (h : List.Forall₂ R l l') (himp : ∀ p ∈ l, ∀ q, R p q → S p q) : List.Forall₂ S l l' := by
  induction h with
  | nil => exact List.Forall₂.nil
  | cons hr _ ih =>
    exact List.Forall₂.cons (himp _ List.mem_cons_self _ hr)
      (ih fun p hp q => himp p (List.mem_cons_of_mem _ hp) q)

/-- Partners of partners. -/
theorem forall₂_trans {β γ : Type*} {R : π → β → Prop} {S : β → γ → Prop} {T : π → γ → Prop}
    {l : List π} {l' : List β} {l'' : List γ} (h : List.Forall₂ R l l')
    (h' : List.Forall₂ S l' l'') (himp : ∀ p q r, R p q → S q r → T p r) :
    List.Forall₂ T l l'' := by
  induction h generalizing l'' with
  | nil =>
    cases h'
    exact List.Forall₂.nil
  | cons hr _ ih =>
    cases h' with
    | cons hs hrest => exact List.Forall₂.cons (himp _ _ _ hr hs) (ih hrest)

/-- One process and its partner take a step. -/
theorem forall₂_set {β : Type*} {R : π → β → Prop} {l : List π} {l' : List β}
    (h : List.Forall₂ R l l') (i : ℕ) {p' : π} {q' : β} (hr : R p' q') :
    List.Forall₂ R (l.set i p') (l'.set i q') := by
  induction h generalizing i with
  | nil => exact List.Forall₂.nil
  | cons hab hrest ih =>
    cases i with
    | zero => exact List.Forall₂.cons hr hrest
    | succ i => exact List.Forall₂.cons hab (ih i)

end Moves

-- ---------------------------------------------------------------------------
-- Whole runs
-- ---------------------------------------------------------------------------

section Runs

variable {M : Machine σ π α ι} {ok : Pool σ π → Move α ι → Prop} {w₀ w : Pool σ π}

/-- What a process does when it runs alone, process `i` of any pool can do. -/
theorem run_of_alone {s' : σ} {p p' : π} {i : ℕ} (hp : w.procs[i]? = some p)
    (h : M.Alone (w.shared, p) (s', p')) : M.Run Machine.free w ⟨s', w.procs.set i p'⟩ := by
  -- the pool after each step of process `i`
  have key : ∀ c, M.Alone (w.shared, p) c → M.Run Machine.free w ⟨c.1, w.procs.set i c.2⟩ := by
    intro c hc
    induction hc with
    | refl =>
      have hset : w.procs.set i p = w.procs := by
        obtain ⟨hi, rfl⟩ := List.getElem?_eq_some_iff.mp hp
        exact List.set_getElem_self hi
      rw [hset]
      exact Relation.ReflTransGen.refl
    | @tail c c' _ hstep ih =>
      obtain ⟨x, hx⟩ := hstep
      have hlt := (List.getElem?_eq_some_iff.mp hp).1
      have hget : (w.procs.set i c.2)[i]? = some c.2 := List.getElem?_set_self hlt
      have hnext := next_act (M := M) (w := ⟨c.1, w.procs.set i c.2⟩) hget hx
      rw [List.set_set] at hnext
      exact ih.tail ⟨_, trivial, hnext⟩
  exact key (s', p') h

theorem Machine.Leads.refl (M : Machine σ π α ι) (A : σ × π → Prop) : M.Leads A A :=
  fun c hc => ⟨c, Relation.ReflTransGen.refl, hc⟩

theorem Machine.Leads.trans {A B C : σ × π → Prop} (hab : M.Leads A B) (hbc : M.Leads B C) :
    M.Leads A C := by
  intro c hc
  obtain ⟨c₁, hrun, hc₁⟩ := hab c hc
  obtain ⟨c₂, hrun', hc₂⟩ := hbc c₁ hc₁
  exact ⟨c₂, hrun.trans hrun', hc₂⟩

theorem Machine.Leads.of_step {A B : σ × π → Prop}
    (h : ∀ c, A c → ∃ x c', M.step c.1 c.2 x = some c' ∧ B c') : M.Leads A B := by
  intro c hc
  obtain ⟨x, c', hstep, hB⟩ := h c hc
  exact ⟨c', Relation.ReflTransGen.single ⟨x, hstep⟩, hB⟩

/-- A local invariant: it holds of the processes the run starts with, of every
new process, and every step keeps it for the process that takes it. -/
theorem Run.forall_procs {I : π → Prop} (h : M.Run ok w₀ w) (h₀ : ∀ p ∈ w₀.procs, I p)
    (hinit : ∀ a, I (M.init a))
    (hstep : ∀ s p x s' p', I p → M.step s p x = some (s', p') → I p') :
    ∀ p ∈ w.procs, I p := by
  refine Run.invariant (I := fun w => ∀ p ∈ w.procs, I p) h h₀ ?_
  intro w m w' _ hI _ hn
  rcases next_cases hn with ⟨a, -, rfl⟩ | ⟨i, x, p, s', p', -, hp, hs, rfl⟩
  · intro q hq
    rcases List.mem_append.mp hq with hq | hq
    · exact hI q hq
    · rw [List.mem_singleton.mp hq]
      exact hinit a
  · intro q hq
    rcases mem_set_cases hq with rfl | hq
    · exact hstep _ p x _ _ (hI p (List.mem_of_getElem? hp)) hs
    · exact hI q hq

/-- A property of the shared state that every step keeps. -/
theorem Run.shared_invariant {J : σ → Prop} (h : M.Run ok w₀ w) (h₀ : J w₀.shared)
    (hstep : ∀ s p x s' p', J s → M.step s p x = some (s', p') → J s') : J w.shared := by
  refine Run.invariant (I := fun w => J w.shared) h h₀ ?_
  intro w m w' _ hJ _ hn
  rcases next_cases hn with ⟨a, -, rfl⟩ | ⟨i, x, p, s', p', -, -, hs, rfl⟩
  · exact hJ
  · exact hstep _ p x _ p' hJ hs

end Runs

-- ---------------------------------------------------------------------------
-- Counting: shared counters against the accounts of the processes
-- ---------------------------------------------------------------------------

/-- The sum of an account over a list of processes. -/
def tally (acct : π → ℕ) (ps : List π) : ℕ := (ps.map acct).sum

@[simp] theorem tally_nil (acct : π → ℕ) : tally acct [] = 0 := rfl

@[simp] theorem tally_cons (acct : π → ℕ) (p : π) (ps : List π) :
    tally acct (p :: ps) = acct p + tally acct ps := by
  simp [tally]

@[simp] theorem tally_append (acct : π → ℕ) (ps qs : List π) :
    tally acct (ps ++ qs) = tally acct ps + tally acct qs := by
  simp [tally]

/-- Replacing process `i` moves the tally by the change of its own account. -/
theorem tally_set (acct : π → ℕ) {ps : List π} {i : ℕ} {p : π} (p' : π)
    (hp : ps[i]? = some p) :
    tally acct (ps.set i p') + acct p = tally acct ps + acct p' := by
  induction ps generalizing i with
  | nil => simp at hp
  | cons q ps ih =>
    cases i with
    | zero =>
      simp only [List.getElem?_cons_zero, Option.some.injEq] at hp
      subst hp
      simp only [List.set_cons_zero, tally_cons]
      omega
    | succ i =>
      rw [List.getElem?_cons_succ] at hp
      have := ih hp
      simp only [List.set_cons_succ, tally_cons]
      omega

theorem le_tally (acct : π → ℕ) {ps : List π} {p : π} (hp : p ∈ ps) :
    acct p ≤ tally acct ps :=
  List.single_le_sum (fun _ _ => Nat.zero_le _) _ (List.mem_map_of_mem hp)

theorem tally_eq_zero_iff (acct : π → ℕ) (ps : List π) :
    tally acct ps = 0 ↔ ∀ p ∈ ps, acct p = 0 := by
  induction ps with
  | nil => simp
  | cons q ps ih =>
    rw [tally_cons, List.forall_mem_cons, ← ih]
    omega

theorem tally_congr {acct acct' : π → ℕ} {ps : List π} (h : ∀ p ∈ ps, acct p = acct' p) :
    tally acct ps = tally acct' ps := by
  rw [tally, tally, List.map_congr_left h]

theorem tally_forall₂ {β : Type*} {R : π → β → Prop} {acct : π → ℕ} {acct' : β → ℕ} {ps : List π}
    {qs : List β} (h : List.Forall₂ R ps qs) (heq : ∀ p q, R p q → acct' q = acct p) :
    tally acct' qs = tally acct ps := by
  induction h with
  | nil => rfl
  | cons hr _ ih => rw [tally_cons, tally_cons, heq _ _ hr, ih]

/-- The counting rule. `count` reads a counter off the shared state and `acct`
says how much of it a process accounts for. If new processes account for
nothing and every step of a process with `I p` changes the counter by the
change of its own account — given that the counter covers the account before
the step — then the counter is the sum of the accounts in every reachable pool. -/
theorem Run.balance {M : Machine σ π α ι} {ok : Pool σ π → Move α ι → Prop} {w₀ w : Pool σ π}
    {I : π → Prop} (count : σ → ℤ) (acct : π → ℕ) (h : M.Run ok w₀ w)
    (h₀ : count w₀.shared = tally acct w₀.procs) (hI₀ : ∀ p ∈ w₀.procs, I p)
    (hinit : ∀ a, I (M.init a) ∧ acct (M.init a) = 0)
    (hI : ∀ s p x s' p', I p → M.step s p x = some (s', p') → I p')
    (hstep : ∀ s p x s' p', I p → (acct p : ℤ) ≤ count s → M.step s p x = some (s', p') →
      count s' + acct p = count s + acct p') :
    count w.shared = tally acct w.procs := by
  -- the local invariant travels along, so that the step rule applies at each move
  suffices hJ : count w.shared = tally acct w.procs ∧ ∀ p ∈ w.procs, I p from hJ.1
  refine Run.invariant (I := fun w => count w.shared = tally acct w.procs ∧ ∀ p ∈ w.procs, I p)
    h ⟨h₀, hI₀⟩ ?_
  rintro w m w' _ ⟨hbal, hall⟩ _ hn
  rcases next_cases hn with ⟨a, -, rfl⟩ | ⟨i, x, p, s', p', -, hp, hs, rfl⟩
  · refine ⟨?_, ?_⟩
    · simp [hbal, (hinit a).2]
    · intro q hq
      rcases List.mem_append.mp hq with hq | hq
      · exact hall q hq
      · rw [List.mem_singleton.mp hq]
        exact (hinit a).1
  · have hmem : p ∈ w.procs := List.mem_of_getElem? hp
    refine ⟨?_, ?_⟩
    · have hle : (acct p : ℤ) ≤ count w.shared := by
        rw [hbal]
        exact_mod_cast le_tally acct hmem
      have hmove := hstep _ p x _ p' (hall p hmem) hle hs
      have hset := tally_set acct p' hp
      show count s' = tally acct (w.procs.set i p')
      omega
    · intro q hq
      rcases mem_set_cases hq with rfl | hq
      · exact hI _ p x _ _ (hall p hmem) hs
      · exact hall q hq

end Interleave
