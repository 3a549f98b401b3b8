import Mathlib

/-!
# Guarded runs of a step function

A system is a step function `next`: in state `w`, the move `m` leads to a state
or is not enabled. Runs are the states reachable by moves that all meet a
guard; the guard `free` allows every move.

* `Run.invariant` — the induction rule of whole runs;
* `chain_invariant` — the same for a run given by its states, where the invariant may
  speak about the states so far;
* `Run.simulation` — the rule for two systems side by side;
* `chain_simulation` — the same along a whole run, with a state of the second system for
  each state of the first;
* `star_keeps` — the same for any relation;
* `exec` and `run_exec_of` — running a list of moves, for concrete runs.
-/

namespace Steps

variable {ω μ : Type*}

/-- The guard that allows every move. -/
def free (_ : ω) (_ : μ) : Prop := True

/-- One move that meets the guard `ok` in the state it is made in. -/
def Step (next : ω → μ → Option ω) (ok : ω → μ → Prop) (w w' : ω) : Prop :=
  ∃ m, ok w m ∧ next w m = some w'

/-- Runs whose moves all meet the guard `ok`. -/
def Run (next : ω → μ → Option ω) (ok : ω → μ → Prop) : ω → ω → Prop :=
  Relation.ReflTransGen (Step next ok)

/-- Runs a list of moves, checking the guard before each. -/
def exec (next : ω → μ → Option ω) (ok : ω → μ → Bool) : ω → List μ → Option ω
  | w, [] => some w
  | w, m :: ms => if ok w m then (next w m).bind (exec next ok · ms) else none

/-- The states after each of a list of moves, as far as they are enabled. -/
def states (next : ω → μ → Option ω) : ω → List μ → List ω
  | _, [] => []
  | w, m :: ms => match next w m with
    | none => []
    | some w' => w' :: states next w' ms

/-- What every step of a relation keeps, a series of steps keeps. -/
theorem star_keeps {r : ω → ω → Prop} {I : ω → Prop} {a b : ω} (ha : I a)
    (h : Relation.ReflTransGen r a b) (hstep : ∀ x y, I x → r x y → I y) : I b := by
  induction h with
  | refl => exact ha
  | tail _ hr ih => exact hstep _ _ ih hr

section Runs

variable {next : ω → μ → Option ω} {ok : ω → μ → Prop} {w₀ w : ω}

/-- The induction rule of runs. The step may use that it starts in a state the
run has reached, and so every invariant proved before. -/
theorem Run.invariant {I : ω → Prop} (h : Run next ok w₀ w) (h₀ : I w₀)
    (hstep : ∀ w m w', Run next ok w₀ w → I w → ok w m → next w m = some w' → I w') : I w := by
  induction h with
  | refl => exact h₀
  | tail hrun hs ih =>
    obtain ⟨m, hok, hn⟩ := hs
    exact hstep _ m _ hrun ih hok hn

/-- The induction rule of runs given by their states. The invariant is about the states
so far and the last of them. -/
theorem chain_invariant {I : List ω → ω → Prop} {ws : List ω}
    (h : List.IsChain (Step next ok) (w₀ :: ws)) (h₀ : I [w₀] w₀)
    (hstep : ∀ past w m w', I past w → ok w m → next w m = some w' → I (past ++ [w']) w') :
    I (w₀ :: ws) ((w₀ :: ws).getLast (List.cons_ne_nil w₀ ws)) := by
  -- the states so far grow at the end, the run is taken apart at the front
  have hrest : ∀ ws w past, List.IsChain (Step next ok) (w :: ws) → I past w →
      I (past ++ ws) ((w :: ws).getLast (List.cons_ne_nil w ws)) := by
    intro ws
    induction ws with
    | nil =>
      intro w past _ hI
      rw [List.append_nil]
      exact hI
    | cons w' ws ih =>
      intro w past hchain hI
      obtain ⟨⟨m, hok, hn⟩, hchain'⟩ := List.isChain_cons_cons.mp hchain
      have hnext := ih w' (past ++ [w']) hchain' (hstep past w m w' hI hok hn)
      rw [List.append_assoc] at hnext
      exact hnext
  exact hrest ws w₀ [w₀] h h₀

/-- The rule of simulations: if related states stay related, the second system taking
any number of steps for one of the first, then every run of the first has a run of
the second beside it. -/
theorem Run.simulation {ω' μ' : Type*} {next' : ω' → μ' → Option ω'} {ok' : ω' → μ' → Prop}
    {R : ω → ω' → Prop} {a₀ : ω'} (h : Run next ok w₀ w) (h₀ : R w₀ a₀)
    (hstep : ∀ w m w' a, Run next ok w₀ w → R w a → ok w m → next w m = some w' →
      ∃ a', Run next' ok' a a' ∧ R w' a') :
    ∃ a, Run next' ok' a₀ a ∧ R w a := by
  induction h with
  | refl => exact ⟨a₀, Relation.ReflTransGen.refl, h₀⟩
  | tail hrun hs ih =>
    obtain ⟨m, hok, hn⟩ := hs
    obtain ⟨a, ha, hrel⟩ := ih
    obtain ⟨a', ha', hrel'⟩ := hstep _ m _ a hrun hrel hok hn
    exact ⟨a', ha.trans ha', hrel'⟩

/-- The rule of simulations along a run given by its states: if related states stay
related, the second system moving by `S` for each step of the first, then beside the
states of the first stand states of the second, each reached from the one before by `S`. -/
theorem chain_simulation {ω' : Type*} {S : ω' → ω' → Prop} {R : ω → ω' → Prop} {ws : List ω}
    {a₀ : ω'} (h : List.IsChain (Step next ok) (w₀ :: ws)) (h₀ : R w₀ a₀)
    (hstep : ∀ w m w' a, R w a → ok w m → next w m = some w' → ∃ a', S a a' ∧ R w' a') :
    ∃ as, List.IsChain S (a₀ :: as) ∧ List.Forall₂ R (w₀ :: ws) (a₀ :: as) := by
  induction ws generalizing w₀ a₀ with
  | nil => exact ⟨[], List.isChain_singleton a₀, .cons h₀ .nil⟩
  | cons w ws ih =>
    rw [List.isChain_cons_cons] at h
    obtain ⟨⟨m, hok, hn⟩, hrest⟩ := h
    obtain ⟨a, hS, hrel⟩ := hstep w₀ m w a₀ h₀ hok hn
    obtain ⟨as, hchain, hall⟩ := ih hrest hrel
    exact ⟨a :: as, List.isChain_cons_cons.mpr ⟨hS, hchain⟩, .cons h₀ hall⟩

/-- Running a list of moves that pass a check implying the guard is a guarded run. -/
theorem run_of_exec {okb : ω → μ → Bool} {ms : List μ} {w' : ω}
    (hok : ∀ w m, okb w m = true → ok w m) (h : exec next okb w ms = some w') :
    Run next ok w w' := by
  induction ms generalizing w with
  | nil =>
    cases h
    exact Relation.ReflTransGen.refl
  | cons m ms ih =>
    simp only [exec] at h
    split at h
    · rename_i hm
      obtain ⟨v, hv, hrest⟩ := Option.bind_eq_some_iff.mp h
      exact Relation.ReflTransGen.head ⟨m, hok w m hm, hv⟩ (ih hrest)
    · simp at h

/-- The states a list of moves goes through are a run under a guard that the check
implies. -/
theorem chain_states_of (next : ω → μ → Option ω) {okb : ω → μ → Bool}
    (hok : ∀ w m, okb w m = true → ok w m) (w : ω) (ms : List μ)
    (h : (exec next okb w ms).isSome = true) :
    List.IsChain (Step next ok) (w :: states next w ms) := by
  induction ms generalizing w with
  | nil => exact List.isChain_singleton w
  | cons m ms ih =>
    unfold exec at h
    split at h
    · rename_i hm
      unfold states
      cases hn : next w m with
      | none => exact List.isChain_singleton w
      | some w' =>
        rw [hn] at h
        exact List.isChain_cons_cons.mpr ⟨⟨m, hok w m hm, hn⟩, ih w' h⟩
    · cases h

theorem chain_states_free (next : ω → μ → Option ω) (w : ω) (ms : List μ)
    (h : (exec next (fun _ _ => true) w ms).isSome = true) :
    List.IsChain (Step next free) (w :: states next w ms) :=
  chain_states_of next (fun _ _ _ => trivial) w ms h

/-- The state a list of moves leads to is reachable under a guard that the check
implies. -/
theorem run_exec_of (next : ω → μ → Option ω) {okb : ω → μ → Bool}
    (hok : ∀ w m, okb w m = true → ok w m) (w : ω) (ms : List μ)
    (h : (exec next okb w ms).isSome = true) : Run next ok w ((exec next okb w ms).get h) :=
  run_of_exec hok (Option.some_get h).symm

theorem run_exec (next : ω → μ → Option ω) (okb : ω → μ → Bool) (w : ω) (ms : List μ)
    (h : (exec next okb w ms).isSome = true) :
    Run next (fun w m => okb w m = true) w ((exec next okb w ms).get h) :=
  run_exec_of next (fun _ _ hm => hm) w ms h

theorem run_exec_free (next : ω → μ → Option ω) (w : ω) (ms : List μ)
    (h : (exec next (fun _ _ => true) w ms).isSome = true) :
    Run next free w ((exec next (fun _ _ => true) w ms).get h) :=
  run_exec_of next (fun _ _ _ => trivial) w ms h

/-- The state after a list of moves and one more, for a step theorem at a
concrete state. -/
theorem next_exec (next : ω → μ → Option ω) (okb : ω → μ → Bool) (w : ω) (ms : List μ) (m : μ)
    (h : (exec next okb w ms).isSome = true)
    (hm : (next ((exec next okb w ms).get h) m).isSome = true) :
    next ((exec next okb w ms).get h) m =
      some ((next ((exec next okb w ms).get h) m).get hm) :=
  (Option.some_get hm).symm

end Runs

end Steps
