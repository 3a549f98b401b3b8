import Mathlib
import Rlqs.Lib.Interleave
import Rlqs.Lib.Trace

/-!
# Linearizability of interleaved calls

A call is a process of a `Machine`: it is invoked when the process starts and has
responded when the process holds a result. The history of a run is the list of
these events (`history`). It is linearizable if the calls can be put in one
sequential order in which a specification gives the same results, and in which a
call that responded before another was invoked comes first (`Linearizes`).

* `before_append_one` — the order of two entries of a growing list;
* `Spec.legal_append_one` — sequential histories, one call at a time;
* `LinearPoints` — what a machine must show: every step leaves the abstract state
  and the step's own call undecided, or is the one step in which the call takes
  effect and its result is decided;
* `LinearPoints.linearizes` — then every run has a linearization.
-/

namespace Interleave

open Steps

-- ---------------------------------------------------------------------------
-- Order in a list
-- ---------------------------------------------------------------------------

/-- An occurrence of `x` comes before an occurrence of `y`. -/
def Before {ε : Type*} (x y : ε) (l : List ε) : Prop := ∃ l₁ l₂, l = l₁ ++ l₂ ∧ x ∈ l₁ ∧ y ∈ l₂

theorem before_append_one {ε : Type*} {x y z : ε} {l : List ε} :
    Before x y (l ++ [z]) ↔ Before x y l ∨ (x ∈ l ∧ y = z) := by
  constructor
  · rintro ⟨l₁, l₂, heq, hx, hy⟩
    rcases List.eq_nil_or_concat l₂ with rfl | ⟨l₂, z', rfl⟩
    · simp at hy
    · rw [List.concat_eq_append, ← List.append_assoc] at heq
      obtain ⟨rfl, hz⟩ := List.append_inj' heq rfl
      obtain rfl : z = z' := List.singleton_inj.mp hz
      rw [List.concat_eq_append] at hy
      rcases List.mem_append.mp hy with hy | hy
      · exact Or.inl ⟨l₁, l₂, rfl, hx, hy⟩
      · exact Or.inr ⟨List.mem_append_left l₂ hx, List.mem_singleton.mp hy⟩
  · rintro (⟨l₁, l₂, rfl, hx, hy⟩ | ⟨hx, rfl⟩)
    · exact ⟨l₁, l₂ ++ [z], by simp, hx, List.mem_append_left [z] hy⟩
    · exact ⟨l, [y], rfl, hx, List.mem_singleton_self y⟩

theorem Before.mem_left {ε : Type*} {x y : ε} {l : List ε} (h : Before x y l) : x ∈ l := by
  obtain ⟨l₁, l₂, rfl, hx, -⟩ := h
  exact List.mem_append_left l₂ hx

-- ---------------------------------------------------------------------------
-- Sequential histories
-- ---------------------------------------------------------------------------

variable {σ π α ι κ ρ : Type*}

/-- A sequential object: its first state, and what one call does and answers. -/
structure Spec (κ α ρ : Type*) where
  init : κ
  apply : κ → α → κ × ρ

/-- A call with its argument and its result. -/
structure Call (α ρ : Type*) where
  id : ℕ
  arg : α
  res : ρ

/-- The calls, one after another, give these results and lead from `k` to `k'`. -/
def Spec.Legal (S : Spec κ α ρ) : κ → List (Call α ρ) → κ → Prop
  | k, [], k' => k = k'
  | k, c :: cs, k' => ∃ k₁, S.apply k c.arg = (k₁, c.res) ∧ S.Legal k₁ cs k'

theorem Spec.legal_append_one {S : Spec κ α ρ} {cs : List (Call α ρ)} {c : Call α ρ} {k' k'' : κ}
    (hc : S.apply k' c.arg = (k'', c.res)) :
    ∀ {k : κ}, S.Legal k cs k' → S.Legal k (cs ++ [c]) k'' := by
  induction cs with
  | nil =>
    rintro k rfl
    exact ⟨k'', hc, rfl⟩
  | cons d cs ih =>
    rintro k ⟨k₁, hd, hrest⟩
    exact ⟨k₁, hd, ih hrest⟩

-- ---------------------------------------------------------------------------
-- Histories of runs
-- ---------------------------------------------------------------------------

inductive Event (α ρ : Type*) where
  | invoked (i : ℕ) (a : α)
  | responded (i : ℕ) (r : ρ)

/-- A sequential order explains a history: it is legal, it holds each call once and
only calls that were invoked, every response is the result in it, and it respects
the order of calls that do not overlap. -/
structure Linearizes (S : Spec κ α ρ) (log : List (Event α ρ)) (order : List (Call α ρ)) :
    Prop where
  legal : ∃ k, S.Legal S.init order k
  once : (order.map Call.id).Nodup
  invoked : ∀ c ∈ order, .invoked c.id c.arg ∈ log
  responded : ∀ i r, .responded i r ∈ log → ∃ c ∈ order, c.id = i ∧ c.res = r
  realTime : ∀ i r j a, Before (.responded i r) (.invoked j a) log → j ∈ order.map Call.id →
    Before i j (order.map Call.id)

/-- The response of process `i`, if the move of process `i` gives it its result. -/
def responseEvent (result : π → Option ρ) (i : ℕ) (w w' : Pool σ π) : List (Event α ρ) :=
  match w.procs[i]?.bind result, w'.procs[i]?.bind result with
  | none, some r => [.responded i r]
  | _, _ => []

/-- What a move adds to the history: the invocation of a new process, or the
response of the process that moves. -/
def historyEvents (M : Machine σ π α ι) (result : π → Option ρ) (w : Pool σ π) :
    Move α ι → List (Event α ρ)
  | .spawn a => [.invoked w.procs.length a]
  | .act i x =>
    match M.next w (.act i x) with
    | some w' => responseEvent result i w w'
    | none => []

/-- The machine with its history. -/
def history (M : Machine σ π α ι) (result : π → Option ρ) :
    Pool σ π × List (Event α ρ) → Move α ι → Option (Pool σ π × List (Event α ρ)) :=
  observed M.next (historyEvents M result)

-- ---------------------------------------------------------------------------
-- Linearization points
-- ---------------------------------------------------------------------------

/-- A machine whose calls take effect in one of their own steps. `J` is what holds
of the shared state, `L` what holds of a call in progress; `arg` is the argument of
a call, `decided` its result once it is settled, `result` its result once it has
returned. -/
structure LinearPoints (M : Machine σ π α ι) (S : Spec κ α ρ) (J : σ → Prop) (L : π → Prop)
    (abs : σ → κ) (arg : π → α) (decided result : π → Option ρ) : Prop where
  keeps : ∀ s p x s' p', J s → L p → M.step s p x = some (s', p') → J s' ∧ L p'
  starts : ∀ a, L (M.init a) ∧ arg (M.init a) = a ∧ decided (M.init a) = none
  argument : ∀ s p x s' p', M.step s p x = some (s', p') → arg p' = arg p
  point : ∀ s p x s' p', J s → L p → M.step s p x = some (s', p') →
    (abs s' = abs s ∧ decided p' = decided p) ∨
    (decided p = none ∧ ∃ r, decided p' = some r ∧ S.apply (abs s) (arg p) = (abs s', r))
  result_decided : ∀ p r, result p = some r → decided p = some r

section Rule

variable {M : Machine σ π α ι} {S : Spec κ α ρ} {J : σ → Prop} {L : π → Prop} {abs : σ → κ}
  {arg : π → α} {decided result : π → Option ρ}

/-- The invariant: the decided calls in the order of their points. -/
structure Explained (S : Spec κ α ρ) (J : σ → Prop) (L : π → Prop) (abs : σ → κ) (arg : π → α)
    (decided : π → Option ρ) (w : Pool σ π) (log : List (Event α ρ)) (order : List (Call α ρ)) :
    Prop where
  good : J w.shared
  goodProcs : ∀ (i : ℕ) p, w.procs[i]? = some p → L p
  legal : S.Legal S.init order (abs w.shared)
  once : (order.map Call.id).Nodup
  sound : ∀ c ∈ order, ∃ p, w.procs[c.id]? = some p ∧ arg p = c.arg ∧ decided p = some c.res
  complete : ∀ (i : ℕ) p r, w.procs[i]? = some p → decided p = some r →
    ∃ c ∈ order, c.id = i ∧ c.res = r
  invoked : ∀ (i : ℕ) p, w.procs[i]? = some p → .invoked i (arg p) ∈ log
  responded : ∀ i r, .responded i r ∈ log → ∃ c ∈ order, c.id = i ∧ c.res = r
  realTime : ∀ i r j a, Before (.responded i r) (.invoked j a) log → j ∈ order.map Call.id →
    Before i j (order.map Call.id)

theorem Explained.linearizes {w : Pool σ π} {log : List (Event α ρ)} {order : List (Call α ρ)}
    (h : Explained S J L abs arg decided w log order) : Linearizes S log order := by
  refine ⟨⟨_, h.legal⟩, h.once, fun c hc => ?_, h.responded, h.realTime⟩
  obtain ⟨p, hp, harg, -⟩ := h.sound c hc
  exact harg ▸ h.invoked c.id p hp

variable {w : Pool σ π} {log : List (Event α ρ)} {order : List (Call α ρ)} {i : ℕ} {p p' : π}
  {s' : σ}

/-- A new call. -/
theorem Explained.spawn (hM : LinearPoints M S J L abs arg decided result)
    (h : Explained S J L abs arg decided w log order) (a : α) :
    Explained S J L abs arg decided ⟨w.shared, w.procs ++ [M.init a]⟩
      (log ++ [.invoked w.procs.length a]) order := by
  obtain ⟨hgood, harg, hundecided⟩ := hM.starts a
  -- a process of the new pool is an old one or the new one
  have hcases : ∀ (j : ℕ) q, (w.procs ++ [M.init a])[j]? = some q →
      w.procs[j]? = some q ∨ (j = w.procs.length ∧ q = M.init a) := by
    intro j q hq
    rw [List.getElem?_append] at hq
    split at hq
    · exact Or.inl hq
    · rename_i hge
      obtain ⟨hlt, hget⟩ := List.getElem?_eq_some_iff.mp hq
      have hj : j = w.procs.length := by
        simp only [List.length_cons, List.length_nil] at hlt
        omega
      subst hj
      simp at hq
      exact Or.inr ⟨rfl, hq.symm⟩
  refine ⟨h.good, fun j q hq => ?_, h.legal, h.once, fun c hc => ?_, fun j q r hq hr => ?_,
    fun j q hq => ?_, fun j r hj => ?_, fun j r k b hbefore hk => ?_⟩
  · rcases hcases j q hq with hold | ⟨-, rfl⟩
    · exact h.goodProcs j q hold
    · exact hgood
  · obtain ⟨q, hq, hrest⟩ := h.sound c hc
    refine ⟨q, ?_, hrest⟩
    rw [List.getElem?_append_left (List.getElem?_eq_some_iff.mp hq).1]
    exact hq
  · rcases hcases j q hq with hold | ⟨-, rfl⟩
    · exact h.complete j q r hold hr
    · simp [hundecided] at hr
  · rcases hcases j q hq with hold | ⟨rfl, rfl⟩
    · exact List.mem_append_left _ (h.invoked j q hold)
    · rw [harg]
      exact List.mem_append_right _ (List.mem_singleton_self _)
  · rcases List.mem_append.mp hj with hold | hnew
    · exact h.responded j r hold
    · simp at hnew
  · rcases before_append_one.mp hbefore with hold | ⟨-, heq⟩
    · exact h.realTime j r k b hold hk
    · -- the new call has no point yet
      cases heq
      obtain ⟨c, hc, hid⟩ := List.mem_map.mp hk
      obtain ⟨q, hq, -⟩ := h.sound c hc
      have hlt := (List.getElem?_eq_some_iff.mp hq).1
      omega

/-- A response of a decided call. -/
theorem Explained.respond (h : Explained S J L abs arg decided w log order) {r : ρ}
    (hp : w.procs[i]? = some p) (hr : decided p = some r) :
    Explained S J L abs arg decided w (log ++ [.responded i r]) order := by
  refine ⟨h.good, h.goodProcs, h.legal, h.once, h.sound, h.complete, fun j q hq => ?_,
    fun j r' hj => ?_, fun j r' k b hbefore hk => ?_⟩
  · exact List.mem_append_left _ (h.invoked j q hq)
  · rcases List.mem_append.mp hj with hold | hnew
    · exact h.responded j r' hold
    · cases List.mem_singleton.mp hnew
      exact h.complete i p r hp hr
  · rcases before_append_one.mp hbefore with hold | ⟨-, heq⟩
    · exact h.realTime j r' k b hold hk
    · simp at heq

/-- A process other than the one that moves, in the pool after the move. -/
theorem getElem_set_other {l : List π} {j : ℕ} {q : π} (hq : l[j]? = some q) (hne : j ≠ i) :
    (l.set i p')[j]? = some q := by
  rw [List.getElem?_set_ne (Ne.symm hne)]
  exact hq

theorem Explained.goodProcs_set (h : Explained S J L abs arg decided w log order) (hgood : L p') :
    ∀ (j : ℕ) q, (w.procs.set i p')[j]? = some q → L q := by
  intro j q hq
  rcases getElem_set_cases hq with ⟨-, rfl⟩ | ⟨-, hold⟩
  · exact hgood
  · exact h.goodProcs j q hold

/-- A step that is not the call's point. -/
theorem Explained.quiet (h : Explained S J L abs arg decided w log order)
    (hp : w.procs[i]? = some p) (hgood : J s' ∧ L p') (harg : arg p' = arg p)
    (habs : abs s' = abs w.shared) (hdecided : decided p' = decided p) :
    Explained S J L abs arg decided ⟨s', w.procs.set i p'⟩ log order := by
  have hlt := (List.getElem?_eq_some_iff.mp hp).1
  refine ⟨hgood.1, h.goodProcs_set hgood.2, ?_, h.once, fun c hc => ?_, fun j q r hq hr => ?_,
    fun j q hq => ?_, h.responded, h.realTime⟩
  · show S.Legal S.init order (abs s')
    rw [habs]
    exact h.legal
  · obtain ⟨q, hq, hqarg, hqr⟩ := h.sound c hc
    by_cases hi : c.id = i
    · obtain rfl : p = q := Option.some.inj (hp.symm.trans (hi ▸ hq))
      refine ⟨p', ?_, harg.trans hqarg, hdecided.trans hqr⟩
      rw [hi]
      exact List.getElem?_set_self hlt
    · exact ⟨q, getElem_set_other hq hi, hqarg, hqr⟩
  · rcases getElem_set_cases hq with ⟨rfl, rfl⟩ | ⟨-, hold⟩
    · exact h.complete j p r hp (hdecided.symm.trans hr)
    · exact h.complete j q r hold hr
  · rcases getElem_set_cases hq with ⟨rfl, rfl⟩ | ⟨-, hold⟩
    · rw [harg]
      exact h.invoked j p hp
    · exact h.invoked j q hold

/-- The step in which a call takes effect. -/
theorem Explained.commit (h : Explained S J L abs arg decided w log order) {r : ρ}
    (hp : w.procs[i]? = some p) (hgood : J s' ∧ L p') (harg : arg p' = arg p)
    (hnone : decided p = none) (hdecided : decided p' = some r)
    (happly : S.apply (abs w.shared) (arg p) = (abs s', r)) :
    Explained S J L abs arg decided ⟨s', w.procs.set i p'⟩ log (order ++ [⟨i, arg p, r⟩]) := by
  have hlt := (List.getElem?_eq_some_iff.mp hp).1
  -- the call is not in the order yet
  have hfresh : ∀ c ∈ order, c.id ≠ i := by
    intro c hc hi
    obtain ⟨q, hq, -, hqr⟩ := h.sound c hc
    obtain rfl : p = q := Option.some.inj (hp.symm.trans (hi ▸ hq))
    simp [hnone] at hqr
  refine ⟨hgood.1, h.goodProcs_set hgood.2, Spec.legal_append_one happly h.legal, ?_,
    fun c hc => ?_, fun j q r' hq hr => ?_, fun j q hq => ?_, fun j r' hj => ?_,
    fun j r' k b hbefore hk => ?_⟩
  · rw [List.map_append, List.nodup_append]
    refine ⟨h.once, List.nodup_singleton _, fun j hj k hk => ?_⟩
    obtain ⟨c, hc, rfl⟩ := List.mem_map.mp hj
    rw [List.mem_singleton.mp hk]
    exact hfresh c hc
  · rcases List.mem_append.mp hc with hold | hnew
    · obtain ⟨q, hq, hrest⟩ := h.sound c hold
      exact ⟨q, getElem_set_other hq (hfresh c hold), hrest⟩
    · rw [List.mem_singleton.mp hnew]
      exact ⟨p', List.getElem?_set_self hlt, harg, hdecided⟩
  · rcases getElem_set_cases hq with ⟨rfl, rfl⟩ | ⟨-, hold⟩
    · exact ⟨_, List.mem_append_right _ (List.mem_singleton_self _), rfl,
        Option.some.inj (hdecided.symm.trans hr)⟩
    · obtain ⟨c, hc, hrest⟩ := h.complete j q r' hold hr
      exact ⟨c, List.mem_append_left _ hc, hrest⟩
  · rcases getElem_set_cases hq with ⟨rfl, rfl⟩ | ⟨-, hold⟩
    · rw [harg]
      exact h.invoked j p hp
    · exact h.invoked j q hold
  · obtain ⟨c, hc, hrest⟩ := h.responded j r' hj
    exact ⟨c, List.mem_append_left _ hc, hrest⟩
  · rw [List.map_append] at hk ⊢
    rw [List.map_singleton] at hk ⊢
    rw [before_append_one]
    rcases List.mem_append.mp hk with hold | hnew
    · exact Or.inl (h.realTime j r' k b hbefore hold)
    · -- a call that responded before is decided, so it is in the order already
      obtain ⟨c, hc, hid, -⟩ := h.responded j r' hbefore.mem_left
      exact Or.inr ⟨hid ▸ List.mem_map_of_mem hc, List.mem_singleton.mp hnew⟩

/-- One move and the events it adds. -/
theorem Explained.next (hM : LinearPoints M S J L abs arg decided result)
    (h : Explained S J L abs arg decided w log order) {m : Move α ι} {w' : Pool σ π}
    (hn : M.next w m = some w') :
    ∃ order', Explained S J L abs arg decided w' (log ++ historyEvents M result w m) order' := by
  rcases next_cases hn with ⟨a, rfl, rfl⟩ | ⟨i, x, p, s', p', rfl, hp, hs, rfl⟩
  · exact ⟨order, h.spawn hM a⟩
  · -- the step itself, then the response if there is one
    have hmoved : ∃ order', Explained S J L abs arg decided ⟨s', w.procs.set i p'⟩ log order' := by
      have hlocal := h.goodProcs i p hp
      have hgood := hM.keeps _ p x s' p' h.good hlocal hs
      have harg := hM.argument _ p x s' p' hs
      rcases hM.point _ p x s' p' h.good hlocal hs with ⟨habs, hsame⟩ | ⟨hnone, r, hr, happly⟩
      · exact ⟨order, h.quiet hp hgood harg habs hsame⟩
      · exact ⟨_, h.commit hp hgood harg hnone hr happly⟩
    obtain ⟨order', h'⟩ := hmoved
    have hp' : (w.procs.set i p')[i]? = some p' :=
      List.getElem?_set_self (List.getElem?_eq_some_iff.mp hp).1
    refine ⟨order', ?_⟩
    simp only [historyEvents, hn, responseEvent, hp, hp', Option.bind_some]
    cases hbefore : result p with
    | some r =>
      rw [List.append_nil]
      exact h'
    | none =>
      cases hafter : result p' with
      | none =>
        rw [List.append_nil]
        exact h'
      | some r => exact h'.respond hp' (hM.result_decided p' r hafter)

/-- **The rule.** If the calls of a machine take effect in one of their own steps,
every run from the specification's first state has a linearization. -/
theorem LinearPoints.linearizes (hM : LinearPoints M S J L abs arg decided result) {s₀ : σ}
    (hgood : J s₀) (hinit : abs s₀ = S.init) {c : Pool σ π × List (Event α ρ)}
    (hrun : Steps.Run (history M result) free (⟨s₀, []⟩, []) c) :
    ∃ order, Linearizes S c.2 order := by
  have hstart : Explained S J L abs arg decided ⟨s₀, []⟩ [] [] := by
    refine ⟨hgood, ?_, hinit.symm, List.nodup_nil, ?_, ?_, ?_, ?_, ?_⟩
    · exact fun i p hp => nomatch hp
    · exact fun c hc => nomatch hc
    · exact fun i p r hp => nomatch hp
    · exact fun i p hp => nomatch hp
    · exact fun i r hr => nomatch hr
    · exact fun i r j a _ hj => nomatch hj
  have hexplained : ∃ order, Explained S J L abs arg decided c.1 c.2 order := by
    refine Run.invariant (I := fun c => ∃ order, Explained S J L abs arg decided c.1 c.2 order) hrun
      ⟨[], hstart⟩ ?_
    rintro c m c' - ⟨order, h⟩ - hn
    obtain ⟨hnext, hlog⟩ := observed_eq_some.mp hn
    rw [hlog]
    exact h.next hM hnext
  obtain ⟨order, h⟩ := hexplained
  exact ⟨order, h.linearizes⟩

end Rule

end Interleave
