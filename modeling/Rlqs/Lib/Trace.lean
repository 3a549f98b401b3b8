import Mathlib
import Rlqs.Lib.Steps

/-!
# Runs with a record of what happened

`observed next obs` is the system `next` with a log beside the state: the move
`m` made in state `w` appends `obs w m`. The log restricts nothing and no step
reads it; properties that speak about the past are properties of the reached
state and its log.

Logs whose entries are tagged with the number of a process are read one process
at a time (`logOf`). `Since A B es` says that an `A` has happened and no `B` after
it; `since_append_one` is its step rule.
-/

namespace Steps

variable {ω μ ε : Type*}

/-- The system with a log of what each move shows. -/
def observed (next : ω → μ → Option ω) (obs : ω → μ → List ε) (c : ω × List ε) (m : μ) :
    Option (ω × List ε) :=
  (next c.1 m).map fun w => (w, c.2 ++ obs c.1 m)

section Observed

variable {next : ω → μ → Option ω} {obs : ω → μ → List ε} {c c' : ω × List ε} {m : μ}

theorem observed_eq_some :
    observed next obs c m = some c' ↔ next c.1 m = some c'.1 ∧ c'.2 = c.2 ++ obs c.1 m := by
  unfold observed
  rw [Option.map_eq_some_iff]
  constructor
  · rintro ⟨w, hw, rfl⟩
    exact ⟨hw, rfl⟩
  · rintro ⟨hw, hlog⟩
    exact ⟨c'.1, hw, Prod.ext rfl hlog.symm⟩

end Observed

-- ---------------------------------------------------------------------------
-- One process's part of a log
-- ---------------------------------------------------------------------------

/-- The entries of process `i`. -/
def logOf (i : ℕ) (log : List (ℕ × ε)) : List ε :=
  log.filterMap fun e => if e.1 = i then some e.2 else none

/-- Entries of process `i`. -/
def tagged (i : ℕ) (es : List ε) : List (ℕ × ε) := es.map fun e => (i, e)

theorem logOf_append (i : ℕ) (log log' : List (ℕ × ε)) :
    logOf i (log ++ log') = logOf i log ++ logOf i log' := List.filterMap_append

@[simp] theorem logOf_tagged (i : ℕ) (es : List ε) : logOf i (tagged i es) = es := by
  induction es with
  | nil => rfl
  | cons e es ih =>
    unfold logOf tagged at ih ⊢
    simp only [List.map_cons, List.filterMap_cons, if_true, ih]

theorem logOf_tagged_ne {i j : ℕ} (h : i ≠ j) (es : List ε) : logOf j (tagged i es) = [] := by
  unfold logOf tagged
  rw [List.filterMap_eq_nil_iff]
  intro e he
  obtain ⟨e, -, rfl⟩ := List.mem_map.mp he
  exact if_neg h

/-- A process that no entry names has no entries. -/
theorem logOf_eq_nil {i : ℕ} {log : List (ℕ × ε)} (h : ∀ e ∈ log, e.1 ≠ i) : logOf i log = [] := by
  unfold logOf
  rw [List.filterMap_eq_nil_iff]
  exact fun e he => if_neg (h e he)

-- ---------------------------------------------------------------------------
-- Since
-- ---------------------------------------------------------------------------

/-- An `A` has happened, and no `B` after it. -/
def Since (A B : ε → Prop) (es : List ε) : Prop :=
  ∃ before e after, es = before ++ e :: after ∧ A e ∧ ∀ e' ∈ after, ¬ B e'

section Since

variable {A B : ε → Prop}

@[simp] theorem not_since_nil : ¬ Since A B ([] : List ε) := by
  rintro ⟨before, e, after, h, -, -⟩
  simp at h

/-- The step rule. -/
theorem since_append_one (es : List ε) (e : ε) :
    Since A B (es ++ [e]) ↔ A e ∨ (Since A B es ∧ ¬ B e) := by
  constructor
  · rintro ⟨before, a, after, heq, ha, hafter⟩
    rcases List.eq_nil_or_concat after with rfl | ⟨after', e', rfl⟩
    · obtain ⟨-, he⟩ := List.append_inj' heq rfl
      cases he
      exact Or.inl ha
    · rw [List.concat_eq_append, ← List.cons_append, ← List.append_assoc] at heq
      obtain ⟨hes, he⟩ := List.append_inj' heq rfl
      cases he
      simp only [List.concat_eq_append, List.forall_mem_append, List.forall_mem_singleton]
        at hafter
      exact Or.inr ⟨⟨before, a, after', hes, ha, hafter.1⟩, hafter.2⟩
  · rintro (ha | ⟨⟨before, a, after, rfl, ha, hafter⟩, hb⟩)
    · exact ⟨es, e, [], rfl, ha, fun _ h => nomatch h⟩
    · refine ⟨before, a, after ++ [e], by simp, ha, ?_⟩
      rw [List.forall_mem_append, List.forall_mem_singleton]
      exact ⟨hafter, hb⟩

/-- Deciding it in one pass over the log. -/
theorem since_iff_foldl [DecidablePred A] [DecidablePred B] (es : List ε) :
    Since A B es ↔ es.foldl (fun s e => decide (A e) || (s && !decide (B e))) false = true := by
  induction es using List.reverseRecOn with
  | nil => simp
  | append_singleton es e ih =>
    rw [since_append_one, ih, List.foldl_append]
    simp

instance sinceDecidable [DecidablePred A] [DecidablePred B] (es : List ε) :
    Decidable (Since A B es) := decidable_of_iff _ (since_iff_foldl es).symm

/-- Entries that are neither change nothing. -/
theorem since_append_of_neither {es es' : List ε} (h : ∀ e ∈ es', ¬ A e ∧ ¬ B e) :
    Since A B (es ++ es') ↔ Since A B es := by
  induction es' generalizing es with
  | nil => rw [List.append_nil]
  | cons e es' ih =>
    rw [List.forall_mem_cons] at h
    have hsplit : es ++ e :: es' = (es ++ [e]) ++ es' := by simp
    rw [hsplit, ih h.2, since_append_one]
    simp [h.1]

end Since

end Steps
