import Mathlib
import Rlqs.Lib.Interleave

/-!
# Mutexes and the threads that hold them

Threads that take and drop locks from a family `Λ`. A lock is a flag; which
locks a thread is holding is read off its own state (`holds`), and so is the
lock it is about to take (`wants`). A step of a thread takes one free lock,
drops one lock it holds, or touches no lock (`Turn`).

* `Consistent` — every taken lock has exactly one holder, every free one has
  none; `Consistent.turn` and `Consistent.spawn` are its step rules.
* `Consistent.pairwise` — no two threads hold the same lock.
* `Consistent.exists_ready` — if every thread takes its locks in the order of a
  rank, then while some lock of a class is taken, and no holder of one waits for a
  lock outside the class, one of these holders is not waiting for a taken lock.
-/

namespace Mutex

open Interleave

variable {Λ τ : Type*} [DecidableEq Λ]

/-- What a step of a thread does to the locks. -/
inductive Turn (holds : τ → List Λ) (locks : Λ → Bool) (t : τ) : (Λ → Bool) → τ → Prop where
  | keep {t' : τ} (hheld : holds t' = holds t) : Turn holds locks t locks t'
  | take {t' : τ} (l : Λ) (hfree : locks l = false) (hheld : holds t' = l :: holds t) :
      Turn holds locks t (Function.update locks l true) t'
  | drop {t' : τ} (l : Λ) (hheld : holds t = l :: holds t') :
      Turn holds locks t (Function.update locks l false) t'

/-- Every lock has as many holders as its flag says. -/
def Consistent (holds : τ → List Λ) (locks : Λ → Bool) (ts : List τ) : Prop :=
  ∀ l, tally (fun t => (holds t).count l) ts = (locks l).toNat

variable {holds : τ → List Λ} {locks locks' : Λ → Bool} {ts ts' rest : List τ} {t t' : τ}

-- ---------------------------------------------------------------------------
-- Step rules
-- ---------------------------------------------------------------------------

/-- One entry of a list and the others, before and after it is replaced. -/
theorem exists_others {i : ℕ} (ht : ts[i]? = some t) :
    ∃ rest, ts.Perm (t :: rest) ∧ ∀ t', (ts.set i t').Perm (t' :: rest) := by
  obtain ⟨hi, rfl⟩ := List.getElem?_eq_some_iff.mp ht
  exact ⟨ts.eraseIdx i, (List.getElem_cons_eraseIdx_perm hi).symm,
    fun t' => List.set_perm_cons_eraseIdx hi t'⟩

theorem tally_perm {acct : τ → ℕ} (h : ts.Perm ts') : tally acct ts = tally acct ts' :=
  (h.map acct).sum_eq

theorem Consistent.spawn (h : Consistent holds locks ts) (hts : ts'.Perm (t :: ts))
    (hnone : holds t = []) : Consistent holds locks ts' := by
  intro l
  rw [tally_perm hts, tally_cons, hnone, h l]
  simp

/-- The step rule: `t` becomes `t'`, the other threads are untouched. -/
theorem Consistent.turn (h : Consistent holds locks ts) (hts : ts.Perm (t :: rest))
    (hts' : ts'.Perm (t' :: rest)) (hturn : Turn holds locks t locks' t') :
    Consistent holds locks' ts' := by
  intro l
  have hl := h l
  rw [tally_perm hts, tally_cons] at hl
  rw [tally_perm hts', tally_cons]
  cases hturn with
  | keep hheld => rw [hheld, hl]
  | take m hfree hheld =>
    rw [hheld, List.count_cons]
    by_cases hml : m = l
    · subst hml
      rw [hfree] at hl
      simp only [BEq.rfl, if_true, Function.update_self, Bool.toNat_true, Bool.toNat_false] at hl ⊢
      omega
    · rw [Function.update_of_ne (Ne.symm hml), if_neg (by simpa using hml), add_zero, hl]
  | drop m hheld =>
    rw [hheld, List.count_cons] at hl
    by_cases hml : m = l
    · subst hml
      have hle := Bool.toNat_le (locks m)
      simp only [BEq.rfl, if_true, Function.update_self, Bool.toNat_false] at hl ⊢
      omega
    · rw [Function.update_of_ne (Ne.symm hml)]
      rw [if_neg (by simpa using hml), add_zero] at hl
      exact hl

-- ---------------------------------------------------------------------------
-- Mutual exclusion
-- ---------------------------------------------------------------------------

theorem Consistent.exists_holder (h : Consistent holds locks ts) {l : Λ} (hl : locks l = true) :
    ∃ t ∈ ts, l ∈ holds t := by
  by_contra hno
  have hzero : tally (fun t => (holds t).count l) ts = 0 := by
    rw [tally_eq_zero_iff]
    intro t ht
    exact List.count_eq_zero.mpr fun hmem => hno ⟨t, ht, hmem⟩
  rw [h l, hl] at hzero
  simp at hzero

theorem Consistent.taken (h : Consistent holds locks ts) {l : Λ} (ht : t ∈ ts) (hl : l ∈ holds t) :
    locks l = true := by
  have hle := le_tally (fun t => (holds t).count l) ht
  have hpos : 0 < (holds t).count l := List.count_pos_iff.mpr hl
  rw [h l] at hle
  cases hlock : locks l with
  | true => rfl
  | false =>
    rw [hlock, Bool.toNat_false] at hle
    omega

/-- No two threads hold the same lock. -/
theorem Consistent.pairwise (h : Consistent holds locks ts) :
    ts.Pairwise fun t u => ∀ l, l ∈ holds t → l ∉ holds u := by
  have hone : ∀ l, tally (fun t => (holds t).count l) ts ≤ 1 := fun l => by
    rw [h l]
    exact Bool.toNat_le _
  clear h
  induction ts with
  | nil => exact List.Pairwise.nil
  | cons t ts ih =>
    refine List.pairwise_cons.mpr ⟨fun u hu l ht hu' => ?_, ih fun l => ?_⟩
    · have hle := hone l
      have hrest := le_tally (fun t => (holds t).count l) hu
      have ht' : 0 < (holds t).count l := List.count_pos_iff.mpr ht
      have hu'' : 0 < (holds u).count l := List.count_pos_iff.mpr hu'
      rw [tally_cons] at hle
      omega
    · have hle := hone l
      rw [tally_cons] at hle
      omega

-- ---------------------------------------------------------------------------
-- Deadlock
-- ---------------------------------------------------------------------------

/-- Locks are taken in the order of the rank, and a thread that holds a lock of the class
`P` waits for no lock outside it: while a lock of `P` is taken, the holder of the highest
of them is not waiting for a taken lock. -/
theorem Consistent.exists_ready (h : Consistent holds locks ts) (wants : τ → Option Λ)
    (rank : Λ → ℕ) (P : Λ → Prop)
    (horder : ∀ t ∈ ts, ∀ l, wants t = some l → ∀ m ∈ holds t, P m → P l ∧ rank m < rank l)
    {l₀ : Λ} (hl₀ : locks l₀ = true) (hP₀ : P l₀) :
    ∃ t ∈ ts, (∃ l ∈ holds t, P l) ∧ ∀ l, wants t = some l → locks l = false := by
  classical
  obtain ⟨t₀, ht₀, hmem₀⟩ := h.exists_holder hl₀
  let taken : Finset Λ := (ts.flatMap holds).toFinset.filter P
  have hin : ∀ {l : Λ}, l ∈ taken ↔ (∃ t ∈ ts, l ∈ holds t) ∧ P l := by simp [taken]
  obtain ⟨l, hl, hmax⟩ := taken.exists_max_image rank ⟨l₀, hin.mpr ⟨⟨t₀, ht₀, hmem₀⟩, hP₀⟩⟩
  obtain ⟨⟨t, ht, hmem⟩, hP⟩ := hin.mp hl
  refine ⟨t, ht, ⟨l, hmem, hP⟩, fun m hm => ?_⟩
  -- a taken lock that the holder waits for would be higher still
  by_contra htaken
  rw [Bool.not_eq_false] at htaken
  obtain ⟨hPm, hlt⟩ := horder t ht m hm l hmem hP
  have hle := hmax m (hin.mpr ⟨h.exists_holder htaken, hPm⟩)
  omega

end Mutex
