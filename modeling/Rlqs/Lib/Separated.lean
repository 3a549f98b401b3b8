import Mathlib

/-!
# Texts joined by separators

Pairs of texts written one after the other, with one separator inside a pair
and another between pairs, behind a prefix with a separator of its own. The
separators are not escaped, so what was written can be read back only under a
condition. Two are given here:

* `records_injective` — the first text of a pair does not contain the inner
  separator and the second not the outer one (reading forward);
* `prefixed_records_injective` — all first texts have one length and all
  second texts have one length (reading backward), whatever they contain.
-/

namespace Separated

variable {α : Type*}

-- ---------------------------------------------------------------------------
-- Cutting at a separator
-- ---------------------------------------------------------------------------

/-- Where two texts that do not contain `sep` are each followed by nothing or
by `sep`, they end in the same place. -/
theorem cut_unique {sep : α} {a c r s : List α} (ha : sep ∉ a) (hc : sep ∉ c)
    (hr : ∀ x ∈ r.head?, x = sep) (hs : ∀ x ∈ s.head?, x = sep) (h : a ++ r = c ++ s) :
    a = c ∧ r = s := by
  induction a generalizing c with
  | nil =>
    cases c with
    | nil => exact ⟨rfl, h⟩
    | cons y c =>
      -- `r` starts with the first letter of `c`, which is then `sep`
      have hy : y = sep := hr y (by rw [List.nil_append] at h; rw [h]; rfl)
      exact absurd (hy ▸ List.mem_cons_self) hc
  | cons x a ih =>
    cases c with
    | nil =>
      have hx : x = sep := hs x (by rw [List.nil_append] at h; rw [← h]; rfl)
      exact absurd (hx ▸ List.mem_cons_self) ha
    | cons y c =>
      rw [List.cons_append, List.cons_append] at h
      obtain ⟨hxy, hrest⟩ := List.cons.inj h
      obtain ⟨hac, hrs⟩ := ih (fun hm => ha (List.mem_cons_of_mem x hm))
        (fun hm => hc (List.mem_cons_of_mem y hm)) hrest
      exact ⟨by rw [hxy, hac], hrs⟩

-- ---------------------------------------------------------------------------
-- Records
-- ---------------------------------------------------------------------------

/-- A pair of texts with `inner` between them. -/
def record (inner : α) (p : List α × List α) : List α := p.1 ++ inner :: p.2

/-- Records one after the other, with `outer` between two of them. -/
def records (inner outer : α) (ps : List (List α × List α)) : List α :=
  [outer].intercalate (ps.map (record inner))

/-- The records after the first: each with `outer` in front. -/
def recordsTail (inner outer : α) (ps : List (List α × List α)) : List α :=
  ps.flatMap fun p => outer :: record inner p

section Records

variable {inner outer mark : α} {p q : List α × List α} {ps qs : List (List α × List α)}

theorem records_cons :
    records inner outer (p :: ps) = record inner p ++ recordsTail inner outer ps := by
  induction ps generalizing p with
  | nil => simp [records, recordsTail]
  | cons q ps ih =>
    have hstep : records inner outer (p :: q :: ps) =
        record inner p ++ outer :: records inner outer (q :: ps) := by
      simp [records, List.intercalate]
    rw [hstep, ih]
    simp [recordsTail]

theorem records_snoc (hne : ps ≠ []) :
    records inner outer (ps ++ [p]) = records inner outer ps ++ outer :: record inner p := by
  obtain ⟨q, qs, rfl⟩ := List.exists_cons_of_ne_nil hne
  rw [List.cons_append, records_cons, records_cons]
  simp [recordsTail]

theorem recordsTail_head : ∀ x ∈ (recordsTail inner outer ps).head?, x = outer := by
  cases ps with
  | nil => exact fun x hx => nomatch hx
  | cons p ps =>
    intro x hx
    simpa [recordsTail, eq_comm] using hx

/-- Short texts make short records: a pair takes its two texts and two separators. -/
theorem records_length_le {m n : ℕ} (h : ∀ p ∈ ps, p.1.length ≤ m ∧ p.2.length ≤ n) :
    (records inner outer ps).length ≤ ps.length * (m + n + 2) := by
  have hrecord : ∀ p ∈ ps, (record inner p).length ≤ m + n + 1 := by
    intro p hp
    have := h p hp
    rw [record, List.length_append, List.length_cons]
    omega
  induction ps using List.reverseRecOn with
  | nil => exact Nat.zero_le _
  | append_singleton ps p ih =>
    have hp := hrecord p (List.mem_append_right ps List.mem_cons_self)
    have hps := ih (fun q hq => h q (List.mem_append_left _ hq))
      (fun q hq => hrecord q (List.mem_append_left _ hq))
    rw [List.length_append, List.length_singleton, Nat.add_mul, Nat.one_mul]
    by_cases hnil : ps = []
    · rw [hnil, List.nil_append, records_cons, recordsTail, List.flatMap_nil, List.append_nil]
      omega
    · rw [records_snoc hnil, List.length_append, List.length_cons]
      omega

-- ---------------------------------------------------------------------------
-- Reading forward
-- ---------------------------------------------------------------------------

/-- The texts of the pair do not contain the separator that ends them. -/
def Clean (inner outer : α) (p : List α × List α) : Prop := inner ∉ p.1 ∧ outer ∉ p.2

/-- The first record of two equal texts. -/
theorem record_append_unique {r s : List α} (hp : Clean inner outer p) (hq : Clean inner outer q)
    (hr : ∀ x ∈ r.head?, x = outer) (hs : ∀ x ∈ s.head?, x = outer)
    (h : record inner p ++ r = record inner q ++ s) : p = q ∧ r = s := by
  unfold record at h
  rw [List.append_assoc, List.append_assoc, List.cons_append, List.cons_append] at h
  have hmark : ∀ (t : List α), ∀ x ∈ (inner :: t).head?, x = inner := by
    intro t x hx
    simpa [eq_comm] using hx
  obtain ⟨hfst, hrest⟩ := cut_unique hp.1 hq.1 (hmark _) (hmark _) h
  obtain ⟨hsnd, htail⟩ := cut_unique hp.2 hq.2 hr hs (List.cons.inj hrest).2
  exact ⟨Prod.ext hfst hsnd, htail⟩

theorem recordsTail_injective (hps : ∀ p ∈ ps, Clean inner outer p)
    (hqs : ∀ q ∈ qs, Clean inner outer q)
    (h : recordsTail inner outer ps = recordsTail inner outer qs) : ps = qs := by
  induction ps generalizing qs with
  | nil =>
    cases qs with
    | nil => rfl
    | cons q qs => simp [recordsTail] at h
  | cons p ps ih =>
    cases qs with
    | nil => simp [recordsTail] at h
    | cons q qs =>
      have hstep : record inner p ++ recordsTail inner outer ps =
          record inner q ++ recordsTail inner outer qs := by
        simpa [recordsTail] using h
      obtain ⟨rfl, htail⟩ := record_append_unique (hps p List.mem_cons_self)
        (hqs q List.mem_cons_self) recordsTail_head recordsTail_head hstep
      rw [ih (fun r hr => hps r (List.mem_cons_of_mem p hr))
        (fun r hr => hqs r (List.mem_cons_of_mem p hr)) htail]

theorem records_cons_ne_nil : records inner outer (p :: ps) ≠ [] := by
  rw [records_cons, record]
  simp

/-- Clean records are read back in one way. -/
theorem records_injective (hps : ∀ p ∈ ps, Clean inner outer p)
    (hqs : ∀ q ∈ qs, Clean inner outer q)
    (h : records inner outer ps = records inner outer qs) : ps = qs := by
  cases ps with
  | nil =>
    cases qs with
    | nil => rfl
    | cons q qs => exact absurd h.symm records_cons_ne_nil
  | cons p ps =>
    cases qs with
    | nil => exact absurd h records_cons_ne_nil
    | cons q qs =>
      rw [records_cons, records_cons] at h
      obtain ⟨rfl, htail⟩ := record_append_unique (hps p List.mem_cons_self)
        (hqs q List.mem_cons_self) recordsTail_head recordsTail_head h
      rw [recordsTail_injective (fun r hr => hps r (List.mem_cons_of_mem p hr))
        (fun r hr => hqs r (List.mem_cons_of_mem p hr)) htail]

-- ---------------------------------------------------------------------------
-- Reading backward
-- ---------------------------------------------------------------------------

/-- The two texts of the pair have the lengths `m` and `n`. -/
def Sized (m n : ℕ) (p : List α × List α) : Prop := p.1.length = m ∧ p.2.length = n

theorem record_length {m n : ℕ} (hp : Sized m n p) : (record inner p).length = m + 1 + n := by
  rw [record, List.length_append, List.length_cons, hp.1, hp.2]
  omega

/-- The last record of two equal texts, with the separator before it. -/
theorem append_record_unique {m n : ℕ} {a b : List α} {x y : α} (hp : Sized m n p)
    (hq : Sized m n q) (h : a ++ x :: record inner p = b ++ y :: record inner q) :
    a = b ∧ x = y ∧ p = q := by
  obtain ⟨hab, hrest⟩ := List.append_inj' h (by
    rw [List.length_cons, List.length_cons, record_length hp, record_length hq])
  obtain ⟨hxy, hrec⟩ := List.cons.inj hrest
  obtain ⟨hfst, hsnd⟩ := List.append_inj hrec (hp.1.trans hq.1.symm)
  exact ⟨hab, hxy, Prod.ext hfst (List.cons.inj hsnd).2⟩

/-- Records of fixed lengths behind a prefix are read back in one way, from the
end: the separator before a record says whether another record or the prefix
comes before it. -/
theorem prefixed_records_injective {m n : ℕ} (hmark : mark ≠ outer) {d e : List α}
    (hps : ∀ p ∈ ps, Sized m n p) (hqs : ∀ q ∈ qs, Sized m n q) (hne : ps ≠ []) (hne' : qs ≠ [])
    (h : d ++ mark :: records inner outer ps = e ++ mark :: records inner outer qs) :
    d = e ∧ ps = qs := by
  have hone : ∀ r : List α × List α, records inner outer [r] = record inner r := by
    intro r
    simp [records]
  -- a text with more than one record ends in `outer` and a record
  have hmore : ∀ (a : List α) (rs : List (List α × List α)) (r : List α × List α), rs ≠ [] →
      a ++ mark :: records inner outer (rs ++ [r]) =
        (a ++ mark :: records inner outer rs) ++ outer :: record inner r := by
    intro a rs r hrs
    rw [records_snoc hrs]
    simp
  induction ps using List.reverseRecOn generalizing qs with
  | nil => exact absurd rfl hne
  | append_singleton ps p ih =>
    obtain ⟨qs, q, rfl⟩ : ∃ qs' q', qs = qs' ++ [q'] :=
      ⟨qs.dropLast, qs.getLast hne', (List.dropLast_append_getLast hne').symm⟩
    have hp := hps p (List.mem_append_right ps List.mem_cons_self)
    have hq := hqs q (List.mem_append_right qs List.mem_cons_self)
    by_cases hps₀ : ps = []
    · by_cases hqs₀ : qs = []
      · rw [hps₀, hqs₀, List.nil_append, List.nil_append, hone, hone] at h
        obtain ⟨hde, -, hpq⟩ := append_record_unique hp hq h
        exact ⟨hde, by rw [hps₀, hqs₀, hpq]⟩
      · rw [hps₀, List.nil_append, hone, hmore e qs q hqs₀] at h
        exact absurd (append_record_unique hp hq h).2.1 hmark
    · by_cases hqs₀ : qs = []
      · rw [hqs₀, List.nil_append, hone, hmore d ps p hps₀] at h
        exact absurd (append_record_unique hp hq h).2.1.symm hmark
      · rw [hmore d ps p hps₀, hmore e qs q hqs₀] at h
        obtain ⟨hrest, -, hpq⟩ := append_record_unique hp hq h
        obtain ⟨hde, hpsqs⟩ := ih (fun r hr => hps r (List.mem_append_left _ hr))
          (fun r hr => hqs r (List.mem_append_left _ hr)) hps₀ hqs₀ hrest
        exact ⟨hde, by rw [hpsqs, hpq]⟩

end Records

end Separated
