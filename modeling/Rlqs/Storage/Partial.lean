import Rlqs.Storage.Breaker

/-!
# RLQS storage — pipelines that are executed in part

A pipeline is not a transaction. When `pipe.Exec` returns an error, Redis may
have executed any part of it (`Outcome.executed`), and `RecordUsage` puts the
whole report into the fallback all the same.

A counter only depends on the commands that touch it (`execAll_touching`), and a
pipeline of the store holds at most one `HINCRBY` for each counter, so what
becomes of a counter is a question about one command: whether it was executed,
and whether the sum fits 64 bits (`executed_count`).

* `recordUsage_total` — what a call adds to Redis and the fallback together;
* `counted_once_iff` — when that is exactly the report.
-/

namespace Rlqs

deriving instance DecidableEq for Command

-- ---------------------------------------------------------------------------
-- One counter
-- ---------------------------------------------------------------------------

/-- A sum that `HINCRBY` accepts. -/
def FitsInt64 (n : Int) : Prop := -2 ^ 63 ≤ n ∧ n < 2 ^ 63

instance fitsInt64Decidable (n : Int) : Decidable (FitsInt64 n) :=
  inferInstanceAs (Decidable (_ ∧ _))

/-- The command can change the counter. -/
def Command.touches (k : BucketKey) (f : Field) : Command → Bool
  | .hIncrBy k' f' _ => k' = k ∧ f' = f
  | .expire _ _ => false
  | .del k' => k' = k

theorem Redis.exec_hIncrBy_fits {r : Redis} {k : BucketKey} {f : Field} {n : Int}
    (h : FitsInt64 (r.count k f + n)) :
    r.exec (.hIncrBy k f n) = (r.write k f (r.count k f + n), none) := if_pos h

theorem Redis.exec_hIncrBy_overflow {r : Redis} {k : BucketKey} {f : Field} {n : Int}
    (h : ¬ FitsInt64 (r.count k f + n)) :
    r.exec (.hIncrBy k f n) =
      (r, some (.command "ERR increment or decrement would overflow")) := if_neg h

theorem Redis.exec_hIncrBy_count (r : Redis) (k : BucketKey) (f : Field) (n : Int) :
    (r.exec (.hIncrBy k f n)).1.count k f =
      r.count k f + if FitsInt64 (r.count k f + n) then n else 0 := by
  by_cases hfits : FitsInt64 (r.count k f + n)
  · rw [Redis.exec_hIncrBy_fits hfits, if_pos hfits, Redis.count_write, if_pos ⟨rfl, rfl⟩]
  · rw [Redis.exec_hIncrBy_overflow hfits, if_neg hfits, add_zero]

theorem Redis.exec_hIncrBy_error (r : Redis) (k : BucketKey) (f : Field) (n : Int) :
    (r.exec (.hIncrBy k f n)).2 = none ↔ FitsInt64 (r.count k f + n) := by
  by_cases hfits : FitsInt64 (r.count k f + n)
  · simp [Redis.exec_hIncrBy_fits hfits, hfits]
  · simp [Redis.exec_hIncrBy_overflow hfits, hfits]

theorem Redis.exec_untouched (r : Redis) {c : Command} {k : BucketKey} {f : Field}
    (h : c.touches k f = false) : (r.exec c).1.count k f = r.count k f := by
  cases c with
  | hIncrBy k' f' n =>
    have hother : ¬ (k = k' ∧ f = f') := by
      rintro ⟨rfl, rfl⟩
      simp [Command.touches] at h
    unfold Redis.exec
    dsimp only
    split
    · rw [Redis.count_write, if_neg hother]
    · rfl
  | expire k' ttl => rfl
  | del k' =>
    have hother : k ≠ k' := by
      rintro rfl
      simp [Command.touches] at h
    simp only [Redis.exec, Redis.count, if_neg hother]

/-- What a command makes of a counter it touches depends on that counter only. -/
theorem Redis.exec_touching {r r' : Redis} {c : Command} {k : BucketKey} {f : Field}
    (h : c.touches k f = true) (hcount : r.count k f = r'.count k f) :
    (r.exec c).1.count k f = (r'.exec c).1.count k f := by
  cases c with
  | hIncrBy k' f' n =>
    simp only [Command.touches, decide_eq_true_eq] at h
    obtain ⟨rfl, rfl⟩ := h
    rw [Redis.exec_hIncrBy_count, Redis.exec_hIncrBy_count, hcount]
  | expire k' ttl => simp [Command.touches] at h
  | del k' =>
    simp only [Command.touches, decide_eq_true_eq] at h
    simp [Redis.exec, Redis.count, h]

/-- A counter after a list of commands: only those that touch it matter. -/
theorem Redis.execAll_touching {cmds : List Command} {k : BucketKey} {f : Field} :
    ∀ {r r' : Redis}, r.count k f = r'.count k f →
      (r.execAll cmds).1.count k f =
        (r'.execAll (cmds.filter (Command.touches k f))).1.count k f := by
  induction cmds with
  | nil => exact fun h => h
  | cons c cs ih =>
    intro r r' hcount
    rw [Redis.execAll_cons]
    cases hc : c.touches k f with
    | true =>
      rw [List.filter_cons_of_pos hc, Redis.execAll_cons]
      exact ih (Redis.exec_touching hc hcount)
    | false =>
      rw [List.filter_cons_of_neg (by simp [hc])]
      exact ih ((Redis.exec_untouched r hc).trans hcount)

/-- If no command is refused, none of those that touch a counter is refused without the
others. -/
theorem Redis.execAll_touching_answered {cmds : List Command} {k : BucketKey} {f : Field} :
    ∀ {r r' : Redis}, r.count k f = r'.count k f → (r.execAll cmds).2 = none →
      (r'.execAll (cmds.filter (Command.touches k f))).2 = none := by
  induction cmds with
  | nil => exact fun _ _ => rfl
  | cons c cs ih =>
    intro r r' hcount hnone
    rw [Redis.execAll_cons, Option.or_eq_none_iff] at hnone
    cases hc : c.touches k f with
    | true =>
      rw [List.filter_cons_of_pos hc, Redis.execAll_cons, Option.or_eq_none_iff]
      refine ⟨?_, ih (Redis.exec_touching hc hcount) hnone.2⟩
      cases c with
      | hIncrBy k' f' n =>
        simp only [Command.touches, decide_eq_true_eq] at hc
        obtain ⟨rfl, rfl⟩ := hc
        rw [Redis.exec_hIncrBy_error, ← hcount, ← Redis.exec_hIncrBy_error]
        exact hnone.1
      | expire k' ttl => rfl
      | del k' => rfl
    | false =>
      rw [List.filter_cons_of_neg (by simp [hc])]
      exact ih ((Redis.exec_untouched r hc).trans hcount) hnone.2

-- ---------------------------------------------------------------------------
-- Pipelines in part
-- ---------------------------------------------------------------------------

/-- What the one increment of a counter in a pipeline adds to it: its amount, if it
was executed and the sum fits. -/
def landed (r : Redis) (o : Outcome) (cmds : List Command) (k : BucketKey) (f : Field) (n : Int) :
    Int :=
  if .hIncrBy k f n ∈ o.executed cmds ∧ FitsInt64 (r.count k f + n) then n else 0

theorem landed_zero (r : Redis) (o : Outcome) (cmds : List Command) (k : BucketKey) (f : Field) :
    landed r o cmds k f 0 = 0 := ite_self 0

theorem landed_cases (r : Redis) (o : Outcome) (cmds : List Command) (k : BucketKey) (f : Field)
    (n : Int) :
    (landed r o cmds k f n = n ∧ .hIncrBy k f n ∈ o.executed cmds ∧ FitsInt64 (r.count k f + n)) ∨
    (landed r o cmds k f n = 0 ∧
      ¬ (.hIncrBy k f n ∈ o.executed cmds ∧ FitsInt64 (r.count k f + n))) := by
  by_cases h : .hIncrBy k f n ∈ o.executed cmds ∧ FitsInt64 (r.count k f + n)
  · exact Or.inl ⟨if_pos h, h⟩
  · exact Or.inr ⟨if_neg h, h⟩

/-- A pipeline that touches a counter once. -/
theorem executed_count {r : Redis} {o : Outcome} {cmds : List Command} {k : BucketKey} {f : Field}
    {n : Int} (hone : cmds.filter (Command.touches k f) = [.hIncrBy k f n]) :
    (r.runPipeline cmds o).1.count k f = r.count k f + landed r o cmds k f n := by
  have hsub : ((o.executed cmds).filter (Command.touches k f)).Sublist [.hIncrBy k f n] :=
    hone ▸ (o.executed_sublist cmds).filter _
  have hmem : .hIncrBy k f n ∈ o.executed cmds ↔
      .hIncrBy k f n ∈ (o.executed cmds).filter (Command.touches k f) := by
    rw [List.mem_filter]
    simp [Command.touches]
  rw [Redis.runPipeline_fst, Redis.execAll_touching (@rfl _ (r.count k f))]
  unfold landed
  rcases List.sublist_singleton.mp hsub with hnone | hexec
  · have hnot : .hIncrBy k f n ∉ o.executed cmds := by
      rw [hmem, hnone]
      exact List.not_mem_nil
    rw [hnone, if_neg fun h => hnot h.1, add_zero]
    rfl
  · have hran : .hIncrBy k f n ∈ o.executed cmds := by
      rw [hmem, hexec]
      exact List.mem_singleton_self _
    rw [hexec]
    show (r.exec (.hIncrBy k f n)).1.count k f = _
    rw [Redis.exec_hIncrBy_count]
    simp only [hran, true_and]

/-- A pipeline that does not touch a counter. -/
theorem executed_untouched {r : Redis} {o : Outcome} {cmds : List Command} {k : BucketKey}
    {f : Field} (hnone : cmds.filter (Command.touches k f) = []) :
    (r.runPipeline cmds o).1.count k f = r.count k f := by
  have hsub : ((o.executed cmds).filter (Command.touches k f)).Sublist [] :=
    hnone ▸ (o.executed_sublist cmds).filter _
  rw [Redis.runPipeline_fst, Redis.execAll_touching (@rfl _ (r.count k f)),
    List.sublist_nil.mp hsub]
  rfl

-- ---------------------------------------------------------------------------
-- The store's pipelines
-- ---------------------------------------------------------------------------

theorem recordCommands_touching (key : BucketKey) (ttl : Nanos) (report : UsageReport)
    (f : Field) :
    (recordCommands key ttl report).filter (Command.touches key f) =
      [.hIncrBy key f (int64 (report.amount f))] := by
  cases f <;> simp [recordCommands, Command.touches, UsageReport.amount]

theorem recordCommands_untouching {key k : BucketKey} (hk : k ≠ key) (ttl : Nanos)
    (report : UsageReport) (f : Field) :
    (recordCommands key ttl report).filter (Command.touches k f) = [] := by
  simp [recordCommands, Command.touches, hk.symm]

/-- The reply to a record pipeline that was executed as a whole. -/
theorem recordCommands_reached (r : Redis) (key : BucketKey) (ttl : Nanos) (report : UsageReport) :
    (r.execAll (recordCommands key ttl report)).2 = none ↔
      ∀ f, FitsInt64 (r.count key f + int64 (report.amount f)) := by
  -- the first increment does not move the second counter
  have hother : (r.exec (.hIncrBy key .allowed (int64 report.numRequestsAllowed))).1.count key
      .denied = r.count key .denied := by
    apply Redis.exec_untouched
    simp [Command.touches]
  have hfields : (∀ f, FitsInt64 (r.count key f + int64 (report.amount f))) ↔
      FitsInt64 (r.count key .allowed + int64 report.numRequestsAllowed) ∧
      FitsInt64 (r.count key .denied + int64 report.numRequestsDenied) := by
    refine ⟨fun h => ⟨h .allowed, h .denied⟩, fun h f => ?_⟩
    cases f with
    | allowed => exact h.1
    | denied => exact h.2
  unfold recordCommands
  rw [hfields, Redis.execAll_cons, Redis.execAll_cons]
  dsimp only
  rw [Option.or_eq_none_iff, Option.or_eq_none_iff, Redis.exec_hIncrBy_error,
    Redis.exec_hIncrBy_error, hother]
  simp [Redis.execAll, Redis.exec]

theorem entryCommands_touching (ttl : Nanos) (e : Σ _ : BucketKey, UsageState) (k : BucketKey)
    (f : Field) :
    (entryCommands ttl e).filter (Command.touches k f) =
      if k = e.1 then counterCommand k f (e.2.amount f) else [] := by
  have hcounter : ∀ f', (counterCommand e.1 f' (e.2.amount f')).filter (Command.touches k f) =
      if k = e.1 ∧ f = f' then counterCommand e.1 f' (e.2.amount f') else [] := by
    intro f'
    unfold counterCommand
    split
    · by_cases h : k = e.1 ∧ f = f'
      · simp [Command.touches, h]
      · rw [if_neg h]
        simp only [Command.touches, List.filter_cons, List.filter_nil, decide_eq_true_eq]
        exact if_neg fun h' => h ⟨h'.1.symm, h'.2.symm⟩
    · simp
  have hsplit : entryCommands ttl e = counterCommand e.1 .allowed (e.2.amount .allowed) ++
      counterCommand e.1 .denied (e.2.amount .denied) ++ [.expire e.1 ttl] := rfl
  rw [hsplit, List.filter_append, List.filter_append, hcounter, hcounter]
  by_cases hk : k = e.1
  · cases f <;> simp [hk, Command.touches]
  · simp [hk, Command.touches]

theorem entries_touching (ttl : Nanos) (k : BucketKey) (f : Field)
    {es : List (Σ _ : BucketKey, UsageState)} (hnodup : es.NodupKeys) :
    (es.flatMap (entryCommands ttl)).filter (Command.touches k f) =
      counterCommand k f (((es.dlookup k).map fun st => st.amount f).getD 0) := by
  induction es with
  | nil => rfl
  | cons e es ih =>
    obtain ⟨hnotin, hrest⟩ := List.nodupKeys_cons.mp hnodup
    rw [List.flatMap_cons, List.filter_append, entryCommands_touching, ih hrest]
    obtain ⟨key, st⟩ := e
    by_cases hk : k = key
    · subst hk
      rw [if_pos rfl, List.dlookup_eq_none.mpr hnotin, List.dlookup_cons_eq]
      simp [counterCommand]
    · rw [if_neg hk, List.dlookup_cons_ne _ _ hk, List.nil_append]

/-- The counter of the in-memory store as it is stored. -/
def MemoryStorage.counter (s : MemoryStorage) (k : BucketKey) (f : Field) : UInt64 :=
  ((s.get k).map fun st => st.amount f).getD 0

theorem MemoryStorage.toNat_counter (s : MemoryStorage) (k : BucketKey) (f : Field) :
    (s.counter k f).toNat = s.count k f := by
  unfold MemoryStorage.counter MemoryStorage.count
  cases s.get k with
  | none => rfl
  | some st => rfl

/-- The flush holds the increment of a counter that is not zero, and no other
command for it. -/
theorem flushCommands_touching (ttl : Nanos) (entries : GoMap BucketKey UsageState) (k : BucketKey)
    (f : Field) :
    (flushCommands ttl entries).filter (Command.touches k f) =
      counterCommand k f (MemoryStorage.counter ⟨entries⟩ k f) :=
  entries_touching ttl k f entries.nodupKeys

theorem int64_of_not_pos {u : UInt64} (h : ¬ 0 < u) : int64 u = 0 := by
  rw [UInt64.lt_iff_toNat_lt] at h
  obtain rfl : u = 0 := UInt64.toNat_inj.mp (Nat.eq_zero_of_not_pos h)
  exact int64_of_lt (by decide)

/-- A counter after a flush. A counter that is zero adds nothing, whether there is a
command for it or not. -/
theorem flush_count (r : Redis) (o : Outcome) (ttl : Nanos) (entries : GoMap BucketKey UsageState)
    (k : BucketKey) (f : Field) :
    (r.runPipeline (flushCommands ttl entries) o).1.count k f = r.count k f +
      landed r o (flushCommands ttl entries) k f
        (int64 (MemoryStorage.counter ⟨entries⟩ k f)) := by
  by_cases hpos : 0 < MemoryStorage.counter ⟨entries⟩ k f
  · apply executed_count
    rw [flushCommands_touching, counterCommand, if_pos hpos]
  · rw [executed_untouched (by rw [flushCommands_touching, counterCommand, if_neg hpos]),
      int64_of_not_pos hpos, landed_zero, add_zero]

/-- A flush without an error adds every counter of the entries. -/
theorem flush_answered {r : Redis} {ttl : Nanos} {entries : GoMap BucketKey UsageState}
    (h : (r.execAll (flushCommands ttl entries)).2 = none) (k : BucketKey) (f : Field) :
    (r.execAll (flushCommands ttl entries)).1.count k f =
      r.count k f + int64 (MemoryStorage.counter ⟨entries⟩ k f) := by
  have hown := Redis.execAll_touching_answered (@rfl _ (r.count k f)) h
  rw [Redis.execAll_touching (@rfl _ (r.count k f))]
  rw [flushCommands_touching] at hown ⊢
  by_cases hpos : 0 < MemoryStorage.counter ⟨entries⟩ k f
  · rw [counterCommand, if_pos hpos, Redis.execAll_cons] at hown ⊢
    rw [Option.or_eq_none_iff, Redis.exec_hIncrBy_error] at hown
    exact (Redis.exec_hIncrBy_count r k f _).trans (by rw [if_pos hown.1])
  · rw [counterCommand, if_neg hpos, int64_of_not_pos hpos, add_zero]
    rfl

-- ---------------------------------------------------------------------------
-- A call's parts and the two counters
-- ---------------------------------------------------------------------------

/-- The two readings of `int64(u)`. -/
theorem int64_cases (u : UInt64) :
    (u.toNat < 2 ^ 63 ∧ int64 u = u.toNat) ∨
    (2 ^ 63 ≤ u.toNat ∧ int64 u = (u.toNat : Int) - 2 ^ 64) := by
  have hlt := u.toNat_lt
  by_cases hsmall : u.toNat < 2 ^ 63
  · exact Or.inl ⟨hsmall, int64_of_lt hsmall⟩
  · refine Or.inr ⟨not_lt.mp hsmall, ?_⟩
    unfold int64 Int.bmod
    norm_num at hsmall hlt ⊢
    omega

section Parts

variable (s : RedisStorage) (env : Env) (domain : Str) (report : UsageReport) (f : Field)

/-- The call's own pipeline is executed and no counter overflows. -/
def Succeeds : Prop :=
  env.attempt = .reached ∧ ∀ f,
    FitsInt64 (s.redis.count (report.scopedKey domain) f + int64 (report.amount f))

/-- The increment of the counter is executed by the call's own pipeline. -/
def Lands : Prop :=
  .hIncrBy (report.scopedKey domain) f (int64 (report.amount f)) ∈
      env.attempt.executed (recordCommands (report.scopedKey domain) s.keyTTL report) ∧
    FitsInt64 (s.redis.count (report.scopedKey domain) f + int64 (report.amount f))

theorem record_err_none_iff :
    (StoreCall.record env domain report).err s = none ↔ Succeeds s env domain report := by
  unfold Succeeds
  rw [← recordCommands_reached s.redis _ s.keyTTL report]
  show (s.redis.runPipeline _ env.attempt).2 = none ↔ _
  cases env.attempt with
  | reached => simp [Redis.runPipeline, StoreCall.commands]
  | failed ran e => simp [Redis.runPipeline]

/-- What the call's own pipeline adds to the counter in Redis. -/
def ownLanded : Int :=
  landed s.redis env.attempt (recordCommands (report.scopedKey domain) s.keyTTL report)
    (report.scopedKey domain) f (int64 (report.amount f))

theorem not_succeeds_of_err (hfail : ((StoreCall.record env domain report).err s).isSome = true) :
    ¬ Succeeds s env domain report := by
  rw [← record_err_none_iff]
  intro hnone
  simp [hnone] at hfail

theorem attempted_count :
    ((StoreCall.record env domain report).attempted s).redis.count (report.scopedKey domain) f =
      s.redis.count (report.scopedKey domain) f +
        ownLanded s env domain report f :=
  executed_count (recordCommands_touching _ s.keyTTL report f)

/-- Recovery adds the fallback's counter if its increment was executed, and empties
the fallback. -/
theorem recover_count (o : Outcome) (k : BucketKey) :
    (s.recoverFromFallback o).redis.count k f = s.redis.count k f +
      landed s.redis o (flushCommands s.keyTTL s.fallback.all) k f
        (int64 (s.fallback.counter k f)) ∧
    (s.recoverFromFallback o).fallback.count k f = 0 := by
  have hflush := flush_count s.redis o s.keyTTL s.fallback.all k f
  unfold RedisStorage.recoverFromFallback RedisStorage.flushFallback
  dsimp only
  by_cases hlen : GoMap.len s.fallback.all = 0
  · rw [if_pos hlen]
    have hempty : s.fallback.all = ∅ := GoMap.keys_eq_nil_iff.mp (List.length_eq_zero_iff.mp hlen)
    have hsame : (s.redis.runPipeline (flushCommands s.keyTTL s.fallback.all) o).1.count k f =
        s.redis.count k f := executed_untouched (by rw [hempty]; rfl)
    refine ⟨hsame.symm.trans hflush, ?_⟩
    show ((s.fallback.all.lookup k).map fun st => (st.amount f).toNat).getD 0 = 0
    rw [hempty]
    rfl
  · rw [if_neg hlen]
    exact ⟨hflush, rfl⟩

/-- The call logs that it drops its report. -/
def DropsReport : Prop :=
  s.log.countP LogLine.isDropping <
    (s.recordUsage env domain report).1.log.countP LogLine.isDropping

/-- Redis and the fallback together. -/
def RedisStorage.total (s : RedisStorage) (k : BucketKey) (f : Field) : Int :=
  s.redis.count k f + s.fallback.count k f

/-- A report in the fallback: the sum is kept modulo 2^64. -/
theorem fallbackRecord_total :
    (s.fallbackRecord domain report).1.total (report.scopedKey domain) f =
      s.redis.count (report.scopedKey domain) f +
        ((s.fallback.count (report.scopedKey domain) f +
          (report.amount f).toNat) % 2 ^ 64 : ℕ) := by
  show s.redis.count _ f + ((s.fallback.recordUsage domain report).count _ f : Int) = _
  rw [MemoryStorage.count_recordUsage, if_pos rfl]

/-- A tripped call that does not drop its report adds it to the fallback. -/
theorem recordTripped_total (hkept : ¬ s.log.countP LogLine.isDropping <
      (s.recordTripped domain report).1.log.countP LogLine.isDropping) :
    (s.recordTripped domain report).1.total (report.scopedKey domain) f =
      s.redis.count (report.scopedKey domain) f +
        ((s.fallback.count (report.scopedKey domain) f +
          (report.amount f).toNat) % 2 ^ 64 : ℕ) := by
  unfold RedisStorage.recordTripped at hkept ⊢
  split at hkept
  · exact absurd (by simp [LogLine.isDropping]) hkept
  · rename_i hroom
    rw [if_neg hroom]
    exact fallbackRecord_total s domain report f

/-- What must hold for a counter of the report to be counted exactly once. A call
that does not try Redis: the fallback's counter does not wrap. A call whose
pipeline succeeds: the amount is below 2^63, and if the call recovers, what the
fallback holds of the counter reaches Redis with the flush. A call whose pipeline
fails: the counter's increment was not executed all the same, or adds nothing. -/
def CountsOnce : Prop :=
  ((StoreCall.record env domain report).attempts s = false →
    s.fallback.count (report.scopedKey domain) f + (report.amount f).toNat < 2 ^ 64) ∧
  ((StoreCall.record env domain report).attempts s = true → Succeeds s env domain report →
    (report.amount f).toNat < 2 ^ 63 ∧
    (s.tripped = true → s.fallback.count (report.scopedKey domain) f = 0 ∨
      (s.fallback.count (report.scopedKey domain) f < 2 ^ 63 ∧
        .hIncrBy (report.scopedKey domain) f (s.fallback.count (report.scopedKey domain) f) ∈
          env.flush.executed (flushCommands s.keyTTL s.fallback.all) ∧
        s.total (report.scopedKey domain) f + (report.amount f).toNat < 2 ^ 63))) ∧
  ((StoreCall.record env domain report).attempts s = true → ¬ Succeeds s env domain report →
    (report.amount f = 0 ∨ ¬ Lands s env domain report f) ∧
    s.fallback.count (report.scopedKey domain) f + (report.amount f).toNat < 2 ^ 64)

theorem ownLanded_of_lands (h : Lands s env domain report f) :
    ownLanded s env domain report f = int64 (report.amount f) := if_pos h

theorem ownLanded_of_not_lands (h : ¬ Lands s env domain report f) :
    ownLanded s env domain report f = 0 := if_neg h

/-- The increment of a pipeline that succeeds lands. -/
theorem Succeeds.lands (h : Succeeds s env domain report) : Lands s env domain report f := by
  refine ⟨?_, h.2 f⟩
  rw [h.1]
  show .hIncrBy _ f _ ∈ recordCommands _ _ _
  cases f <;> simp [recordCommands, UsageReport.amount]

theorem int64_eq_zero_iff (u : UInt64) : int64 u = 0 ↔ u = 0 := by
  have hlt := u.toNat_lt
  have hnat : u = 0 ↔ u.toNat = 0 := by
    rw [← UInt64.toNat_inj]
    rfl
  rw [hnat]
  rcases int64_cases u with ⟨hsmall, h⟩ | ⟨hlarge, h⟩
  · omega
  · omega

theorem ownLanded_eq_zero_iff :
    ownLanded s env domain report f = 0 ↔
      report.amount f = 0 ∨ ¬ Lands s env domain report f := by
  by_cases hlands : Lands s env domain report f
  · rw [ownLanded_of_lands s env domain report f hlands, int64_eq_zero_iff]
    simp [hlands]
  · simp [ownLanded_of_not_lands s env domain report f hlands, hlands]

/-- What was executed of the pipeline and the whole report in the fallback make up
the report exactly if nothing was executed and the fallback does not wrap. -/
theorem spilled_iff (n : Int) :
    n + ownLanded s env domain report f +
      ((s.fallback.count (report.scopedKey domain) f + (report.amount f).toNat) % 2 ^ 64 : ℕ) =
      n + s.fallback.count (report.scopedKey domain) f + (report.amount f).toNat ↔
    (report.amount f = 0 ∨ ¬ Lands s env domain report f) ∧
      s.fallback.count (report.scopedKey domain) f + (report.amount f).toNat < 2 ^ 64 := by
  rw [← ownLanded_eq_zero_iff]
  have hbounds : -2 ^ 63 ≤ ownLanded s env domain report f ∧
      ownLanded s env domain report f < 2 ^ 63 := by
    by_cases hlands : Lands s env domain report f
    · rw [ownLanded_of_lands s env domain report f hlands]
      exact int64_bounds _
    · rw [ownLanded_of_not_lands s env domain report f hlands]
      decide
  have hfb := s.fallback.count_lt (report.scopedKey domain) f
  have hn := (report.amount f).toNat_lt
  omega

/-- A pipeline that succeeds adds the amount, as Redis reads it. -/
theorem attempted_count_of_succeeds (hsucceeds : Succeeds s env domain report) :
    ((StoreCall.record env domain report).attempted s).redis.count (report.scopedKey domain) f =
      s.redis.count (report.scopedKey domain) f + int64 (report.amount f) := by
  rw [attempted_count, ownLanded_of_lands s env domain report f
    (hsucceeds.lands s env domain report f)]

/-- A call that recovers adds the amount and what the flush brings of the fallback. -/
theorem recovered_total (hsucceeds : Succeeds s env domain report) :
    (((StoreCall.record env domain report).attempted s).recoverFromFallback
        env.flush).total (report.scopedKey domain) f =
      s.redis.count (report.scopedKey domain) f + int64 (report.amount f) +
        landed ((StoreCall.record env domain report).attempted s).redis env.flush
          (flushCommands s.keyTTL s.fallback.all) (report.scopedKey domain) f
          (int64 (s.fallback.counter (report.scopedKey domain) f)) := by
  obtain ⟨hredis, hfallback⟩ := recover_count ((StoreCall.record env domain report).attempted s) f
    env.flush (report.scopedKey domain)
  unfold RedisStorage.total
  rw [hredis, hfallback, attempted_count_of_succeeds s env domain report f hsucceeds]
  exact add_zero _

/-- A call that recovers: the amount and the fallback's counter make up the sum
exactly if both reach Redis with their own values. -/
theorem recovered_iff (hsucceeds : Succeeds s env domain report) :
    (((StoreCall.record env domain report).attempted s).recoverFromFallback
        env.flush).total (report.scopedKey domain) f =
      s.total (report.scopedKey domain) f + (report.amount f).toNat ↔
    (report.amount f).toNat < 2 ^ 63 ∧
      (s.fallback.count (report.scopedKey domain) f = 0 ∨
      (s.fallback.count (report.scopedKey domain) f < 2 ^ 63 ∧
        .hIncrBy (report.scopedKey domain) f (s.fallback.count (report.scopedKey domain) f) ∈
          env.flush.executed (flushCommands s.keyTTL s.fallback.all) ∧
        s.total (report.scopedKey domain) f + (report.amount f).toNat < 2 ^ 63)) := by
  have hown := attempted_count_of_succeeds s env domain report f hsucceeds
  have hfits := hsucceeds.2 f
  have hcounter := s.fallback.toNat_counter (report.scopedKey domain) f
  have hlanded := landed_cases ((StoreCall.record env domain report).attempted s).redis env.flush
    (flushCommands s.keyTTL s.fallback.all) (report.scopedKey domain) f
    (int64 (s.fallback.counter (report.scopedKey domain) f))
  rw [recovered_total s env domain report f hsucceeds]
  rw [hown] at hlanded
  unfold RedisStorage.total
  unfold FitsInt64 at hfits hlanded
  rcases int64_cases (report.amount f) with ⟨ha, hamount⟩ | ⟨ha, hamount⟩
  · rcases int64_cases (s.fallback.counter (report.scopedKey domain) f) with ⟨hb, hfb⟩ | ⟨hb, hfb⟩
    · -- both are read as they are
      rw [hamount] at hlanded hfits ⊢
      rw [hfb, hcounter] at hlanded ⊢
      rcases hlanded with ⟨hadds, hexec, hlow, hhigh⟩ | ⟨hadds, hlost⟩
      · rw [hadds]
        exact ⟨fun _ => ⟨ha, Or.inr ⟨by omega, hexec, by omega⟩⟩, fun _ => by omega⟩
      · rw [hadds]
        refine ⟨fun h => ⟨ha, Or.inl (by omega)⟩, ?_⟩
        rintro ⟨-, hzero | ⟨-, hexec, hfits'⟩⟩
        · omega
        · exact absurd ⟨hexec, by omega, by omega⟩ hlost
    · -- a fallback counter of 2^63 or more cannot be flushed with its own value
      rcases hlanded with ⟨hadds, -⟩ | ⟨hadds, -⟩
      · exact ⟨fun h => by omega, fun h => by omega⟩
      · exact ⟨fun h => by omega, fun h => by omega⟩
  · -- nor an amount of 2^63 or more be written
    have hbounds := int64_bounds (s.fallback.counter (report.scopedKey domain) f)
    rcases hlanded with ⟨hadds, -⟩ | ⟨hadds, -⟩
    · exact ⟨fun h => by omega, fun h => by omega⟩
    · exact ⟨fun h => by omega, fun h => by omega⟩

/-- A call on a closed breaker: the amount reaches Redis with its own value or not. -/
theorem written_iff (hsucceeds : Succeeds s env domain report) :
    ((StoreCall.record env domain report).attempted s).total (report.scopedKey domain) f =
      s.total (report.scopedKey domain) f + (report.amount f).toNat ↔
    (report.amount f).toNat < 2 ^ 63 := by
  have hcount := attempted_count_of_succeeds s env domain report f hsucceeds
  have htotal : ((StoreCall.record env domain report).attempted s).total
      (report.scopedKey domain) f =
      s.total (report.scopedKey domain) f + int64 (report.amount f) := by
    show ((StoreCall.record env domain report).attempted s).redis.count _ f +
      (s.fallback.count _ f : Int) = s.redis.count _ f + s.fallback.count _ f + _
    omega
  rw [htotal]
  rcases int64_cases (report.amount f) with ⟨hsmall, h⟩ | ⟨hlarge, h⟩
  · omega
  · omega

/-- The condition of a call whose pipeline succeeds. -/
theorem countsOnce_of_succeeds
    (hattempts : (StoreCall.record env domain report).attempts s = true)
    (hsucceeds : Succeeds s env domain report) :
    CountsOnce s env domain report f ↔
      (report.amount f).toNat < 2 ^ 63 ∧
      (s.tripped = true → s.fallback.count (report.scopedKey domain) f = 0 ∨
        (s.fallback.count (report.scopedKey domain) f < 2 ^ 63 ∧
          .hIncrBy (report.scopedKey domain) f (s.fallback.count (report.scopedKey domain) f) ∈
            env.flush.executed (flushCommands s.keyTTL s.fallback.all) ∧
          s.total (report.scopedKey domain) f + (report.amount f).toNat < 2 ^ 63)) := by
  unfold CountsOnce
  simp only [hattempts, hsucceeds, not_true_eq_false, reduceCtorEq, false_implies, true_and,
    and_true, implies_true, forall_const]

/-- The condition of a call whose pipeline fails. -/
theorem countsOnce_of_fails
    (hattempts : (StoreCall.record env domain report).attempts s = true)
    (hfails : ¬ Succeeds s env domain report) :
    CountsOnce s env domain report f ↔
      (report.amount f = 0 ∨ ¬ Lands s env domain report f) ∧
      s.fallback.count (report.scopedKey domain) f + (report.amount f).toNat < 2 ^ 64 := by
  unfold CountsOnce
  simp only [hattempts, hfails, not_false_eq_true, reduceCtorEq, false_implies, true_and,
    forall_const]

/-- The condition of a call that does not try Redis. -/
theorem countsOnce_of_waits
    (hattempts : (StoreCall.record env domain report).attempts s = false) :
    CountsOnce s env domain report f ↔
      s.fallback.count (report.scopedKey domain) f + (report.amount f).toNat < 2 ^ 64 := by
  unfold CountsOnce
  simp only [hattempts, reduceCtorEq, false_implies, and_true, forall_const]

end Parts

/-- **Counted exactly once.** For every state, every report and every failure
pattern, a call that does not drop the report raises Redis and the fallback
together by exactly the reported amount if and only if the counter `CountsOnce`. -/
theorem counted_once_iff {s : RedisStorage} {env : Env} {domain : Str} {report : UsageReport}
    (hkept : ¬ DropsReport s env domain report) (f : Field) :
    (s.recordUsage env domain report).1.total (report.scopedKey domain) f =
        s.total (report.scopedKey domain) f + (report.amount f).toNat ↔
      CountsOnce s env domain report f := by
  have hrun : (s.recordUsage env domain report).1 = (StoreCall.record env domain report).run s :=
    rfl
  have hcount := attempted_count s env domain report f
  have herr := record_err_none_iff s env domain report
  unfold DropsReport at hkept
  rw [hrun] at hkept ⊢
  rcases (StoreCall.record env domain report).run_cases s with
    ⟨ht, hok, hres⟩ | ⟨ht, hfail, hres⟩ | ⟨ht, hr, hok, hres⟩ | ⟨ht, hr, hfail, hres⟩ |
    ⟨ht, hr, hres⟩
  · -- written to Redis
    have hsucceeds := herr.mp hok
    have hattempts : (StoreCall.record env domain report).attempts s = true :=
      StoreCall.attempts_of_closed ht
    rw [hres, countsOnce_of_succeeds s env domain report f hattempts hsucceeds,
      written_iff s env domain report f hsucceeds]
    simp [ht]
  · -- the call that trips the breaker
    have hfails := not_succeeds_of_err s env domain report hfail
    have htotal := fallbackRecord_total
      (((StoreCall.record env domain report).attempted s).trip env.now) domain report f
    have hredis : (((StoreCall.record env domain report).attempted s).trip env.now).redis.count
        (report.scopedKey domain) f = _ := hcount
    rw [hredis] at htotal
    rw [hres, countsOnce_of_fails s env domain report f (StoreCall.attempts_of_closed ht) hfails]
    exact htotal ▸ spilled_iff s env domain report f _
  · -- written to Redis, and recovered
    have hsucceeds := herr.mp hok
    rw [hres, countsOnce_of_succeeds s env domain report f (StoreCall.attempts_of_retry hr)
      hsucceeds]
    simp only [ht, forall_const]
    exact recovered_iff s env domain report f hsucceeds
  · -- a retry that failed
    have hfails := not_succeeds_of_err s env domain report hfail
    rw [hres] at hkept ⊢
    have htotal := recordTripped_total ((StoreCall.record env domain report).attempted s) domain
      report f hkept
    rw [hcount] at htotal
    rw [countsOnce_of_fails s env domain report f (StoreCall.attempts_of_retry hr) hfails]
    exact htotal ▸ spilled_iff s env domain report f _
  · -- no retry yet
    have hattempts : (StoreCall.record env domain report).attempts s = false := by
      simp [StoreCall.attempts, ht, hr]
    rw [hres] at hkept ⊢
    have htotal : ((StoreCall.record env domain report).whileTripped s).total
        (report.scopedKey domain) f = _ := recordTripped_total s domain report f hkept
    rw [htotal, countsOnce_of_waits s env domain report f hattempts]
    have hfb := s.fallback.count_lt (report.scopedKey domain) f
    have hn := (report.amount f).toNat_lt
    unfold RedisStorage.total
    omega

/-- Redis is down: nothing was executed, and the report is in the fallback once. -/
theorem counted_once_in_fallback :
    ((newRedisStorage ⟨0, 0⟩ emptyRedis).recordUsage ⟨0, .failed [] .unreachable, .reached⟩ [100]
      sampleReport).1.total sampleKey .allowed =
        (newRedisStorage ⟨0, 0⟩ emptyRedis).total sampleKey .allowed + 5 := by
  have hkept : ¬ DropsReport (newRedisStorage ⟨0, 0⟩ emptyRedis)
      ⟨0, .failed [] .unreachable, .reached⟩ [100] sampleReport := by
    unfold DropsReport
    decide
  refine (counted_once_iff hkept .allowed).mpr ⟨?_, ?_, ?_⟩
  · exact fun h => nomatch h
  · exact fun _ h => nomatch h.1
  · exact fun _ _ => ⟨Or.inr (fun h => nomatch h.1), by decide⟩

/-- The connection breaks after both increments were executed: the report is in
Redis and in the fallback. -/
theorem partial_failure_counts_twice :
    let s := newRedisStorage ⟨0, 0⟩ emptyRedis
    let env : Env := ⟨0, .failed [true, true, false] .unreachable, .reached⟩
    ¬ DropsReport s env [100] sampleReport ∧
    (s.recordUsage env [100] sampleReport).1.redis.count sampleKey .allowed = 5 ∧
    (s.recordUsage env [100] sampleReport).1.fallback.count sampleKey .allowed = 5 ∧
    (s.recordUsage env [100] sampleReport).1.total sampleKey .allowed ≠
      s.total sampleKey .allowed + 5 := by
  unfold DropsReport
  decide

end Rlqs
