import Rlqs.Storage.Breaker

/-!
# RLQS storage — what `RemoveBucket` of the Redis store deletes

`RecordUsage` and `RemoveBucket` calls one after another, with any clock and
any outcome of every pipeline, and among them a `RemoveBucket` call that finds Redis
up or down. It always returns nil. It
leaves nothing of the bucket in the fallback, and nothing in Redis when its
`DEL` got through; when Redis was not reached, what Redis holds stays there
(`removed_usage_survives_outage`). Either way no later call brings usage of
the bucket back without a new report (`removeBucket_deletes`).

The argument is a frame argument for one scoped key: a pipeline that does not
name the key leaves its hash alone, and a fallback without the key never
flushes it.
-/

namespace Rlqs

-- ---------------------------------------------------------------------------
-- Pipelines and one key
-- ---------------------------------------------------------------------------

def Command.key : Command → BucketKey
  | .hIncrBy k _ _ => k
  | .expire k _ => k
  | .del k => k

/-- A command leaves the hashes of other keys alone. -/
theorem Redis.exec_frame (r : Redis) {c : Command} {k : BucketKey} (h : c.key ≠ k) :
    (r.exec c).1.hashes k = r.hashes k := by
  cases c with
  | hIncrBy k' f n =>
    have hk : k ≠ k' := Ne.symm h
    simp only [Redis.exec]
    split
    · funext f'
      simp [Redis.write, hk]
    · rfl
  | expire k' ttl => rfl
  | del k' =>
    have hk : k ≠ k' := Ne.symm h
    funext f'
    simp [Redis.exec, hk]

theorem Redis.execAll_frame {cmds : List Command} {k : BucketKey} :
    ∀ (r : Redis), (∀ c ∈ cmds, c.key ≠ k) → (r.execAll cmds).1.hashes k = r.hashes k := by
  induction cmds with
  | nil => exact fun _ _ => rfl
  | cons c cs ih =>
    intro r h
    rw [Redis.execAll_cons]
    show ((r.exec c).1.execAll cs).1.hashes k = r.hashes k
    rw [ih _ fun d hd => h d (List.mem_cons_of_mem c hd),
      Redis.exec_frame r (h c List.mem_cons_self)]

/-- So does a pipeline, whatever part of it was executed. -/
theorem pipeline_frame (s : RedisStorage) {cmds : List Command} {k : BucketKey} (o : Outcome)
    (h : ∀ c ∈ cmds, c.key ≠ k) : (s.pipeline cmds o).1.redis.hashes k = s.redis.hashes k := by
  show (s.redis.runPipeline cmds o).1.hashes k = s.redis.hashes k
  rw [Redis.runPipeline_fst]
  exact Redis.execAll_frame s.redis fun c hc => h c ((o.executed_sublist cmds).subset hc)

theorem recordCommands_key {key : BucketKey} {ttl : Nanos} {r : UsageReport} :
    ∀ c ∈ recordCommands key ttl r, c.key = key := by
  simp [recordCommands, Command.key]

theorem entryCommands_key {ttl : Nanos} {e : Σ _ : BucketKey, UsageState} :
    ∀ c ∈ entryCommands ttl e, c.key = e.1 := by
  intro c hc
  unfold entryCommands counterCommand at hc
  simp only [List.mem_append, List.mem_singleton] at hc
  rcases hc with (hc | hc) | rfl
  · split at hc
    · rw [List.mem_singleton.mp hc]
      rfl
    · exact (List.not_mem_nil hc).elim
  · split at hc
    · rw [List.mem_singleton.mp hc]
      rfl
    · exact (List.not_mem_nil hc).elim
  · rfl

/-- The flush of a fallback without `k` does not name `k`. -/
theorem flushCommands_key {s : MemoryStorage} {k : BucketKey} (h : s.get k = none) (ttl : Nanos) :
    ∀ c ∈ flushCommands ttl s.all, c.key ≠ k := by
  intro c hc hk
  obtain ⟨e, he, hce⟩ := List.mem_flatMap.mp hc
  have hek : e.1 = k := (entryCommands_key c hce).symm.trans hk
  have hlookup : s.get e.1 = some e.2 := AList.mem_lookup_iff.mpr he
  rw [hek, h] at hlookup
  simp at hlookup

-- ---------------------------------------------------------------------------
-- One call, and a key the fallback does not hold
-- ---------------------------------------------------------------------------

/-- From `s` to `s'` nothing was added for `k`: the fallback has no entry for
it, and Redis has the hash it had or none. -/
def NothingAdded (k : BucketKey) (s s' : RedisStorage) : Prop :=
  s'.fallback.get k = none ∧
    (s'.redis.hashes k = s.redis.hashes k ∨ ∀ f, s'.redis.hashes k f = none)

section Frame

variable {k : BucketKey} {s s' s'' : RedisStorage}

theorem NothingAdded.trans (h : NothingAdded k s s') (h' : NothingAdded k s' s'') :
    NothingAdded k s s'' := by
  refine ⟨h'.1, ?_⟩
  rcases h'.2 with hsame | hnone
  · rw [hsame]
    exact h.2
  · exact Or.inr hnone

/-- Recovery of a fallback without `k`. -/
theorem recover_frame (hk : s.fallback.get k = none) (o : Outcome) :
    (s.recoverFromFallback o).fallback.get k = none ∧
      (s.recoverFromFallback o).redis.hashes k = s.redis.hashes k := by
  unfold RedisStorage.recoverFromFallback RedisStorage.flushFallback
  by_cases hlen : GoMap.len s.fallback.all = 0
  · simp only [if_pos hlen]
    exact ⟨hk, trivial⟩
  · simp only [if_neg hlen]
    exact ⟨rfl, pipeline_frame s o (flushCommands_key hk s.keyTTL)⟩

theorem recordTripped_frame {domain : Str} {r : UsageReport} (hk : s.fallback.get k = none)
    (hne : k ≠ r.scopedKey domain) :
    (s.recordTripped domain r).1.fallback.get k = none ∧
      (s.recordTripped domain r).1.redis.hashes k = s.redis.hashes k := by
  unfold RedisStorage.recordTripped
  split
  · exact ⟨hk, rfl⟩
  · refine ⟨?_, rfl⟩
    show (s.fallback.recordUsage domain r).get k = none
    rw [MemoryStorage.get_recordUsage, if_neg hne]
    exact hk

/-- A report for another key adds nothing for `k`. -/
theorem record_nothingAdded (env : Env) {domain : Str} {report : UsageReport}
    (hk : s.fallback.get k = none) (hne : k ≠ report.scopedKey domain) :
    NothingAdded k s (s.recordUsage env domain report).1 := by
  -- the attempt touches neither the fallback nor the hash of `k`
  have hatt : ∀ s₁ err,
      s.tryRedisRecordUsage (report.scopedKey domain) report env.attempt = (s₁, err) →
      s₁.fallback.get k = none ∧ s₁.redis.hashes k = s.redis.hashes k := by
    intro s₁ err heq
    have hcmds : ∀ d ∈ recordCommands (report.scopedKey domain) s.keyTTL report, d.key ≠ k := by
      intro d hd
      rw [recordCommands_key d hd]
      exact Ne.symm hne
    have hframe := pipeline_frame s env.attempt hcmds
    rw [(RedisStorage.pipeline_eq heq).1]
    exact ⟨hk, hframe⟩
  rcases RedisStorage.recordUsage_cases s env domain report with
    ⟨-, s₁, heq, hres⟩ | ⟨-, s₁, e, heq, hres⟩ | ⟨-, -, s₁, heq, hres⟩ | ⟨-, -, s₁, e, heq, hres⟩ |
    ⟨-, -, hres⟩
  · obtain ⟨hf, hr⟩ := hatt s₁ _ heq
    rw [hres]
    exact ⟨hf, Or.inl hr⟩
  · obtain ⟨hf, hr⟩ := hatt s₁ _ heq
    rw [hres]
    refine ⟨?_, Or.inl hr⟩
    show (s₁.fallback.recordUsage domain report).get k = none
    rw [MemoryStorage.get_recordUsage, if_neg hne]
    exact hf
  · obtain ⟨hf, hr⟩ := hatt s₁ _ heq
    obtain ⟨hf', hr'⟩ := recover_frame hf env.flush
    rw [hres]
    exact ⟨hf', Or.inl (hr'.trans hr)⟩
  · obtain ⟨hf, hr⟩ := hatt s₁ _ heq
    obtain ⟨hf', hr'⟩ := recordTripped_frame hf hne
    rw [hres]
    exact ⟨hf', Or.inl (hr'.trans hr)⟩
  · obtain ⟨hf', hr'⟩ := recordTripped_frame hk hne
    rw [hres]
    exact ⟨hf', Or.inl hr'⟩

/-- `DEL` that got through, or not. -/
theorem del_pipeline {domain : Str} {key : BucketKey} {up : Bool} {s₁ : RedisStorage}
    {err : Option RedisError}
    (h : s.pipeline [.del (domainScopedKey domain key)] (upDown up) = (s₁, err)) :
    s₁.fallback = s.fallback ∧
    (up = true → err = none ∧ ∀ k, s₁.redis.hashes k =
      if k = domainScopedKey domain key then fun _ => none else s.redis.hashes k) ∧
    (up = false → err = some .unreachable ∧ s₁ = s) := by
  cases up with
  | true =>
    cases h
    refine ⟨rfl, fun _ => ⟨rfl, fun k => ?_⟩, fun h => nomatch h⟩
    funext f
    by_cases hk : k = domainScopedKey domain key
    · simp [hk]
    · simp [hk]
  | false =>
    rw [pipeline_down] at h
    cases h
    exact ⟨rfl, (fun h => nomatch h), fun _ => ⟨rfl, rfl⟩⟩

/-- Removing a bucket adds nothing for `k`, its own key or another. -/
theorem remove_nothingAdded (env : Env) (domain : Str) (key : BucketKey)
    (hk : s.fallback.get k = none) : NothingAdded k s (s.removeBucket env domain key).1 := by
  have hdel : ∀ s₁ err, s.pipeline [.del (domainScopedKey domain key)] env.attempt = (s₁, err) →
      NothingAdded k s s₁ := by
    intro s₁ err heq
    obtain ⟨rfl, -⟩ := RedisStorage.pipeline_eq heq
    refine ⟨hk, ?_⟩
    show (s.redis.runPipeline _ env.attempt).1.hashes k = _ ∨ _
    rw [Redis.runPipeline_fst]
    -- the `DEL` was executed or not
    rcases List.sublist_singleton.mp (env.attempt.executed_sublist
      [.del (domainScopedKey domain key)]) with hnone | hdeleted
    · rw [hnone]
      exact Or.inl rfl
    · rw [hdeleted]
      by_cases hkey : k = domainScopedKey domain key
      · exact Or.inr fun f => by simp [Redis.execAll, Redis.exec, hkey]
      · refine Or.inl (Redis.execAll_frame s.redis fun c hc => ?_)
        rw [List.mem_singleton.mp hc]
        exact Ne.symm hkey
  have hfallback : ∀ s₁ : RedisStorage, s₁.fallback.get k = none →
      (s₁.fallbackRemove domain key).1.fallback.get k = none := by
    intro s₁ h
    show (s₁.fallback.removeBucket domain key).get k = none
    rw [MemoryStorage.get_removeBucket]
    split
    · rfl
    · exact h
  rcases RedisStorage.removeBucket_cases s env domain key with
    ⟨-, s₁, heq, hres⟩ | ⟨-, s₁, e, heq, hres⟩ | ⟨-, -, s₁, heq, hres⟩ | ⟨-, -, s₁, e, heq, hres⟩ |
    ⟨-, -, hres⟩
  · rw [hres]
    exact hdel s₁ _ heq
  · obtain ⟨hf, hr⟩ := hdel s₁ _ heq
    rw [hres]
    exact ⟨hfallback _ hf, hr⟩
  · have h₁ := hdel s₁ _ heq
    obtain ⟨hf', hr'⟩ := recover_frame h₁.1 env.flush
    rw [hres]
    exact h₁.trans ⟨hf', Or.inl hr'⟩
  · obtain ⟨hf, hr⟩ := hdel s₁ _ heq
    rw [hres]
    exact ⟨hfallback _ hf, hr⟩
  · rw [hres]
    exact ⟨hfallback _ hk, Or.inl rfl⟩

/-- The call is a `RecordUsage` for the scoped key `k`. -/
def StoreCall.records (k : BucketKey) : StoreCall → Bool
  | .record _ domain report => report.scopedKey domain = k
  | .remove _ _ _ => false

/-- Without a report for `k`, nothing is added for `k`, over any run. -/
theorem runCalls_nothingAdded {cs : List StoreCall} :
    ∀ {s : RedisStorage}, s.fallback.get k = none → (∀ c ∈ cs, c.records k = false) →
      NothingAdded k s (runCalls s cs) := by
  induction cs with
  | nil => exact fun hk _ => ⟨hk, Or.inl rfl⟩
  | cons c cs ih =>
    intro s hk hno
    have hstep : NothingAdded k s (c.run s) := by
      cases c with
      | record env domain report =>
        have hne := hno _ List.mem_cons_self
        simp only [StoreCall.records, decide_eq_false_iff_not] at hne
        exact record_nothingAdded env hk (Ne.symm hne)
      | remove env domain key => exact remove_nothingAdded env domain key hk
    exact hstep.trans (ih hstep.1 fun d hd => hno d (List.mem_cons_of_mem c hd))

end Frame

-- ---------------------------------------------------------------------------
-- The flush of the removed key itself
-- ---------------------------------------------------------------------------

/-- The command of one counter, run on a server without the key's field. -/
theorem counterCommand_fresh {r : Redis} {k : BucketKey} {f : Field} (n : UInt64)
    (h : r.hashes k f = none) :
    ((r.execAll (counterCommand k f n)).1.hashes k f = none ∨
      (r.execAll (counterCommand k f n)).1.hashes k f = some (int64 n)) ∧
    ∀ f', f' ≠ f → (r.execAll (counterCommand k f n)).1.hashes k f' = r.hashes k f' := by
  unfold counterCommand
  split
  · have hcount : r.count k f = 0 := by
      unfold Redis.count
      rw [h]
      rfl
    have hexec : r.exec (.hIncrBy k f (int64 n)) = (r.write k f (int64 n), none) := by
      simp only [Redis.exec, hcount, zero_add]
      exact if_pos (int64_bounds n)
    rw [Redis.execAll_cons, hexec]
    refine ⟨Or.inr ?_, fun f' hf' => ?_⟩
    · simp [Redis.execAll, Redis.write]
    · simp [Redis.execAll, Redis.write, hf']
  · exact ⟨Or.inl h, fun _ _ => rfl⟩

theorem Redis.execAll_append (cs ds : List Command) :
    ∀ r : Redis, (r.execAll (cs ++ ds)).1 = ((r.execAll cs).1.execAll ds).1 := by
  induction cs with
  | nil => exact fun _ => rfl
  | cons c cs ih =>
    intro r
    rw [List.cons_append, Redis.execAll_cons, Redis.execAll_cons]
    exact ih (r.exec c).1

/-- The flush commands of one entry, run on a server without its key. -/
theorem entryCommands_fresh {r : Redis} {k : BucketKey} (ttl : Nanos) (st : UsageState)
    (h : ∀ f, r.hashes k f = none) (f : Field) :
    (r.execAll (entryCommands ttl ⟨k, st⟩)).1.hashes k f = none ∨
      (r.execAll (entryCommands ttl ⟨k, st⟩)).1.hashes k f = some (int64 (st.amount f)) := by
  obtain ⟨hA, hA'⟩ := counterCommand_fresh st.allowed (h .allowed)
  have hnone : (r.execAll (counterCommand k .allowed st.allowed)).1.hashes k .denied = none := by
    rw [hA' .denied (fun h => nomatch h)]
    exact h .denied
  obtain ⟨hD, hD'⟩ := counterCommand_fresh st.denied hnone
  have hsplit : (r.execAll (entryCommands ttl ⟨k, st⟩)).1.hashes =
      ((r.execAll (counterCommand k .allowed st.allowed)).1.execAll
        (counterCommand k .denied st.denied)).1.hashes := by
    unfold entryCommands
    rw [Redis.execAll_append, Redis.execAll_append]
    rfl
  rw [hsplit]
  cases f with
  | allowed =>
    rw [hD' .allowed (fun h => nomatch h)]
    exact hA
  | denied => exact hD

/-- Flushing entries onto a server that does not hold `k` leaves, for each
field of `k`, nothing or the entry's counter. -/
theorem flush_fresh (ttl : Nanos) {k : BucketKey} {es : List (Σ _ : BucketKey, UsageState)} :
    ∀ {r : Redis}, es.NodupKeys → (∀ f, r.hashes k f = none) → ∀ f,
      (r.execAll (es.flatMap (entryCommands ttl))).1.hashes k f = none ∨
      ∃ st, es.dlookup k = some st ∧
        (r.execAll (es.flatMap (entryCommands ttl))).1.hashes k f = some (int64 (st.amount f)) := by
  induction es with
  | nil => exact fun _ h f => Or.inl (h f)
  | cons e es ih =>
    intro r hnodup hr f
    obtain ⟨hnotin, hrest⟩ := List.nodupKeys_cons.mp hnodup
    obtain ⟨key, st⟩ := e
    rw [List.flatMap_cons, Redis.execAll_append]
    by_cases hk : k = key
    · -- the entry of `k`: the entries after it do not name it
      subst hk
      have hothers : ∀ c ∈ es.flatMap (entryCommands ttl), c.key ≠ k := by
        intro c hc hck
        obtain ⟨e, he, hce⟩ := List.mem_flatMap.mp hc
        rw [entryCommands_key c hce] at hck
        have hmem : e.1 ∈ es.keys := List.mem_keys_of_mem he
        rw [hck] at hmem
        exact hnotin hmem
      rw [Redis.execAll_frame _ hothers, List.dlookup_cons_eq]
      rcases entryCommands_fresh ttl st hr f with hnone | hsome
      · exact Or.inl hnone
      · exact Or.inr ⟨st, rfl, hsome⟩
    · have hframe : (r.execAll (entryCommands ttl ⟨key, st⟩)).1.hashes k = r.hashes k := by
        refine Redis.execAll_frame r fun c hc => ?_
        rw [entryCommands_key c hc]
        exact Ne.symm hk
      rw [List.dlookup_cons_ne _ _ hk]
      exact ih hrest (fun f => by rw [hframe]; exact hr f) f

/-- Recovery onto a server that does not hold `k`. -/
theorem recover_fresh {s : RedisStorage} {k : BucketKey} (h : ∀ f, s.redis.hashes k f = none)
    (up : Bool) (f : Field) :
    (s.recoverFromFallback (upDown up)).redis.hashes k f = none ∨
    ∃ st, s.fallback.get k = some st ∧
      (s.recoverFromFallback (upDown up)).redis.hashes k f = some (int64 (st.amount f)) := by
  unfold RedisStorage.recoverFromFallback RedisStorage.flushFallback
  by_cases hlen : GoMap.len s.fallback.all = 0
  · simp only [if_pos hlen]
    exact Or.inl (h f)
  · simp only [if_neg hlen]
    cases up with
    | true => exact flush_fresh s.keyTTL s.fallback.buckets.nodupKeys h f
    | false =>
      rw [pipeline_down]
      exact Or.inl (h f)

-- ---------------------------------------------------------------------------
-- RemoveBucket
-- ---------------------------------------------------------------------------

/-- The call gets a command through to Redis: the breaker is closed or it is
time to retry, and Redis is up. -/
def reaches (s : RedisStorage) (now : Nanos) (up : Bool) : Bool :=
  (!s.tripped || s.shouldRetry now) && up

/-- What a removal of `k` in state `s` that did or did not reach Redis leaves:
it returned nil; the fallback has no entry for `k`; if Redis was reached it
holds nothing for `k`, except that a retry may have flushed the entry the
fallback had; if not, Redis holds for `k` what it held. -/
structure RemovalLeaves (k : BucketKey) (s : RedisStorage) (reached : Bool)
    (out : RedisStorage × Option GoError) : Prop where
  returns_nil : out.2 = none
  fallback : out.1.fallback.get k = none
  deleted : reached = true → ∀ f, out.1.redis.hashes k f = none ∨
    s.tripped = true ∧ ∃ st, s.fallback.get k = some st ∧
      out.1.redis.hashes k f = some (int64 (st.amount f))
  kept : reached = false → out.1.redis.hashes k = s.redis.hashes k

theorem MemoryStorage.get_of_empty {s : MemoryStorage} (h : s.len = 0) (k : BucketKey) :
    s.get k = none := by
  have hbuckets : s.buckets = ∅ := GoMap.keys_eq_nil_iff.mp (List.length_eq_zero_iff.mp h)
  unfold MemoryStorage.get
  rw [hbuckets]
  rfl

/-- What one `RemoveBucket` call leaves of its bucket. -/
theorem removeBucket_leaves {s : RedisStorage} (hs : s.tripped = false → s.fallback.len = 0)
    (domain : Str) (key : BucketKey) (now : Nanos) (up flushUp : Bool) :
    RemovalLeaves (domainScopedKey domain key) s (reaches s now up)
      (s.removeBucket ⟨now, upDown up, upDown flushUp⟩ domain key) := by
  have hfallback : ∀ s₁ : RedisStorage,
      (s₁.fallbackRemove domain key).1.fallback.get (domainScopedKey domain key) = none := by
    intro s₁
    show (s₁.fallback.removeBucket domain key).get (domainScopedKey domain key) = none
    rw [MemoryStorage.get_removeBucket, if_pos rfl]
  have hdel : ∀ s₁ err, s.pipeline [.del (domainScopedKey domain key)] (upDown up) = (s₁, err) →
      up = true → ∀ f, s₁.redis.hashes (domainScopedKey domain key) f = none := by
    intro s₁ err heq hu f
    rw [((del_pipeline heq).2.1 hu).2, if_pos rfl]
  rcases RedisStorage.removeBucket_cases s ⟨now, upDown up, upDown flushUp⟩ domain key with
    ⟨ht, s₁, heq, hres⟩ | ⟨ht, s₁, e, heq, hres⟩ | ⟨ht, hr, s₁, heq, hres⟩ |
    ⟨ht, hr, s₁, e, heq, hres⟩ | ⟨ht, hr, hres⟩
  · -- closed, deleted
    obtain ⟨hf, hup, hdown⟩ := del_pipeline heq
    cases up with
    | false => exact absurd (hdown rfl).1 (by simp)
    | true =>
      have hreach : reaches s now true = true := by simp [reaches, ht]
      rw [hres, hreach]
      refine ⟨rfl, ?_, fun _ f => Or.inl (hdel s₁ _ heq rfl f), fun h => nomatch h⟩
      show s₁.fallback.get (domainScopedKey domain key) = none
      rw [hf]
      exact MemoryStorage.get_of_empty (hs ht) _
  · -- closed, Redis down
    obtain ⟨hf, hup, hdown⟩ := del_pipeline heq
    cases up with
    | true => exact absurd (hup rfl).1 (by simp)
    | false =>
      have hreach : reaches s now false = false := by simp [reaches]
      rw [hres, hreach, (hdown rfl).2]
      exact ⟨rfl, hfallback _, (fun h => nomatch h), fun _ => rfl⟩
  · -- tripped, deleted on a retry, and the fallback flushed
    obtain ⟨hf, hup, hdown⟩ := del_pipeline heq
    cases up with
    | false => exact absurd (hdown rfl).1 (by simp)
    | true =>
      have hreach : reaches s now true = true := by
        simp [reaches, show s.shouldRetry now = true from hr]
      rw [hres, hreach]
      refine ⟨rfl, ?_, fun _ f => ?_, fun h => nomatch h⟩
      · exact MemoryStorage.get_of_empty (s₁.recover_breaker (upDown flushUp)).2.2.2.2 _
      · have hfresh := recover_fresh (hdel s₁ _ heq rfl) flushUp f
        rw [hf] at hfresh
        rcases hfresh with hnone | hflushed
        · exact Or.inl hnone
        · exact Or.inr ⟨ht, hflushed⟩
  · -- tripped, a retry that finds Redis down
    obtain ⟨hf, hup, hdown⟩ := del_pipeline heq
    cases up with
    | true => exact absurd (hup rfl).1 (by simp)
    | false =>
      have hreach : reaches s now false = false := by simp [reaches]
      rw [hres, hreach, (hdown rfl).2]
      exact ⟨rfl, hfallback _, (fun h => nomatch h), fun _ => rfl⟩
  · -- tripped, no retry
    have hreach : reaches s now up = false := by
      simp [reaches, ht, show s.shouldRetry now = false from hr]
    rw [hres, hreach]
    exact ⟨rfl, hfallback _, (fun h => nomatch h), fun _ => rfl⟩

/-- **What `RemoveBucket` deletes.** After any run of calls, with any clock and
any outcome of every pipeline, on a Redis that is up or down for the call itself:
`RemoveBucket` returns nil and leaves no usage of its bucket in the fallback; if it
reached Redis, Redis holds none either, beyond what a retry flushed of the bucket's own
fallback entry; if it did not, Redis keeps what it held. From then on, until a new report
for the bucket, the fallback has none and Redis holds what it held after the removal, or
nothing. -/
theorem removeBucket_deletes (cfg : RedisConfig) (redis : Redis) (before after : List StoreCall)
    (domain : Str) (key : BucketKey) (now : Nanos) (up flushUp : Bool)
    (hno : ∀ c ∈ after, c.records (domainScopedKey domain key) = false) :
    let s := runCalls (newRedisStorage cfg redis) before
    let out := s.removeBucket ⟨now, upDown up, upDown flushUp⟩ domain key
    RemovalLeaves (domainScopedKey domain key) s (reaches s now up) out ∧
    NothingAdded (domainScopedKey domain key) out.1 (runCalls out.1 after) := by
  have hleaves := removeBucket_leaves (fallbackBounded_calls cfg redis before).empty
    domain key now up flushUp
  exact ⟨hleaves, runCalls_nothingAdded hleaves.fallback hno⟩

/-- The sample bucket has been reported. -/
def sampleRecorded : RedisStorage :=
  runCalls (newRedisStorage ⟨0, 0⟩ emptyRedis) [reportAt 0 true]

/-- Usage recorded in Redis, then an outage in which the bucket is removed: the
call returns nil, and Redis still holds the usage. -/
theorem removed_usage_survives_outage :
    (sampleRecorded.removeBucket ⟨0, upDown false, upDown true⟩ [100]
      (bucketKeyFromProto (some sampleId))).2 = none ∧
    (sampleRecorded.removeBucket ⟨0, upDown false, upDown true⟩ [100]
      (bucketKeyFromProto (some sampleId))).1.redis.count sampleKey .allowed = 5 := by
  decide

/-- With Redis up, the sample bucket is deleted and a later report for another
domain does not bring it back. -/
theorem removeBucket_deletes_sample :
    (runCalls (sampleRecorded.removeBucket ⟨0, upDown true, upDown true⟩ [100]
      (bucketKeyFromProto (some sampleId))).1
      [.record ⟨1, .reached, .reached⟩ [101] sampleReport]).redis.hashes sampleKey =
        fun _ => none := by
  obtain ⟨hleaves, hadded⟩ := removeBucket_deletes ⟨0, 0⟩ emptyRedis
    [reportAt 0 true] [.record ⟨1, .reached, .reached⟩ [101] sampleReport]
    [100] (bucketKeyFromProto (some sampleId)) 0 true true (by decide)
  funext f
  rcases hadded.2 with hsame | hnone
  · -- the breaker was closed, so nothing was flushed behind the deletion
    rcases hleaves.deleted rfl f with hgone | ⟨htripped, -⟩
    · exact (congrFun hsame f).trans hgone
    · exact absurd htripped (by decide)
  · exact hnone f

end Rlqs
