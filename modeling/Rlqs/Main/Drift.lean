import Rlqs.Main.Reload

/-!
# RLQS main — what drifts apart over several reloads

`currentCfg` moves with every applied reload; the restart-scoped sections and
the store of the running process do not. Two things are computed from the
wrong one of the two.

The pending-restart report of the admin handler is the difference to
`currentCfg`, not to the config the process was started with. It is right as
long as no applied reload has moved a restart-scoped section away from the
startup config (`pending_report_accurate_iff` says exactly when), and it
forgets a pending section at the next reload (`pending_report_forgets`).

The TTL that `RedisStorage` puts on its keys is six times the reporting
interval of the startup config, while the live engine tells the clients to
report at the interval of the last applied one
(`keyTTL_follows_interval_iff`, `keyTTL_below_interval`).
-/

namespace Rlqs

open Config

-- ---------------------------------------------------------------------------
-- The pending-restart report
-- ---------------------------------------------------------------------------

/-- The config delivered last, or the startup config. -/
def lastDelivered (startup : Config) (cs : List Config) : Config := cs.getLastD startup

/-- The report lists exactly the restart-scoped sections in which `last` differs
from the startup config. -/
def ReportsRestart (startup last : Config) (pending : List Change) : Prop :=
  ∀ c : Change, c ∈ pending ↔
    c.scope = .requiresRestart ∧ c.name.scope = .requiresRestart ∧ c.name.Differs startup last

/-- When the report stays right at the delivery of `new`, with `current` in
force and `previous` delivered before. A config that differs from the one in
force: each restart-scoped section in force is still the startup one, or `new`
changes it once more, to neither of the two. The config in force again:
`previous` differs from the startup config in the same restart-scoped sections
as it does. -/
def StaysReported (startup previous current new : Config) : Prop :=
  if current = new then
    ∀ x : ConfigSection, x.scope = .requiresRestart →
      (x.Differs startup previous ↔ x.Differs startup new)
  else
    ∀ x : ConfigSection, x.scope = .requiresRestart →
      ¬ x.Differs startup current ∨ (x.Differs current new ∧ x.Differs startup new)

theorem lastDelivered_snoc (s : Config) (cs : List Config) (c : Config) :
    lastDelivered s (cs ++ [c]) = c := by
  unfold lastDelivered
  rw [List.getLastD_concat]

/-- Two reports of the same list agree on the sections. -/
theorem ReportsRestart.congr {startup last last' : Config} {pending : List Change}
    (h : ReportsRestart startup last pending) :
    ReportsRestart startup last' pending ↔
      ∀ x : ConfigSection, x.scope = .requiresRestart →
        (x.Differs startup last ↔ x.Differs startup last') := by
  constructor
  · intro h' x hx
    have hold := h ⟨x, .requiresRestart⟩
    have hnew := h' ⟨x, .requiresRestart⟩
    simp only [hx, true_and] at hold hnew
    exact hold.symm.trans hnew
  · intro hsame c
    rw [h c]
    constructor
    · rintro ⟨hscope, hx, hd⟩
      exact ⟨hscope, hx, (hsame c.name hx).mp hd⟩
    · rintro ⟨hscope, hx, hd⟩
      exact ⟨hscope, hx, (hsame c.name hx).mpr hd⟩

/-- A section that differs from `current` is one that differs from `startup`,
and the other way round, exactly if the two agree or `new` is a third value. -/
theorem ConfigSection.differs_iff (x : ConfigSection) (startup current new : Config) :
    (x.Differs current new ↔ x.Differs startup new) ↔
      ¬ x.Differs startup current ∨ (x.Differs current new ∧ x.Differs startup new) := by
  cases x
  all_goals
    simp only [ConfigSection.Differs]
    grind

/-- The list collected from a difference to `current`. -/
theorem reportsRestart_diff_iff (startup current new : Config) :
    ReportsRestart startup new (restartChanges (current.diff new)) ↔
      ∀ x : ConfigSection, x.scope = .requiresRestart →
        ¬ x.Differs startup current ∨ (x.Differs current new ∧ x.Differs startup new) := by
  constructor
  · intro h x hx
    have hc := h ⟨x, .requiresRestart⟩
    rw [mem_restartChanges] at hc
    simp only [hx, true_and] at hc
    exact (x.differs_iff startup current new).mp hc
  · intro h c
    rw [mem_restartChanges]
    refine and_congr_right fun _ => and_congr_right fun hx => ?_
    exact (c.name.differs_iff startup current new).mpr (h c.name hx)

section Pending

variable {compile : Str → Except GoError Regexp} {startup : Config} {redis : Redis}
  {p₀ p q : Process} {hs : List Happening}

/-- One delivery, with a report that was right before. -/
theorem Process.reload_reports {previous c : Config}
    (hp : ReportsRestart startup previous p.pendingRestartChanges)
    (hn : p.reload compile c = some q) :
    ReportsRestart startup c q.pendingRestartChanges ↔
      StaysReported startup previous p.currentCfg c := by
  unfold StaysReported
  rcases p.reload_cases compile c with
    ⟨hcfg, hr⟩ | ⟨hcfg, -, hr⟩ | ⟨-, e, -, -, hr⟩ | ⟨hcfg, e, k, -, -, -, hr⟩
  · rw [hr] at hn
    cases hn
    rw [if_pos hcfg]
    exact hp.congr
  · rw [hr] at hn
    cases hn
    rw [if_neg hcfg]
    exact reportsRestart_diff_iff startup p.currentCfg c
  · rw [hr] at hn
    simp at hn
  · rw [hr] at hn
    cases hn
    rw [if_neg hcfg]
    exact reportsRestart_diff_iff startup p.currentCfg c

/-- A process just started has nothing to report. -/
theorem startProcess_reports (h : startProcess compile startup redis = some p₀) :
    ReportsRestart startup startup p₀.pendingRestartChanges := by
  have hnil : p₀.pendingRestartChanges = [] := by
    unfold startProcess at h
    split at h
    · simp at h
    · split at h
      · simp at h
      · cases h
        rfl
  intro c
  rw [hnil]
  refine ⟨fun hc => absurd hc List.not_mem_nil, fun ⟨_, _, hd⟩ => ?_⟩
  cases hx : c.name <;> rw [hx] at hd <;> exact absurd rfl hd

/-- **When the pending-restart report is accurate.** Along every history: after
each happening the report lists exactly the restart-scoped sections in which
the config delivered last differs from the startup config, if and only if each
config delivered to the running process meets `StaysReported`. The config in
force is the last valid one. -/
theorem pending_report_accurate_iff (compile : Str → Except GoError Regexp) {startup : Config}
    {redis : Redis} {p₀ : Process} (hstart : startProcess compile startup redis = some p₀)
    (hs : List Happening) :
    (∀ pre post p, hs = pre ++ post → p₀.run compile pre = some p →
      ReportsRestart startup (lastDelivered startup (delivered pre)) p.pendingRestartChanges) ↔
    (∀ pre c post, hs = pre ++ .deliver c :: post →
      Uniform compile startup (delivered pre ++ [c]) →
      StaysReported startup (lastDelivered startup (delivered pre))
        (lastValid compile startup (delivered pre)) c) := by
  constructor
  · intro hall pre c post hsplit huniform
    have hrun : ∃ q, p₀.run compile (pre ++ [.deliver c]) = some q := by
      rw [run_isSome_iff _ hstart, delivered_snoc]
      exact huniform
    obtain ⟨q, hq⟩ := hrun
    have hafter := hall (pre ++ [.deliver c]) post q (by simp [hsplit]) hq
    rw [Process.run_snoc] at hq
    obtain ⟨p, hp, hn⟩ := Option.bind_eq_some_iff.mp hq
    have hbefore := hall pre (.deliver c :: post) p hsplit hp
    rw [delivered_snoc, show delivered [.deliver c] = [c] from rfl, lastDelivered_snoc] at hafter
    rw [← (run_live hstart hp).current]
    exact (Process.reload_reports hbefore hn).mp hafter
  · intro hcond pre
    -- by induction on the happenings so far, from the end
    induction pre using List.reverseRecOn with
    | nil =>
      intro post p _ hp
      cases hp
      exact startProcess_reports hstart
    | append_singleton pre h ih =>
      intro post q hsplit hq
      have huniform := (run_isSome_iff _ hstart).mp ⟨q, hq⟩
      rw [Process.run_snoc] at hq
      obtain ⟨p, hp, hn⟩ := Option.bind_eq_some_iff.mp hq
      have hbefore := ih (h :: post) p (by simp [hsplit]) hp
      rw [delivered_snoc] at huniform ⊢
      cases h with
      | bind domain =>
        cases hn
        rw [show delivered [.bind domain] = [] from rfl, List.append_nil]
        exact hbefore
      | use u =>
        cases hn
        rw [show delivered [.use u] = [] from rfl, List.append_nil]
        exact hbefore
      | deliver c =>
        rw [show delivered [.deliver c] = [c] from rfl] at huniform ⊢
        have hstays := hcond pre c post (by simp [hsplit]) huniform
        rw [← (run_live hstart hp).current] at hstays
        rw [lastDelivered_snoc]
        exact (Process.reload_reports hbefore hn).mpr hstays

end Pending

/-- The address changed and, in a later edit, the number of default tokens. -/
def otherAddressAndTokens : Config := otherAddress.withEngine ⟨200, 0, 10000000000, none⟩

/-- The second of two applied reloads empties the report, though the server
section of the file still differs from the running one. -/
theorem pending_report_forgets :
    ∃ p₀ p, startProcess compileAny defaultConfig emptyRedis = some p₀ ∧
      p₀.run compileAny [.deliver otherAddress, .deliver otherAddressAndTokens] = some p ∧
      p.pendingRestartChanges = [] ∧
      ConfigSection.server.Differs defaultConfig otherAddressAndTokens ∧
      ¬ ReportsRestart defaultConfig otherAddressAndTokens p.pendingRestartChanges := by
  refine ⟨_, _, rfl, rfl, by decide, by decide, ?_⟩
  intro h
  have hlisted := (h ⟨.server, .requiresRestart⟩).mpr ⟨rfl, rfl, by decide⟩
  exact absurd hlisted (by decide)

/-- The address changed once more. -/
def thirdAddress : Config :=
  { defaultConfig with server := { defaultConfig.server with grpcAddr := ascii [':', '2'] } }

/-- Two changes of the address, to a third value: both are reported. -/
theorem pending_report_two_changes :
    ∃ p₀ p q, startProcess compileAny defaultConfig emptyRedis = some p₀ ∧
      p₀.run compileAny [.deliver otherAddress] = some p ∧
      ReportsRestart defaultConfig otherAddress p.pendingRestartChanges ∧
      p₀.run compileAny [.deliver otherAddress, .deliver thirdAddress] = some q ∧
      ReportsRestart defaultConfig thirdAddress q.pendingRestartChanges ∧
      q.pendingRestartChanges = [⟨.server, .requiresRestart⟩] := by
  have hall := (@pending_report_accurate_iff compileAny defaultConfig emptyRedis _ rfl
    [.deliver otherAddress, .deliver thirdAddress]).mpr ?_
  · exact ⟨_, _, _, rfl, rfl, hall [.deliver otherAddress] [.deliver thirdAddress] _ rfl rfl, rfl,
      hall [.deliver otherAddress, .deliver thirdAddress] [] _ rfl rfl, by decide⟩
  intro pre c post hsplit _
  rcases pre with _ | ⟨h₁, _ | ⟨h₂, pre⟩⟩
  · -- the first is delivered with the startup config in force
    obtain ⟨hc, -⟩ := List.cons.inj hsplit
    cases hc
    show StaysReported defaultConfig defaultConfig defaultConfig otherAddress
    unfold StaysReported
    rw [if_neg (by decide)]
    intro x _
    left
    cases x <;> exact not_not.mpr rfl
  · -- the second with the first in force, and only the address differs
    obtain ⟨rfl, hrest⟩ := List.cons.inj hsplit
    obtain ⟨hc, -⟩ := List.cons.inj hrest
    cases hc
    show StaysReported defaultConfig otherAddress otherAddress thirdAddress
    unfold StaysReported
    rw [if_neg (by decide)]
    intro x hx
    cases x with
    | engine => cases hx
    | server => exact Or.inr ⟨by decide, by decide⟩
    | storage | tracing => exact Or.inl (not_not.mpr rfl)
  · obtain ⟨-, hrest⟩ := List.cons.inj hsplit
    simp at hrest

-- ---------------------------------------------------------------------------
-- The TTL of the Redis keys
-- ---------------------------------------------------------------------------

/-- The TTL an `EXPIRE` sets. -/
def Command.ttl : Command → Option Nanos
  | .expire _ ttl => some ttl
  | _ => none

/-- Every write of the store, of a report or of a fallback entry, sets this TTL. -/
def RedisStorage.SetsTTL (s : RedisStorage) (ttl : Nanos) : Prop :=
  (∀ key report, (recordCommands key s.keyTTL report).filterMap Command.ttl = [ttl]) ∧
  (∀ e, (entryCommands s.keyTTL e).filterMap Command.ttl = [ttl])

/-- The store is a `RedisStorage` whose writes set a TTL of six times the
reporting interval of the config in force, and so outlive the interval. -/
def Process.KeyTTLFollows (p : Process) : Prop :=
  ∃ s, p.store = .redis s ∧ s.SetsTTL (6 * p.currentCfg.engine.reportingInterval) ∧
    p.currentCfg.engine.reportingInterval < s.keyTTL

theorem counterCommand_ttl (key : BucketKey) (field : Field) (n : UInt64) :
    (counterCommand key field n).filterMap Command.ttl = [] := by
  unfold counterCommand
  split
  · rfl
  · rfl

theorem RedisStorage.setsTTL_iff (s : RedisStorage) (ttl : Nanos) :
    s.SetsTTL ttl ↔ s.keyTTL = ttl := by
  constructor
  · rintro ⟨hrecord, -⟩
    exact (List.cons.inj (hrecord [] ⟨none, 0, 0, 0⟩)).1
  · rintro rfl
    refine ⟨fun _ _ => rfl, fun e => ?_⟩
    unfold entryCommands
    rw [List.filterMap_append, List.filterMap_append, counterCommand_ttl, counterCommand_ttl]
    rfl

theorem RedisStorage.recoverFromFallback_keyTTL (s : RedisStorage) (o : Outcome) :
    (s.recoverFromFallback o).keyTTL = s.keyTTL := by
  unfold RedisStorage.recoverFromFallback RedisStorage.flushFallback
  by_cases hlen : GoMap.len s.fallback.all = 0
  · simp only [if_pos hlen]
  · simp only [if_neg hlen]
    rfl

/-- No call of the store changes its TTL. -/
theorem Store.use_keyTTL {s s' : RedisStorage} {u : StoreUse}
    (h : (Store.redis s).use u = .redis s') : s'.keyTTL = s.keyTTL := by
  cases u with
  | record env domain r =>
    obtain rfl : (s.recordUsage env domain r).1 = s' := Store.redis.inj h
    rcases RedisStorage.recordUsage_cases s env domain r with
      ⟨-, s₁, heq, hres⟩ | ⟨-, s₁, e, heq, hres⟩ | ⟨-, -, s₁, heq, hres⟩ |
      ⟨-, -, s₁, e, heq, hres⟩ | ⟨-, -, hres⟩
    · rw [hres, (RedisStorage.pipeline_eq heq).1]
    · rw [hres, (RedisStorage.pipeline_eq heq).1]
      rfl
    · rw [hres, RedisStorage.recoverFromFallback_keyTTL, (RedisStorage.pipeline_eq heq).1]
    · rw [hres, (RedisStorage.pipeline_eq heq).1]
      unfold RedisStorage.recordTripped
      split <;> rfl
    · rw [hres]
      unfold RedisStorage.recordTripped
      split <;> rfl
  | remove env domain key =>
    obtain rfl : (s.removeBucket env domain key).1 = s' := Store.redis.inj h
    rcases RedisStorage.removeBucket_cases s env domain key with
      ⟨-, s₁, heq, hres⟩ | ⟨-, s₁, e, heq, hres⟩ | ⟨-, -, s₁, heq, hres⟩ |
      ⟨-, -, s₁, e, heq, hres⟩ | ⟨-, -, hres⟩
    · rw [hres, (RedisStorage.pipeline_eq heq).1]
    · rw [hres, (RedisStorage.pipeline_eq heq).1]
      rfl
    · rw [hres, RedisStorage.recoverFromFallback_keyTTL, (RedisStorage.pipeline_eq heq).1]
    · rw [hres, (RedisStorage.pipeline_eq heq).1]
      rfl
    · rw [hres]
      rfl

/-- Six intervals of one config are six of another exactly if they are the same. -/
theorem six_intervals {i j ttl : Int} (hpos : 0 < i) (httl : ttl = i * 6) :
    (ttl = 6 * j ↔ j = i) ∧ 0 < ttl ∧ i < ttl := by
  refine ⟨?_, ?_, ?_⟩
  all_goals omega

section KeyTTL

variable {compile : Str → Except GoError Regexp} {startup : Config} {redis : Redis}
  {p₀ p q : Process} {hs : List Happening}

/-- The reload loop leaves the store alone. -/
theorem Process.reload_store {c : Config} (hn : p.reload compile c = some q) :
    q.store = p.store := by
  rcases p.reload_cases compile c with
    ⟨-, hr⟩ | ⟨-, -, hr⟩ | ⟨-, e, -, -, hr⟩ | ⟨-, e, k, -, -, -, hr⟩
  · rw [hr] at hn
    cases hn
    rfl
  · rw [hr] at hn
    cases hn
    rfl
  · rw [hr] at hn
    simp at hn
  · rw [hr] at hn
    cases hn
    rfl

/-- Whatever happens, the TTL is the one the process was started with. -/
theorem run_keyTTL {s₀ : RedisStorage} (hstore : p₀.store = .redis s₀)
    (hrun : p₀.run compile hs = some p) :
    ∃ s, p.store = .redis s ∧ s.keyTTL = s₀.keyTTL := by
  induction hs using List.reverseRecOn generalizing p with
  | nil =>
    cases hrun
    exact ⟨s₀, hstore, rfl⟩
  | append_singleton hs h ih =>
    rw [Process.run_snoc] at hrun
    obtain ⟨q, hq, hn⟩ := Option.bind_eq_some_iff.mp hrun
    obtain ⟨s, hs, httl⟩ := ih hq
    cases h with
    | deliver c =>
      rw [Process.reload_store hn]
      exact ⟨s, hs, httl⟩
    | bind domain =>
      cases hn
      exact ⟨s, hs, httl⟩
    | use u =>
      cases hn
      have huse : ∃ s', (Store.redis s).use u = .redis s' := by
        cases u <;> exact ⟨_, rfl⟩
      obtain ⟨s', hs'⟩ := huse
      refine ⟨s', ?_, (Store.use_keyTTL hs').trans httl⟩
      show q.store.use u = .redis s'
      rw [hs]
      exact hs'

/-- **When the TTL follows the reporting interval.** With the Redis backend and
intervals that are positive and below `2^63 / 6` nanoseconds, after every
history the process survives: the live engine is the one built from
`currentCfg`, and the TTL on every write is six times its reporting interval if
and only if the last valid config has the reporting interval of the startup
config. -/
theorem keyTTL_follows_interval_iff (compile : Str → Except GoError Regexp) {startup : Config}
    {redis : Redis} {p₀ p : Process} {hs : List Happening}
    (hstart : startProcess compile startup redis = some p₀)
    (hredis : startup.storage.type = ascii ['r', 'e', 'd', 'i', 's'])
    (hinterval : ∀ c ∈ startup :: delivered hs, 0 < c.engine.reportingInterval ∧
      c.engine.reportingInterval * 6 < 2 ^ 63)
    (hrun : p₀.run compile hs = some p) :
    buildEngine compile p.currentCfg = .ok p.engine ∧
    (p.KeyTTLFollows ↔ (lastValid compile startup (delivered hs)).engine.reportingInterval =
      startup.engine.reportingInterval) := by
  have hlive := run_live hstart hrun
  refine ⟨hlive.engine, ?_⟩
  obtain ⟨hpos, hhigh⟩ := hinterval startup List.mem_cons_self
  -- the store of the startup config
  have hstore : ∃ s₀, p₀.store = .redis s₀ ∧
      s₀.keyTTL = startup.engine.reportingInterval * 6 := by
    have hbuilt : p₀.store = buildStore startup redis := by
      unfold startProcess at hstart
      split at hstart
      · simp at hstart
      · split at hstart
        · simp at hstart
        · cases hstart
          rfl
    rw [hbuilt, buildStore, if_pos hredis]
    refine ⟨_, rfl, ?_⟩
    have hpositive : (0 : Int) < startup.engine.reportingInterval * 6 :=
      (six_intervals (j := 0) hpos rfl).2.1
    have htimes : startup.engine.reportingInterval.times 6 =
        startup.engine.reportingInterval * 6 := Nanos.times_eq (le_of_lt hpositive) hhigh
    unfold newRedisStorage
    simp only [htimes]
    rw [if_neg (not_le.mpr hpositive)]
  obtain ⟨s₀, hs₀, httl₀⟩ := hstore
  obtain ⟨s, hs, httl⟩ := run_keyTTL hs₀ hrun
  obtain ⟨hsix, -, hlonger⟩ := six_intervals (j := p.currentCfg.engine.reportingInterval) hpos
    (httl.trans httl₀)
  rw [← hlive.current]
  constructor
  · rintro ⟨s', hs', hsets, -⟩
    obtain rfl : s = s' := Store.redis.inj (hs.symm.trans hs')
    exact hsix.mp ((s.setsTTL_iff _).mp hsets)
  · intro hsame
    refine ⟨s, hs, (s.setsTTL_iff _).mpr (hsix.mpr hsame), ?_⟩
    rw [hsame]
    exact hlonger

end KeyTTL

/-- The default config with Redis and a reporting interval in seconds. -/
def redisConfig (seconds : ℕ) : Config where
  server := defaultConfig.server
  engine := ⟨100, 0, seconds * 1000000000, none⟩
  storage := ⟨ascii ['r', 'e', 'd', 'i', 's'], [], 0⟩
  tracing := defaultConfig.tracing

/-- A reload from ten seconds to two minutes leaves a TTL of one minute: the
keys expire between two reports. -/
theorem keyTTL_below_interval :
    ∃ p₀ p s, startProcess compileAny (redisConfig 10) emptyRedis = some p₀ ∧
      p₀.run compileAny [.deliver (redisConfig 120)] = some p ∧
      p.currentCfg = redisConfig 120 ∧ p.store = .redis s ∧ s.keyTTL = 60000000000 ∧
      s.keyTTL < (redisConfig 120).engine.reportingInterval ∧ ¬ p.KeyTTLFollows := by
  refine ⟨_, _, _, rfl, rfl, rfl, rfl, rfl, by decide, ?_⟩
  rintro ⟨s, hs, hsets, -⟩
  have httl := (s.setsTTL_iff _).mp hsets
  cases hs
  exact absurd httl (by decide)

/-- A reload that keeps the interval keeps the TTL right. -/
theorem keyTTL_follows_same_interval :
    ∃ p₀ p, startProcess compileAny (redisConfig 10) emptyRedis = some p₀ ∧
      p₀.run compileAny [.deliver ((redisConfig 10).withEngine ⟨200, 0, 10000000000, none⟩)] =
        some p ∧ p.KeyTTLFollows := by
  refine ⟨_, _, rfl, rfl, ?_⟩
  refine (@keyTTL_follows_interval_iff compileAny (redisConfig 10) emptyRedis _ _
    [.deliver ((redisConfig 10).withEngine ⟨200, 0, 10000000000, none⟩)] rfl rfl ?_ rfl).2.mpr rfl
  intro c hc
  simp only [delivered, List.filterMap_cons, List.filterMap_nil, List.mem_cons,
    List.not_mem_nil, or_false] at hc
  rcases hc with rfl | rfl
  · exact ⟨by decide, by decide⟩
  · exact ⟨by decide, by decide⟩

end Rlqs
