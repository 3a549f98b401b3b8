import Rlqs.Config.Load
import Rlqs.Main.Assignments

/-!
# RLQS main — which limits reach the client as configured

Token counts are `uint64` in a configuration and `uint32` in a token bucket, and
the default TTL is the reporting interval times two in 64 bits. `buildEngine`
converts without a check, so a limit of 2³² tokens, meant as no limit at all,
becomes a bucket of none.

* `exactLimits_iff` — an engine against the configuration it was built from;
* `loaded_limits_exact_iff` — the same from the file and the environment on: which
  values `Load` and `buildEngine` carry through unchanged;
* `large_limit_becomes_none` — 4294967296 tokens in the environment.
-/

namespace Rlqs

open Config

-- ---------------------------------------------------------------------------
-- What is exact
-- ---------------------------------------------------------------------------

/-- The strategy for buckets that no policy matches. -/
def EngineValue.defaultStrategy : EngineValue → Option RateLimitStrategy
  | .default cfg => cfg.defaultStrategy
  | .policy cfg => cfg.defaultPolicy.strategy

def EngineValue.defaultTTL : EngineValue → Option Nanos
  | .default cfg => cfg.assignmentTTL
  | .policy cfg => cfg.defaultPolicy.assignmentTTL

/-- The policies in the order of the configuration. -/
def EngineValue.policies : EngineValue → List Policy
  | .default _ => []
  | .policy cfg => cfg.policies

/-- A strategy that is a token bucket has this capacity and this fill. -/
def RateLimitStrategy.HasTokens (tokens : ℕ) : RateLimitStrategy → Prop
  | .tokenBucket maxTokens tokensPerFill _ =>
    maxTokens.toNat = tokens ∧ tokensPerFill.toNat = tokens
  | _ => True

/-- The limits of an engine are those of the configuration. -/
structure ExactLimits (cfg : Config) (e : EngineValue) : Prop where
  default : ∃ maxTokens tokensPerFill interval,
    e.defaultStrategy = some (.tokenBucket maxTokens tokensPerFill interval) ∧
    maxTokens.toNat = cfg.engine.defaultTokensPerFill.toNat ∧
    tokensPerFill.toNat = cfg.engine.defaultTokensPerFill.toNat
  policies : List.Forall₂ (fun pc q => ∃ s, q.strategy = some s ∧
    s.HasTokens pc.tokensPerFill.toNat) cfg.engine.policyList e.policies
  ttl : e.defaultTTL = some (2 * cfg.engine.reportingInterval)

/-- `buildStrategy` takes its last branch. -/
def Config.PolicyConfig.usesTokenBucket (pc : PolicyConfig) : Prop :=
  pc.strategy ≠ ascii ['d', 'e', 'n', 'y'] ∧ pc.strategy ≠ ascii ['a', 'l', 'l', 'o', 'w'] ∧
    pc.strategy ≠ ascii ['r', 'e', 'q', 'u', 'e', 's', 't', 's', '_', 'p', 'e', 'r', '_',
      't', 'i', 'm', 'e', '_', 'u', 'n', 'i', 't']

-- ---------------------------------------------------------------------------
-- The strategies
-- ---------------------------------------------------------------------------

theorem tokenBucket_hasTokens_iff (n : UInt64) (d : Nanos) :
    (tokenBucket n d).HasTokens n.toNat ↔ n.toNat < 2 ^ 32 := by
  rw [tokenBucket_eq, ← keptTokens_exact_iff]
  exact ⟨fun h => h.1, fun h => ⟨h, h⟩⟩

theorem buildStrategy_hasTokens_iff (pc : PolicyConfig) (d : Nanos) :
    (buildStrategy pc d).HasTokens pc.tokensPerFill.toNat ↔
      (pc.usesTokenBucket → pc.tokensPerFill.toNat < 2 ^ 32) := by
  unfold buildStrategy PolicyConfig.usesTokenBucket
  by_cases hdeny : pc.strategy = ascii ['d', 'e', 'n', 'y']
  · rw [if_pos hdeny]
    exact ⟨fun _ h => absurd hdeny h.1, fun _ => trivial⟩
  · rw [if_neg hdeny]
    by_cases hallow : pc.strategy = ascii ['a', 'l', 'l', 'o', 'w']
    · rw [if_pos hallow]
      exact ⟨fun _ h => absurd hallow h.2.1, fun _ => trivial⟩
    · rw [if_neg hallow]
      split
      · rename_i hunit
        exact ⟨fun _ h => absurd hunit h.2.2, fun _ => trivial⟩
      · rename_i hunit
        rw [tokenBucket_hasTokens_iff]
        exact ⟨fun h _ => h, fun h => h ⟨hdeny, hallow, hunit⟩⟩

-- ---------------------------------------------------------------------------
-- From the configuration
-- ---------------------------------------------------------------------------

section Exact

variable {compile : Str → Except GoError Regexp} {cfg : Config} {e : EngineValue}

/-- A built engine holds the defaults of its configuration. -/
theorem built_defaults (hbuilt : buildEngine compile cfg = .ok e) :
    e.defaultStrategy = some cfg.defaultStrategy ∧ e.defaultTTL = some cfg.defaultTTL ∧
      List.Forall₂ (Built compile cfg) cfg.engine.policyList e.policies := by
  rcases buildEngine_cases hbuilt with ⟨hnil, rfl⟩ | ⟨-, qs, rfl, hqs⟩
  · rw [hnil]
    exact ⟨rfl, rfl, List.Forall₂.nil⟩
  · exact ⟨rfl, rfl, hqs⟩

theorem built_policies_hasTokens_iff {pcs : List PolicyConfig} {qs : List Policy}
    (hbuilt : List.Forall₂ (Built compile cfg) pcs qs) :
    List.Forall₂ (fun pc q => ∃ s, q.strategy = some s ∧ s.HasTokens pc.tokensPerFill.toNat)
      pcs qs ↔ ∀ pc ∈ pcs, pc.usesTokenBucket → pc.tokensPerFill.toNat < 2 ^ 32 := by
  induction hbuilt with
  | nil => simp
  | @cons pc q pcs qs hq _ ih =>
    rw [List.forall₂_cons, ih, List.forall_mem_cons,
      ← buildStrategy_hasTokens_iff pc cfg.engine.reportingInterval, hq.strategy]
    simp only [Option.some.injEq, exists_eq_left']

/-- The limits of a built engine are exact if and only if the token counts fit 32
bits and twice the interval fits 64. -/
theorem exactLimits_iff (hbuilt : buildEngine compile cfg = .ok e) :
    ExactLimits cfg e ↔
      cfg.engine.defaultTokensPerFill.toNat < 2 ^ 32 ∧
      (∀ pc ∈ cfg.engine.policyList, pc.usesTokenBucket → pc.tokensPerFill.toNat < 2 ^ 32) ∧
      -2 ^ 62 ≤ cfg.engine.reportingInterval ∧ cfg.engine.reportingInterval < 2 ^ 62 := by
  obtain ⟨hstrategy, httl, hpolicies⟩ := built_defaults hbuilt
  have hdefault : (∃ maxTokens tokensPerFill interval,
      e.defaultStrategy = some (.tokenBucket maxTokens tokensPerFill interval) ∧
      maxTokens.toNat = cfg.engine.defaultTokensPerFill.toNat ∧
      tokensPerFill.toNat = cfg.engine.defaultTokensPerFill.toNat) ↔
      cfg.engine.defaultTokensPerFill.toNat < 2 ^ 32 := by
    rw [← keptTokens_exact_iff, hstrategy]
    constructor
    · rintro ⟨_, _, _, hs, hmax, -⟩
      cases hs
      exact hmax
    · intro h
      exact ⟨_, _, _, rfl, h, h⟩
  have hinterval : e.defaultTTL = some (2 * cfg.engine.reportingInterval) ↔
      -2 ^ 62 ≤ cfg.engine.reportingInterval ∧ cfg.engine.reportingInterval < 2 ^ 62 := by
    rw [httl, Option.some.injEq]
    exact twice_exact_iff cfg.engine.reportingInterval
  rw [← hdefault, ← built_policies_hasTokens_iff hpolicies, ← hinterval]
  exact ⟨fun h => ⟨h.default, h.policies, h.ttl⟩, fun h => ⟨h.1, h.2.1, h.2.2⟩⟩

-- ---------------------------------------------------------------------------
-- From the file and the environment
-- ---------------------------------------------------------------------------

/-- What the file says: the defaults of `Load` where there is none. -/
def Sources.written (src : Sources) (path : Str) : Except GoError Config :=
  if path = [] then .ok loadDefaults
  else (src.readFile path).bind fun data => src.unmarshal data loadDefaults

/-- The default token count of a file, under its new name or the deprecated one. -/
def Config.EngineConfig.writtenTokens (ec : EngineConfig) : UInt64 :=
  if ec.defaultTokensPerFill ≠ 0 then ec.defaultTokensPerFill
  else if ec.defaultRPS ≠ 0 then ec.defaultRPS
  else 100

/-- The token count of a policy, under its new name or the deprecated one. -/
def Config.PolicyConfig.writtenTokens (pc : PolicyConfig) : UInt64 :=
  if pc.tokensPerFill ≠ 0 then pc.tokensPerFill else pc.rps

/-- The numbers of the file and the environment that reach the engine fit the
types they are converted to. -/
structure LimitsFit (src : Sources) (file : Config) : Prop where
  default : (src.env.tokens.getD file.engine.writtenTokens).toNat < 2 ^ 32
  policies : ∀ pc ∈ file.engine.policyList,
    pc.usesTokenBucket → pc.writtenTokens.toNat < 2 ^ 32
  interval : -2 ^ 62 ≤ src.interval.getD file.engine.reportingInterval ∧
    src.interval.getD file.engine.reportingInterval < 2 ^ 62

theorem load_written {src : Sources} {path : Str} (hload : load src path = .ok cfg) :
    ∃ file, src.written path = .ok file ∧ cfg = resolve src file := by
  unfold load at hload
  unfold Sources.written
  by_cases hpath : path = []
  · rw [if_pos hpath] at hload ⊢
    cases hload
    exact ⟨loadDefaults, rfl, rfl⟩
  · rw [if_neg hpath] at hload ⊢
    cases hread : src.readFile path with
    | error err => simp [hread] at hload
    | ok data =>
      rw [hread] at hload
      dsimp only at hload
      cases hparse : src.unmarshal data loadDefaults with
      | error err => simp [hparse] at hload
      | ok file =>
        rw [hparse] at hload
        cases hload
        exact ⟨file, hparse, rfl⟩

theorem resolveDeprecated_tokens (ec : EngineConfig) :
    ec.resolveDeprecated.defaultTokensPerFill = ec.writtenTokens := by
  unfold EngineConfig.resolveDeprecated EngineConfig.writtenTokens
  dsimp only
  by_cases htokens : ec.defaultTokensPerFill = 0
  · by_cases hrps : ec.defaultRPS = 0
    · simp [htokens, hrps]
    · have hpos : 0 < ec.defaultRPS := UInt64.pos_iff_ne_zero.mpr hrps
      simp [htokens, hrps, hpos]
  · simp [htokens]

theorem PolicyConfig.resolveDeprecated_eq (pc : PolicyConfig) :
    pc.resolveDeprecated = { pc with tokensPerFill := pc.writtenTokens } := by
  unfold PolicyConfig.resolveDeprecated PolicyConfig.writtenTokens
  by_cases htokens : pc.tokensPerFill = 0
  · by_cases hrps : pc.rps = 0
    · rw [if_neg (by simp [hrps]), if_neg (not_not.mpr htokens)]
      cases pc
      dsimp only at htokens hrps
      subst htokens hrps
      rfl
    · have hpos : 0 < pc.rps := UInt64.pos_iff_ne_zero.mpr hrps
      rw [if_pos ⟨htokens, hpos⟩, if_neg (not_not.mpr htokens)]
  · rw [if_neg (fun h => htokens h.1), if_pos htokens]

theorem resolveDeprecated_policyList (ec : EngineConfig) :
    ec.resolveDeprecated.policyList =
      ec.policyList.map fun pc => { pc with tokensPerFill := pc.writtenTokens } := by
  have heq : PolicyConfig.resolveDeprecated =
      fun pc => { pc with tokensPerFill := pc.writtenTokens } :=
    funext PolicyConfig.resolveDeprecated_eq
  unfold EngineConfig.resolveDeprecated EngineConfig.policyList
  dsimp only
  cases ec.policies with
  | none => rfl
  | some ps => rw [Option.map_some, Option.getD_some, Option.getD_some, heq]

/-- **Which limits are exact.** For every file and environment that `Load` accepts
and every engine built from the result: capacity, fill and default TTL of the
engine equal the configured numbers if and only if those numbers fit. -/
theorem loaded_limits_exact_iff {src : Sources} {path : Str} (hload : load src path = .ok cfg)
    (hbuilt : buildEngine compile cfg = .ok e) :
    ∃ file, src.written path = .ok file ∧ (ExactLimits cfg e ↔ LimitsFit src file) := by
  obtain ⟨file, hfile, rfl⟩ := load_written hload
  refine ⟨file, hfile, ?_⟩
  have hpolicies : (resolve src file).engine.policyList =
      file.engine.policyList.map fun pc => { pc with tokensPerFill := pc.writtenTokens } := by
    rw [resolve_engine]
    exact resolveDeprecated_policyList file.engine
  rw [exactLimits_iff hbuilt, hpolicies, resolve_engine, resolveDeprecated_tokens]
  constructor
  · rintro ⟨hdefault, hevery, hinterval⟩
    refine ⟨hdefault, fun pc hpc huses => ?_, hinterval⟩
    exact hevery _ (List.mem_map_of_mem hpc) huses
  · rintro ⟨hdefault, hevery, hinterval⟩
    refine ⟨hdefault, fun pc hpc huses => ?_, hinterval⟩
    obtain ⟨pc₀, hpc₀, rfl⟩ := List.mem_map.mp hpc
    exact hevery pc₀ hpc₀ huses

end Exact

/-- Five tokens by default, and under `policies:` one policy with the deprecated
`rps: 7`. -/
def limitsFile : Str :=
  tokensFile 5 ++ [10] ++ ascii [' ', 'p', 'o', 'l', 'i', 'c', 'i', 'e', 's', ':'] ++ [10] ++
    ascii [' ', '-', ' ', 'r', 'p', 's', ':', ' ', '7']

/-- This file, and `RLQS_REPORTING_INTERVAL=3s`. -/
def limitsSources : Sources where
  readFile _ := .ok limitsFile
  unmarshal data cfg :=
    if data = limitsFile then
      .ok { cfg with engine := { cfg.engine with
        defaultTokensPerFill := 5
        policies := some [⟨[], [], 0, 7, none, [], 0, [], none⟩] } }
    else .error "yaml: did not find expected node content"
  parseDuration s :=
    if s = ascii ['3', 's'] then .ok 3000000000 else .error "time: invalid duration"
  env := { reportingInterval := ascii ['3', 's'] }

/-- The default, the policy and the interval of the environment are exact. -/
theorem default_limits_exact :
    ∃ cfg e, load limitsSources [99] = .ok cfg ∧ buildEngine compileAny cfg = .ok e ∧
      e.defaultStrategy = some (.tokenBucket 5 5 3000000000) ∧ e.defaultTTL = some 6000000000 ∧
      e.policies.map Policy.strategy = [some (.tokenBucket 7 7 3000000000)] ∧
      ExactLimits cfg e := by
  obtain ⟨cfg, e, hload, hbuilt, hstrategy, httl, hpolicies⟩ :
      ∃ cfg e, load limitsSources [99] = .ok cfg ∧ buildEngine compileAny cfg = .ok e ∧
        e.defaultStrategy = some (.tokenBucket 5 5 3000000000) ∧ e.defaultTTL = some 6000000000 ∧
        e.policies.map Policy.strategy = [some (.tokenBucket 7 7 3000000000)] :=
    ⟨_, _, rfl, rfl, rfl, rfl, rfl⟩
  obtain ⟨file, hfile, hiff⟩ := loaded_limits_exact_iff hload hbuilt
  cases hfile
  refine ⟨cfg, e, hload, hbuilt, hstrategy, httl, hpolicies, hiff.mpr ⟨by decide, ?_, by decide⟩⟩
  intro pc hpc _
  obtain rfl := List.mem_singleton.mp hpc
  decide

/-- No file, and the environment as given. -/
def onlyEnvironment (env : Variables) : Sources where
  readFile _ := .error "open: no such file or directory"
  unmarshal _ cfg := .ok cfg
  parseDuration _ := .error "time: invalid duration"
  env := env

/-- `RLQS_DEFAULT_TOKENS_PER_FILL=4294967296`. -/
def largeLimit : Variables where
  defaultTokensPerFill := ascii ['4', '2', '9', '4', '9', '6', '7', '2', '9', '6']

/-- `Load` takes the number, and the bucket that the engine hands out is empty and
stays empty. -/
theorem large_limit_becomes_none :
    ∃ cfg e, load (onlyEnvironment largeLimit) [] = .ok cfg ∧
      buildEngine compileAny cfg = .ok e ∧
      cfg.engine.defaultTokensPerFill = 4294967296 ∧
      e.defaultStrategy = some (.tokenBucket 0 0 10000000000) ∧ ¬ ExactLimits cfg e := by
  refine ⟨_, _, rfl, rfl, by decide, by decide, fun h => ?_⟩
  obtain ⟨maxTokens, _, _, hs, hmax, -⟩ := h.default
  cases hs
  revert hmax
  decide

end Rlqs
