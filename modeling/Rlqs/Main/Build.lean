import Rlqs.Config.Definitions
import Rlqs.Metrics.Domain
import Rlqs.Storage.Redis

/-!
# RLQS main — what is built from a configuration

`buildStore`, `buildEngine`, `buildStrategy`, `parseTimeUnit` and
`buildDomainClassifier` of `cmd/rlqs-server/main.go`, with `policy.New` and
`compilePatterns` of `internal/policy/policy.go`. `regexp.Compile` is a
parameter `compile`: a function, so it answers the same for the same pattern.

An engine keeps its concrete Go type (`EngineValue`), because `atomic.Value`,
which holds the live engine, compares it.

* `buildEngine_kind` — which concrete type `buildEngine` returns;
* `buildDomainClassifier_ok` — a config whose engine can be built has a
  classifier that can be built;
* `buildEngine_congr`, `buildDomainClassifier_same` — which sections the two read.
-/

namespace Rlqs

open Config

/-- Go's product of a `time.Duration` and a constant: 64 bits, wrapping. -/
def Nanos.times (d : Nanos) (k : Int) : Nanos := Int.bmod (d * k) (2 ^ 64)

theorem Nanos.times_eq {d k : Int} (hlow : 0 ≤ d * k) (hhigh : d * k < 2 ^ 63) :
    Nanos.times d k = d * k := by
  unfold Nanos.times
  apply Int.bmod_eq_of_le
  · omega
  · omega

-- ---------------------------------------------------------------------------
-- Engines
-- ---------------------------------------------------------------------------

/-- A `quota.Engine` value with its concrete type: `*quota.DefaultEngine` or
`*policy.Engine`. -/
inductive EngineValue where
  | default (cfg : DefaultEngineConfig)
  | policy (cfg : PolicyEngineConfig)

def EngineValue.processUsage : EngineValue → Engine
  | .default cfg => cfg.processUsage
  | .policy cfg => cfg.processUsage

/-- The concrete type is `*policy.Engine`. -/
def EngineValue.isPolicy : EngineValue → Bool
  | .default _ => false
  | .policy _ => true

/-- `policy.MaxPatternLength`. -/
def maxPatternLength : Int := 1024

/-- `policy.Policy` before `compilePatterns`. -/
structure PolicySpec where
  domainPattern : Str
  bucketKeyPattern : Str
  strategy : Option RateLimitStrategy
  assignmentTTL : Option Nanos

/-- The two halves of `compilePatterns`: an empty pattern stays uncompiled, a
long one is refused, and the two messages name the pattern. -/
def compilePattern (compile : Str → Except GoError Regexp) (tooLong invalid : String)
    (pattern : Str) : Except Errorf (Option Regexp) :=
  if pattern = [] then .ok none
  else if maxPatternLength < (pattern.length : Int) then
    .error (.new tooLong [.int pattern.length, .int maxPatternLength])
  else
    match compile pattern with
    | .error e => .error (.new invalid [.str pattern, .err e])
    | .ok r => .ok (some r)

/-- `Policy.compilePatterns`. -/
def compilePatterns (compile : Str → Except GoError Regexp) (p : PolicySpec) :
    Except Errorf Policy :=
  match compilePattern compile "domain pattern exceeds max length (%d > %d)"
    "invalid domain pattern %q: %w" p.domainPattern with
  | .error e => .error e
  | .ok domainRegex =>
    match compilePattern compile "bucket key pattern exceeds max length (%d > %d)"
      "invalid bucket key pattern %q: %w" p.bucketKeyPattern with
    | .error e => .error e
    | .ok bucketKeyRegex => .ok ⟨p.strategy, p.assignmentTTL, domainRegex, bucketKeyRegex⟩

/-- The loop of `policy.New`, from policy `i` on. -/
def compilePolicies (compile : Str → Except GoError Regexp) :
    ℕ → List PolicySpec → Except Errorf (List Policy)
  | _, [] => .ok []
  | i, p :: ps =>
    match compilePatterns compile p with
    | .error e => .error (.wrap "policy %d: %w" [.int i] e)
    | .ok q =>
      match compilePolicies compile (i + 1) ps with
      | .error e => .error e
      | .ok qs => .ok (q :: qs)

/-- `policy.New`. -/
def newPolicyEngine (compile : Str → Except GoError Regexp) (policies : List PolicySpec)
    (defaultPolicy : PolicySpec) : Except Errorf PolicyEngineConfig :=
  match compilePolicies compile 0 policies with
  | .error e => .error e
  | .ok compiled =>
    match compilePatterns compile defaultPolicy with
    | .error e => .error (.wrap "default policy: %w" [] e)
    | .ok d => .ok ⟨compiled, d⟩

-- ---------------------------------------------------------------------------
-- buildStrategy
-- ---------------------------------------------------------------------------

/-- `strings.ToUpper`, as far as a comparison with ASCII capitals can tell. Two
letters outside ASCII have a capital in it, `ı` and `ſ`; every other letter
outside ASCII has its capital there too. -/
def toUpper : Str → Str
  | [] => []
  | [b] => [if 97 ≤ b ∧ b ≤ 122 then b - 32 else b]
  | b :: b' :: rest =>
    if b = 0xc4 ∧ b' = 0xb1 then 73 :: toUpper rest
    else if b = 0xc5 ∧ b' = 0xbf then 83 :: toUpper rest
    else (if 97 ≤ b ∧ b ≤ 122 then b - 32 else b) :: toUpper (b' :: rest)

/-- `parseTimeUnit`. -/
def parseTimeUnit (s : Str) : TimeUnit :=
  let upper := toUpper s
  if upper = ascii ['S', 'E', 'C', 'O', 'N', 'D'] then .second
  else if upper = ascii ['M', 'I', 'N', 'U', 'T', 'E'] then .minute
  else if upper = ascii ['H', 'O', 'U', 'R'] then .hour
  else if upper = ascii ['D', 'A', 'Y'] then .day
  else if upper = ascii ['M', 'O', 'N', 'T', 'H'] then .month
  else if upper = ascii ['Y', 'E', 'A', 'R'] then .year
  else .second

/-- The token bucket of `buildStrategy` and of the default strategy. -/
def tokenBucket (tokensPerFill : UInt64) (reportingInterval : Nanos) : RateLimitStrategy :=
  .tokenBucket tokensPerFill.toUInt32 tokensPerFill.toUInt32 reportingInterval

/-- `buildStrategy`. -/
def buildStrategy (pc : PolicyConfig) (reportingInterval : Nanos) : RateLimitStrategy :=
  if pc.strategy = ascii ['d', 'e', 'n', 'y'] then .blanketRule .denyAll
  else if pc.strategy = ascii ['a', 'l', 'l', 'o', 'w'] then .blanketRule .allowAll
  else if pc.strategy = ascii ['r', 'e', 'q', 'u', 'e', 's', 't', 's', '_', 'p', 'e', 'r', '_',
      't', 'i', 'm', 'e', '_', 'u', 'n', 'i', 't'] then
    .requestsPerTimeUnit pc.requestsPerTimeUnit (parseTimeUnit pc.timeUnit)
  else tokenBucket pc.tokensPerFill reportingInterval

-- ---------------------------------------------------------------------------
-- buildEngine, buildDomainClassifier, buildStore
-- ---------------------------------------------------------------------------

/-- The policy that `buildEngine` makes of a `PolicyConfig`. -/
def policySpec (reportingInterval defaultTTL : Nanos) (pc : PolicyConfig) : PolicySpec where
  domainPattern := pc.domainPattern
  bucketKeyPattern := pc.bucketKeyPattern
  strategy := some (buildStrategy pc reportingInterval)
  assignmentTTL := some (pc.assignmentTTL.getD defaultTTL)

/-- `buildEngine`. -/
def buildEngine (compile : Str → Except GoError Regexp) (cfg : Config) :
    Except Errorf EngineValue :=
  let interval := cfg.engine.reportingInterval
  let defaultStrategy := tokenBucket cfg.engine.defaultTokensPerFill interval
  let defaultTTL := interval.times 2
  if cfg.engine.policyList.length = 0 then
    .ok (.default ⟨some defaultStrategy, some defaultTTL⟩)
  else
    match newPolicyEngine compile (cfg.engine.policyList.map (policySpec interval defaultTTL))
      ⟨[], [], some defaultStrategy, some defaultTTL⟩ with
    | .error e => .error e
    | .ok e => .ok (.policy e)

/-- `buildDomainClassifier`. -/
def buildDomainClassifier (compile : Str → Except GoError Regexp) (cfg : Config) :
    Except Errorf DomainClassifier :=
  newDomainClassifier compile
    ((cfg.engine.policyList.map PolicyConfig.domainPattern).filter fun p => p ≠ [])
    cfg.server.maxMetricDomains

/-- The two stores. -/
inductive Store where
  | memory (s : MemoryStorage)
  | redis (s : RedisStorage)

/-- `buildStore`, with the data of the Redis server it would talk to. -/
def buildStore (cfg : Config) (redis : Redis) : Store :=
  if cfg.storage.type = ascii ['r', 'e', 'd', 'i', 's'] then
    .redis (newRedisStorage ⟨cfg.engine.reportingInterval.times 6, 0⟩ redis)
  else .memory MemoryStorage.newMemoryStorage

-- ---------------------------------------------------------------------------
-- What the builders read and when they fail
-- ---------------------------------------------------------------------------

section Builders

variable {compile : Str → Except GoError Regexp} {cfg cfg' : Config}

/-- `buildEngine` reads the engine section. -/
theorem buildEngine_congr (h : cfg.engine = cfg'.engine) :
    buildEngine compile cfg = buildEngine compile cfg' := by
  unfold buildEngine
  rw [h]

/-- With policies the engine is a `*policy.Engine`, without a `*DefaultEngine`. -/
theorem buildEngine_kind {e : EngineValue} (h : buildEngine compile cfg = .ok e) :
    e.isPolicy = !cfg.engine.policyList.isEmpty := by
  unfold buildEngine at h
  cases hp : cfg.engine.policyList with
  | nil =>
    rw [hp] at h
    cases h
    rfl
  | cons pc pcs =>
    rw [hp] at h
    simp only [List.length_cons, Nat.add_one_ne_zero, if_false] at h
    split at h
    · simp at h
    · cases h
      rfl

theorem compilePatterns_domain {p : PolicySpec} {q : Policy}
    (h : compilePatterns compile p = .ok q) (hne : p.domainPattern ≠ []) :
    ∃ r, compile p.domainPattern = .ok r := by
  unfold compilePatterns at h
  split at h
  · simp at h
  · rename_i r hr
    unfold compilePattern at hr
    rw [if_neg hne] at hr
    split at hr
    · simp at hr
    · split at hr
      · simp at hr
      · rename_i r' hr'
        exact ⟨r', hr'⟩

theorem compilePolicies_domain {i : ℕ} {ps : List PolicySpec} {qs : List Policy}
    (h : compilePolicies compile i ps = .ok qs) :
    ∀ p ∈ ps, p.domainPattern ≠ [] → ∃ r, compile p.domainPattern = .ok r := by
  induction ps generalizing i qs with
  | nil => exact fun p hp => absurd hp List.not_mem_nil
  | cons p ps ih =>
    rw [compilePolicies] at h
    split at h
    · simp at h
    · rename_i q hq
      split at h
      · simp at h
      · rename_i qs' hqs
        intro p' hp' hne
        rcases List.mem_cons.mp hp' with rfl | hp'
        · exact compilePatterns_domain hq hne
        · exact ih hqs p' hp' hne

/-- The domain patterns of a config whose engine can be built all compile. -/
theorem buildEngine_domain {e : EngineValue} (h : buildEngine compile cfg = .ok e) :
    ∀ pc ∈ cfg.engine.policyList, pc.domainPattern ≠ [] →
      ∃ r, compile pc.domainPattern = .ok r := by
  intro pc hpc hne
  unfold buildEngine at h
  have hlen : cfg.engine.policyList.length ≠ 0 := by
    have := List.length_pos_of_mem hpc
    omega
  simp only [if_neg hlen] at h
  split at h
  · simp at h
  · rename_i e' hnew
    unfold newPolicyEngine at hnew
    split at hnew
    · simp at hnew
    · rename_i qs hqs
      exact compilePolicies_domain hqs (policySpec _ _ pc) (List.mem_map_of_mem hpc) hne

/-- The classifier never fails where the engine does not. -/
theorem buildDomainClassifier_ok {e : EngineValue} (h : buildEngine compile cfg = .ok e) :
    ∃ c, buildDomainClassifier compile cfg = .ok c := by
  refine newDomainClassifier_ok (fun p hp hne => ?_) _
  obtain ⟨hp, -⟩ := List.mem_filter.mp hp
  obtain ⟨pc, hpc, rfl⟩ := List.mem_map.mp hp
  exact buildEngine_domain h pc hpc hne

/-- Two configs with the same engine section have classifiers with the same
patterns; the cap is the one field that is read from the server section. -/
theorem buildDomainClassifier_same {c c' : DomainClassifier} (h : cfg.engine = cfg'.engine)
    (hc : buildDomainClassifier compile cfg = .ok c)
    (hc' : buildDomainClassifier compile cfg' = .ok c') :
    c.patterns = c'.patterns ∧
      c.maxDomains = effectiveMaxDomains cfg.server.maxMetricDomains ∧
      c'.maxDomains = effectiveMaxDomains cfg'.server.maxMetricDomains := by
  obtain ⟨hpatterns, hmax⟩ := newDomainClassifier_eq hc
  obtain ⟨hpatterns', hmax'⟩ := newDomainClassifier_eq hc'
  rw [h, hpatterns'] at hpatterns
  exact ⟨(Except.ok.inj hpatterns).symm, hmax, hmax'⟩

end Builders

end Rlqs
