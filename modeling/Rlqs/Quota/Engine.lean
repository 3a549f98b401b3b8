import Rlqs.Storage.Definitions

/-!
# RLQS quota engines

`internal/quota/quota.go` and the decision part of `internal/policy/policy.go`:
the bucket actions an engine returns, the `Engine` interface, and the two
engines of the repository. A compiled regular expression is its match
predicate.

`AnswersAll` is what the two engines have in common: no error, and one
assignment per report with a non-empty bucket map, in order, carrying that
report's `BucketId`.
-/

namespace Rlqs

-- ---------------------------------------------------------------------------
-- Actions
-- ---------------------------------------------------------------------------

inductive BlanketRule where
  | allowAll
  | denyAll
  deriving DecidableEq

inductive TimeUnit where
  | unknown | second | minute | hour | day | month | year
  deriving DecidableEq

/-- `typev3.RateLimitStrategy`. -/
inductive RateLimitStrategy where
  | blanketRule (rule : BlanketRule)
  | requestsPerTimeUnit (requests : UInt64) (timeUnit : TimeUnit)
  | tokenBucket (maxTokens tokensPerFill : UInt32) (fillInterval : Nanos)
  deriving DecidableEq

/-- `QuotaAssignmentAction`. -/
structure QuotaAssignment where
  assignmentTimeToLive : Option Nanos
  rateLimitStrategy : Option RateLimitStrategy
  deriving DecidableEq

/-- The `bucket_action` oneof of a response entry. -/
inductive ActionKind where
  | quotaAssignment (a : QuotaAssignment)
  | abandon
  | unset
  deriving DecidableEq

/-- `RateLimitQuotaResponse_BucketAction`. -/
structure BucketAction where
  bucketId : Option BucketId
  bucketAction : ActionKind

/-- `quota.Engine`. -/
abbrev Engine := Str → List UsageReport → Except GoError (List BucketAction)

/-- `r.BucketId == nil || len(r.BucketId.GetBucket()) == 0` fails. -/
def UsageReport.nonEmpty (r : UsageReport) : Bool :=
  match r.bucketId with
  | none => false
  | some id => GoMap.len id.bucket != 0

-- ---------------------------------------------------------------------------
-- DefaultEngine
-- ---------------------------------------------------------------------------

structure DefaultEngineConfig where
  defaultStrategy : Option RateLimitStrategy
  assignmentTTL : Option Nanos

/-- The action both engines build from a strategy and a TTL. -/
def assignmentAction (r : UsageReport) (strategy : Option RateLimitStrategy)
    (ttl : Option Nanos) : BucketAction :=
  ⟨r.bucketId, .quotaAssignment ⟨ttl, strategy⟩⟩

/-- `DefaultEngine.ProcessUsage`. -/
def DefaultEngineConfig.processUsage (cfg : DefaultEngineConfig) : Engine := fun _ reports =>
  .ok ((reports.filter UsageReport.nonEmpty).map fun r =>
    assignmentAction r cfg.defaultStrategy cfg.assignmentTTL)

-- ---------------------------------------------------------------------------
-- policy.Engine
-- ---------------------------------------------------------------------------

/-- A compiled `*regexp.Regexp`, by what `MatchString` answers. -/
structure Regexp where
  matchString : Str → Bool

/-- `policy.Policy` after `compilePatterns`. -/
structure Policy where
  strategy : Option RateLimitStrategy
  assignmentTTL : Option Nanos
  domainRegex : Option Regexp
  bucketKeyRegex : Option Regexp

/-- `Policy.matches`. -/
def Policy.matches (p : Policy) (domain : Str) (bucketKey : BucketKey) : Bool :=
  match p.domainRegex with
  | some r => if !r.matchString domain then false else keyMatches
  | none => keyMatches
where
  keyMatches : Bool :=
    match p.bucketKeyRegex with
    | some r => r.matchString bucketKey
    | none => true

structure PolicyEngineConfig where
  policies : List Policy
  defaultPolicy : Policy

/-- The first matching policy, or the default one. -/
def PolicyEngineConfig.matchedPolicy (cfg : PolicyEngineConfig) (domain : Str)
    (bucketKey : BucketKey) : Policy :=
  (cfg.policies.find? fun p => p.matches domain bucketKey).getD cfg.defaultPolicy

/-- `policy.Engine.ProcessUsage`. -/
def PolicyEngineConfig.processUsage (cfg : PolicyEngineConfig) : Engine := fun domain reports =>
  .ok ((reports.filter UsageReport.nonEmpty).map fun r =>
    let p := cfg.matchedPolicy domain (bucketKeyFromProto r.bucketId)
    assignmentAction r p.strategy p.assignmentTTL)

-- ---------------------------------------------------------------------------
-- Engines that answer every report
-- ---------------------------------------------------------------------------

/-- No error, and one assignment for each report with a non-empty bucket map,
in order and under that report's `BucketId`. -/
def AnswersAll (e : Engine) : Prop :=
  ∀ domain reports, ∃ actions, e domain reports = .ok actions ∧
    actions.map BucketAction.bucketId =
      (reports.filter UsageReport.nonEmpty).map UsageReport.bucketId ∧
    ∀ a ∈ actions, ∃ q, a.bucketAction = .quotaAssignment q

/-- An engine that maps an assignment over the non-empty reports answers all. -/
theorem answersAll_of_map {e : Engine}
    (strategy : Str → UsageReport → Option RateLimitStrategy)
    (ttl : Str → UsageReport → Option Nanos)
    (h : ∀ domain reports, e domain reports =
      .ok ((reports.filter UsageReport.nonEmpty).map fun r =>
        assignmentAction r (strategy domain r) (ttl domain r))) :
    AnswersAll e := by
  intro domain reports
  refine ⟨_, h domain reports, ?_, ?_⟩
  · rw [List.map_map]
    rfl
  · intro a ha
    obtain ⟨r, -, rfl⟩ := List.mem_map.mp ha
    exact ⟨_, rfl⟩

theorem defaultEngine_answersAll (cfg : DefaultEngineConfig) : AnswersAll cfg.processUsage :=
  answersAll_of_map (fun _ _ => cfg.defaultStrategy) (fun _ _ => cfg.assignmentTTL) fun _ _ => rfl

theorem policyEngine_answersAll (cfg : PolicyEngineConfig) : AnswersAll cfg.processUsage :=
  answersAll_of_map (fun d r => (cfg.matchedPolicy d (bucketKeyFromProto r.bucketId)).strategy)
    (fun d r => (cfg.matchedPolicy d (bucketKeyFromProto r.bucketId)).assignmentTTL) fun _ _ => rfl

end Rlqs
