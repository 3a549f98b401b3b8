import Rlqs.Main.Stateless

/-!
# RLQS main — from the policies of a configuration to the assignments

A configuration names its policies by patterns. `buildEngine` resolves the TTLs,
builds the strategies and lets `policy.New` compile the patterns; `ProcessUsage`
of the engine then searches the compiled policies for every report. All of it
together is one function of the configuration: `Config.assigned`, the strategy
and the TTL of the first policy whose patterns accept the domain and the key.

That function is stated from the file alone. What a strategy string and a unit
string mean is a table of names, a token bucket keeps 32 bits of its count, and the
default TTL is twice the reporting interval in 64 bits; nothing of `main.go` is
called. What a pattern matches is left to `compile`, any function from patterns to
match predicates.

* `parseTimeUnit_eq`, `buildStrategy_eq` — the code reads the names as the tables do;
* `compilePatterns_matches` — a compiled policy matches what its patterns accept;
* `buildEngine_cases` — the two engines, and what they hold for every policy;
* `built_decision` — the decision of a built engine is `Config.assigned`;
* `built_engine_assigns` — `ProcessUsage` of a built engine, for every batch.
-/

namespace Rlqs

open Config

-- ---------------------------------------------------------------------------
-- The meaning of a configuration
-- ---------------------------------------------------------------------------

/-- What a pattern accepts; the empty pattern accepts everything. -/
def patternAccepts (compile : Str → Except GoError Regexp) (pattern text : Str) : Bool :=
  if pattern = [] then true
  else match compile pattern with
    | .ok r => r.matchString text
    | .error _ => false

/-- The policy's two patterns accept the domain and the bucket key. -/
def Config.PolicyConfig.applies (pc : PolicyConfig) (compile : Str → Except GoError Regexp)
    (domain : Str) (key : BucketKey) : Bool :=
  patternAccepts compile pc.domainPattern domain && patternAccepts compile pc.bucketKeyPattern key

/-- A token bucket that is filled up to `tokens` in every interval; 32 bits of the
count are kept. -/
def bucketOfTokens (tokens : UInt64) (interval : Nanos) : RateLimitStrategy :=
  .tokenBucket (UInt32.ofNat (tokens.toNat % 2 ^ 32)) (UInt32.ofNat (tokens.toNat % 2 ^ 32))
    interval

/-- The names of the units. -/
def timeUnits : List (Str × TimeUnit) :=
  [(ascii ['S', 'E', 'C', 'O', 'N', 'D'], .second),
   (ascii ['M', 'I', 'N', 'U', 'T', 'E'], .minute),
   (ascii ['H', 'O', 'U', 'R'], .hour),
   (ascii ['D', 'A', 'Y'], .day),
   (ascii ['M', 'O', 'N', 'T', 'H'], .month),
   (ascii ['Y', 'E', 'A', 'R'], .year)]

/-- The unit that a `time_unit` names, in capitals or not; a text that names none
means seconds. -/
def timeUnitNamed (name : Str) : TimeUnit := (timeUnits.lookup (toUpper name)).getD .second

/-- The names of the strategies, with what the policy asks for under each. -/
def Config.PolicyConfig.strategies (pc : PolicyConfig) : List (Str × RateLimitStrategy) :=
  [(ascii ['d', 'e', 'n', 'y'], .blanketRule .denyAll),
   (ascii ['a', 'l', 'l', 'o', 'w'], .blanketRule .allowAll),
   (ascii ['r', 'e', 'q', 'u', 'e', 's', 't', 's', '_', 'p', 'e', 'r', '_',
      't', 'i', 'm', 'e', '_', 'u', 'n', 'i', 't'],
    .requestsPerTimeUnit pc.requestsPerTimeUnit (timeUnitNamed pc.timeUnit))]

/-- The strategy that a policy means. A `strategy` that is no name, the empty one
too, means the policy's token bucket. -/
def Config.PolicyConfig.strategyNamed (pc : PolicyConfig) (interval : Nanos) :
    RateLimitStrategy :=
  (pc.strategies.lookup pc.strategy).getD (bucketOfTokens pc.tokensPerFill interval)

/-- The default TTL: twice the reporting interval, in 64 bits. -/
def Config.defaultTTL (cfg : Config) : Nanos :=
  Int.bmod (2 * cfg.engine.reportingInterval) (2 ^ 64)

/-- The default strategy: a token bucket. -/
def Config.defaultStrategy (cfg : Config) : RateLimitStrategy :=
  bucketOfTokens cfg.engine.defaultTokensPerFill cfg.engine.reportingInterval

/-- The strategy and the TTL that a configuration means for a bucket key of a
domain: those of the first policy that applies, or the defaults. -/
def Config.assigned (compile : Str → Except GoError Regexp) (cfg : Config) (domain : Str)
    (key : BucketKey) : RateLimitStrategy × Nanos :=
  match cfg.engine.policyList.find? fun pc => pc.applies compile domain key with
  | some pc =>
    (pc.strategyNamed cfg.engine.reportingInterval, pc.assignmentTTL.getD cfg.defaultTTL)
  | none => (cfg.defaultStrategy, cfg.defaultTTL)

-- ---------------------------------------------------------------------------
-- buildStrategy
-- ---------------------------------------------------------------------------

theorem lookup_cons_if {β : Type} (a k : Str) (v : β) (l : List (Str × β)) :
    ((k, v) :: l).lookup a = if a = k then some v else l.lookup a := by
  by_cases h : a = k
  · rw [h, List.lookup_cons_self, if_pos rfl]
  · rw [List.lookup_cons, beq_false_of_ne h, if_neg h]

theorem tokenBucket_eq (tokens : UInt64) (interval : Nanos) :
    tokenBucket tokens interval = bucketOfTokens tokens interval := by
  have hbits : tokens.toUInt32 = UInt32.ofNat (tokens.toNat % 2 ^ 32) := by
    apply UInt32.toNat_inj.mp
    rw [UInt64.toNat_toUInt32, UInt32.toNat_ofNat', Nat.mod_mod]
  unfold tokenBucket bucketOfTokens
  rw [hbits]

theorem times_two_eq (d : Nanos) : d.times 2 = Int.bmod (2 * d) (2 ^ 64) := by
  unfold Nanos.times
  rw [Int.mul_comm]

/-- The count survives if it fits 32 bits. -/
theorem keptTokens_exact_iff (n : UInt64) :
    (UInt32.ofNat (n.toNat % 2 ^ 32)).toNat = n.toNat ↔ n.toNat < 2 ^ 32 := by
  rw [UInt32.toNat_ofNat', Nat.mod_mod]
  omega

/-- Twice an interval survives if it fits 64 bits. -/
theorem twice_exact_iff (t : Int) :
    Int.bmod (2 * t) (2 ^ 64) = 2 * t ↔ -2 ^ 62 ≤ t ∧ t < 2 ^ 62 := by
  have hlow := @Int.le_bmod (2 * t) (2 ^ 64) (by decide)
  have hhigh := @Int.bmod_lt (2 * t) (2 ^ 64) (by decide)
  constructor
  · intro h
    rw [h] at hlow hhigh
    omega
  · rintro ⟨hge, hlt⟩
    exact Int.bmod_eq_of_le (by omega) (by omega)

theorem parseTimeUnit_eq (s : Str) : parseTimeUnit s = timeUnitNamed s := by
  unfold parseTimeUnit timeUnitNamed timeUnits
  simp only [lookup_cons_if, List.lookup_nil]
  repeat' split
  all_goals rfl

/-- `buildStrategy` reads the `strategy` of a policy as the table of names does. -/
theorem buildStrategy_eq (pc : PolicyConfig) (interval : Nanos) :
    buildStrategy pc interval = pc.strategyNamed interval := by
  unfold buildStrategy PolicyConfig.strategyNamed PolicyConfig.strategies
  simp only [lookup_cons_if, List.lookup_nil, parseTimeUnit_eq, tokenBucket_eq]
  repeat' split
  all_goals rfl

-- ---------------------------------------------------------------------------
-- policy.New
-- ---------------------------------------------------------------------------

section Compile

variable {compile : Str → Except GoError Regexp}

/-- What a compiled pattern accepts; no pattern accepts everything. -/
def accepts (r : Option Regexp) (text : Str) : Bool := r.all fun r => r.matchString text

theorem Policy.matches_eq (p : Policy) (domain : Str) (key : BucketKey) :
    p.matches domain key = (accepts p.domainRegex domain && accepts p.bucketKeyRegex key) := by
  unfold Policy.matches Policy.matches.keyMatches accepts
  cases p.domainRegex with
  | none => cases p.bucketKeyRegex <;> rfl
  | some r =>
    cases hr : r.matchString domain with
    | false => simp [hr]
    | true => cases p.bucketKeyRegex <;> simp [hr]

theorem compilePattern_accepts {tooLong invalid : String} {pattern : Str} {r : Option Regexp}
    (h : compilePattern compile tooLong invalid pattern = .ok r) (text : Str) :
    accepts r text = patternAccepts compile pattern text := by
  unfold compilePattern at h
  unfold patternAccepts
  by_cases hempty : pattern = []
  · rw [if_pos hempty] at h ⊢
    cases h
    rfl
  · rw [if_neg hempty] at h ⊢
    split at h
    · simp at h
    · cases hc : compile pattern with
      | error e => simp [hc] at h
      | ok r' =>
        simp only [hc, Except.ok.injEq] at h
        subst h
        rfl

/-- A compiled policy keeps strategy and TTL, and its expressions accept what the
patterns accept. -/
theorem compilePatterns_matches {p : PolicySpec} {q : Policy}
    (h : compilePatterns compile p = .ok q) :
    q.strategy = p.strategy ∧ q.assignmentTTL = p.assignmentTTL ∧
      ∀ domain key, q.matches domain key =
        (patternAccepts compile p.domainPattern domain &&
          patternAccepts compile p.bucketKeyPattern key) := by
  unfold compilePatterns at h
  split at h
  · simp at h
  · rename_i domainRegex hdomain
    split at h
    · simp at h
    · rename_i keyRegex hkey
      cases h
      refine ⟨rfl, rfl, fun domain key => ?_⟩
      rw [Policy.matches_eq, compilePattern_accepts hdomain, compilePattern_accepts hkey]

theorem compilePolicies_forall₂ {i : ℕ} {ps : List PolicySpec} {qs : List Policy}
    (h : compilePolicies compile i ps = .ok qs) :
    List.Forall₂ (fun p q => compilePatterns compile p = .ok q) ps qs := by
  induction ps generalizing i qs with
  | nil =>
    cases h
    exact List.Forall₂.nil
  | cons p ps ih =>
    rw [compilePolicies] at h
    split at h
    · simp at h
    · rename_i q hq
      split at h
      · simp at h
      · rename_i qs' hqs
        cases h
        exact List.Forall₂.cons hq (ih hqs)

/-- A first-match search over two lists that agree on what matches. -/
theorem find_forall₂ {α β : Type} {R : α → β → Prop} {f : α → Bool} {g : β → Bool}
    {as : List α} {bs : List β} (h : List.Forall₂ (fun a b => R a b ∧ f a = g b) as bs) :
    Option.Rel R (as.find? f) (bs.find? g) := by
  induction h with
  | nil => exact Option.Rel.none
  | @cons a b as bs hab _ ih =>
    obtain ⟨hR, hfg⟩ := hab
    cases hb : g b with
    | true =>
      rw [List.find?_cons_of_pos hb, List.find?_cons_of_pos (hfg.trans hb)]
      exact Option.Rel.some hR
    | false =>
      have ha : f a = false := hfg.trans hb
      rw [List.find?_cons_of_neg (by simp [ha]), List.find?_cons_of_neg (by simp [hb])]
      exact ih

-- ---------------------------------------------------------------------------
-- The built engine
-- ---------------------------------------------------------------------------

/-- What `buildEngine` makes of one `PolicyConfig`. -/
structure Built (compile : Str → Except GoError Regexp) (cfg : Config) (pc : PolicyConfig)
    (q : Policy) : Prop where
  strategy : q.strategy = some (buildStrategy pc cfg.engine.reportingInterval)
  assignmentTTL : q.assignmentTTL = some (pc.assignmentTTL.getD cfg.defaultTTL)
  applies : ∀ domain key, pc.applies compile domain key = q.matches domain key

/-- The engine without policies, and the one with. -/
theorem buildEngine_cases {cfg : Config} {e : EngineValue} (h : buildEngine compile cfg = .ok e) :
    (cfg.engine.policyList = [] ∧ e = .default ⟨some cfg.defaultStrategy, some cfg.defaultTTL⟩) ∨
    (cfg.engine.policyList ≠ [] ∧ ∃ qs,
      e = .policy ⟨qs, ⟨some cfg.defaultStrategy, some cfg.defaultTTL, none, none⟩⟩ ∧
      List.Forall₂ (Built compile cfg) cfg.engine.policyList qs) := by
  unfold buildEngine at h
  simp only [tokenBucket_eq, times_two_eq] at h
  by_cases hlen : cfg.engine.policyList.length = 0
  · simp only [if_pos hlen] at h
    cases h
    exact Or.inl ⟨List.length_eq_zero_iff.mp hlen, rfl⟩
  · simp only [if_neg hlen] at h
    right
    refine ⟨fun hnil => hlen (List.length_eq_zero_iff.mpr hnil), ?_⟩
    split at h
    · simp at h
    · rename_i ec hnew
      cases h
      unfold newPolicyEngine at hnew
      split at hnew
      · simp at hnew
      · rename_i qs hqs
        -- the default policy has no patterns, so it always compiles
        cases hnew
        refine ⟨qs, rfl, ?_⟩
        refine (List.forall₂_map_left_iff.mp (compilePolicies_forall₂ hqs)).imp fun pc q hq => ?_
        obtain ⟨hstrategy, httl, hmatches⟩ := compilePatterns_matches hq
        exact ⟨hstrategy, httl, fun domain key => (hmatches domain key).symm⟩

/-- The decision of a built engine is the one that the configuration means. -/
theorem built_decision {cfg : Config} {e : EngineValue} (h : buildEngine compile cfg = .ok e)
    (domain : Str) (key : BucketKey) :
    e.decision domain key =
      (some (cfg.assigned compile domain key).1, some (cfg.assigned compile domain key).2) := by
  rcases buildEngine_cases h with ⟨hnil, rfl⟩ | ⟨-, qs, rfl, hqs⟩
  · unfold Config.assigned
    rw [hnil]
    rfl
  · have hfound := find_forall₂ (f := fun pc => pc.applies compile domain key)
      (g := fun q => q.matches domain key) (hqs.imp fun pc q hq => ⟨hq, hq.applies domain key⟩)
    unfold EngineValue.decision PolicyEngineConfig.matchedPolicy Config.assigned
    dsimp only
    generalize cfg.engine.policyList.find? (fun pc => pc.applies compile domain key) = found
      at hfound ⊢
    generalize qs.find? (fun q => q.matches domain key) = found' at hfound ⊢
    cases hfound with
    | none => rfl
    | some hbuilt =>
      simp only [Option.getD_some, hbuilt.strategy, hbuilt.assignmentTTL, buildStrategy_eq]

/-- No policy of the configuration applies to the report. -/
def Config.NoPolicy (compile : Str → Except GoError Regexp) (cfg : Config) (domain : Str)
    (r : UsageReport) : Prop :=
  ∀ pc ∈ cfg.engine.policyList, pc.applies compile domain (bucketKeyFromProto r.bucketId) = false

theorem Config.NoPolicy.assigned {cfg : Config} {domain : Str} {r : UsageReport}
    (h : cfg.NoPolicy compile domain r) :
    cfg.assigned compile domain (bucketKeyFromProto r.bucketId) =
      (cfg.defaultStrategy, cfg.defaultTTL) := by
  have hnone : (cfg.engine.policyList.find? fun pc =>
      pc.applies compile domain (bucketKeyFromProto r.bucketId)) = none := by
    rw [List.find?_eq_none]
    intro pc hpc
    simp [h pc hpc]
  unfold Config.assigned
  rw [hnone]

/-- **What a built engine assigns.** For every configuration whose engine can be
built, every domain and every batch: the engine has the type that the policy list
asks for; it answers the reports with a non-empty bucket map, in order, each under
its own `BucketId` with the strategy and the TTL that the configuration means for
it; and where no policy applies the two types of engine agree. -/
theorem built_engine_assigns {cfg : Config} {e : EngineValue}
    (hbuilt : buildEngine compile cfg = .ok e) (domain : Str) (reports : List UsageReport) :
    e.isPolicy = !cfg.engine.policyList.isEmpty ∧
    e.processUsage domain reports = .ok ((reports.filter UsageReport.nonEmpty).map fun r =>
      ⟨r.bucketId, .quotaAssignment
        ⟨some (cfg.assigned compile domain (bucketKeyFromProto r.bucketId)).2,
         some (cfg.assigned compile domain (bucketKeyFromProto r.bucketId)).1⟩⟩) ∧
    ((∀ r ∈ reports, r.nonEmpty = true → cfg.NoPolicy compile domain r) →
      e.processUsage domain reports =
        (DefaultEngineConfig.processUsage ⟨some cfg.defaultStrategy, some cfg.defaultTTL⟩)
          domain reports) := by
  have hassigns : e.processUsage domain reports =
      .ok ((reports.filter UsageReport.nonEmpty).map fun r =>
        ⟨r.bucketId, .quotaAssignment
          ⟨some (cfg.assigned compile domain (bucketKeyFromProto r.bucketId)).2,
           some (cfg.assigned compile domain (bucketKeyFromProto r.bucketId)).1⟩⟩) := by
    rw [e.processUsage_eq]
    simp only [built_decision hbuilt, assignmentAction]
  refine ⟨buildEngine_kind hbuilt, hassigns, fun hnone => ?_⟩
  rw [hassigns, DefaultEngineConfig.processUsage]
  congr 1
  refine List.map_congr_left fun r hr => ?_
  obtain ⟨hmem, hnonEmpty⟩ := List.mem_filter.mp hr
  rw [(hnone r hmem hnonEmpty).assigned]
  rfl

end Compile

/-- Every pattern compiles, and matches itself only. -/
def compileLiteral (pattern : Str) : Except GoError Regexp := .ok ⟨fun text => text == pattern⟩

/-- Domain `"e"` is denied, `"d"` is allowed for three seconds at a time, `"g"` has
50 requests an hour and `"h"` a bucket of seven tokens. -/
def fourStrategies : Config :=
  defaultConfig.withEngine ⟨100, 0, 10000000000, some
    [⟨[101], [], 0, 0, none, ascii ['d', 'e', 'n', 'y'], 0, [], none⟩,
     ⟨[100], [], 0, 0, some 3000000000, ascii ['a', 'l', 'l', 'o', 'w'], 0, [], none⟩,
     ⟨[103], [], 0, 0, none, ascii ['r', 'e', 'q', 'u', 'e', 's', 't', 's', '_', 'p', 'e', 'r', '_',
        't', 'i', 'm', 'e', '_', 'u', 'n', 'i', 't'], 50, ascii ['h', 'o', 'u', 'r'], none⟩,
     ⟨[104], [], 7, 0, none, [], 0, [], none⟩]⟩

/-- The answer to a batch of a report without a bucket and one with. -/
def answerOf (ttl : Nanos) (strategy : RateLimitStrategy) : Except GoError (List BucketAction) :=
  .ok [⟨some sampleId, .quotaAssignment ⟨some ttl, some strategy⟩⟩]

/-- Each of the four policies decides in its own domain, and none in domain `"f"`. -/
theorem fourStrategies_assigns :
    let batch : List UsageReport := [⟨none, 0, 1, 0⟩, ⟨some sampleId, 5, 1, 2⟩]
    ∃ e, buildEngine compileLiteral fourStrategies = .ok e ∧ e.isPolicy = true ∧
      e.processUsage [101] batch = answerOf 20000000000 (.blanketRule .denyAll) ∧
      e.processUsage [100] batch = answerOf 3000000000 (.blanketRule .allowAll) ∧
      e.processUsage [103] batch = answerOf 20000000000 (.requestsPerTimeUnit 50 .hour) ∧
      e.processUsage [104] batch = answerOf 20000000000 (.tokenBucket 7 7 10000000000) ∧
      e.processUsage [102] batch = answerOf 20000000000 (.tokenBucket 100 100 10000000000) ∧
      e.processUsage [102] batch = DefaultEngineConfig.processUsage
        ⟨some (.tokenBucket 100 100 10000000000), some 20000000000⟩ [102] batch := by
  intro batch
  have hassigns := @built_engine_assigns compileLiteral fourStrategies _ rfl
  refine ⟨_, rfl, rfl, (hassigns [101] batch).2.1, (hassigns [100] batch).2.1,
    (hassigns [103] batch).2.1, (hassigns [104] batch).2.1, (hassigns [102] batch).2.1,
    (hassigns [102] batch).2.2 fun r _ _ => ?_⟩
  -- no literal is the domain
  intro pc hpc
  have hliteral : pc.domainPattern ∈ fourStrategies.engine.policyList.map (·.domainPattern) :=
    List.mem_map_of_mem hpc
  have hother : pc.domainPattern ≠ [] ∧ pc.domainPattern ≠ [102] := by
    revert hliteral
    generalize pc.domainPattern = pattern
    intro hliteral
    fin_cases hliteral <;> decide
  unfold PolicyConfig.applies patternAccepts
  rw [if_neg hother.1]
  simp [compileLiteral, Ne.symm hother.2]

end Rlqs
