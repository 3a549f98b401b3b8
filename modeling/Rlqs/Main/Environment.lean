import Rlqs.Main.Deployment
import Rlqs.Main.Assignments

/-!
# RLQS main — the environment wins over every edit of the file

`Load` applies the environment variables last, so a variable that is set decides its
field whatever the file says. The process loads the file again on every change, with
the same environment: no edit of the file changes a value that the environment sets.

`FollowsEnvironment` says for each variable which value its field has. Every config
that `Load` returns follows the environment (`load_follows`), and so does every one the
watcher holds and the loop serves, in every run (`environment_survives_reloads`). The
defaults that the live engine assigns are then those of the environment too, as far as
a count of 32 bits and a TTL of 64 can hold them.
-/

namespace Rlqs

open Config Steps

-- ---------------------------------------------------------------------------
-- The value of every variable
-- ---------------------------------------------------------------------------

/-- The fields of a config have the values that the environment gives them. An empty
variable says nothing, nor does a number or a duration that does not parse, and
`RLQS_DEFAULT_RPS` is only read where `RLQS_DEFAULT_TOKENS_PER_FILL` is empty. -/
structure FollowsEnvironment (src : Sources) (cfg : Config) : Prop where
  grpcAddr : src.env.grpcAddr ≠ [] → cfg.server.grpcAddr = src.env.grpcAddr
  metricsAddr : src.env.metricsAddr ≠ [] → cfg.server.metricsAddr = src.env.metricsAddr
  tokens : ∀ n, parseUint src.env.defaultTokensPerFill = some n →
    cfg.engine.defaultTokensPerFill = n
  rps : ∀ n, src.env.defaultTokensPerFill = [] → parseUint src.env.defaultRPS = some n →
    cfg.engine.defaultTokensPerFill = n
  interval : ∀ t, src.env.reportingInterval ≠ [] →
    src.parseDuration src.env.reportingInterval = .ok t → cfg.engine.reportingInterval = t
  certFile : src.env.tlsCertFile ≠ [] → cfg.server.tls.certFile = src.env.tlsCertFile
  keyFile : src.env.tlsKeyFile ≠ [] → cfg.server.tls.keyFile = src.env.tlsKeyFile
  caFile : src.env.tlsCAFile ≠ [] → cfg.server.tls.caFile = src.env.tlsCAFile
  storageType : src.env.storageType ≠ [] → cfg.storage.type = src.env.storageType
  redisAddr : src.env.storageRedisAddr ≠ [] → cfg.storage.redis.addr = src.env.storageRedisAddr
  poolSize : ∀ n, atoi src.env.storageRedisPoolSize = some n → cfg.storage.redis.poolSize = n
  tracingEnabled : src.env.tracingEnabled ≠ [] →
    (cfg.tracing.enabled = true ↔ src.env.tracingEnabled = ascii ['t', 'r', 'u', 'e'] ∨
      src.env.tracingEnabled = ascii ['1'])
  tracingEndpoint : src.env.tracingEndpoint ≠ [] → cfg.tracing.endpoint = src.env.tracingEndpoint
  tracingInsecure : src.env.tracingInsecure ≠ [] →
    (cfg.tracing.insecure = true ↔ src.env.tracingInsecure = ascii ['t', 'r', 'u', 'e'] ∨
      src.env.tracingInsecure = ascii ['1'])

section Fields

variable (src : Sources) (cfg : Config)

theorem overrideServer_server (v : Variables) :
    (overrideServer v cfg).server = { cfg.server with
      grpcAddr := if v.grpcAddr = [] then cfg.server.grpcAddr else v.grpcAddr
      metricsAddr := if v.metricsAddr = [] then cfg.server.metricsAddr else v.metricsAddr } := by
  unfold overrideServer whenSet
  dsimp only
  split <;> split <;> rfl

/-- The token variables are about the engine only. -/
theorem overrideTokens_server (v : Variables) : (overrideTokens v cfg).server = cfg.server := by
  unfold overrideTokens whenSet setTokens
  split
  · cases parseUint v.defaultTokensPerFill <;> rfl
  · split
    · rfl
    · cases parseUint v.defaultRPS <;> rfl

/-- So is the interval variable. -/
theorem overrideInterval_server : (overrideInterval src cfg).server = cfg.server := by
  unfold overrideInterval whenSet
  split
  · rfl
  · cases src.parseDuration src.env.reportingInterval <;> rfl

/-- The server section under the environment. -/
theorem environment_server :
    (environment src cfg).server = { cfg.server with
      grpcAddr := if src.env.grpcAddr = [] then cfg.server.grpcAddr else src.env.grpcAddr
      metricsAddr := if src.env.metricsAddr = [] then cfg.server.metricsAddr
        else src.env.metricsAddr
      tls :=
        { certFile := if src.env.tlsCertFile = [] then cfg.server.tls.certFile
            else src.env.tlsCertFile
          keyFile := if src.env.tlsKeyFile = [] then cfg.server.tls.keyFile
            else src.env.tlsKeyFile
          caFile := if src.env.tlsCAFile = [] then cfg.server.tls.caFile
            else src.env.tlsCAFile } } := by
  show (overrideTLS src.env (overrideInterval src (overrideTokens src.env
    (overrideServer src.env cfg)))).server = _
  unfold overrideTLS
  dsimp only
  rw [overrideInterval_server, overrideTokens_server, overrideServer_server]

theorem truthy_iff (v : Str) :
    truthy v = true ↔ v = ascii ['t', 'r', 'u', 'e'] ∨ v = ascii ['1'] := by
  unfold truthy
  rw [Bool.or_eq_true, decide_eq_true_eq, decide_eq_true_eq]

/-- A text that parses is not empty. -/
theorem parseUint_ne_nil {v : Str} {n : UInt64} (h : parseUint v = some n) : v ≠ [] := by
  rintro rfl
  cases h

theorem atoi_ne_nil {v : Str} {n : Int} (h : atoi v = some n) : v ≠ [] := by
  rintro rfl
  cases h

/-- The token count of the environment, by the variable it comes from. -/
theorem Variables.tokens_eq (v : Variables) :
    (∀ n, parseUint v.defaultTokensPerFill = some n → v.tokens = some n) ∧
    ∀ n, v.defaultTokensPerFill = [] → parseUint v.defaultRPS = some n → v.tokens = some n := by
  unfold Variables.tokens
  constructor
  · intro n hn
    rw [if_pos (parseUint_ne_nil hn), hn]
  · intro n hnil hn
    rw [if_neg (not_not.mpr hnil), if_pos (parseUint_ne_nil hn), hn]

theorem Sources.interval_eq {t : Nanos} (hset : src.env.reportingInterval ≠ [])
    (h : src.parseDuration src.env.reportingInterval = .ok t) : src.interval = some t := by
  unfold Sources.interval
  rw [if_neg hset, h]
  rfl

/-- Whatever the config was, under the environment it follows it. -/
theorem environment_follows : FollowsEnvironment src (environment src cfg) := by
  have hserver := environment_server src cfg
  have hengine := environment_engine src cfg
  have htokens := src.env.tokens_eq
  constructor
  case grpcAddr | metricsAddr | certFile | keyFile | caFile =>
    intro hset
    rw [hserver]
    exact if_neg hset
  case storageType | redisAddr | tracingEndpoint =>
    intro hset
    exact if_neg hset
  case tokens =>
    intro n hn
    rw [hengine, htokens.1 n hn]
    rfl
  case rps =>
    intro n hnil hn
    rw [hengine, htokens.2 n hnil hn]
    rfl
  case interval =>
    intro t hset ht
    rw [hengine, src.interval_eq hset ht]
    rfl
  case poolSize =>
    intro n hn
    show (if src.env.storageRedisPoolSize = [] then _ else _) = n
    rw [if_neg (atoi_ne_nil hn), hn]
    rfl
  case tracingEnabled =>
    intro hset
    rw [← truthy_iff]
    show (if src.env.tracingEnabled = [] then _ else _) = true ↔ _
    rw [if_neg hset]
  case tracingInsecure =>
    intro hset
    rw [← truthy_iff]
    show (if src.env.tracingInsecure = [] then _ else _) = true ↔ _
    rw [if_neg hset]

/-- Where the two variables of the engine section are stated together, a token count
and an interval from the environment are those of the config. -/
theorem FollowsEnvironment.engine {src : Sources} {cfg : Config} (h : FollowsEnvironment src cfg) :
    (∀ n, src.env.tokens = some n → cfg.engine.defaultTokensPerFill = n) ∧
    ∀ t, src.interval = some t → cfg.engine.reportingInterval = t := by
  constructor
  · intro n hn
    unfold Variables.tokens at hn
    split at hn
    · exact h.tokens n hn
    · rename_i hnil
      split at hn
      · exact h.rps n (not_not.mp hnil) hn
      · cases hn
  · intro t ht
    unfold Sources.interval at ht
    split at ht
    · cases ht
    · rename_i hset
      cases hparse : src.parseDuration src.env.reportingInterval with
      | error e => simp [hparse, Except.toOption] at ht
      | ok t' =>
        rw [hparse] at ht
        exact h.interval t hset (hparse.trans (congrArg Except.ok (Option.some.inj ht)))

end Fields

/-- `Load` ends with the environment. -/
theorem load_follows {src : Sources} {path data : Str} {c : Config}
    (h : loadData src path data = .ok c) : FollowsEnvironment src c := by
  have hresolved : ∃ cfg, c = environment src cfg := by
    unfold loadData load at h
    split at h
    · exact ⟨_, (Except.ok.inj h).symm⟩
    · dsimp only at h
      split at h
      · cases h
      · exact ⟨_, (Except.ok.inj h).symm⟩
  obtain ⟨cfg, rfl⟩ := hresolved
  exact environment_follows src cfg

-- ---------------------------------------------------------------------------
-- Along every run
-- ---------------------------------------------------------------------------

/-- The configs that the watcher holds and the process serves have the values of the
environment, and the live engine is built from the current config. -/
structure EnvironmentKept (compile : Str → Except GoError Regexp) (src : Sources)
    (d : Deployment) : Prop where
  numbered : d.file.Numbered
  held : ∀ c, d.file.Holds c → FollowsEnvironment src c.2
  current : ∀ p, d.process = some p → FollowsEnvironment src p.currentCfg
  engine : ∀ p, d.process = some p → buildEngine compile p.currentCfg = .ok p.engine

section Run

variable {compile : Str → Except GoError Regexp} {src : Sources} {path : Str} {d d' : Deployment}
  {m : DeployMove} {startup : Config} {redis : Redis} {p₀ p p' : Process}

/-- What the file and its watcher do. -/
theorem FileWatch.next_held {f f' : FileWatch} {fm : FileMove}
    {loads : Str → Except GoError Config} (hnumbered : f.Numbered)
    (hn : f.next loads fm = some f') {c : Loaded} (hc : f'.Holds c) :
    f.Holds c ∨ ∃ data, loads data = .ok c.2 := by
  cases hm : fm.own with
  | true => exact ((FileWatch.next_own hm hn).held.2.2 c hc).imp_right fun h => ⟨_, h⟩
  | false =>
    cases fm with
    | write data =>
      cases hn
      exact Or.inl hc
    | replace data ops =>
      obtain ⟨events, -, rfl⟩ := FileWatch.next_replace hnumbered hn
      exact Or.inl hc
    | _ => cases hm

/-- An iteration of the loop keeps its config or takes the new one, and the engine is
that of the config. -/
theorem Process.reload_current {c : Config} (h : p.reload compile c = some p')
    (hengine : buildEngine compile p.currentCfg = .ok p.engine) :
    (p'.currentCfg = p.currentCfg ∨ p'.currentCfg = c) ∧
      buildEngine compile p'.currentCfg = .ok p'.engine := by
  rcases Process.reload_cases compile p c with ⟨-, hr⟩ | ⟨-, -, hr⟩ | ⟨-, e, -, -, hr⟩ |
    ⟨-, e, k, he, -, -, hr⟩
  all_goals rw [hr] at h
  · obtain rfl := Option.some.inj h
    exact ⟨Or.inl rfl, hengine⟩
  · obtain rfl := Option.some.inj h
    exact ⟨Or.inl rfl, hengine⟩
  · cases h
  · obtain rfl := Option.some.inj h
    exact ⟨Or.inr rfl, he⟩

/-- Every move. -/
theorem EnvironmentKept.next (h : EnvironmentKept compile src d)
    (hn : d.next compile (loadData src path) m = some d') : EnvironmentKept compile src d' := by
  have hheld : ∀ {fm : FileMove} {f : FileWatch}, d.file.next (loadData src path) fm = some f →
      ∀ c, f.Holds c → FollowsEnvironment src c.2 := by
    intro fm f hf c hc
    rcases FileWatch.next_held h.numbered hf hc with hold | ⟨data, hdata⟩
    · exact h.held c hold
    · exact load_follows hdata
  rcases Deployment.next_cases hn with ⟨p, c, f, rfl, hp, hc, hf, rfl⟩ |
    ⟨fm, f, rfl, -, hf, rfl⟩ | ⟨p, e, -, hp, he, rfl⟩
  · -- what the loop receives was in the channel
    have hnew : FollowsEnvironment src c.2 := h.held c (Or.inr (Or.inl hc))
    refine ⟨FileWatch.numbered_next h.numbered hf, hheld hf, fun p' hp' => ?_, fun p' hp' => ?_⟩
    · rcases (Process.reload_current hp' (h.engine p hp)).1 with hsame | hsame
      · rw [hsame]
        exact h.current p hp
      · rw [hsame]
        exact hnew
    · exact (Process.reload_current hp' (h.engine p hp)).2
  · exact ⟨FileWatch.numbered_next h.numbered hf, hheld hf, h.current, h.engine⟩
  · have hkept : ∀ p', p.next compile e = some p' →
        p'.currentCfg = p.currentCfg ∧ p'.engine = p.engine := by
      intro p' hp'
      cases e with
      | deliver c => cases he
      | bind domain | use u =>
        rw [← Option.some.inj hp']
        exact ⟨rfl, rfl⟩
    refine ⟨h.numbered, h.held, fun p' hp' => ?_, fun p' hp' => ?_⟩
    · rw [(hkept p' hp').1]
      exact h.current p hp
    · rw [(hkept p' hp').1, (hkept p' hp').2]
      exact h.engine p hp

/-- **The environment survives reloads.** In every run of the watcher and the reload
loop, whatever is written to the file and whenever: every field of the current config
that a variable sets has the value of the variable. So where no policy applies, the
live engine assigns a token bucket with the token count of the environment, if one is
set and below 2^32, and with its interval and twice the interval as TTL, if one is set
and, for the TTL, twice the interval is a duration. -/
theorem environment_survives_reloads {data : Str} (hload : loadData src path data = .ok startup)
    (hstart : startProcess compile startup redis = some p₀)
    (h : Run (Deployment.next compile (loadData src path)) free ⟨watchStarted data, some p₀⟩ d)
    (hp : d.process = some p) :
    FollowsEnvironment src p.currentCfg ∧
    ∀ domain r, r.nonEmpty = true → p.currentCfg.NoPolicy compile domain r →
      ∃ maxTokens tokensPerFill fillInterval ttl,
        p.engine.processUsage domain [r] = .ok [⟨r.bucketId, .quotaAssignment
          ⟨some ttl, some (.tokenBucket maxTokens tokensPerFill fillInterval)⟩⟩] ∧
        (∀ n, src.env.tokens = some n → n.toNat < 2 ^ 32 →
          maxTokens.toNat = n.toNat ∧ tokensPerFill.toNat = n.toNat) ∧
        (∀ t, src.interval = some t → fillInterval = t) ∧
        (∀ t, src.interval = some t → -2 ^ 62 ≤ t → t < 2 ^ 62 → ttl = 2 * t) := by
  have hd : EnvironmentKept compile src d := by
    refine Run.invariant (I := EnvironmentKept compile src) h ?_ ?_
    · have hlive := startProcess_live hstart
      have hcurrent : p₀.currentCfg = startup := hlive.current
      refine ⟨watchStarted_numbered data, fun c hc => ?_, fun p hp => ?_, fun p hp => ?_⟩
      · simp [watchStarted, FileWatch.Holds] at hc
      · rw [← Option.some.inj hp, hcurrent]
        exact load_follows hload
      · rw [← Option.some.inj hp]
        exact hlive.engine
    · intro d m d' _ hd _ hn
      exact hd.next hn
  have hfollows := hd.current p hp
  obtain ⟨htokens, hinterval⟩ := hfollows.engine
  refine ⟨hfollows, fun domain r hr hnone => ?_⟩
  -- one report, and the defaults of the current config for it
  have hanswer : p.engine.processUsage domain [r] = .ok [⟨r.bucketId, .quotaAssignment
      ⟨some p.currentCfg.defaultTTL, some p.currentCfg.defaultStrategy⟩⟩] := by
    rw [p.engine.processUsage_eq]
    simp only [List.filter_cons, hr, if_true, List.filter_nil, List.map_cons, List.map_nil,
      built_decision (hd.engine p hp), hnone.assigned]
    rfl
  refine ⟨_, _, _, _, hanswer, fun n hn hlt => ?_, hinterval, fun t ht hlow hhigh => ?_⟩
  · rw [htokens n hn, (keptTokens_exact_iff n).mpr hlt]
    exact ⟨rfl, rfl⟩
  · unfold Config.defaultTTL
    rw [hinterval t ht]
    exact (twice_exact_iff t).mpr ⟨hlow, hhigh⟩

end Run

/-- The sample decoder, with 7 tokens, an interval of one second and a `gRPC` address in
the environment. -/
def pinnedSources : Sources :=
  { sampleSources with
    parseDuration := fun _ => .ok 1000000000
    env :=
      { grpcAddr := ascii [':', '9', '0']
        defaultTokensPerFill := ascii ['7']
        reportingInterval := ascii ['1', 's'] } }

/-- What `Load` returns at the start. -/
def pinnedConfig : Config :=
  { defaultConfig with
    server := { defaultConfig.server with grpcAddr := ascii [':', '9', '0'] }
    engine := { defaultConfig.engine with
      defaultTokensPerFill := 7, reportingInterval := 1000000000 } }

def pinnedProcess : Process :=
  ⟨pinnedConfig, pinnedConfig,
    .default ⟨some (.tokenBucket 7 7 1000000000), some 2000000000⟩,
    freshClassifier [] pinnedConfig.server.maxMetricDomains, [],
    buildStore pinnedConfig emptyRedis⟩

/-- The file is written, read and delivered. -/
def pinnedRun : Option Deployment :=
  exec (Deployment.next compileAny (loadData pinnedSources [99])) (fun _ _ => true)
    ⟨watchStarted (tokensFile 1), some pinnedProcess⟩ servedMoves

theorem environment_survives_reloads_written :
    ∃ d p, Run (Deployment.next compileAny (loadData pinnedSources [99])) free
        ⟨watchStarted (tokensFile 1), some pinnedProcess⟩ d ∧
      d.process = some p ∧ d.file.data = tokensFile 2 ∧ d.file.delivered.length = 1 ∧
      p.currentCfg.server.grpcAddr = ascii [':', '9', '0'] ∧
      p.currentCfg.engine.defaultTokensPerFill = 7 ∧
      ∃ maxTokens tokensPerFill, maxTokens.toNat = 7 ∧ tokensPerFill.toNat = 7 ∧
        p.engine.processUsage [100] [⟨some sampleId, 0, 0, 0⟩] =
          .ok [⟨some sampleId, .quotaAssignment
            ⟨some 2000000000, some (.tokenBucket maxTokens tokensPerFill 1000000000)⟩⟩] := by
  obtain ⟨d, hd⟩ : ∃ d, pinnedRun = some d := Option.isSome_iff_exists.mp (by decide +kernel)
  have hfacts : (pinnedRun.all fun d => decide (d.file.data = tokensFile 2) &&
      decide (d.file.delivered.length = 1) &&
      d.process.any fun p => p.currentCfg.engine.policyList.isEmpty) = true := by
    decide +kernel
  simp only [hd, Option.all_some, Bool.and_eq_true, decide_eq_true_eq, Option.any_eq_true,
    List.isEmpty_iff] at hfacts
  obtain ⟨⟨hdata, hdelivered⟩, p, hp, hnil⟩ := hfacts
  have hload : loadData pinnedSources [99] (tokensFile 1) = .ok pinnedConfig := by
    decide +kernel
  have hstart : startProcess compileAny pinnedConfig emptyRedis = some pinnedProcess := rfl
  have hrun : Run (Deployment.next compileAny (loadData pinnedSources [99])) free
      ⟨watchStarted (tokensFile 1), some pinnedProcess⟩ d := run_of_exec (fun _ _ _ => trivial) hd
  obtain ⟨hfollows, hassigns⟩ := environment_survives_reloads hload hstart hrun hp
  obtain ⟨maxTokens, tokensPerFill, fillInterval, ttl, hanswer, htokens, hfill, httl⟩ :=
    hassigns [100] ⟨some sampleId, 0, 0, 0⟩ rfl fun pc hpc => by simp [hnil] at hpc
  have hseven := htokens 7 (by decide +kernel) (by decide)
  rw [hfill 1000000000 rfl, httl 1000000000 rfl (by decide) (by decide)] at hanswer
  exact ⟨d, p, hrun, hp, hdata, hdelivered, hfollows.grpcAddr (by decide),
    hfollows.tokens 7 (by decide +kernel), maxTokens, tokensPerFill, hseven.1, hseven.2, hanswer⟩

end Rlqs
