import Rlqs.Storage.Definitions

/-!
# RLQS config — sections and `Diff`

The configuration of `internal/config/config.go` with every field, since `Diff`
compares whole sections, and `Diff` of `internal/config/diff.go`.

`reflect.DeepEqual` on these types is equality of the model: pointers are
compared by what they point to, a nil slice or map differs from an empty one
(`none` and `some []`), and maps are compared without regard to order (`Finmap`).
-/

namespace Rlqs

namespace Config

structure TLSConfig where
  certFile : Str
  keyFile : Str
  caFile : Str
  deriving DecidableEq

structure ServerConfig where
  grpcAddr : Str
  metricsAddr : Str
  tls : TLSConfig
  maxConcurrentStreams : UInt32
  maxBucketsPerStream : Int
  maxReportsPerMessage : Int
  engineTimeout : Nanos
  maxBucketEntries : Int
  maxBucketKeyLen : Int
  maxBucketValueLen : Int
  maxMetricDomains : Int
  keepaliveMaxIdleTime : Nanos
  keepalivePingInterval : Nanos
  keepalivePingTimeout : Nanos
  deriving DecidableEq

structure DenyResponseConfig where
  httpStatus : Int
  httpBody : Str
  grpcStatusCode : Int
  grpcStatusMessage : Str
  responseHeadersToAdd : Option (Finmap fun _ : Str => Str)
  deriving DecidableEq

structure PolicyConfig where
  domainPattern : Str
  bucketKeyPattern : Str
  tokensPerFill : UInt64
  rps : UInt64
  assignmentTTL : Option Nanos
  strategy : Str
  requestsPerTimeUnit : UInt64
  timeUnit : Str
  denyResponse : Option DenyResponseConfig
  deriving DecidableEq

structure EngineConfig where
  defaultTokensPerFill : UInt64
  defaultRPS : UInt64
  reportingInterval : Nanos
  policies : Option (List PolicyConfig)
  deriving DecidableEq

/-- The policies, with none for a nil slice. -/
def EngineConfig.policyList (e : EngineConfig) : List PolicyConfig := e.policies.getD []

/-- `config.RedisConfig`. -/
structure RedisConfig where
  addr : Str
  poolSize : Int
  deriving DecidableEq

structure StorageConfig where
  type : Str
  redis : RedisConfig
  deriving DecidableEq

structure TracingConfig where
  enabled : Bool
  endpoint : Str
  insecure : Bool
  deriving DecidableEq

end Config

open Config

/-- `config.Config`. -/
structure Config where
  server : ServerConfig
  engine : EngineConfig
  storage : StorageConfig
  tracing : TracingConfig
  deriving DecidableEq

/-- The defaults of `Load`, with `default_tokens_per_fill: 100`. -/
def defaultConfig : Config where
  server :=
    { grpcAddr := ascii [':', '1', '8', '0', '8', '1']
      metricsAddr := ascii [':', '9', '0', '9', '0']
      tls := ⟨[], [], []⟩
      maxConcurrentStreams := 1000
      maxBucketsPerStream := 100
      maxReportsPerMessage := 1000
      engineTimeout := 5000000000
      maxBucketEntries := 100
      maxBucketKeyLen := 256
      maxBucketValueLen := 1024
      maxMetricDomains := 100
      keepaliveMaxIdleTime := 300000000000
      keepalivePingInterval := 60000000000
      keepalivePingTimeout := 20000000000 }
  engine := ⟨100, 0, 10000000000, none⟩
  storage := ⟨[], [], 0⟩
  tracing := ⟨false, [], false⟩

-- ---------------------------------------------------------------------------
-- Diff
-- ---------------------------------------------------------------------------

inductive ReloadScope where
  | hotReload
  | requiresRestart
  deriving DecidableEq

/-- The `Section` of a `Change`: `"engine"`, `"server"`, `"storage"` or `"tracing"`. -/
inductive ConfigSection where
  | engine | server | storage | tracing
  deriving DecidableEq

/-- `config.Change`. -/
structure Change where
  name : ConfigSection
  scope : ReloadScope
  deriving DecidableEq

/-- The scope `Diff` gives to a section. -/
def ConfigSection.scope : ConfigSection → ReloadScope
  | .engine => .hotReload
  | _ => .requiresRestart

/-- The section is not the same in the two configs. -/
def ConfigSection.Differs (old new : Config) : ConfigSection → Prop
  | .engine => old.engine ≠ new.engine
  | .server => old.server ≠ new.server
  | .storage => old.storage ≠ new.storage
  | .tracing => old.tracing ≠ new.tracing

instance (old new : Config) : (x : ConfigSection) → Decidable (x.Differs old new)
  | .engine => inferInstanceAs (Decidable (old.engine ≠ new.engine))
  | .server => inferInstanceAs (Decidable (old.server ≠ new.server))
  | .storage => inferInstanceAs (Decidable (old.storage ≠ new.storage))
  | .tracing => inferInstanceAs (Decidable (old.tracing ≠ new.tracing))

/-- `Diff`. -/
def Config.diff (old new : Config) : List Change :=
  (if old.engine ≠ new.engine then [⟨.engine, .hotReload⟩] else []) ++
  (if old.server ≠ new.server then [⟨.server, .requiresRestart⟩] else []) ++
  (if old.storage ≠ new.storage then [⟨.storage, .requiresRestart⟩] else []) ++
  (if old.tracing ≠ new.tracing then [⟨.tracing, .requiresRestart⟩] else [])

/-- `Diff` lists the sections that differ, each with its scope. -/
theorem Config.mem_diff {old new : Config} {c : Change} :
    c ∈ old.diff new ↔ c.scope = c.name.scope ∧ c.name.Differs old new := by
  obtain ⟨x, s⟩ := c
  unfold Config.diff
  cases x
  all_goals
    simp only [List.mem_append, List.mem_ite_nil_right, List.mem_singleton, Change.mk.injEq,
      reduceCtorEq, false_and, and_false, true_and, or_false, false_or]
    exact and_comm

/-- No section differs between equal configs only. -/
theorem Config.diff_eq_nil {old new : Config} : old.diff new = [] ↔ old = new := by
  constructor
  · intro h
    have hsame : ∀ x : ConfigSection, ¬ x.Differs old new := by
      intro x hx
      have hmem : (⟨x, x.scope⟩ : Change) ∈ old.diff new := Config.mem_diff.mpr ⟨rfl, hx⟩
      rw [h] at hmem
      simp at hmem
    obtain ⟨server, engine, storage, tracing⟩ := old
    obtain ⟨server', engine', storage', tracing'⟩ := new
    have hserver : server = server' := not_not.mp (hsame .server)
    have hengine : engine = engine' := not_not.mp (hsame .engine)
    have hstorage : storage = storage' := not_not.mp (hsame .storage)
    have htracing : tracing = tracing' := not_not.mp (hsame .tracing)
    rw [hserver, hengine, hstorage, htracing]
  · rintro rfl
    simp [Config.diff]

/-- The restart-required changes that the reload loop collects. -/
def restartChanges (changes : List Change) : List Change :=
  changes.filter fun c => c.scope = .requiresRestart

theorem mem_restartChanges {old new : Config} {c : Change} :
    c ∈ restartChanges (old.diff new) ↔
      c.scope = .requiresRestart ∧ c.name.scope = .requiresRestart ∧ c.name.Differs old new := by
  unfold restartChanges
  rw [List.mem_filter, Config.mem_diff, decide_eq_true_iff]
  constructor
  · rintro ⟨⟨hscope, hdiff⟩, hrestart⟩
    exact ⟨hrestart, hscope ▸ hrestart, hdiff⟩
  · rintro ⟨hrestart, hscope, hdiff⟩
    exact ⟨⟨hrestart.trans hscope.symm, hdiff⟩, hrestart⟩

end Rlqs
