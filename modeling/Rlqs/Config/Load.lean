import Rlqs.Config.Definitions

/-!
# RLQS config — `Load`

`Load` of `internal/config/config.go`: the defaults, the YAML file over them, the
deprecated names (`resolveDeprecated`), and the environment variables over all
of it. A variable that does not parse is ignored.

What `os.ReadFile`, `yaml.Unmarshal` and `time.ParseDuration` answer is an input
(`Sources`); `strconv.ParseUint` and `strconv.Atoi` are modelled.
-/

namespace Rlqs

open Config

-- ---------------------------------------------------------------------------
-- Numbers
-- ---------------------------------------------------------------------------

/-- The value of a non-empty string of decimal digits. -/
def decimal (s : Str) : Option ℕ :=
  if s = [] then none
  else s.foldlM (fun n b => if 48 ≤ b ∧ b ≤ 57 then some (10 * n + (b.val - 48)) else none) 0

/-- `strconv.ParseUint(s, 10, 64)`, where it returns no error. -/
def parseUint (s : Str) : Option UInt64 :=
  (decimal s).bind fun n => if n < 2 ^ 64 then some (UInt64.ofNat n) else none

/-- `strconv.Atoi(s)`, where it returns no error. -/
def atoi (s : Str) : Option Int :=
  match s with
  | [] => none
  | b :: rest =>
    -- an optional sign, `-` or `+`
    if b = 45 then (decimal rest).bind fun n => if n ≤ 2 ^ 63 then some (-n) else none
    else (decimal (if b = 43 then rest else s)).bind fun n =>
      if n < 2 ^ 63 then some (n : Int) else none

-- ---------------------------------------------------------------------------
-- Load
-- ---------------------------------------------------------------------------

/-- The environment variables that `Load` reads; one that is not set is empty. -/
structure Variables where
  grpcAddr : Str := []
  metricsAddr : Str := []
  defaultTokensPerFill : Str := []
  defaultRPS : Str := []
  reportingInterval : Str := []
  tlsCertFile : Str := []
  tlsKeyFile : Str := []
  tlsCAFile : Str := []
  storageType : Str := []
  storageRedisAddr : Str := []
  storageRedisPoolSize : Str := []
  tracingEnabled : Str := []
  tracingEndpoint : Str := []
  tracingInsecure : Str := []

/-- What `Load` gets from outside. -/
structure Sources where
  readFile : Str → Except GoError Str
  unmarshal : Str → Config → Except GoError Config
  parseDuration : Str → Except GoError Nanos
  env : Variables

/-- The literal that `Load` starts from. -/
def loadDefaults : Config := { defaultConfig with engine := ⟨0, 0, 10000000000, none⟩ }

/-- The loop of `resolveDeprecated` over the policies. -/
def Config.PolicyConfig.resolveDeprecated (pc : PolicyConfig) : PolicyConfig :=
  if pc.tokensPerFill = 0 ∧ 0 < pc.rps then { pc with tokensPerFill := pc.rps } else pc

/-- `EngineConfig.resolveDeprecated`. -/
def Config.EngineConfig.resolveDeprecated (e : EngineConfig) : EngineConfig :=
  let tokens := if e.defaultTokensPerFill = 0 ∧ 0 < e.defaultRPS then e.defaultRPS
    else e.defaultTokensPerFill
  { e with
    defaultTokensPerFill := if tokens = 0 then 100 else tokens
    policies := e.policies.map fun ps => ps.map PolicyConfig.resolveDeprecated }

/-- `if v := os.Getenv(..); v != ""`. -/
def whenSet (v : Str) (set : Config → Config) (cfg : Config) : Config :=
  if v = [] then cfg else set cfg

/-- `v == "true" || v == "1"`. -/
def truthy (v : Str) : Bool := v = ascii ['t', 'r', 'u', 'e'] || v = ascii ['1']

/-- A token count from the environment, if it parses. -/
def setTokens (v : Str) (cfg : Config) : Config :=
  match parseUint v with
  | some n => { cfg with engine := { cfg.engine with defaultTokensPerFill := n } }
  | none => cfg

/-- The two token variables: the deprecated one is only read if the other is not
set. -/
def overrideTokens (v : Variables) (cfg : Config) : Config :=
  if v.defaultTokensPerFill ≠ [] then setTokens v.defaultTokensPerFill cfg
  else whenSet v.defaultRPS (setTokens v.defaultRPS) cfg

def overrideServer (v : Variables) (cfg : Config) : Config :=
  let cfg := whenSet v.grpcAddr
    (fun c => { c with server := { c.server with grpcAddr := v.grpcAddr } }) cfg
  whenSet v.metricsAddr
    (fun c => { c with server := { c.server with metricsAddr := v.metricsAddr } }) cfg

def overrideInterval (src : Sources) (cfg : Config) : Config :=
  whenSet src.env.reportingInterval
    (fun c => match src.parseDuration src.env.reportingInterval with
      | .ok d => { c with engine := { c.engine with reportingInterval := d } }
      | .error _ => c) cfg

def overrideTLS (v : Variables) (cfg : Config) : Config :=
  let tls := cfg.server.tls
  { cfg with server := { cfg.server with tls :=
    { certFile := if v.tlsCertFile = [] then tls.certFile else v.tlsCertFile
      keyFile := if v.tlsKeyFile = [] then tls.keyFile else v.tlsKeyFile
      caFile := if v.tlsCAFile = [] then tls.caFile else v.tlsCAFile } } }

def overrideStorage (v : Variables) (cfg : Config) : Config :=
  let storage := cfg.storage
  { cfg with storage :=
    { type := if v.storageType = [] then storage.type else v.storageType
      redis :=
        { addr := if v.storageRedisAddr = [] then storage.redis.addr else v.storageRedisAddr
          poolSize := if v.storageRedisPoolSize = [] then storage.redis.poolSize
            else (atoi v.storageRedisPoolSize).getD storage.redis.poolSize } } }

def overrideTracing (v : Variables) (cfg : Config) : Config :=
  let tracing := cfg.tracing
  { cfg with tracing :=
    { enabled := if v.tracingEnabled = [] then tracing.enabled else truthy v.tracingEnabled
      endpoint := if v.tracingEndpoint = [] then tracing.endpoint else v.tracingEndpoint
      insecure := if v.tracingInsecure = [] then tracing.insecure
        else truthy v.tracingInsecure } }

/-- The environment over a config, as `Load` ends. -/
def environment (src : Sources) (cfg : Config) : Config :=
  let cfg := overrideInterval src (overrideTokens src.env (overrideServer src.env cfg))
  overrideTracing src.env (overrideStorage src.env (overrideTLS src.env cfg))

/-- The second half of `Load`: deprecated names, then the environment. -/
def resolve (src : Sources) (cfg : Config) : Config :=
  environment src { cfg with engine := cfg.engine.resolveDeprecated }

/-- `config.Load`. -/
def load (src : Sources) (path : Str) : Except GoError Config :=
  if path = [] then .ok (resolve src loadDefaults)
  else
    match src.readFile path with
    | .error e => .error e
    | .ok data =>
      match src.unmarshal data loadDefaults with
      | .error e => .error e
      | .ok cfg => .ok (resolve src cfg)

-- ---------------------------------------------------------------------------
-- Where the values of the engine section come from
-- ---------------------------------------------------------------------------

/-- The token count of the environment, if a variable is set and parses. -/
def Variables.tokens (v : Variables) : Option UInt64 :=
  if v.defaultTokensPerFill ≠ [] then parseUint v.defaultTokensPerFill
  else if v.defaultRPS ≠ [] then parseUint v.defaultRPS
  else none

/-- The interval of the environment, if the variable is set and parses. -/
def Sources.interval (src : Sources) : Option Nanos :=
  if src.env.reportingInterval = [] then none
  else (src.parseDuration src.env.reportingInterval).toOption

theorem overrideTokens_engine (v : Variables) (cfg : Config) :
    (overrideTokens v cfg).engine =
      { cfg.engine with
        defaultTokensPerFill := v.tokens.getD cfg.engine.defaultTokensPerFill } := by
  unfold overrideTokens Variables.tokens whenSet setTokens
  by_cases hset : v.defaultTokensPerFill ≠ []
  · rw [if_pos hset, if_pos hset]
    cases parseUint v.defaultTokensPerFill <;> rfl
  · rw [if_neg hset, if_neg hset]
    by_cases hrps : v.defaultRPS = []
    · rw [if_pos hrps, if_neg (not_not.mpr hrps)]
      rfl
    · rw [if_neg hrps, if_pos hrps]
      cases parseUint v.defaultRPS <;> rfl

theorem overrideInterval_engine (src : Sources) (cfg : Config) :
    (overrideInterval src cfg).engine =
      { cfg.engine with
        reportingInterval := src.interval.getD cfg.engine.reportingInterval } := by
  unfold overrideInterval Sources.interval whenSet
  split
  · rfl
  · cases src.parseDuration src.env.reportingInterval <;> rfl

/-- The engine section under the environment. -/
theorem environment_engine (src : Sources) (cfg : Config) :
    (environment src cfg).engine =
      { cfg.engine with
        defaultTokensPerFill := src.env.tokens.getD cfg.engine.defaultTokensPerFill
        reportingInterval := src.interval.getD cfg.engine.reportingInterval } := by
  have hserver : (overrideServer src.env cfg).engine = cfg.engine := by
    unfold overrideServer whenSet
    dsimp only
    split <;> split <;> rfl
  show (overrideInterval src (overrideTokens src.env (overrideServer src.env cfg))).engine = _
  rw [overrideInterval_engine, overrideTokens_engine, hserver]

/-- The engine section of a config after `Load`: deprecated names resolved, then
the environment over it. -/
theorem resolve_engine (src : Sources) (cfg : Config) :
    (resolve src cfg).engine =
      { cfg.engine.resolveDeprecated with
        defaultTokensPerFill :=
          src.env.tokens.getD cfg.engine.resolveDeprecated.defaultTokensPerFill
        reportingInterval := src.interval.getD cfg.engine.reportingInterval } :=
  environment_engine src { cfg with engine := cfg.engine.resolveDeprecated }

-- ---------------------------------------------------------------------------
-- Sample files
-- ---------------------------------------------------------------------------

/-- A file of two lines, `engine:` and under it `default_tokens_per_fill:` with the
digit `n`. -/
def tokensFile (n : ℕ) : Str :=
  ascii ['e', 'n', 'g', 'i', 'n', 'e', ':'] ++ [10] ++
    ascii [' ', 'd', 'e', 'f', 'a', 'u', 'l', 't', '_', 't', 'o', 'k', 'e', 'n', 's', '_',
      'p', 'e', 'r', '_', 'f', 'i', 'l', 'l', ':', ' '] ++ [Fin.ofNat 256 (48 + n)]

/-- No variable is set. Of the files used here the YAML decoder reads the one field of
`tokensFile n`, finds nothing to set in the empty file, and rejects what is no YAML. -/
def sampleSources : Sources where
  readFile := fun _ => .error "no such file"
  unmarshal := fun data cfg =>
    if data = [] then .ok cfg
    else
      match (List.range 10).find? fun n => data = tokensFile n with
      | some n =>
        .ok { cfg with engine := { cfg.engine with defaultTokensPerFill := UInt64.ofNat n } }
      | none => .error "yaml: did not find expected node content"
  parseDuration := fun _ => .error "invalid duration"
  env := {}

end Rlqs
