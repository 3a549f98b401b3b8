import Rlqs.Main.Build

/-!
# RLQS main — the hot-reload loop

`main` starts the process with one config and then, for each config that the
watcher delivers, runs one iteration of its reload loop (`Process.reload`): no
difference to `currentCfg`, an engine that cannot be built, a classifier that
cannot be built, or both replaced. Between two configs streams bind domains,
which the live classifier records, and the store is used (`Happening`).

`RLQSServer.engine` is an `atomic.Value`, whose `Store` panics on a value of
another concrete type than the one it holds (`atomicStore`). `buildEngine`
returns a `*quota.DefaultEngine` for a config without policies and a
`*policy.Engine` for one with policies, and nothing recovers in the goroutine
of the loop: a reload that goes from one to the other ends the process. Runs
that end so are `none`.

* `run_live` — as long as the process runs, engine and classifier are those of
  the last config whose engine can be built;
* `run_isSome_iff` — when it keeps running;
* `live_engine_is_last_valid`, `reload_changes_engine_type` — what the loop
  leaves live, and the reload that ends the process;
* `restart_sections_inert_iff`, `server_section_takes_effect` — two histories
  that differ in restart-scoped sections only.
-/

namespace Rlqs

open Config

-- ---------------------------------------------------------------------------
-- The process
-- ---------------------------------------------------------------------------

/-- What the reload loop reads and writes, and the store the process was
started with. `cfg` is the config held by the admin handler. -/
structure Process where
  cfg : Config
  currentCfg : Config
  engine : EngineValue
  classifier : DomainClassifier
  pendingRestartChanges : List Change
  store : Store

variable (compile : Str → Except GoError Regexp)

/-- `main` up to the reload loop; it ends at `logger.Fatal` where this is `none`. -/
def startProcess (cfg : Config) (redis : Redis) : Option Process :=
  match buildEngine compile cfg with
  | .error _ => none
  | .ok eng =>
    match buildDomainClassifier compile cfg with
    | .error _ => none
    | .ok classifier => some ⟨cfg, cfg, eng, classifier, [], buildStore cfg redis⟩

/-- `atomic.Value.Store` of a value into a `Value` that holds `old`; `none` is
its panic. -/
def atomicStore (old new : EngineValue) : Option EngineValue :=
  if old.isPolicy = new.isPolicy then some new else none

/-- One iteration of the reload loop; `none` is a panic. -/
def Process.reload (p : Process) (newCfg : Config) : Option Process :=
  let changes := p.currentCfg.diff newCfg
  if changes.length = 0 then some p
  else
    let p := { p with pendingRestartChanges := restartChanges changes }
    match buildEngine compile newCfg with
    | .error _ => some p
    | .ok newEngine =>
      match buildDomainClassifier compile newCfg with
      | .error _ => some p
      | .ok newClassifier =>
        match atomicStore p.engine newEngine with
        | none => none
        | some live =>
          some { p with engine := live, classifier := newClassifier, currentCfg := newCfg }

/-- A call of the store. -/
inductive StoreUse where
  | record (env : Env) (domain : Str) (report : UsageReport)
  | remove (env : Env) (domain : Str) (key : BucketKey)

def Store.use : Store → StoreUse → Store
  | .memory s, .record _ domain report => .memory (s.recordUsage domain report)
  | .memory s, .remove _ domain key => .memory (s.removeBucket domain key)
  | .redis s, .record env domain report => .redis (s.recordUsage env domain report).1
  | .redis s, .remove env domain key => .redis (s.removeBucket env domain key).1

/-- What happens to a running process: the watcher delivers a config, a stream
binds a domain, the store is used. -/
inductive Happening where
  | deliver (newCfg : Config)
  | bind (domain : Str)
  | use (u : StoreUse)

def Process.next (p : Process) : Happening → Option Process
  | .deliver newCfg => p.reload compile newCfg
  | .bind domain => some { p with classifier := (p.classifier.classify domain).1 }
  | .use u => some { p with store := p.store.use u }

/-- The process after some happenings; `none` once it has panicked. -/
def Process.run (p : Process) (hs : List Happening) : Option Process :=
  hs.foldlM (Process.next compile) p

/-- The configs delivered to the loop. -/
def delivered (hs : List Happening) : List Config :=
  hs.filterMap fun h => match h with
    | .deliver newCfg => some newCfg
    | _ => none

/-- `buildEngine` succeeds. -/
def valid (cfg : Config) : Bool :=
  match buildEngine compile cfg with
  | .error _ => false
  | .ok _ => true

/-- The last config whose engine can be built, or the startup config. -/
def lastValid (startup : Config) (cs : List Config) : Config :=
  (cs.filter (valid compile)).getLastD startup

/-- The delivered configs whose engine can be built have policies exactly if the
startup config has some. -/
def Uniform (startup : Config) (cs : List Config) : Prop :=
  ∀ c ∈ cs, valid compile c = true →
    c.engine.policyList.isEmpty = startup.engine.policyList.isEmpty

variable {compile}

-- ---------------------------------------------------------------------------
-- One iteration
-- ---------------------------------------------------------------------------

theorem valid_iff {cfg : Config} :
    valid compile cfg = true ↔ ∃ e, buildEngine compile cfg = .ok e := by
  unfold valid
  split
  · rename_i e he
    simp [he]
  · rename_i e he
    simp [he]

/-- The exits of the loop: no difference, no engine, a panic, or both replaced.
The classifier's error exit is never taken. -/
theorem Process.reload_cases (compile : Str → Except GoError Regexp) (p : Process) (c : Config) :
    (p.currentCfg = c ∧ p.reload compile c = some p) ∨
    (p.currentCfg ≠ c ∧ valid compile c = false ∧ p.reload compile c =
      some { p with pendingRestartChanges := restartChanges (p.currentCfg.diff c) }) ∨
    (p.currentCfg ≠ c ∧ ∃ e, buildEngine compile c = .ok e ∧ p.engine.isPolicy ≠ e.isPolicy ∧
      p.reload compile c = none) ∨
    (p.currentCfg ≠ c ∧ ∃ e k, buildEngine compile c = .ok e ∧
      buildDomainClassifier compile c = .ok k ∧ p.engine.isPolicy = e.isPolicy ∧
      p.reload compile c = some { p with
        pendingRestartChanges := restartChanges (p.currentCfg.diff c)
        engine := e
        classifier := k
        currentCfg := c }) := by
  unfold Process.reload
  by_cases hcfg : p.currentCfg = c
  · have hnil := Config.diff_eq_nil.mpr hcfg
    exact Or.inl ⟨hcfg, by simp [hnil]⟩
  · have hne : (p.currentCfg.diff c).length ≠ 0 := by
      intro hlen
      exact hcfg (Config.diff_eq_nil.mp (List.length_eq_zero_iff.mp hlen))
    simp only [if_neg hne]
    right
    cases hbuild : buildEngine compile c with
    | error e => exact Or.inl ⟨hcfg, by simp [valid, hbuild], rfl⟩
    | ok e =>
      obtain ⟨k, hk⟩ := buildDomainClassifier_ok hbuild
      right
      rw [hk]
      by_cases hkind : p.engine.isPolicy = e.isPolicy
      · exact Or.inr ⟨hcfg, e, k, rfl, rfl, hkind, by simp [atomicStore, hkind]⟩
      · exact Or.inl ⟨hcfg, e, rfl, hkind, by simp [atomicStore, hkind]⟩

theorem Process.run_snoc (p : Process) (hs : List Happening) (h : Happening) :
    p.run compile (hs ++ [h]) = (p.run compile hs).bind fun q => q.next compile h := by
  unfold Process.run
  rw [List.foldlM_append]
  simp only [List.foldlM_cons, List.foldlM_nil, bind_pure]
  rfl

theorem delivered_snoc (hs : List Happening) (h : Happening) :
    delivered (hs ++ [h]) = delivered hs ++ delivered [h] := by
  unfold delivered
  exact List.filterMap_append

theorem lastValid_snoc (compile : Str → Except GoError Regexp) (s : Config) (cs : List Config)
    (c : Config) :
    lastValid compile s (cs ++ [c]) =
      if valid compile c then c else lastValid compile s cs := by
  unfold lastValid
  rw [List.filter_append]
  cases hv : valid compile c with
  | true => simp [hv]
  | false => simp [hv]

-- ---------------------------------------------------------------------------
-- Whole runs
-- ---------------------------------------------------------------------------

/-- Engine and classifier are those of the last valid config; `currentCfg` is
that config. -/
structure Live (compile : Str → Except GoError Regexp) (startup : Config) (cs : List Config)
    (p : Process) : Prop where
  cfg : p.cfg = startup
  current : p.currentCfg = lastValid compile startup cs
  engine : buildEngine compile p.currentCfg = .ok p.engine
  classifier : ∃ k, buildDomainClassifier compile p.currentCfg = .ok k ∧
    p.classifier.patterns = k.patterns ∧ p.classifier.maxDomains = k.maxDomains

section Runs

variable {startup : Config} {redis : Redis} {p₀ p q : Process} {hs hs' : List Happening}

theorem startProcess_live (h : startProcess compile startup redis = some p₀) :
    Live compile startup [] p₀ := by
  unfold startProcess at h
  split at h
  · simp at h
  · rename_i e he
    split at h
    · simp at h
    · rename_i k hk
      cases h
      exact ⟨rfl, rfl, he, k, hk, rfl, rfl⟩

/-- One happening. -/
theorem Live.next {cs : List Config} (hp : Live compile startup cs p) {h : Happening}
    (hn : p.next compile h = some q) : Live compile startup (cs ++ delivered [h]) q := by
  cases h with
  | bind domain =>
    cases hn
    obtain ⟨k, hk, hpatterns, hmax⟩ := hp.classifier
    obtain ⟨hpatterns', hmax'⟩ := p.classifier.classify_keeps domain
    refine ⟨hp.cfg, ?_, hp.engine, k, hk, hpatterns'.trans hpatterns, hmax'.trans hmax⟩
    rw [show cs ++ delivered [.bind domain] = cs from List.append_nil cs]
    exact hp.current
  | use u =>
    cases hn
    refine ⟨hp.cfg, ?_, hp.engine, hp.classifier⟩
    rw [show cs ++ delivered [.use u] = cs from List.append_nil cs]
    exact hp.current
  | deliver c =>
    have hlast := lastValid_snoc compile startup cs c
    show Live compile startup (cs ++ [c]) q
    simp only [Process.next] at hn
    rcases p.reload_cases compile c with
      ⟨hcfg, hr⟩ | ⟨-, hinvalid, hr⟩ | ⟨-, e, -, -, hr⟩ | ⟨-, e, k, he, hk, -, hr⟩
    · -- the config in force again: it is valid, since its engine is live
      rw [hr] at hn
      cases hn
      have hvalid : valid compile c = true := valid_iff.mpr ⟨p.engine, hcfg ▸ hp.engine⟩
      refine ⟨hp.cfg, ?_, hp.engine, hp.classifier⟩
      rw [hlast, if_pos hvalid]
      exact hcfg
    · rw [hr] at hn
      cases hn
      refine ⟨hp.cfg, ?_, hp.engine, hp.classifier⟩
      rw [hlast, hinvalid]
      exact hp.current
    · rw [hr] at hn
      simp at hn
    · rw [hr] at hn
      cases hn
      refine ⟨hp.cfg, ?_, he, k, hk, rfl, rfl⟩
      rw [hlast, if_pos (valid_iff.mpr ⟨e, he⟩)]

/-- What the process serves after any happenings it survives. -/
theorem run_live (hstart : startProcess compile startup redis = some p₀)
    (hrun : p₀.run compile hs = some p) : Live compile startup (delivered hs) p := by
  induction hs using List.reverseRecOn generalizing p with
  | nil =>
    cases hrun
    exact startProcess_live hstart
  | append_singleton hs h ih =>
    rw [Process.run_snoc] at hrun
    obtain ⟨q, hq, hn⟩ := Option.bind_eq_some_iff.mp hrun
    rw [delivered_snoc]
    exact (ih hq).next hn

/-- The last valid config has policies exactly if the startup config has. -/
theorem Uniform.lastValid {cs : List Config} (h : Uniform compile startup cs) :
    (lastValid compile startup cs).engine.policyList.isEmpty =
      startup.engine.policyList.isEmpty := by
  induction cs using List.reverseRecOn with
  | nil => rfl
  | append_singleton cs c ih =>
    rw [lastValid_snoc]
    split
    · rename_i hv
      exact h c (List.mem_append_right cs List.mem_cons_self) hv
    · exact ih fun c' hc' => h c' (List.mem_append_left _ hc')

/-- The process survives exactly the uniform histories: the first config that
changes the concrete type of the engine is its last. -/
theorem run_isSome_iff (hs : List Happening)
    (hstart : startProcess compile startup redis = some p₀) :
    (∃ p, p₀.run compile hs = some p) ↔ Uniform compile startup (delivered hs) := by
  induction hs using List.reverseRecOn with
  | nil =>
    refine ⟨fun _ => fun c hc => absurd hc List.not_mem_nil, fun _ => ⟨p₀, rfl⟩⟩
  | append_singleton hs h ih =>
    have hsplit : Uniform compile startup (delivered (hs ++ [h])) ↔
        Uniform compile startup (delivered hs) ∧ Uniform compile startup (delivered [h]) := by
      unfold Uniform
      rw [delivered_snoc]
      exact List.forall_mem_append
    rw [hsplit, ← ih, Process.run_snoc]
    constructor
    · rintro ⟨p, hp⟩
      obtain ⟨q, hq, hn⟩ := Option.bind_eq_some_iff.mp hp
      refine ⟨⟨q, hq⟩, ?_⟩
      have huniform := ih.mp ⟨q, hq⟩
      have hlive := run_live hstart hq
      have hkind := buildEngine_kind hlive.engine
      rw [hlive.current, huniform.lastValid] at hkind
      cases h with
      | bind domain => exact fun c hc => absurd hc List.not_mem_nil
      | use u => exact fun c hc => absurd hc List.not_mem_nil
      | deliver c =>
        intro c' hc' hv
        obtain rfl : c' = c := List.mem_singleton.mp hc'
        simp only [Process.next] at hn
        rcases q.reload_cases compile c' with
          ⟨hcfg, -⟩ | ⟨-, hinvalid, -⟩ | ⟨-, e, -, -, hr⟩ | ⟨-, e, k, he, -, hsame, -⟩
        · rw [← hcfg, hlive.current, huniform.lastValid]
        · rw [hv] at hinvalid
          simp at hinvalid
        · rw [hr] at hn
          simp at hn
        · rw [buildEngine_kind he, hkind] at hsame
          simpa using hsame.symm
    · rintro ⟨⟨q, hq⟩, hlast⟩
      have hlive := run_live hstart hq
      have hkind := buildEngine_kind hlive.engine
      rw [hlive.current, (ih.mp ⟨q, hq⟩).lastValid] at hkind
      rw [hq, Option.bind_some]
      cases h with
      | bind domain => exact ⟨_, rfl⟩
      | use u => exact ⟨_, rfl⟩
      | deliver c =>
        simp only [Process.next]
        rcases q.reload_cases compile c with
          ⟨-, hr⟩ | ⟨-, -, hr⟩ | ⟨-, e, he, hdiffer, -⟩ | ⟨-, e, k, -, -, -, hr⟩
        · exact ⟨_, hr⟩
        · exact ⟨_, hr⟩
        · -- the panic needs an engine of the other type
          refine absurd ?_ hdiffer
          rw [hkind, buildEngine_kind he, hlast c List.mem_cons_self (valid_iff.mpr ⟨e, he⟩)]
        · exact ⟨_, hr⟩

end Runs

-- ---------------------------------------------------------------------------
-- The live engine
-- ---------------------------------------------------------------------------

/-- After the happenings the process runs, its engine behaves as the engine of
the last valid config, and its classifier has the patterns and the cap of the
classifier of the same config. -/
def ServesLastValid (compile : Str → Except GoError Regexp) (startup : Config) (p₀ : Process)
    (hs : List Happening) : Prop :=
  ∃ p e k, p₀.run compile hs = some p ∧
    buildEngine compile (lastValid compile startup (delivered hs)) = .ok e ∧
    (∀ domain reports, p.engine.processUsage domain reports = e.processUsage domain reports) ∧
    buildDomainClassifier compile (lastValid compile startup (delivered hs)) = .ok k ∧
    p.classifier.patterns = k.patterns ∧ p.classifier.maxDomains = k.maxDomains

/-- **The live engine is that of the last valid config, exactly while the
concrete type of the engine does not change.** For every startup config and
every history of configs, streams and store calls: the loop leaves the engine
and the classifier of the last config whose engine can be built if and only if
no such config has policies where the startup config has none, or none where it
has some. The classifier never fails where the engine does not. -/
theorem live_engine_is_last_valid (compile : Str → Except GoError Regexp) {startup : Config}
    {redis : Redis} {p₀ : Process} (hstart : startProcess compile startup redis = some p₀)
    (hs : List Happening) :
    (∀ c e, buildEngine compile c = .ok e → ∃ k, buildDomainClassifier compile c = .ok k) ∧
    (ServesLastValid compile startup p₀ hs ↔ Uniform compile startup (delivered hs)) := by
  refine ⟨fun c e he => buildDomainClassifier_ok he, ?_⟩
  rw [← run_isSome_iff hs hstart]
  constructor
  · rintro ⟨p, e, k, hrun, -⟩
    exact ⟨p, hrun⟩
  · rintro ⟨p, hrun⟩
    have hlive := run_live hstart hrun
    have hengine := hlive.engine
    obtain ⟨k, hk, hpatterns, hmax⟩ := hlive.classifier
    rw [hlive.current] at hengine hk
    exact ⟨p, p.engine, k, hrun, hengine, fun _ _ => rfl, hk, hpatterns, hmax⟩

/-- Every pattern compiles, and matches everything. -/
def compileAny (_ : Str) : Except GoError Regexp := .ok ⟨fun _ => true⟩

/-- The same config with another engine section. -/
def Config.withEngine (c : Config) (e : EngineConfig) : Config := { c with engine := e }

/-- A policy for every bucket: 50 tokens an interval. -/
def samplePolicy : PolicyConfig := ⟨[], [], 50, 0, none, [], 0, [], none⟩

/-- The default config with its first policy added. -/
def firstPolicy : Config :=
  defaultConfig.withEngine ⟨100, 0, 10000000000, some [samplePolicy]⟩

/-- A config file gets its first policy: the reload panics. -/
theorem reload_changes_engine_type :
    ∃ p₀, startProcess compileAny defaultConfig emptyRedis = some p₀ ∧
      valid compileAny firstPolicy = true ∧
      p₀.run compileAny [.deliver firstPolicy] = none ∧
      ¬ ServesLastValid compileAny defaultConfig p₀ [.deliver firstPolicy] := by
  refine ⟨_, rfl, rfl, rfl, ?_⟩
  rintro ⟨p, e, k, hrun, -⟩
  have hnone : (none : Option Process) = some p := hrun
  simp at hnone

/-- Another number of default tokens is applied, also after an empty reload. -/
theorem live_engine_new_tokens :
    ∃ p₀, startProcess compileAny defaultConfig emptyRedis = some p₀ ∧
      ServesLastValid compileAny defaultConfig p₀
        [.deliver (defaultConfig.withEngine ⟨200, 0, 10000000000, none⟩),
          .deliver (defaultConfig.withEngine ⟨200, 0, 10000000000, none⟩)] := by
  refine ⟨_, rfl, (@live_engine_is_last_valid compileAny defaultConfig emptyRedis _ rfl _).2.mpr ?_⟩
  intro c hc _
  have hcfg : c = defaultConfig.withEngine ⟨200, 0, 10000000000, none⟩ := by
    simpa [delivered] using hc
  rw [hcfg]
  rfl

-- ---------------------------------------------------------------------------
-- Two histories
-- ---------------------------------------------------------------------------

/-- The two histories agree, config by config, on the engine section. -/
def SameEngines (cs cs' : List Config) : Prop :=
  List.Forall₂ (fun c c' => c.engine = c'.engine) cs cs'

/-- The same live engine behaviour, and classifiers with the same patterns and
the same cap; or neither process runs any more. -/
def SameLive : Option Process → Option Process → Prop
  | some p, some q =>
    (∀ domain reports, p.engine.processUsage domain reports =
      q.engine.processUsage domain reports) ∧
    p.classifier.patterns = q.classifier.patterns ∧
    p.classifier.maxDomains = q.classifier.maxDomains
  | none, none => True
  | _, _ => False

theorem valid_congr {c c' : Config} (h : c.engine = c'.engine) :
    valid compile c = valid compile c' := by
  unfold valid
  rw [buildEngine_congr h]

theorem lastValid_cons (compile : Str → Except GoError Regexp) (s c : Config) (cs : List Config) :
    lastValid compile s (c :: cs) =
      lastValid compile (if valid compile c then c else s) cs := by
  unfold lastValid
  cases hv : valid compile c with
  | true => rw [List.filter_cons_of_pos hv, if_pos rfl, List.getLastD_cons]
  | false => rw [List.filter_cons_of_neg (by simp [hv]), if_neg (by simp)]

/-- Validity is decided by the engine section, so the last valid configs of the
two histories stand at the same place. -/
theorem SameEngines.lastValid {cs cs' : List Config} (h : SameEngines cs cs') {s s' : Config}
    (hs : s.engine = s'.engine) :
    (lastValid compile s cs).engine = (lastValid compile s' cs').engine := by
  induction h generalizing s s' with
  | nil => exact hs
  | @cons c c' cs cs' hc _ ih =>
    rw [lastValid_cons, lastValid_cons, valid_congr hc]
    apply ih
    split
    · exact hc
    · exact hs

theorem SameEngines.uniform {cs cs' : List Config} (h : SameEngines cs cs') {s : Config} :
    Uniform compile s cs ↔ Uniform compile s cs' := by
  unfold Uniform
  induction h with
  | nil => exact Iff.rfl
  | @cons c c' cs cs' hc _ ih =>
    rw [List.forall_mem_cons, List.forall_mem_cons, ih, valid_congr hc, hc]

/-- **When restart-scoped sections stay without effect.** Two histories that
agree on the engine sections end with the same live engine and with classifiers
of the same patterns and cap, if and only if the last valid configs of the two
ask for the same cap — or both processes have panicked. The cap is
`server.max_metric_domains`, which every applied reload reads. -/
theorem restart_sections_inert_iff (compile : Str → Except GoError Regexp) {startup : Config}
    {redis : Redis} {p₀ : Process} (hstart : startProcess compile startup redis = some p₀)
    {hs hs' : List Happening} (hsame : SameEngines (delivered hs) (delivered hs')) :
    SameLive (p₀.run compile hs) (p₀.run compile hs') ↔
      (Uniform compile startup (delivered hs) →
        effectiveMaxDomains (lastValid compile startup (delivered hs)).server.maxMetricDomains =
          effectiveMaxDomains
            (lastValid compile startup (delivered hs')).server.maxMetricDomains) := by
  have hiff := run_isSome_iff hs hstart
  have hiff' := run_isSome_iff hs' hstart
  rw [← hsame.uniform] at hiff'
  by_cases hu : Uniform compile startup (delivered hs)
  · obtain ⟨p, hp⟩ := hiff.mpr hu
    obtain ⟨q, hq⟩ := hiff'.mpr hu
    have hlive := run_live hstart hp
    have hlive' := run_live hstart hq
    have hcfg : p.currentCfg.engine = q.currentCfg.engine := by
      rw [hlive.current, hlive'.current]
      exact hsame.lastValid rfl
    have hengine : p.engine = q.engine := by
      have he := hlive.engine
      rw [buildEngine_congr hcfg, hlive'.engine] at he
      exact (Except.ok.inj he).symm
    obtain ⟨k, hk, hpatterns, hmax⟩ := hlive.classifier
    obtain ⟨k', hk', hpatterns', hmax'⟩ := hlive'.classifier
    obtain ⟨hkpatterns, hkmax, hkmax'⟩ := buildDomainClassifier_same hcfg hk hk'
    rw [hp, hq, ← hlive.current, ← hlive'.current, ← hkmax, ← hkmax', ← hmax, ← hmax']
    constructor
    · rintro ⟨-, -, hcap⟩ _
      exact hcap
    · intro hcap
      refine ⟨fun _ _ => by rw [hengine], ?_, hcap hu⟩
      rw [hpatterns, hpatterns', hkpatterns]
  · have hnone : p₀.run compile hs = none := by
      rw [Option.eq_none_iff_forall_ne_some]
      exact fun p hp => hu (hiff.mp ⟨p, hp⟩)
    have hnone' : p₀.run compile hs' = none := by
      rw [Option.eq_none_iff_forall_ne_some]
      exact fun p hp => hu (hiff'.mp ⟨p, hp⟩)
    rw [hnone, hnone']
    exact ⟨fun _ h => absurd h hu, fun _ => trivial⟩

/-- The default config with another cap on metric domains. -/
def tightCap : Config :=
  { defaultConfig with server := { defaultConfig.server with maxMetricDomains := 5 } }

/-- A reload that changes the server section alone replaces the classifier by
one with the new cap. -/
theorem server_section_takes_effect :
    ∃ p₀ p q, startProcess compileAny defaultConfig emptyRedis = some p₀ ∧
      SameEngines [defaultConfig] [tightCap] ∧
      p₀.run compileAny [.deliver defaultConfig] = some p ∧
      p₀.run compileAny [.deliver tightCap] = some q ∧
      p.classifier.maxDomains = 100 ∧ q.classifier.maxDomains = 5 ∧
      ¬ SameLive (p₀.run compileAny [.deliver defaultConfig])
        (p₀.run compileAny [.deliver tightCap]) := by
  refine ⟨_, _, _, rfl, List.Forall₂.cons rfl List.Forall₂.nil, rfl, rfl, rfl, rfl, ?_⟩
  rintro ⟨-, -, hcap⟩
  have hcap' : (100 : Int) = 5 := hcap
  omega

/-- The default config with another listener address. -/
def otherAddress : Config :=
  { defaultConfig with server := { defaultConfig.server with grpcAddr := ascii [':', '1'] } }

/-- A change of the listener address alone is without effect. -/
theorem restart_sections_inert_address :
    ∃ p₀, startProcess compileAny defaultConfig emptyRedis = some p₀ ∧
      SameEngines [defaultConfig] [otherAddress] ∧
      SameLive (p₀.run compileAny [.deliver defaultConfig])
        (p₀.run compileAny [.deliver otherAddress]) := by
  have hsame : SameEngines [defaultConfig] [otherAddress] :=
    List.Forall₂.cons rfl List.Forall₂.nil
  exact ⟨_, rfl, hsame,
    (@restart_sections_inert_iff compileAny defaultConfig emptyRedis _ rfl [.deliver defaultConfig]
      [.deliver otherAddress] hsame).mpr fun _ => rfl⟩

end Rlqs
