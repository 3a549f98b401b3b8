import Rlqs.Lib.Trace
import Rlqs.Metrics.Domain
import Rlqs.Server.Atomic

/-!
# RLQS server — how many metric labels are ever given

`classifyDomain` loads the installed classifier and asks it for the label of the
domain a stream binds; `SwapDomainClassifier` installs another one. The model
adds both to the handlers of `Server/Atomic.lean`. Loading and asking are two
steps, so a swap can come between them. `Classify` is one step: what it answers
and writes is decided in its last critical section, because `known` only grows
and the patterns do not change.

One classifier gives at most `maxDomains` labels and the overflow label. But a
new classifier has forgotten which labels were given before, and Prometheus
keeps their series: with every reload up to `maxDomains` new labels can come in
(`labels_beyond_cap`).

* `LabelWorld.next` — handlers, classifiers and swaps; the log lists the labels
  given;
* `labels_bounded_when_carried` — at most `N + 1` labels in runs whose swaps
  install classifiers that know the labels given so far; and from every other
  state in which a domain has its label, one swap leads beyond the bound.
-/

namespace Rlqs

open Interleave Steps

-- ---------------------------------------------------------------------------
-- Handlers and classifiers
-- ---------------------------------------------------------------------------

/-- The handlers and every classifier installed so far, the installed one last.
`loaded` says which classifier a handler has loaded and not yet asked. -/
structure LabelWorld (σ : Type) where
  pool : Pool (Shared σ) Handler
  classifiers : List DomainClassifier
  loaded : GoMap ℕ ℕ

/-- A stream is opened, a handler takes a step that asks no classifier, a handler
loads the classifier, a handler asks the one it has loaded, or another
classifier is installed. -/
inductive LabelMove where
  | connect
  | handler (i : ℕ) (x : Input)
  | load (i : ℕ)
  | classify (i : ℕ)
  | swap (c : DomainClassifier)

/-- The domain that the handler is about to have classified. -/
def Handler.classifies (p : Handler) : Option Str :=
  match p.pc with
  | .bind req => if !p.ss.domainBound && req.domain != [] then some req.domain else none
  | _ => none

variable {σ : Type} [BucketStore σ]

/-- A step of handler `i`. -/
def LabelWorld.stepHandler (cfg : Limits) (w : LabelWorld σ) (i : ℕ) (p : Handler) (x : Input) :
    Option (LabelWorld σ) :=
  (handlerStep cfg w.pool.shared p x).map fun c =>
    { w with pool := ⟨c.1, w.pool.procs.set i c.2⟩ }

def LabelWorld.next (cfg : Limits) (w : LabelWorld σ) : LabelMove → Option (LabelWorld σ)
  | .connect => some { w with pool := ⟨w.pool.shared, w.pool.procs ++ [newHandler]⟩ }
  | .handler i x =>
    match w.pool.procs[i]? with
    | none => none
    | some p => if p.classifies.isSome then none else w.stepHandler cfg i p x
  | .load i =>
    match w.pool.procs[i]? with
    | none => none
    | some p =>
      if p.classifies.isSome ∧ i ∉ w.loaded then
        some { w with loaded := w.loaded.insert i (w.classifiers.length - 1) }
      else none
  | .classify i =>
    match w.pool.procs[i]?, w.loaded.lookup i with
    | some p, some k =>
      match p.classifies, w.classifiers[k]? with
      | some domain, some c =>
        LabelWorld.stepHandler cfg
          { w with
            classifiers := w.classifiers.set k (c.classify domain).1
            loaded := w.loaded.erase i } i p (.label (c.classify domain).2)
      | _, _ => none
    | _, _ => none
  | .swap c => some { w with classifiers := w.classifiers ++ [c] }

/-- The label that a move gives. -/
def LabelWorld.gives (w : LabelWorld σ) : LabelMove → List Str
  | .classify i =>
    match w.pool.procs[i]?, w.loaded.lookup i with
    | some p, some k =>
      match p.classifies, w.classifiers[k]? with
      | some domain, some c => [(c.classify domain).2]
      | _, _ => []
    | _, _ => []
  | _ => []

/-- The world and the labels given so far. -/
abbrev Labelled (σ : Type) := LabelWorld σ × List Str

def LabelWorld.watch (cfg : Limits) : Labelled σ → LabelMove → Option (Labelled σ) :=
  observed (LabelWorld.next cfg) LabelWorld.gives

/-- A server just made, with its first classifier. -/
def newLabelWorld (store : σ) (c : DomainClassifier) : LabelWorld σ := ⟨newServer store, [c], ∅⟩

/-- Every classifier installed has a cap of at most `N`. -/
def Capped (N : ℕ) : LabelMove → Prop
  | .swap c => c.maxDomains ≤ N
  | _ => True

/-- A classifier is installed only if it knows every domain that is a label
already, and while no handler is about to ask another one. -/
def Carried (c : Labelled σ) : LabelMove → Prop
  | .swap d => (∀ l ∈ c.2, l ≠ unknownDomain → l ∈ d.known) ∧ c.1.loaded = ∅
  | _ => True

instance cappedDecidable (N : ℕ) : (m : LabelMove) → Decidable (Capped N m)
  | .connect => isTrue trivial
  | .handler _ _ => isTrue trivial
  | .load _ => isTrue trivial
  | .classify _ => isTrue trivial
  | .swap c => inferInstanceAs (Decidable (c.maxDomains ≤ N))

instance carriedDecidable (c : Labelled σ) : (m : LabelMove) → Decidable (Carried c m)
  | .connect => isTrue trivial
  | .handler _ _ => isTrue trivial
  | .load _ => isTrue trivial
  | .classify _ => isTrue trivial
  | .swap d =>
    have : Decidable (c.1.loaded = ∅) := decidable_of_iff _ GoMap.keys_eq_nil_iff
    inferInstanceAs (Decidable ((∀ l ∈ c.2, l ≠ unknownDomain → l ∈ d.known) ∧ c.1.loaded = ∅))

-- ---------------------------------------------------------------------------
-- What a move can do
-- ---------------------------------------------------------------------------

section Moves

variable {cfg : Limits} {w w' : LabelWorld σ}

/-- Everything a move can do, with the label it gives. -/
inductive LabelEffect (cfg : Limits) (w : LabelWorld σ) :
    LabelMove → LabelWorld σ → List Str → Prop where
  | connected :
      LabelEffect cfg w .connect
        { w with pool := ⟨w.pool.shared, w.pool.procs ++ [newHandler]⟩ } []
  | stepped {i x p sh' p'} (hp : w.pool.procs[i]? = some p) (hnone : p.classifies = none)
      (hstep : handlerStep cfg w.pool.shared p x = some (sh', p')) :
      LabelEffect cfg w (.handler i x) { w with pool := ⟨sh', w.pool.procs.set i p'⟩ } []
  | loaded {i p} (hp : w.pool.procs[i]? = some p) (hnew : i ∉ w.loaded) :
      LabelEffect cfg w (.load i)
        { w with loaded := w.loaded.insert i (w.classifiers.length - 1) } []
  | asked {i k p domain c sh' p'} (hp : w.pool.procs[i]? = some p)
      (hk : w.loaded.lookup i = some k) (hdomain : p.classifies = some domain)
      (hc : w.classifiers[k]? = some c)
      (hstep : handlerStep cfg w.pool.shared p (.label (c.classify domain).2) = some (sh', p')) :
      LabelEffect cfg w (.classify i)
        ⟨⟨sh', w.pool.procs.set i p'⟩, w.classifiers.set k (c.classify domain).1,
          w.loaded.erase i⟩ [(c.classify domain).2]
  | swapped (c : DomainClassifier) :
      LabelEffect cfg w (.swap c) { w with classifiers := w.classifiers ++ [c] } []

theorem LabelWorld.next_cases {m : LabelMove} (h : w.next cfg m = some w') :
    LabelEffect cfg w m w' (w.gives m) := by
  cases m with
  | connect =>
    cases h
    exact .connected
  | handler i x =>
    simp only [LabelWorld.next] at h
    split at h
    · simp at h
    · rename_i p hp
      split at h
      · simp at h
      · rename_i hnone
        obtain ⟨⟨sh', p'⟩, hstep, rfl⟩ := Option.map_eq_some_iff.mp h
        exact .stepped hp (by simpa using hnone) hstep
  | load i =>
    simp only [LabelWorld.next] at h
    split at h
    · simp at h
    · rename_i p hp
      split at h
      · rename_i hnew
        cases h
        exact .loaded hp hnew.2
      · simp at h
  | classify i =>
    simp only [LabelWorld.next] at h
    split at h
    · rename_i p k hp hk
      split at h
      · rename_i domain c hdomain hc
        obtain ⟨⟨sh', p'⟩, hstep, rfl⟩ := Option.map_eq_some_iff.mp h
        have hgives : w.gives (.classify i) = [(c.classify domain).2] := by
          simp only [LabelWorld.gives, hp, hk, hdomain, hc]
        rw [hgives]
        exact .asked hp hk hdomain hc hstep
      · simp at h
    · simp at h
  | swap c =>
    cases h
    exact .swapped c

end Moves

-- ---------------------------------------------------------------------------
-- Labels that the installed classifier knows
-- ---------------------------------------------------------------------------

/-- The installed classifier is the last one, handlers have loaded no other, and
it knows every domain that is a label. -/
def Remembered (N : ℕ) (c : Labelled σ) : Prop :=
  ∃ (old : List DomainClassifier) (last : DomainClassifier), c.1.classifiers = old ++ [last] ∧
    last.maxDomains ≤ (N : Int) ∧ (∀ l ∈ c.2, l ≠ unknownDomain → l ∈ last.known) ∧
    ∀ i k, c.1.loaded.lookup i = some k → k = old.length

/-- What a call does to the domains a classifier knows: they stay known, and the
label is one of them or the overflow label. -/
theorem DomainClassifier.classify_known (c : DomainClassifier) (domain : Str) :
    (∀ l ∈ c.known, l ∈ (c.classify domain).1.known) ∧
      ((c.classify domain).2 = unknownDomain ∨
        (c.classify domain).2 ∈ (c.classify domain).1.known) := by
  rcases c.classify_cases domain with ⟨hknown, h⟩ | ⟨-, h⟩ | ⟨hroom, -, -, h⟩
  · rw [h]
    exact ⟨fun _ hl => hl, Or.inr hknown⟩
  · rw [h]
    exact ⟨fun _ hl => hl, Or.inl rfl⟩
  · rw [h]
    exact ⟨fun l hl => (AList.mem_insert _).mpr (Or.inr hl),
      Or.inr ((AList.mem_insert _).mpr (Or.inl rfl))⟩

omit [BucketStore σ] in
/-- What the installed classifier knows bounds the labels. -/
theorem Remembered.card_le {N : ℕ} {c : Labelled σ} (hr : Remembered N c) :
    c.2.toFinset.card ≤ N + 1 := by
  obtain ⟨old, last, -, hmax, hknown, -⟩ := hr
  have hsub : c.2.toFinset ⊆ insert unknownDomain last.known.keys.toFinset := by
    intro l hl
    rw [Finset.mem_insert, List.mem_toFinset]
    by_cases hunknown : l = unknownDomain
    · exact Or.inl hunknown
    · exact Or.inr (AList.mem_keys.mp (hknown l (List.mem_toFinset.mp hl) hunknown))
  have hlen : last.known.keys.toFinset.card ≤ GoMap.len last.known := List.toFinset_card_le _
  have hcap := last.known_le
  calc c.2.toFinset.card
      ≤ (insert unknownDomain last.known.keys.toFinset).card := Finset.card_le_card hsub
    _ ≤ last.known.keys.toFinset.card + 1 := Finset.card_insert_le _ _
    _ ≤ N + 1 := by omega

section Runs

variable {cfg : Limits} {store : σ} {N : ℕ} {c c' : Labelled σ} {m : LabelMove}
  {first : DomainClassifier}

theorem Remembered.watch (hr : Remembered N c) (hcap : Capped N m) (hcarried : Carried c m)
    (h : LabelWorld.watch cfg c m = some c') : Remembered N c' := by
  obtain ⟨old, last, hlast, hmax, hknown, hload⟩ := hr
  obtain ⟨hnext, hlog⟩ := observed_eq_some.mp h
  have heffect := LabelWorld.next_cases hnext
  generalize c.1.gives m = new at heffect hlog
  obtain ⟨w', log'⟩ := c'
  dsimp only at hlog heffect
  cases heffect with
  | connected =>
    refine ⟨old, last, hlast, hmax, ?_, hload⟩
    rw [hlog, List.append_nil]
    exact hknown
  | stepped =>
    refine ⟨old, last, hlast, hmax, ?_, hload⟩
    rw [hlog, List.append_nil]
    exact hknown
  | loaded _ hnot =>
    refine ⟨old, last, hlast, hmax, ?_, ?_⟩
    · rw [hlog, List.append_nil]
      exact hknown
    · intro i' k hk
      rw [show (c.1.loaded.insert _ _).lookup i' = _ from GoMap.lookup_insert_if _ _ _ _] at hk
      split at hk
      · -- the last classifier is the installed one
        cases hk
        rw [hlast]
        simp
      · exact hload i' k hk
  | @asked i k p domain d _ _ _ hk _ hd _ =>
    have hpos := hload i k hk
    subst hpos
    rw [hlast, List.getElem?_concat_length] at hd
    cases hd
    obtain ⟨hkeeps, hlabel⟩ := last.classify_known domain
    refine ⟨old, (last.classify domain).1, ?_, ?_, ?_, ?_⟩
    · dsimp only
      rw [hlast, List.set_append_right _ _ (le_refl _), Nat.sub_self]
      rfl
    · rw [(last.classify_keeps domain).2]
      exact hmax
    · rw [hlog, List.forall_mem_append, List.forall_mem_singleton]
      refine ⟨fun l hl hne => hkeeps l (hknown l hl hne), fun hne => ?_⟩
      rcases hlabel with hunknown | hmem
      · exact absurd hunknown hne
      · exact hmem
    · intro i' k' hk'
      rw [show (c.1.loaded.erase i).lookup i' = _ from GoMap.lookup_erase_if _ _ _] at hk'
      split at hk'
      · simp at hk'
      · exact hload i' k' hk'
  | swapped d =>
    obtain ⟨hcarry, hnone⟩ := hcarried
    refine ⟨c.1.classifiers, d, rfl, hcap, ?_, ?_⟩
    · rw [hlog, List.append_nil]
      exact hcarry
    · intro i k hk
      dsimp only at hk
      rw [hnone] at hk
      simp at hk

theorem run_remembered (hfirst : first.maxDomains ≤ N)
    (h : Run (LabelWorld.watch cfg) (fun c m => Capped N m ∧ Carried c m)
      (newLabelWorld store first, []) c) : Remembered N c := by
  refine Run.invariant h ⟨[], first, rfl, hfirst, (fun _ h => nomatch h), ?_⟩
    fun _ _ _ _ hr hok hn => hr.watch hok.1 hok.2 hn
  intro i k hk
  simp [newLabelWorld] at hk

end Runs

-- ---------------------------------------------------------------------------
-- The labels of the streams
-- ---------------------------------------------------------------------------

section Streams

variable {cfg : Limits} {store : σ} {c c' : Labelled σ} {m : LabelMove} {first : DomainClassifier}

/-- A step that asks no classifier binds no stream and changes no label. -/
theorem handlerStep_label {sh sh' : Shared σ} {p p' : Handler} {x : Input}
    (hnone : p.classifies = none) (h : handlerStep cfg sh p x = some (sh', p'))
    (hbound : p'.ss.domainBound = true) :
    p.ss.domainBound = true ∧ p'.ss.metricDomain = p.ss.metricDomain := by
  cases handlerStep_turn h with
  | bound hpc hbind =>
    obtain ⟨-, -, hkept, hfresh⟩ := bindDomain_ok hbind
    cases hb : p.ss.domainBound with
    | true =>
      rw [hkept hb]
      exact ⟨rfl, rfl⟩
    | false =>
      -- an unbound stream with a domain has it classified
      have hdomain := (hfresh hb).2
      simp [Handler.classifies, hpc, hb, hdomain] at hnone
  | @usage u us reports hpc =>
    rcases trackStep_cases cfg p u us reports with
      ⟨-, ht⟩ | ht | ⟨id, -, -, -, ht⟩ | ⟨id, -, -, -, ht⟩
    all_goals
      rw [ht] at hbound ⊢
      exact ⟨hbound, rfl⟩
  | @action v a rest all hpc =>
    rcases abandonStep_cases p v a rest all with ht | ⟨-, -, ht⟩
    all_goals
      rw [ht] at hbound ⊢
      exact ⟨hbound, rfl⟩
  | _ => exact ⟨hbound, rfl⟩

/-- The step that has the domain classified gives the stream that label. -/
theorem handlerStep_classified {sh sh' : Shared σ} {p p' : Handler} {domain l : Str}
    (hdomain : p.classifies = some domain)
    (h : handlerStep cfg sh p (.label l) = some (sh', p')) : p'.ss.metricDomain = l := by
  -- an unbound stream and a message with a domain, so that binding succeeds
  have hbinds : ∀ req, p.pc = .bind req → bindDomain l p.ss req =
      .ok { p.ss with domain := req.domain, metricDomain := l, domainBound := true } := by
    intro req hpc
    simp only [Handler.classifies, hpc] at hdomain
    split at hdomain
    · rename_i hfresh
      simp only [Bool.and_eq_true, Bool.not_eq_true', bne_iff_ne, ne_eq] at hfresh
      simp [bindDomain, hfresh.1, hfresh.2]
    · simp at hdomain
  cases handlerStep_turn h with
  | bindFailed hpc hbind =>
    rw [hbinds _ hpc] at hbind
    cases hbind
  | bound hpc hbind =>
    rw [hbinds _ hpc] at hbind
    cases hbind
    rfl

/-- Handlers that have loaded a classifier are there, and the labels of the
bound streams have been given. -/
structure Tidy (c : Labelled σ) : Prop where
  loaded : ∀ i ∈ c.1.loaded, i < c.1.pool.procs.length
  labels : ∀ p ∈ c.1.pool.procs, p.ss.domainBound = true → p.ss.metricDomain ∈ c.2

theorem Tidy.watch (ht : Tidy c) (h : LabelWorld.watch cfg c m = some c') : Tidy c' := by
  obtain ⟨hnext, hlog⟩ := observed_eq_some.mp h
  have heffect := LabelWorld.next_cases hnext
  generalize c.1.gives m = new at heffect hlog
  obtain ⟨w', log'⟩ := c'
  dsimp only at hlog heffect
  subst hlog
  have hold : ∀ p ∈ c.1.pool.procs, p.ss.domainBound = true → p.ss.metricDomain ∈ c.2 ++ new :=
    fun p hp hb => List.mem_append_left _ (ht.labels p hp hb)
  cases heffect with
  | connected =>
    refine ⟨fun i hi => ?_, ?_⟩
    · rw [List.length_append]
      exact Nat.lt_add_right _ (ht.loaded i hi)
    · rw [List.forall_mem_append, List.forall_mem_singleton]
      exact ⟨hold, fun hb => by simp [newHandler, newStream] at hb⟩
  | @stepped i x p sh' p' hp hnone hstep =>
    refine ⟨fun j hj => ?_, fun q hq hb => ?_⟩
    · rw [List.length_set]
      exact ht.loaded j hj
    · rcases mem_set_cases hq with rfl | hq
      · obtain ⟨hbound, hlabel⟩ := handlerStep_label hnone hstep hb
        rw [hlabel]
        exact hold p (List.mem_of_getElem? hp) hbound
      · exact hold q hq hb
  | @loaded i p hp _ =>
    refine ⟨fun j hj => ?_, hold⟩
    rcases (AList.mem_insert _).mp hj with rfl | hj
    · exact (List.getElem?_eq_some_iff.mp hp).1
    · exact ht.loaded j hj
  | @asked i k p domain d sh' p' hp _ hdomain _ hstep =>
    refine ⟨fun j hj => ?_, fun q hq hb => ?_⟩
    · rw [List.length_set]
      exact ht.loaded j (AList.mem_erase.mp hj).2
    · rcases mem_set_cases hq with rfl | hq
      · rw [handlerStep_classified hdomain hstep]
        exact List.mem_append_right _ List.mem_cons_self
      · exact hold q hq hb
  | swapped d => exact ⟨ht.loaded, hold⟩

theorem run_tidy {ok : Labelled σ → LabelMove → Prop}
    (h : Run (LabelWorld.watch cfg) ok (newLabelWorld store first, []) c) : Tidy c :=
  Run.invariant h ⟨(fun _ h => nomatch h), (fun _ h => nomatch h)⟩
    fun _ _ _ _ ht _ hn => ht.watch hn

end Streams

-- ---------------------------------------------------------------------------
-- Beyond the bound
-- ---------------------------------------------------------------------------

/-- A classifier without patterns and with room admits a new domain. -/
theorem DomainClassifier.classify_new {c : DomainClassifier} {domain : Str}
    (hpatterns : c.patterns = []) (hnew : domain ∉ c.known)
    (hroom : (GoMap.len c.known : Int) < c.maxDomains) :
    c.classify domain = (c.learn domain hroom, domain) := by
  have hunknown : c.isKnown domain = false := by
    rw [Bool.eq_false_iff, Ne, c.isKnown_iff]
    exact hnew
  simp [DomainClassifier.classify, hunknown, DomainClassifier.matched, hpatterns, hroom]

/-- A classifier at its cap gives a new domain the overflow label. -/
theorem DomainClassifier.classify_full {c : DomainClassifier} {domain : Str}
    (hnew : domain ∉ c.known) (hfull : c.maxDomains ≤ (GoMap.len c.known : Int)) :
    (c.classify domain).2 = unknownDomain := by
  rcases c.classify_cases domain with ⟨hknown, -⟩ | ⟨-, h⟩ | ⟨hroom, -⟩
  · exact absurd hknown hnew
  · rw [h]
  · omega

/-- A handler that has received its first message, which binds the domain. -/
def bindingHandler (domain : Str) : Handler :=
  { newHandler with pc := .bind ⟨domain, []⟩, registered := true }

/-- The world once a new stream has sent that message. -/
def LabelWorld.opened (w : LabelWorld σ) (domain : Str) : LabelWorld σ :=
  { w with
    pool := ⟨{ w.pool.shared with activeStreams := w.pool.shared.activeStreams + 1 },
      w.pool.procs ++ [bindingHandler domain]⟩ }

theorem bindingHandler_classifies {domain : Str} (hne : domain ≠ []) :
    (bindingHandler domain).classifies = some domain := by
  simp [Handler.classifies, bindingHandler, newHandler, newStream, hne]

section Beyond

variable {cfg : Limits} {N : ℕ} {w w' : LabelWorld σ} {log : List Str} {m : LabelMove}
  {old : List DomainClassifier} {last : DomainClassifier} {domain : Str}

theorem step_of_next (hcap : Capped N m) (h : w.next cfg m = some w') {new : List Str}
    (hgives : w.gives m = new) :
    Step (LabelWorld.watch cfg) (fun _ m => Capped N m) (w, log) (w', log ++ new) :=
  ⟨m, hcap, observed_eq_some.mpr ⟨h, by rw [hgives]⟩⟩

/-- A step of the handler opened last. -/
theorem LabelWorld.next_last {ps : List Handler} {p p' : Handler} {sh' : Shared σ} {x : Input}
    (hprocs : w.pool.procs = ps ++ [p]) (hnone : p.classifies = none)
    (hstep : handlerStep cfg w.pool.shared p x = some (sh', p')) :
    w.next cfg (.handler ps.length x) = some { w with pool := ⟨sh', ps ++ [p']⟩ } := by
  have hp : w.pool.procs[ps.length]? = some p := by
    rw [hprocs]
    exact List.getElem?_concat_length
  have hset : w.pool.procs.set ps.length p' = ps ++ [p'] := by
    rw [hprocs, List.set_append_right _ _ (le_refl _), Nat.sub_self]
    rfl
  simp only [LabelWorld.next, hp, hnone, Option.isSome_none, Bool.false_eq_true, if_false,
    LabelWorld.stepHandler, hstep, Option.map_some, hset]

/-- A stream opens and sends its first message. -/
theorem opened_run (w : LabelWorld σ) (log : List Str) (domain : Str) :
    Run (LabelWorld.watch cfg) (fun _ m => Capped N m) (w, log) (w.opened domain, log) := by
  have hconnect : Step (LabelWorld.watch cfg) (fun _ m => Capped N m) (w, log)
      ({ w with pool := ⟨w.pool.shared, w.pool.procs ++ [newHandler]⟩ }, log ++ []) :=
    step_of_next (m := .connect) trivial rfl rfl
  have hquiet : ∀ {ps : List Handler} {p p' : Handler} {sh sh' : Shared σ} {x : Input},
      p.classifies = none → handlerStep cfg sh p x = some (sh', p') →
      Step (LabelWorld.watch cfg) (fun _ m => Capped N m)
        ({ w with pool := ⟨sh, ps ++ [p]⟩ }, log)
        ({ w with pool := ⟨sh', ps ++ [p']⟩ }, log ++ []) :=
    fun hnone hstep =>
      step_of_next (m := .handler _ _) trivial (LabelWorld.next_last rfl hnone hstep) rfl
  simp only [List.append_nil] at hconnect hquiet
  exact (((Relation.ReflTransGen.single hconnect).tail (hquiet (x := .tick) rfl rfl)).tail
    (hquiet (x := .tick) rfl rfl)).tail (hquiet (x := .recv ⟨domain, []⟩) rfl rfl)

/-- Binding the domain succeeds with any label. -/
theorem bindingHandler_step (cfg : Limits) (sh : Shared σ) (hne : domain ≠ []) (l : Str) :
    ∃ p', handlerStep cfg sh (bindingHandler domain) (.label l) = some (sh, p') := by
  simp [handlerStep, bindingHandler, newHandler, newStream, bindDomain, hne]

variable (cfg N) in
/-- A new stream binds the domain, and gets the label of the installed classifier. -/
theorem bind_run (ht : Tidy (w, log)) (hlast : w.classifiers = old ++ [last]) (hne : domain ≠ []) :
    ∃ w', Run (LabelWorld.watch cfg) (fun _ m => Capped N m) (w, log)
        (w', log ++ [(last.classify domain).2]) ∧
      w'.classifiers = old ++ [(last.classify domain).1] := by
  have hat : (w.opened domain).pool.procs[w.pool.procs.length]? = some (bindingHandler domain) :=
    List.getElem?_concat_length
  have hdomain := bindingHandler_classifies hne
  have hfree : w.pool.procs.length ∉ w.loaded := fun h => absurd (ht.loaded _ h) (lt_irrefl _)
  have hinstalled : w.classifiers[w.classifiers.length - 1]? = some last := by
    rw [hlast, List.length_append, List.length_singleton, Nat.add_sub_cancel]
    exact List.getElem?_concat_length
  have hload : Step (LabelWorld.watch cfg) (fun _ m => Capped N m) (w.opened domain, log)
      ({ w.opened domain with
        loaded := w.loaded.insert w.pool.procs.length (w.classifiers.length - 1) }, log ++ []) := by
    refine step_of_next (m := .load w.pool.procs.length) trivial ?_ rfl
    simp only [LabelWorld.next, hat, hdomain, Option.isSome_some]
    exact if_pos ⟨trivial, hfree⟩
  obtain ⟨p', hstep⟩ := bindingHandler_step cfg (w.opened domain).pool.shared hne
    (last.classify domain).2
  have hask : Step (LabelWorld.watch cfg) (fun _ m => Capped N m)
      ({ w.opened domain with
        loaded := w.loaded.insert w.pool.procs.length (w.classifiers.length - 1) }, log)
      (⟨⟨(w.opened domain).pool.shared, (w.opened domain).pool.procs.set w.pool.procs.length p'⟩,
        w.classifiers.set (w.classifiers.length - 1) (last.classify domain).1,
        (w.loaded.insert w.pool.procs.length (w.classifiers.length - 1)).erase
          w.pool.procs.length⟩, log ++ [(last.classify domain).2]) := by
    have hk : (w.loaded.insert w.pool.procs.length (w.classifiers.length - 1)).lookup
        w.pool.procs.length = some (w.classifiers.length - 1) := AList.lookup_insert _
    have hcs : (w.opened domain).classifiers[w.classifiers.length - 1]? = some last := hinstalled
    refine step_of_next (m := .classify w.pool.procs.length) trivial ?_ ?_
    · simp only [LabelWorld.next, hat, hk, hdomain, hcs, LabelWorld.stepHandler, hstep,
        Option.map_some]
      rfl
    · simp only [LabelWorld.gives, hat, hk, hdomain, hcs]
  rw [List.append_nil] at hload
  refine ⟨_, ((opened_run w log domain).tail hload).tail hask, ?_⟩
  rw [hlast, List.length_append, List.length_singleton, Nat.add_sub_cancel,
    List.set_append_right _ _ (le_refl _), Nat.sub_self]
  rfl

theorem Tidy.run {ok : Labelled σ → LabelMove → Prop} {c c' : Labelled σ} (ht : Tidy c)
    (h : Run (LabelWorld.watch cfg) ok c c') : Tidy c' :=
  Run.invariant h ht fun _ _ _ _ ht _ hn => ht.watch hn

variable (cfg N) in
/-- New streams bind domains that the installed classifier has room for: each
gets its domain as a label. -/
theorem fill_run {domains : List Str} (ht : Tidy (w, log)) (hlast : w.classifiers = old ++ [last])
    (hpatterns : last.patterns = []) (hnodup : domains.Nodup)
    (hnew : ∀ d ∈ domains, d ≠ [] ∧ d ∉ last.known)
    (hroom : (GoMap.len last.known : Int) + domains.length ≤ last.maxDomains) :
    ∃ w' last', Run (LabelWorld.watch cfg) (fun _ m => Capped N m) (w, log) (w', log ++ domains) ∧
      w'.classifiers = old ++ [last'] ∧ last'.maxDomains = last.maxDomains ∧
      GoMap.len last'.known = GoMap.len last.known + domains.length ∧
      ∀ d, d ∈ last'.known ↔ d ∈ last.known ∨ d ∈ domains := by
  induction domains generalizing w log last with
  | nil =>
    exact ⟨w, last, by rw [List.append_nil]; exact Relation.ReflTransGen.refl, hlast, rfl, rfl,
      by simp⟩
  | cons d domains ih =>
    obtain ⟨⟨hne, hd⟩, hrest⟩ := List.forall_mem_cons.mp hnew
    obtain ⟨hnotMem, hnodup'⟩ := List.nodup_cons.mp hnodup
    rw [List.length_cons] at hroom
    have hspace : (GoMap.len last.known : Int) < last.maxDomains := by omega
    obtain ⟨w₁, hrun₁, hlast₁⟩ := bind_run cfg N ht hlast hne
    rw [DomainClassifier.classify_new hpatterns hd hspace] at hrun₁ hlast₁
    have hlen : GoMap.len (last.learn d hspace).known = GoMap.len last.known + 1 :=
      GoMap.len_insert_of_notMem hd true
    have hmem : ∀ d', d' ∈ (last.learn d hspace).known ↔ d' = d ∨ d' ∈ last.known :=
      fun d' => AList.mem_insert _
    obtain ⟨w₂, last₂, hrun₂, hlast₂, hmax₂, hlen₂, hmem₂⟩ := ih (ht.run hrun₁) hlast₁ hpatterns
      hnodup'
      (fun d' hd' => ⟨(hrest d' hd').1, fun hk => by
        rcases (hmem d').mp hk with rfl | hk
        · exact hnotMem hd'
        · exact (hrest d' hd').2 hk⟩)
      (by
        rw [hlen]
        push_cast
        exact le_trans (by omega) hroom)
    refine ⟨w₂, last₂, ?_, hlast₂, hmax₂, ?_, ?_⟩
    · rw [List.append_assoc] at hrun₂
      exact hrun₁.trans hrun₂
    · rw [hlen₂, hlen, List.length_cons]
      omega
    · intro d'
      rw [hmem₂, hmem, List.mem_cons]
      tauto

/-- Any number of domains that are not in a finite list. -/
theorem exists_new_domains (avoid : List Str) (n : ℕ) :
    ∃ domains : List Str, domains.Nodup ∧ domains.length = n ∧ ∀ d ∈ domains, d ∉ avoid := by
  have hinf : (((avoid.toFinset : Finset Str) : Set Str)ᶜ).Infinite :=
    (Finset.finite_toSet _).infinite_compl
  obtain ⟨s, hs, hcard⟩ := hinf.exists_subset_card_eq n
  refine ⟨s.toList, s.nodup_toList, by rw [Finset.length_toList, hcard], fun d hd havoid => ?_⟩
  exact hs (Finset.mem_coe.mpr (Finset.mem_toList.mp hd)) (by simpa using havoid)

/-- An old label, new ones and the overflow label are all different. -/
theorem new_labels_card {domains : List Str} {a : Str} (ha : a ∈ log) (hdomain : a ≠ unknownDomain)
    (hnodup : domains.Nodup) (hnew : ∀ d ∈ domains, d ∉ log ∧ d ≠ unknownDomain) :
    domains.length + 2 ≤ (log ++ domains ++ [unknownDomain]).toFinset.card := by
  have hall : insert a (insert unknownDomain domains.toFinset) ⊆
      (log ++ domains ++ [unknownDomain]).toFinset := by
    intro l hl
    simp only [Finset.mem_insert, List.mem_toFinset] at hl
    simp only [List.mem_toFinset, List.mem_append, List.mem_singleton]
    rcases hl with rfl | rfl | hl
    · exact Or.inl (Or.inl ha)
    · exact Or.inr rfl
    · exact Or.inl (Or.inr hl)
  have hunknown : unknownDomain ∉ domains.toFinset := by
    rw [List.mem_toFinset]
    exact fun hd => (hnew _ hd).2 rfl
  have hold : a ∉ insert unknownDomain domains.toFinset := by
    rw [Finset.mem_insert, List.mem_toFinset]
    rintro (heq | hd)
    · exact hdomain heq
    · exact (hnew a hd).1 ha
  have hle := Finset.card_le_card hall
  rw [Finset.card_insert_of_notMem hold, Finset.card_insert_of_notMem hunknown,
    List.toFinset_card_of_nodup hnodup] at hle
  exact hle

/-- Once a domain has its label, one swap to a classifier as
`NewDomainClassifier` makes it leads to a state with more than `N + 1` labels. -/
theorem beyond_run {c : Labelled σ} (hN : 0 < N) (ht : Tidy c) {a : Str} (ha : a ∈ c.2)
    (hdomain : a ≠ unknownDomain) :
    ∃ c', Run (LabelWorld.watch cfg) (fun _ m => Capped N m) c c' ∧
      N + 1 < c'.2.toFinset.card := by
  obtain ⟨w, log⟩ := c
  let fresh := freshClassifier [] (N : Int)
  have hmax : fresh.maxDomains = N := by
    show effectiveMaxDomains (N : Int) = N
    unfold effectiveMaxDomains
    rw [if_neg (by omega)]
  have hswap : Step (LabelWorld.watch cfg) (fun _ m => Capped N m) (w, log)
      ({ w with classifiers := w.classifiers ++ [fresh] }, log ++ []) :=
    step_of_next (m := .swap fresh) (le_of_eq hmax) rfl rfl
  rw [List.append_nil] at hswap
  have hswap' := Relation.ReflTransGen.single hswap
  obtain ⟨ds, hnodup, hlength, havoid⟩ := exists_new_domains (log ++ [[], unknownDomain]) (N + 1)
  obtain ⟨extra, domains, rfl⟩ : ∃ extra domains, ds = extra :: domains := by
    cases ds with
    | nil => simp at hlength
    | cons extra domains => exact ⟨extra, domains, rfl⟩
  simp only [List.mem_append, List.mem_cons, List.not_mem_nil, or_false, not_or] at havoid
  rw [List.length_cons, Nat.add_right_cancel_iff] at hlength
  obtain ⟨hextra, hnodup'⟩ := List.nodup_cons.mp hnodup
  obtain ⟨w₁, last₁, hrun₁, hlast₁, hmax₁, hlen₁, hmem₁⟩ := fill_run cfg N (ht.run hswap')
    rfl rfl hnodup'
    (fun d hd => ⟨(havoid d (Or.inr hd)).2.1, AList.notMem_empty d⟩)
    (by
      show (0 : Int) + domains.length ≤ fresh.maxDomains
      rw [hmax, hlength]
      omega)
  have hnotKnown : extra ∉ last₁.known := by
    rw [hmem₁]
    rintro (hk | hk)
    · exact AList.notMem_empty extra hk
    · exact hextra hk
  obtain ⟨w₂, hrun₂, -⟩ := bind_run cfg N ((ht.run hswap').run hrun₁) hlast₁
    (havoid extra (Or.inl rfl)).2.1
  have hoverflow : (last₁.classify extra).2 = unknownDomain := by
    apply DomainClassifier.classify_full hnotKnown
    have hzero : GoMap.len fresh.known = 0 := rfl
    rw [hmax₁, hmax, hlen₁, hzero, hlength]
    omega
  rw [hoverflow] at hrun₂
  refine ⟨_, (hswap'.trans hrun₁).trans hrun₂, ?_⟩
  have hmany := new_labels_card ha hdomain hnodup' fun d hd =>
    ⟨(havoid d (Or.inr hd)).1, (havoid d (Or.inr hd)).2.2⟩
  rw [hlength] at hmany
  exact hmany

end Beyond

-- ---------------------------------------------------------------------------
-- The bound
-- ---------------------------------------------------------------------------

/-- **The number of labels.** With caps of at most `N`, in every run in which a
classifier is installed only if it knows every domain that is a label already:
the labels of all streams are among the labels given, and at most `N + 1`
labels are ever given. And the condition is needed: from every state of such a
run in which a domain has its label, one swap to a classifier of
`NewDomainClassifier`, which knows none, leads to more than `N + 1` labels. -/
theorem labels_bounded_when_carried (cfg : Limits) (store : σ) {N : ℕ} {first : DomainClassifier}
    (hfirst : first.maxDomains ≤ N) {c : Labelled σ}
    (h : Run (LabelWorld.watch cfg) (fun c m => Capped N m ∧ Carried c m)
      (newLabelWorld store first, []) c) :
    (∀ p ∈ c.1.pool.procs, p.ss.domainBound = true → p.ss.metricDomain ∈ c.2) ∧
    c.2.toFinset.card ≤ N + 1 ∧
    ∀ a ∈ c.2, a ≠ unknownDomain →
      ∃ c', Run (LabelWorld.watch cfg) (fun _ m => Capped N m) c c' ∧
        N + 1 < c'.2.toFinset.card := by
  refine ⟨(run_tidy h).labels, (run_remembered hfirst h).card_le, fun a ha hdomain => ?_⟩
  have hpos := first.max_pos
  exact beyond_run (by omega) (run_tidy h) ha hdomain

/-- A stream opens and binds the domain. -/
def bindMoves (i : ℕ) (domain : Str) : List LabelMove :=
  [.connect, .handler i .tick, .handler i .tick, .handler i (.recv ⟨domain, []⟩), .load i,
    .classify i]

/-- With a cap of one and one reload, three labels are given. -/
theorem labels_beyond_cap :
    ∃ c, Run (LabelWorld.watch noLimits) (fun _ m => Capped 1 m)
        (newLabelWorld MemoryStorage.newMemoryStorage (freshClassifier [] 1), []) c ∧
      c.2 = [[97], [98], unknownDomain] ∧ 1 + 1 < c.2.toFinset.card := by
  have hrun := run_exec_of (LabelWorld.watch noLimits)
    (fun _ m (h : decide (Capped 1 m) = true) => of_decide_eq_true h)
    (newLabelWorld MemoryStorage.newMemoryStorage (freshClassifier [] 1), [])
    (bindMoves 0 [97] ++ [.swap (freshClassifier [] 1)] ++ bindMoves 1 [98] ++ bindMoves 2 [99])
    (by decide)
  exact ⟨_, hrun, by decide, by decide⟩

/-- A classifier with a cap of one that has admitted `"a"`. -/
def knowsFirst : DomainClassifier := ((freshClassifier [] 1).classify [97]).1

/-- The new classifier knows the label that was given: the next domain overflows. -/
theorem labels_within_cap :
    ∃ c, Run (LabelWorld.watch noLimits) (fun c m => Capped 1 m ∧ Carried c m)
        (newLabelWorld MemoryStorage.newMemoryStorage (freshClassifier [] 1), []) c ∧
      c.2 = [[97], unknownDomain] ∧ c.2.toFinset.card ≤ 1 + 1 := by
  have hrun := run_exec_of (LabelWorld.watch noLimits)
    (fun c m (h : decide (Capped 1 m ∧ Carried c m) = true) => of_decide_eq_true h)
    (newLabelWorld MemoryStorage.newMemoryStorage (freshClassifier [] 1), [])
    (bindMoves 0 [97] ++ [.swap knowsFirst] ++ bindMoves 1 [98]) (by decide)
  exact ⟨_, hrun, by decide, (labels_bounded_when_carried _ _ (by decide) hrun).2.1⟩

end Rlqs
