import Rlqs.Lib.Linear
import Rlqs.Metrics.Domain

/-!
# RLQS metrics — concurrent `Classify` calls

Streams bind their domains concurrently, so `Classify` calls overlap. A call looks
its domain up under the read lock, lets go of the lock, matches the patterns, and
takes the write lock to admit the domain; each of these is one atomic step here,
and the return to the caller is another. Between them other calls may admit the
same domain or take the last slots.

The sequential meaning is a set `K` of admitted domains (`classifySpec`), stated
from the pattern strings and the cap. A call takes effect at the step that settles
its label: the look-up of a known domain, the match that fails, or the admission.
What makes the failed match a point is that only domains that match are ever
admitted (`KnownMatch`), so a domain that does not match is not in `K` then.

* `classify_alone` — a call that nobody interrupts is `DomainClassifier.classify`;
* `classify_points` — every call has its point;
* `classify_linearizable` — all interleavings.
-/

namespace Rlqs

open Interleave Steps

-- ---------------------------------------------------------------------------
-- The sequential meaning
-- ---------------------------------------------------------------------------

/-- Some pattern matches the domain, or there are no patterns. Empty pattern
strings do not count. -/
def domainAccepted (compile : Str → Except GoError Regexp) (patterns : List Str) (domain : Str) :
    Bool :=
  let named := patterns.filter fun p => p ≠ []
  named.isEmpty || named.any fun p =>
    match compile p with
    | .ok r => r.matchString domain
    | .error _ => false

/-- A known domain is its own label; a domain that is accepted becomes known while
there is room; everything else is `__unknown__`. There is room for `maxDomains`
domains, and for 100 when that is not positive. -/
def classifySpec (compile : Str → Except GoError Regexp) (patterns : List Str) (maxDomains : Int) :
    Spec (Finset Str) Str Str where
  init := ∅
  apply K domain :=
    if domain ∈ K then (K, domain)
    else if domainAccepted compile patterns domain = true ∧
        (K.card : Int) < (if maxDomains ≤ 0 then 100 else maxDomains) then
      (insert domain K, domain)
    else (K, unknownDomain)

-- ---------------------------------------------------------------------------
-- A call, one step at a time
-- ---------------------------------------------------------------------------

/-- The control points of a call; `respond` holds the label it will return. -/
inductive ClassifyPC where
  | lookup
  | matching
  | admission
  | respond (label : Str)
  | returned (label : Str)

/-- A `Classify` call in progress. -/
structure Classifying where
  pc : ClassifyPC
  domain : Str

/-- One step of a call. -/
def classifyStep (c : DomainClassifier) (p : Classifying) (_ : Unit) :
    Option (DomainClassifier × Classifying) :=
  match p.pc with
  | .lookup =>
    some (c, { p with pc := if c.isKnown p.domain then .respond p.domain else .matching })
  | .matching =>
    some (c, { p with pc := if c.matched p.domain then .admission else .respond unknownDomain })
  | .admission =>
    if c.isKnown p.domain then some (c, { p with pc := .respond p.domain })
    else if hroom : (GoMap.len c.known : Int) < c.maxDomains then
      some (c.learn p.domain hroom, { p with pc := .respond p.domain })
    else some (c, { p with pc := .respond unknownDomain })
  | .respond label => some (c, { p with pc := .returned label })
  | .returned _ => none

/-- Any number of `Classify` calls on one classifier. -/
def classifyMachine : Machine DomainClassifier Classifying Str Unit where
  init domain := ⟨.lookup, domain⟩
  step := classifyStep

/-- The label, once it is settled. -/
def Classifying.decided (p : Classifying) : Option Str :=
  match p.pc with
  | .respond label => some label
  | .returned label => some label
  | _ => none

/-- The label, once it is returned. -/
def Classifying.result (p : Classifying) : Option Str :=
  match p.pc with
  | .returned label => some label
  | _ => none

/-- A call that nobody interrupts does what `classify` says. -/
theorem classify_alone (c : DomainClassifier) (domain : Str) :
    classifyMachine.Alone (c, classifyMachine.init domain)
      ((c.classify domain).1, ⟨.returned (c.classify domain).2, domain⟩) := by
  have hreturn : ∀ c' label, classifyMachine.Alone (c', ⟨.respond label, domain⟩)
      (c', ⟨.returned label, domain⟩) :=
    fun c' label => Relation.ReflTransGen.single ⟨(), rfl⟩
  have hstep : ∀ pc c' pc', classifyStep c ⟨pc, domain⟩ () = some (c', ⟨pc', domain⟩) →
      ∃ x, classifyMachine.step c ⟨pc, domain⟩ x = some (c', ⟨pc', domain⟩) :=
    fun pc c' pc' h => ⟨(), h⟩
  cases hknown : c.isKnown domain with
  | true =>
    have hres : c.classify domain = (c, domain) := by simp [DomainClassifier.classify, hknown]
    rw [hres]
    exact Relation.ReflTransGen.head
      (hstep .lookup c (.respond domain) (by simp [classifyStep, hknown])) (hreturn c domain)
  | false =>
    refine Relation.ReflTransGen.head
      (hstep .lookup c .matching (by simp [classifyStep, hknown])) ?_
    cases hmatch : c.matched domain with
    | false =>
      have hres : c.classify domain = (c, unknownDomain) := by
        simp [DomainClassifier.classify, hknown, hmatch]
      rw [hres]
      exact Relation.ReflTransGen.head
        (hstep .matching c (.respond unknownDomain) (by simp [classifyStep, hmatch]))
        (hreturn c unknownDomain)
    | true =>
      refine Relation.ReflTransGen.head
        (hstep .matching c .admission (by simp [classifyStep, hmatch])) ?_
      by_cases hroom : (GoMap.len c.known : Int) < c.maxDomains
      · have hres : c.classify domain = (c.learn domain hroom, domain) := by
          simp [DomainClassifier.classify, hknown, hmatch, hroom]
        rw [hres]
        exact Relation.ReflTransGen.head
          (hstep .admission _ (.respond domain) (by simp [classifyStep, hknown, hroom]))
          (hreturn _ domain)
      · have hres : c.classify domain = (c, unknownDomain) := by
          simp [DomainClassifier.classify, hknown, hmatch, hroom]
        rw [hres]
        exact Relation.ReflTransGen.head
          (hstep .admission c (.respond unknownDomain) (by simp [classifyStep, hknown, hroom]))
          (hreturn c unknownDomain)

-- ---------------------------------------------------------------------------
-- The patterns of a new classifier
-- ---------------------------------------------------------------------------

section Patterns

variable {compile : Str → Except GoError Regexp} {patterns : List Str}

theorem compileDomainPatterns_forall₂ {rs : List Regexp}
    (h : compileDomainPatterns compile patterns = .ok rs) :
    List.Forall₂ (fun p r => compile p = .ok r) (patterns.filter fun p => p ≠ []) rs := by
  induction patterns generalizing rs with
  | nil =>
    cases h
    exact List.Forall₂.nil
  | cons p ps ih =>
    rw [compileDomainPatterns] at h
    by_cases hp : p = []
    · rw [if_pos hp] at h
      rw [List.filter_cons_of_neg (by simp [hp])]
      exact ih h
    · rw [if_neg hp] at h
      rw [List.filter_cons_of_pos (by simp [hp])]
      split at h
      · simp at h
      · rename_i r hr
        split at h
        · simp at h
        · rename_i rs' hrs
          cases h
          exact List.Forall₂.cons hr (ih hrs)

/-- A classifier matches what its pattern strings accept. -/
theorem matched_eq_accepted {c : DomainClassifier}
    (h : compileDomainPatterns compile patterns = .ok c.patterns) (domain : Str) :
    c.matched domain = domainAccepted compile patterns domain := by
  have hforall := compileDomainPatterns_forall₂ h
  unfold DomainClassifier.matched domainAccepted
  dsimp only
  generalize patterns.filter (fun p => p ≠ []) = named at hforall ⊢
  have hany : (c.patterns.any fun p => p.matchString domain) = named.any fun p =>
      match compile p with
      | .ok r => r.matchString domain
      | .error _ => false := by
    generalize c.patterns = rs at hforall
    induction hforall with
    | nil => rfl
    | cons hp _ ih => simp only [List.any_cons, hp, ih]
  have hempty : c.patterns.isEmpty = named.isEmpty := by
    generalize c.patterns = rs at hforall
    cases hforall with
    | nil => rfl
    | cons _ _ => rfl
  rw [hany, hempty]

end Patterns

-- ---------------------------------------------------------------------------
-- The points of the calls
-- ---------------------------------------------------------------------------

/-- What every classifier in a run has in common: the patterns and the cap it was
made with, and known domains that match. -/
structure KnownMatch (compile : Str → Except GoError Regexp) (patterns : List Str)
    (maxDomains : Int) (c : DomainClassifier) : Prop where
  patterns_eq : compileDomainPatterns compile patterns = .ok c.patterns
  max_eq : c.maxDomains = if maxDomains ≤ 0 then 100 else maxDomains
  known_accepted : ∀ domain, c.isKnown domain = true → domainAccepted compile patterns domain = true

/-- A call that waits for the write lock has matched its domain. -/
def Classifying.Matched (compile : Str → Except GoError Regexp) (patterns : List Str)
    (p : Classifying) : Prop :=
  p.pc = .admission → domainAccepted compile patterns p.domain = true

/-- The set of admitted domains. -/
def DomainClassifier.admitted (c : DomainClassifier) : Finset Str := c.known.keys.toFinset

theorem DomainClassifier.mem_admitted (c : DomainClassifier) (domain : Str) :
    domain ∈ c.admitted ↔ c.isKnown domain = true := by
  rw [c.isKnown_iff, AList.mem_keys]
  exact List.mem_toFinset

theorem DomainClassifier.card_admitted (c : DomainClassifier) :
    c.admitted.card = GoMap.len c.known :=
  List.toFinset_card_of_nodup c.known.keys_nodup

theorem DomainClassifier.isKnown_learn (c : DomainClassifier) (domain d : Str)
    (hroom : (GoMap.len c.known : Int) < c.maxDomains) :
    (c.learn domain hroom).isKnown d = true ↔ d = domain ∨ c.isKnown d = true := by
  unfold DomainClassifier.isKnown DomainClassifier.learn
  rw [show (c.known.insert domain true).lookup d = _ from GoMap.lookup_insert_if _ _ _ _]
  split
  · simp [*]
  · simp [*]

theorem DomainClassifier.admitted_learn (c : DomainClassifier) (domain : Str)
    (hroom : (GoMap.len c.known : Int) < c.maxDomains) :
    (c.learn domain hroom).admitted = insert domain c.admitted := by
  ext d
  rw [Finset.mem_insert, mem_admitted, mem_admitted, isKnown_learn]

section Points

variable {compile : Str → Except GoError Regexp} {patterns : List Str} {maxDomains : Int}
  {c c' : DomainClassifier} {p p' : Classifying}

/-- Everything a step can do: go on without a label, return, or settle the label:
the domain is known, it does not match, there is no room, or it is admitted. -/
inductive ClassifyEffect (c : DomainClassifier) (p : Classifying) :
    DomainClassifier → Classifying → Prop where
  | goOn (hpc : p.pc = .lookup) : ClassifyEffect c p c ⟨.matching, p.domain⟩
  | matched (hpc : p.pc = .matching) (hmatch : c.matched p.domain = true) :
      ClassifyEffect c p c ⟨.admission, p.domain⟩
  | known (hpc : p.decided = none) (hknown : c.isKnown p.domain = true) :
      ClassifyEffect c p c ⟨.respond p.domain, p.domain⟩
  | unmatched (hpc : p.decided = none) (hmatch : c.matched p.domain = false) :
      ClassifyEffect c p c ⟨.respond unknownDomain, p.domain⟩
  | full (hpc : p.decided = none) (hknown : c.isKnown p.domain = false)
      (hfull : ¬ (GoMap.len c.known : Int) < c.maxDomains) :
      ClassifyEffect c p c ⟨.respond unknownDomain, p.domain⟩
  | admitted (hpc : p.pc = .admission) (hknown : c.isKnown p.domain = false)
      (hroom : (GoMap.len c.known : Int) < c.maxDomains) :
      ClassifyEffect c p (c.learn p.domain hroom) ⟨.respond p.domain, p.domain⟩
  | returns (label : Str) (hpc : p.pc = .respond label) :
      ClassifyEffect c p c ⟨.returned label, p.domain⟩

theorem classifyStep_cases {x : Unit} (h : classifyMachine.step c p x = some (c', p')) :
    ClassifyEffect c p c' p' := by
  change classifyStep c p x = some (c', p') at h
  obtain ⟨pc, domain⟩ := p
  cases pc with
  | lookup =>
    cases hknown : c.isKnown domain with
    | true =>
      simp only [classifyStep, hknown, if_true, Option.some.injEq, Prod.mk.injEq] at h
      obtain ⟨rfl, rfl⟩ := h
      exact .known rfl hknown
    | false =>
      simp [classifyStep, hknown] at h
      obtain ⟨rfl, rfl⟩ := h
      exact .goOn rfl
  | matching =>
    cases hmatch : c.matched domain with
    | true =>
      simp [classifyStep, hmatch] at h
      obtain ⟨rfl, rfl⟩ := h
      exact .matched rfl hmatch
    | false =>
      simp [classifyStep, hmatch] at h
      obtain ⟨rfl, rfl⟩ := h
      exact .unmatched rfl hmatch
  | admission =>
    cases hknown : c.isKnown domain with
    | true =>
      simp [classifyStep, hknown] at h
      obtain ⟨rfl, rfl⟩ := h
      exact .known rfl hknown
    | false =>
      by_cases hroom : (GoMap.len c.known : Int) < c.maxDomains
      · simp [classifyStep, hknown, hroom] at h
        obtain ⟨rfl, rfl⟩ := h
        exact .admitted rfl hknown hroom
      · simp [classifyStep, hknown, hroom] at h
        obtain ⟨rfl, rfl⟩ := h
        exact .full rfl hknown hroom
  | respond label =>
    cases h
    exact .returns label rfl
  | returned label => simp [classifyStep] at h

/-- What a call leaves of the classifier: the same patterns and cap, and every
known domain known. -/
theorem ClassifyEffect.keeps (h : ClassifyEffect c p c' p')
    (hgood : KnownMatch compile patterns maxDomains c) (hlocal : p.Matched compile patterns) :
    KnownMatch compile patterns maxDomains c' ∧ p'.Matched compile patterns := by
  cases h with
  | matched _ hmatch =>
    refine ⟨hgood, fun _ => ?_⟩
    rw [← matched_eq_accepted hgood.patterns_eq]
    exact hmatch
  | admitted hpc _ hroom =>
    refine ⟨⟨hgood.patterns_eq, hgood.max_eq, fun d hd => ?_⟩, fun h => nomatch h⟩
    rcases (c.isKnown_learn p.domain d hroom).mp hd with rfl | hold
    · exact hlocal hpc
    · exact hgood.known_accepted d hold
  | goOn | known | unmatched | full | returns => exact ⟨hgood, fun h => nomatch h⟩

theorem ClassifyEffect.grows (h : ClassifyEffect c p c' p') :
    c.admitted ⊆ c'.admitted ∧ c'.maxDomains = c.maxDomains := by
  cases h with
  | admitted _ _ hroom =>
    rw [c.admitted_learn]
    exact ⟨Finset.subset_insert p.domain c.admitted, rfl⟩
  | goOn | matched | known | unmatched | full | returns => exact ⟨Finset.Subset.refl _, rfl⟩

/-- The step that settles a label is where the call takes effect. -/
theorem ClassifyEffect.point (h : ClassifyEffect c p c' p')
    (hgood : KnownMatch compile patterns maxDomains c) (hlocal : p.Matched compile patterns) :
    (c'.admitted = c.admitted ∧ p'.decided = p.decided) ∨
    (p.decided = none ∧ ∃ label, p'.decided = some label ∧
      (classifySpec compile patterns maxDomains).apply c.admitted p.domain =
        (c'.admitted, label)) := by
  -- the specification asks for membership in the set and for its size
  have hmem := c.mem_admitted p.domain
  have hcard := c.card_admitted
  have hmax := hgood.max_eq
  cases h with
  | goOn hpc => exact Or.inl ⟨rfl, by simp [Classifying.decided, hpc]⟩
  | matched hpc => exact Or.inl ⟨rfl, by simp [Classifying.decided, hpc]⟩
  | returns label hpc => exact Or.inl ⟨rfl, by simp [Classifying.decided, hpc]⟩
  | known hpc hknown =>
    refine Or.inr ⟨hpc, p.domain, rfl, ?_⟩
    exact if_pos (hmem.mpr hknown)
  | unmatched hpc hmatch =>
    refine Or.inr ⟨hpc, unknownDomain, rfl, ?_⟩
    rw [matched_eq_accepted hgood.patterns_eq] at hmatch
    -- a known domain would match
    have hnot : p.domain ∉ c.admitted := fun hin => by
      simp [hgood.known_accepted p.domain (hmem.mp hin)] at hmatch
    simp [classifySpec, hnot, hmatch]
  | full hpc hknown hfull =>
    refine Or.inr ⟨hpc, unknownDomain, rfl, ?_⟩
    have hnot : p.domain ∉ c.admitted := by simp [hmem, hknown]
    rw [← hcard, hmax] at hfull
    simp [classifySpec, hnot, hfull]
  | admitted hpc hknown hroom =>
    refine Or.inr ⟨by simp [Classifying.decided, hpc], p.domain, rfl, ?_⟩
    have hnot : p.domain ∉ c.admitted := by simp [hmem, hknown]
    have hroom' := hroom
    rw [← hcard, hmax] at hroom'
    rw [c.admitted_learn]
    simp [classifySpec, hnot, hlocal hpc, hroom']

theorem ClassifyEffect.domain_eq (h : ClassifyEffect c p c' p') : p'.domain = p.domain := by
  cases h <;> rfl

end Points

theorem classify_points (compile : Str → Except GoError Regexp) (patterns : List Str)
    (maxDomains : Int) :
    LinearPoints classifyMachine (classifySpec compile patterns maxDomains)
      (KnownMatch compile patterns maxDomains) (Classifying.Matched compile patterns)
      DomainClassifier.admitted Classifying.domain Classifying.decided Classifying.result where
  keeps _ _ _ _ _ hgood hlocal h := (classifyStep_cases h).keeps hgood hlocal
  starts _ := ⟨(fun h => nomatch h), rfl, rfl⟩
  argument _ _ _ _ _ h := (classifyStep_cases h).domain_eq
  point _ _ _ _ _ hgood hlocal h := (classifyStep_cases h).point hgood hlocal
  result_decided p r h := by
    obtain ⟨pc, domain⟩ := p
    cases pc with
    | returned label => exact h
    | lookup | matching | admission | respond => simp [Classifying.result] at h

/-- A new classifier has admitted nothing. -/
theorem newDomainClassifier_knownMatch {compile : Str → Except GoError Regexp}
    {patterns : List Str} {maxDomains : Int} {c : DomainClassifier}
    (h : newDomainClassifier compile patterns maxDomains = .ok c) :
    KnownMatch compile patterns maxDomains c ∧ c.admitted = ∅ := by
  unfold newDomainClassifier at h
  split at h
  · simp at h
  · rename_i rs hrs
    cases h
    exact ⟨⟨hrs, rfl, fun d hd => nomatch hd⟩, rfl⟩

-- ---------------------------------------------------------------------------
-- Every interleaving
-- ---------------------------------------------------------------------------

/-- Along a run the set of admitted domains grows and the cap stays. -/
theorem history_grows {w w' : Pool DomainClassifier Classifying × List (Event Str Str)}
    (hrun : Steps.Run (history classifyMachine Classifying.result) free w w') :
    w.1.shared.admitted ⊆ w'.1.shared.admitted ∧
      w'.1.shared.maxDomains = w.1.shared.maxDomains := by
  refine Run.invariant (I := fun v => w.1.shared.admitted ⊆ v.1.shared.admitted ∧
    v.1.shared.maxDomains = w.1.shared.maxDomains) hrun ⟨Finset.Subset.refl _, rfl⟩ ?_
  rintro v m v' - ⟨hgrown, hmax⟩ - hn
  obtain ⟨hnext, -⟩ := observed_eq_some.mp hn
  rcases next_cases hnext with ⟨domain, -, hv⟩ | ⟨i, x, p, c', p', -, -, hs, hv⟩
  · rw [hv]
    exact ⟨hgrown, hmax⟩
  · rw [hv]
    obtain ⟨hmore, hsame⟩ := (classifyStep_cases hs).grows
    exact ⟨hgrown.trans hmore, hsame.trans hmax⟩

/-- **Classify is linearizable.** In every interleaving of calls on a new classifier
the labels are those of the calls in some sequential order, which respects the order
of calls that do not overlap; the classifier never admits more than `maxDomains`
domains (100 when that is not positive), and a domain that is admitted stays
admitted. -/
theorem classify_linearizable {compile : Str → Except GoError Regexp} {patterns : List Str}
    {maxDomains : Int} {c : DomainClassifier}
    (hnew : newDomainClassifier compile patterns maxDomains = .ok c)
    {w : Pool DomainClassifier Classifying × List (Event Str Str)}
    (hrun : Steps.Run (history classifyMachine Classifying.result) free (⟨c, []⟩, []) w) :
    (∃ order, Linearizes (classifySpec compile patterns maxDomains) w.2 order) ∧
    (w.1.shared.admitted.card : Int) ≤ (if maxDomains ≤ 0 then 100 else maxDomains) ∧
    (∀ w', Steps.Run (history classifyMachine Classifying.result) free w w' →
      w.1.shared.admitted ⊆ w'.1.shared.admitted) := by
  obtain ⟨hgood, hempty⟩ := newDomainClassifier_knownMatch hnew
  refine ⟨(classify_points compile patterns maxDomains).linearizes hgood hempty hrun, ?_,
    fun w' hrun' => (history_grows hrun').1⟩
  rw [DomainClassifier.card_admitted, ← hgood.max_eq]
  have hcap := w.1.shared.known_le
  rw [(history_grows hrun).2] at hcap
  exact hcap

/-- Three calls race for two slots: all have missed the look-up and matched when the
third takes the write lock first and the second takes it next. -/
def slotRace : List (Move Str Unit) :=
  [.spawn (ascii ['a']), .spawn (ascii ['b']), .spawn (ascii ['c']),
   .act 0 (), .act 1 (), .act 2 (), .act 0 (), .act 1 (), .act 2 (),
   .act 2 (), .act 1 (), .act 0 (), .act 0 (), .act 1 (), .act 2 ()]

/-- With a cap of two, two domains are admitted and the call that comes last to the
write lock gets the overflow label: the order that explains it is not the order of
the invocations. -/
theorem slotRace_linearizes :
    ∃ c w, newDomainClassifier (fun _ => .error "") [] 2 = .ok c ∧
      Steps.Run (history classifyMachine Classifying.result) free (⟨c, []⟩, []) w ∧
      w.2 = [.invoked 0 (ascii ['a']), .invoked 1 (ascii ['b']), .invoked 2 (ascii ['c']),
        .responded 0 unknownDomain, .responded 1 (ascii ['b']), .responded 2 (ascii ['c'])] ∧
      w.1.shared.admitted.card = 2 ∧
      (w.1.shared.admitted.card : Int) ≤ 2 ∧
      ∃ order, Linearizes (classifySpec (fun _ => .error "") [] 2) w.2 order := by
  have hnew : newDomainClassifier (fun _ => .error "") [] 2 = .ok (freshClassifier [] 2) := rfl
  have hrun := run_exec_free (history classifyMachine Classifying.result)
    (⟨freshClassifier [] 2, []⟩, []) slotRace (by decide)
  have hlinear := classify_linearizable hnew hrun
  exact ⟨_, _, hnew, hrun, rfl, by decide, hlinear.2.1, hlinear.1⟩

end Rlqs
