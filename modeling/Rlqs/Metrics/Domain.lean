import Rlqs.Quota.Engine

/-!
# RLQS metrics — the domain classifier

`metrics.DomainClassifier` turns the domains that streams bind into Prometheus
labels: a domain that matches a configured pattern is its own label, as long as
fewer than `maxDomains` domains have been admitted, and every other domain gets
the overflow label `__unknown__`.

The classifier carries what `NewDomainClassifier` and `Classify` keep true of
it: a positive cap, and a `known` map within that cap. `regexp.Compile` is a
parameter, a function from patterns to compiled patterns.

* `newDomainClassifier_ok` — construction fails only on a pattern that does not
  compile;
* `classify_cases` — what one call answers and does to `known`.
-/

namespace Rlqs

/-- `metrics.UnknownDomain`. -/
def unknownDomain : Str := ascii ['_', '_', 'u', 'n', 'k', 'n', 'o', 'w', 'n', '_', '_']

/-- `metrics.DomainClassifier`, without its lock: the slow path of `Classify`
checks `known` again under it. -/
structure DomainClassifier where
  patterns : List Regexp
  known : GoMap Str Bool
  maxDomains : Int
  max_pos : 0 < maxDomains
  known_le : (GoMap.len known : Int) ≤ maxDomains
  known_true : ∀ domain b, known.lookup domain = some b → b = true

-- ---------------------------------------------------------------------------
-- NewDomainClassifier
-- ---------------------------------------------------------------------------

/-- The loop of `NewDomainClassifier` over the patterns. -/
def compileDomainPatterns (compile : Str → Except GoError Regexp) :
    List Str → Except Errorf (List Regexp)
  | [] => .ok []
  | p :: ps =>
    if p = [] then compileDomainPatterns compile ps
    else
      match compile p with
      | .error e => .error (.new "invalid domain pattern %q: %w" [.str p, .err e])
      | .ok r =>
        match compileDomainPatterns compile ps with
        | .error e => .error e
        | .ok rs => .ok (r :: rs)

/-- The cap `NewDomainClassifier` takes: a cap that is not positive is replaced. -/
def effectiveMaxDomains (maxDomains : Int) : Int := if maxDomains ≤ 0 then 100 else maxDomains

theorem effectiveMaxDomains_pos (n : Int) : 0 < effectiveMaxDomains n := by
  unfold effectiveMaxDomains
  split
  · decide
  · omega

/-- A classifier that has admitted nothing. -/
def freshClassifier (patterns : List Regexp) (maxDomains : Int) : DomainClassifier where
  patterns := patterns
  known := ∅
  maxDomains := effectiveMaxDomains maxDomains
  max_pos := effectiveMaxDomains_pos maxDomains
  known_le := le_of_lt (effectiveMaxDomains_pos maxDomains)
  known_true _ _ h := nomatch h

/-- `NewDomainClassifier`. -/
def newDomainClassifier (compile : Str → Except GoError Regexp) (patterns : List Str)
    (maxDomains : Int) : Except Errorf DomainClassifier :=
  match compileDomainPatterns compile patterns with
  | .error e => .error e
  | .ok compiled => .ok (freshClassifier compiled maxDomains)

/-- Patterns that compile, one by one, compile together. -/
theorem compileDomainPatterns_ok {compile : Str → Except GoError Regexp} {ps : List Str}
    (h : ∀ p ∈ ps, p ≠ [] → ∃ r, compile p = .ok r) :
    ∃ rs, compileDomainPatterns compile ps = .ok rs := by
  induction ps with
  | nil => exact ⟨[], rfl⟩
  | cons p ps ih =>
    obtain ⟨rs, hrs⟩ := ih fun q hq => h q (List.mem_cons_of_mem p hq)
    rw [compileDomainPatterns]
    by_cases hp : p = []
    · rw [if_pos hp]
      exact ⟨rs, hrs⟩
    · obtain ⟨r, hr⟩ := h p List.mem_cons_self hp
      rw [if_neg hp, hr, hrs]
      exact ⟨r :: rs, rfl⟩

theorem newDomainClassifier_ok {compile : Str → Except GoError Regexp} {ps : List Str}
    (h : ∀ p ∈ ps, p ≠ [] → ∃ r, compile p = .ok r) (maxDomains : Int) :
    ∃ c, newDomainClassifier compile ps maxDomains = .ok c := by
  obtain ⟨rs, hrs⟩ := compileDomainPatterns_ok h
  rw [newDomainClassifier, hrs]
  exact ⟨_, rfl⟩

/-- The cap of a new classifier comes from `maxDomains` alone, its patterns from
the pattern strings alone. -/
theorem newDomainClassifier_eq {compile : Str → Except GoError Regexp} {ps : List Str}
    {maxDomains : Int} {c : DomainClassifier}
    (h : newDomainClassifier compile ps maxDomains = .ok c) :
    compileDomainPatterns compile ps = .ok c.patterns ∧
      c.maxDomains = effectiveMaxDomains maxDomains := by
  unfold newDomainClassifier at h
  split at h
  · simp at h
  · rename_i rs hrs
    cases h
    exact ⟨hrs, rfl⟩

-- ---------------------------------------------------------------------------
-- Classify
-- ---------------------------------------------------------------------------

namespace DomainClassifier

/-- `c.known[domain]`. -/
def isKnown (c : DomainClassifier) (domain : Str) : Bool := (c.known.lookup domain).getD false

/-- The domain matches a pattern, or there are none. -/
def matched (c : DomainClassifier) (domain : Str) : Bool :=
  c.patterns.isEmpty || c.patterns.any fun p => p.matchString domain

/-- The write under the lock, with room below the cap. -/
def learn (c : DomainClassifier) (domain : Str) (hroom : (GoMap.len c.known : Int) < c.maxDomains) :
    DomainClassifier where
  patterns := c.patterns
  known := c.known.insert domain true
  maxDomains := c.maxDomains
  max_pos := c.max_pos
  known_le := by
    have hlen := GoMap.len_insert_le c.known domain true
    omega
  known_true d b h := by
    rw [show (c.known.insert domain true).lookup d = _ from GoMap.lookup_insert_if _ _ _ _] at h
    split at h
    · exact (Option.some.inj h).symm
    · exact c.known_true d b h

/-- `Classify`: the classifier after the call, and the label. -/
def classify (c : DomainClassifier) (domain : Str) : DomainClassifier × Str :=
  if c.isKnown domain then (c, domain)
  else if !c.matched domain then (c, unknownDomain)
  else if hroom : (GoMap.len c.known : Int) < c.maxDomains then (c.learn domain hroom, domain)
  else (c, unknownDomain)

/-- A known domain is a key of `known`: the map stores nothing but `true`. -/
theorem isKnown_iff (c : DomainClassifier) (domain : Str) :
    c.isKnown domain = true ↔ domain ∈ c.known := by
  rw [GoMap.mem_iff_lookup, isKnown]
  cases h : c.known.lookup domain with
  | none => simp
  | some b => simp [c.known_true domain b h]

/-- Everything a call can do: answer a known domain, answer the overflow label,
or admit a domain that matches, with room below the cap. -/
theorem classify_cases (c : DomainClassifier) (domain : Str) :
    (domain ∈ c.known ∧ c.classify domain = (c, domain)) ∨
    (domain ∉ c.known ∧ c.classify domain = (c, unknownDomain)) ∨
    (∃ hroom : (GoMap.len c.known : Int) < c.maxDomains, domain ∉ c.known ∧
      c.matched domain = true ∧ c.classify domain = (c.learn domain hroom, domain)) := by
  unfold classify
  by_cases hknown : c.isKnown domain = true
  · rw [if_pos hknown]
    exact Or.inl ⟨(c.isKnown_iff domain).mp hknown, rfl⟩
  · rw [if_neg hknown]
    rw [c.isKnown_iff] at hknown
    by_cases hmatch : c.matched domain = true
    · rw [if_neg (by simp [hmatch])]
      by_cases hroom : (GoMap.len c.known : Int) < c.maxDomains
      · rw [dif_pos hroom]
        exact Or.inr (Or.inr ⟨hroom, hknown, hmatch, rfl⟩)
      · rw [dif_neg hroom]
        exact Or.inr (Or.inl ⟨hknown, rfl⟩)
    · rw [if_pos (by simp [hmatch])]
      exact Or.inr (Or.inl ⟨hknown, rfl⟩)

/-- A call changes neither the patterns nor the cap. -/
theorem classify_keeps (c : DomainClassifier) (domain : Str) :
    (c.classify domain).1.patterns = c.patterns ∧
      (c.classify domain).1.maxDomains = c.maxDomains := by
  rcases c.classify_cases domain with ⟨-, h⟩ | ⟨-, h⟩ | ⟨hroom, -, -, h⟩
  all_goals
    rw [h]
    exact ⟨rfl, rfl⟩

end DomainClassifier

end Rlqs
