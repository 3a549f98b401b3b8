import Rlqs.Quota.Engine

/-!
# RLQS policies — what one more policy changes

Operators edit the policy list. Inserting a policy `p` at position `i` shifts the
rest of the list, and the first-match search of `policy.Engine.ProcessUsage` runs
over the shifted list for every report of a batch. All the same the edit is
local: it only changes the assignments of reports that `p` decides, those which
match `p` and none of the `i` policies before it.

* `find_insertIdx` — a first-match search in a list with one more element;
* `insert_policy_local` — the batch before and after the edit, report by report.
-/

namespace Rlqs

/-- A first-match search finds the inserted element, or what it found before. -/
theorem find_insertIdx {α : Type} (f : α → Bool) (a : α) {l : List α} {i : ℕ}
    (hi : i ≤ l.length) :
    (l.insertIdx i a).find? f =
      if f a = true ∧ ∀ b ∈ l.take i, f b = false then some a else l.find? f := by
  induction l generalizing i with
  | nil =>
    obtain rfl : i = 0 := Nat.le_zero.mp hi
    by_cases ha : f a = true <;> simp [ha]
  | cons b l ih =>
    cases i with
    | zero => by_cases ha : f a = true <;> simp [ha]
    | succ i =>
      have hrest := ih (Nat.le_of_succ_le_succ hi)
      cases hb : f b with
      | true => simp [hb]
      | false => simp [hb, hrest]

/-- The policy decides the report: it matches, and none of the policies before it
does. -/
def Policy.Decides (p : Policy) (before : List Policy) (domain : Str) (r : UsageReport) : Prop :=
  p.matches domain (bucketKeyFromProto r.bucketId) = true ∧
    ∀ q ∈ before, q.matches domain (bucketKeyFromProto r.bucketId) = false

/-- The policy of a report after the edit. -/
theorem matchedPolicy_insertIdx {ps : List Policy} (p d : Policy) {i : ℕ} (hi : i ≤ ps.length)
    (domain : Str) (r : UsageReport) :
    (p.Decides (ps.take i) domain r →
      (⟨ps.insertIdx i p, d⟩ : PolicyEngineConfig).matchedPolicy domain
        (bucketKeyFromProto r.bucketId) = p) ∧
    (¬ p.Decides (ps.take i) domain r →
      (⟨ps.insertIdx i p, d⟩ : PolicyEngineConfig).matchedPolicy domain
        (bucketKeyFromProto r.bucketId) =
      (⟨ps, d⟩ : PolicyEngineConfig).matchedPolicy domain (bucketKeyFromProto r.bucketId)) := by
  unfold PolicyEngineConfig.matchedPolicy Policy.Decides
  dsimp only
  rw [find_insertIdx _ p hi]
  constructor
  · intro hdecides
    rw [if_pos hdecides]
    rfl
  · intro hnot
    rw [if_neg hnot]

/-- **Inserting a policy is local.** For every policy list, position, policy and
batch: both engines answer the same reports, the new assignment of a report that
`p` decides is `p`'s, and the assignment of every other report is the old one. -/
theorem insert_policy_local (ps : List Policy) (p d : Policy) {i : ℕ} (hi : i ≤ ps.length)
    (domain : Str) (reports : List UsageReport) :
    ∃ old new,
      (⟨ps, d⟩ : PolicyEngineConfig).processUsage domain reports = .ok old ∧
      (⟨ps.insertIdx i p, d⟩ : PolicyEngineConfig).processUsage domain reports = .ok new ∧
      old.length = (reports.filter UsageReport.nonEmpty).length ∧
      new.length = (reports.filter UsageReport.nonEmpty).length ∧
      ∀ (j : ℕ) r, (reports.filter UsageReport.nonEmpty)[j]? = some r →
        (p.Decides (ps.take i) domain r →
          new[j]? = some (assignmentAction r p.strategy p.assignmentTTL)) ∧
        (¬ p.Decides (ps.take i) domain r → new[j]? = old[j]?) := by
  refine ⟨_, _, rfl, rfl, List.length_map _, List.length_map _, fun j r hr => ?_⟩
  obtain ⟨hdecided, hkept⟩ := matchedPolicy_insertIdx p d hi domain r
  rw [List.getElem?_map, List.getElem?_map, hr]
  constructor
  · intro h
    rw [Option.map_some, hdecided h]
  · intro h
    rw [Option.map_some, Option.map_some, hkept h]

/-- A policy for every bucket of every domain. -/
def catchAll (strategy : RateLimitStrategy) : Policy := ⟨some strategy, none, none, none⟩

/-- A policy that denies one domain. -/
def denyDomain (domain : Str) : Policy :=
  ⟨some (.blanketRule .denyAll), none, some ⟨fun d => d = domain⟩, none⟩

/-- A rule that allows everything goes between one that denies a domain and one that
denies everything: the other domains are allowed, and that one is answered as before. -/
theorem insert_policy_after_first :
    ∃ old new old' new',
      (⟨[denyDomain [101], catchAll (.blanketRule .denyAll)], catchAll (.blanketRule .denyAll)⟩ :
        PolicyEngineConfig).processUsage [100] [⟨some sampleId, 5, 1, 0⟩] = .ok old ∧
      (⟨[denyDomain [101], catchAll (.blanketRule .allowAll), catchAll (.blanketRule .denyAll)],
        catchAll (.blanketRule .denyAll)⟩ : PolicyEngineConfig).processUsage [100]
          [⟨some sampleId, 5, 1, 0⟩] = .ok new ∧
      new[0]? = some ⟨some sampleId, .quotaAssignment ⟨none, some (.blanketRule .allowAll)⟩⟩ ∧
      (⟨[denyDomain [101], catchAll (.blanketRule .denyAll)], catchAll (.blanketRule .denyAll)⟩ :
        PolicyEngineConfig).processUsage [101] [⟨some sampleId, 5, 1, 0⟩] = .ok old' ∧
      (⟨[denyDomain [101], catchAll (.blanketRule .allowAll), catchAll (.blanketRule .denyAll)],
        catchAll (.blanketRule .denyAll)⟩ : PolicyEngineConfig).processUsage [101]
          [⟨some sampleId, 5, 1, 0⟩] = .ok new' ∧
      new'.length = 1 ∧ new'[0]? = old'[0]? := by
  -- the new policy stands second
  have hlocal := fun domain => insert_policy_local (i := 1)
    [denyDomain [101], catchAll (.blanketRule .denyAll)] (catchAll (.blanketRule .allowAll))
    (catchAll (.blanketRule .denyAll)) (by decide) domain [⟨some sampleId, 5, 1, 0⟩]
  obtain ⟨old, new, hold, hnew, -, -, hall⟩ := hlocal [100]
  obtain ⟨old', new', hold', hnew', -, hlen', hall'⟩ := hlocal [101]
  refine ⟨old, new, old', new', hold, hnew, (hall 0 ⟨some sampleId, 5, 1, 0⟩ rfl).1 ?_,
    hold', hnew', hlen', (hall' 0 ⟨some sampleId, 5, 1, 0⟩ rfl).2 ?_⟩
  · refine ⟨by decide, fun q hq => ?_⟩
    rw [List.mem_singleton.mp hq]
    decide
  · -- the first policy matches the domain
    rintro ⟨-, hnone⟩
    exact absurd (hnone (denyDomain [101]) (List.mem_singleton_self _)) (by decide)

end Rlqs
