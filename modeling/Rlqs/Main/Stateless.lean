import Rlqs.Main.Reload
import Rlqs.Server.Definitions
import Rlqs.Storage.Keys

/-!
# RLQS main — quota decisions do not depend on the server's state

`docs/ha.md` argues that instances need no consensus because every instance
with the same configuration decides the same. Here this is a statement about
two runs of `handleMessage`: two servers with stores of any two types, in any
two states, with any limits, and two messages that name the same buckets under
the same domain.

A `BucketId` is a protobuf message with a map in it, and two messages carry the
same one when the maps have the same entries (`SameBucket`). Responses are
compared in the same way (`SameResponse`).

* `bucketKeyFromProto_same` — the key does not depend on the map's order;
* `EngineValue.processUsage_same` — a built engine reads nothing but the domain
  and the `BucketId`s;
* `handleMessage_offered` — a call that gets past validation offers the engine's
  answer to the non-empty reports, whatever the server held before;
* `same_config_same_response` — the two calls send the same response, or none.
-/

namespace Rlqs

-- ---------------------------------------------------------------------------
-- The same protobuf message
-- ---------------------------------------------------------------------------

/-- The same `BucketId` field: absent in both, or with the same entries. -/
def SameId : Option BucketId → Option BucketId → Prop
  | none, none => True
  | some id, some id' => SameBucket id id'
  | _, _ => False

/-- The same `BucketAction`. -/
def SameAction (a a' : BucketAction) : Prop :=
  SameId a.bucketId a'.bucketId ∧ a.bucketAction = a'.bucketAction

/-- The same response, or none in both. -/
def SameResponse : Option (List BucketAction) → Option (List BucketAction) → Prop
  | none, none => True
  | some as, some as' => List.Forall₂ SameAction as as'
  | _, _ => False

/-- Reports on the same bucket; the counts and the elapsed time may differ. -/
def SameReport (r r' : UsageReport) : Prop := SameId r.bucketId r'.bucketId

theorem bucketKeyFromProto_same {id id' : Option BucketId} (h : SameId id id') :
    bucketKeyFromProto id = bucketKeyFromProto id' := by
  cases id with
  | none =>
    cases id' with
    | none => rfl
    | some id' => simp [SameId] at h
  | some id =>
    cases id' with
    | none => simp [SameId] at h
    | some id' => exact SameBucket.key h

theorem UsageReport.nonEmpty_same {r r' : UsageReport} (h : SameReport r r') :
    r.nonEmpty = r'.nonEmpty := by
  unfold SameReport at h
  unfold UsageReport.nonEmpty
  cases hid : r.bucketId with
  | none =>
    cases hid' : r'.bucketId with
    | none => rfl
    | some id' => simp [hid, hid', SameId] at h
  | some id =>
    cases hid' : r'.bucketId with
    | none => simp [hid, hid', SameId] at h
    | some id' =>
      rw [hid, hid'] at h
      simp only [SameBucket.len h]

theorem filter_nonEmpty_same {rs rs' : List UsageReport} (h : List.Forall₂ SameReport rs rs') :
    List.Forall₂ SameReport (rs.filter UsageReport.nonEmpty) (rs'.filter UsageReport.nonEmpty) := by
  refine List.rel_filter ?_ h
  intro r r' hr
  show (r.nonEmpty = true) ↔ (r'.nonEmpty = true)
  rw [UsageReport.nonEmpty_same hr]

-- ---------------------------------------------------------------------------
-- The engines
-- ---------------------------------------------------------------------------

/-- The strategy and the TTL that a built engine gives a key of a domain. -/
def EngineValue.decision : EngineValue → Str → BucketKey → Option RateLimitStrategy × Option Nanos
  | .default cfg, _, _ => (cfg.defaultStrategy, cfg.assignmentTTL)
  | .policy cfg, domain, key =>
    ((cfg.matchedPolicy domain key).strategy, (cfg.matchedPolicy domain key).assignmentTTL)

/-- Both engines map one decision over the non-empty reports. -/
theorem EngineValue.processUsage_eq (e : EngineValue) (domain : Str) (rs : List UsageReport) :
    e.processUsage domain rs = .ok ((rs.filter UsageReport.nonEmpty).map fun r =>
      assignmentAction r (e.decision domain (bucketKeyFromProto r.bucketId)).1
        (e.decision domain (bucketKeyFromProto r.bucketId)).2) := by
  cases e with
  | default cfg => rfl
  | policy cfg => rfl

/-- Counts and elapsed times have no influence on what a built engine answers. -/
theorem EngineValue.processUsage_same (e : EngineValue) (domain : Str)
    {rs rs' : List UsageReport} (h : List.Forall₂ SameReport rs rs') :
    ∃ as as', e.processUsage domain rs = .ok as ∧ e.processUsage domain rs' = .ok as' ∧
      List.Forall₂ SameAction as as' := by
  refine ⟨_, _, e.processUsage_eq domain rs, e.processUsage_eq domain rs', ?_⟩
  rw [List.forall₂_map_left_iff, List.forall₂_map_right_iff]
  apply (filter_nonEmpty_same h).imp
  intro r r' hr
  refine ⟨hr, ?_⟩
  simp only [assignmentAction, bucketKeyFromProto_same hr]

-- ---------------------------------------------------------------------------
-- What a call offers to the stream
-- ---------------------------------------------------------------------------

/-- The call was not stopped by a check on the message. -/
def Handled.PastValidation {σ : Type} (h : Handled σ) : Prop :=
  ∀ s, h.err = some (.status s) → s.code = .internal

theorem Handled.pastValidation_of_ok {σ : Type} {h : Handled σ} (hok : h.err = none) :
    h.PastValidation := by
  intro s hs
  simp [hok] at hs

theorem Handled.pastValidation_of_send {σ : Type} {h : Handled σ} {e : GoError}
    (hsend : h.err = some (.send e)) : h.PastValidation := by
  intro s hs
  simp [hsend] at hs

section Message

variable {σ : Type} [BucketStore σ] {cfg : Limits} {label : Str} {engine : Engine}
  {sendErr : Option GoError} {srv : Server σ} {ss : StreamState} {req : UsageReports}

/-- The domain a stream is bound to once it has taken the message. -/
def boundTo (ss : StreamState) (req : UsageReports) : Str :=
  if ss.domainBound then ss.domain else req.domain

/-- The reports of a message that name a bucket, as the engine gets them. -/
def namedReports (req : UsageReports) : List UsageReport :=
  (req.bucketQuotaUsages.map BucketQuotaUsage.toReport).filter UsageReport.nonEmpty

/-- The response of actions: an empty list is not sent. -/
def responseOf : List BucketAction → Option (List BucketAction)
  | [] => none
  | a :: as => some (a :: as)

/-- What the call hands to `stream.Send`, whatever `Send` then answers. -/
def offered (cfg : Limits) (label : Str) (engine : Engine) (srv : Server σ) (ss : StreamState)
    (req : UsageReports) : Option (List BucketAction) :=
  (handleMessage cfg label engine none srv ss req).response

theorem bindDomain_boundTo {ss' : StreamState} (h : bindDomain label ss req = .ok ss') :
    ss'.domain = boundTo ss req := by
  obtain ⟨-, -, hbound, hfresh⟩ := bindDomain_ok h
  unfold boundTo
  cases hb : ss.domainBound with
  | true => rw [hbound hb]; rfl
  | false => exact (hfresh hb).1

/-- Validation errors do not have the code of an engine error. -/
theorem bindDomain_code {e : Status} (h : bindDomain label ss req = .error e) :
    e.code ≠ .internal := by
  unfold bindDomain at h
  simp only at h
  split at h
  · cases h
    simp
  · by_cases hbad : (req.domain != [] && req.domain != (if ss.domainBound then ss else
      { ss with domain := req.domain, metricDomain := label, domainBound := true }).domain) = true
    · rw [if_pos hbad] at h
      cases h
      simp
    · rw [if_neg hbad] at h
      simp at h

theorem checkReportCount_code {e : Status} (h : checkReportCount cfg req = some e) :
    e.code ≠ .internal := by
  unfold checkReportCount at h
  split at h
  · cases h
    simp
  · simp at h

theorem checkPairs_code {es : List (Σ _ : Str, Str)} {e : Status}
    (h : checkPairs cfg es = some e) : e.code ≠ .internal := by
  induction es with
  | nil => simp [checkPairs] at h
  | cons p es ih =>
    unfold checkPairs at h
    split at h
    · cases h
      simp
    · split at h
      · cases h
        simp
      · split at h
        · cases h
          simp
        · exact ih h

theorem checkUsage_cases (cfg : Limits) (u : BucketQuotaUsage) :
    (checkUsage cfg u = .skip ∧ u.toReport.nonEmpty = false) ∨
    (∃ e, checkUsage cfg u = .reject e ∧ e.code ≠ .internal) ∨
    (∃ id, checkUsage cfg u = .accept id ∧ u.toReport.nonEmpty = true) := by
  unfold checkUsage UsageReport.nonEmpty BucketQuotaUsage.toReport
  cases hid : u.bucketId with
  | none => exact Or.inl ⟨rfl, rfl⟩
  | some id =>
    by_cases hlen : GoMap.len id.bucket = 0
    · left
      simp [hlen]
    · right
      simp only [hlen, if_false]
      cases hcheck : checkBucket cfg id with
      | none => exact Or.inr ⟨id, rfl, by simp [hlen]⟩
      | some e =>
        refine Or.inl ⟨e, rfl, ?_⟩
        unfold checkBucket at hcheck
        split at hcheck
        · cases hcheck
          simp
        · exact checkPairs_code hcheck

theorem trackSubscription_code {key : BucketKey} {id : BucketId} {e : Status}
    (h : trackSubscription cfg ss key id = .error e) : e.code ≠ .internal := by
  unfold trackSubscription at h
  split at h
  · simp at h
  · split at h
    · cases h
      simp
    · simp at h

/-- The loop over the usages ends with the named reports of the message or with
a validation error; the stream keeps its domain. -/
theorem trackUsages_result (cfg : Limits) (us : List BucketQuotaUsage) :
    ∀ (srv : Server σ) (ss : StreamState) (acc : List UsageReport),
      (∃ e, (trackUsages cfg srv ss us acc).2.2 = .error e ∧ e.code ≠ .internal) ∨
      ((trackUsages cfg srv ss us acc).2.1.domain = ss.domain ∧
        (trackUsages cfg srv ss us acc).2.2 = .ok (acc ++
          (us.map BucketQuotaUsage.toReport).filter UsageReport.nonEmpty)) := by
  induction us with
  | nil =>
    intro srv ss acc
    exact Or.inr ⟨rfl, by simp [trackUsages]⟩
  | cons u us ih =>
    intro srv ss acc
    rw [trackUsages]
    rcases checkUsage_cases cfg u with ⟨hskip, hnamed⟩ | ⟨e, hreject, he⟩ | ⟨id, haccept, hnamed⟩
    · -- a report without a bucket leaves no trace
      rw [hskip, List.map_cons, List.filter_cons_of_neg (by simp [hnamed])]
      exact ih srv ss acc
    · rw [hreject]
      exact Or.inl ⟨e, rfl, he⟩
    · rw [haccept, List.map_cons, List.filter_cons_of_pos hnamed]
      dsimp only
      cases htrack : trackSubscription cfg ss (bucketKeyFromProto (some id)) id with
      | error e => exact Or.inl ⟨e, rfl, trackSubscription_code htrack⟩
      | ok tracked =>
        obtain ⟨ss', existed⟩ := tracked
        have hdomain : ss'.domain = ss.domain := by
          rcases trackSubscription_cases cfg ss (bucketKeyFromProto (some id)) id with
            ⟨-, h⟩ | ⟨e, h⟩ | ⟨-, h⟩
          · rw [h] at htrack
            cases htrack
            rfl
          · simp [h] at htrack
          · rw [h] at htrack
            cases htrack
            rfl
        have hrest := ih ((if existed then srv else
          srv.subscribe (domainScopedKey ss'.domain (bucketKeyFromProto (some id)))).record
            ss'.domain u.toReport) ss' (acc ++ [u.toReport])
        rw [List.append_assoc, hdomain] at hrest
        dsimp only
        rw [hdomain]
        exact hrest

/-- The second half of the call, with an engine that answers. -/
theorem answer_offers {reports : List UsageReport} {as : List BucketAction}
    (hengine : engine ss.domain reports = .ok as) :
    (answer engine none srv ss reports).response = responseOf as ∧
    (answer engine sendErr srv ss reports).response =
      if sendErr = none then responseOf as else none := by
  unfold answer
  rw [hengine]
  cases as with
  | nil =>
    cases sendErr with
    | none => exact ⟨rfl, rfl⟩
    | some e => exact ⟨rfl, rfl⟩
  | cons a as =>
    cases sendErr with
    | none => exact ⟨rfl, rfl⟩
    | some e => exact ⟨rfl, rfl⟩

/-- A call that gets past validation offers what the engine answers to the named
reports under the stream's domain. Neither the server nor the rest of the
stream's state enters into it. -/
theorem handleMessage_offered {as : List BucketAction}
    (hpast : (handleMessage cfg label engine sendErr srv ss req).PastValidation)
    (hnone : engine (boundTo ss req) [] = .ok [])
    (hengine : engine (boundTo ss req) (namedReports req) = .ok as) :
    offered cfg label engine srv ss req = responseOf as ∧
    (handleMessage cfg label engine sendErr srv ss req).response =
      if sendErr = none then responseOf as else none := by
  unfold offered
  unfold handleMessage Handled.PastValidation at hpast
  unfold handleMessage
  cases hbind : bindDomain label ss req with
  | error e =>
    rw [hbind] at hpast
    exact absurd (hpast e rfl) (bindDomain_code hbind)
  | ok ss₁ =>
    rw [hbind] at hpast
    dsimp only at hpast ⊢
    have hdomain := bindDomain_boundTo hbind
    by_cases husages : req.bucketQuotaUsages = []
    · -- nothing to report: the engine, had it been asked, would have no action
      have has : as = [] := by
        unfold namedReports at hengine
        rw [husages, List.map_nil, List.filter_nil, hnone] at hengine
        cases hengine
        rfl
      subst has
      simp only [if_pos husages, responseOf, ite_self, and_self]
    · simp only [if_neg husages] at hpast ⊢
      cases hcount : checkReportCount cfg req with
      | some e =>
        rw [hcount] at hpast
        exact absurd (hpast e rfl) (checkReportCount_code hcount)
      | none =>
        rw [hcount] at hpast
        dsimp only at hpast ⊢
        have hresult := trackUsages_result cfg req.bucketQuotaUsages srv ss₁ []
        cases htrack : trackUsages cfg srv ss₁ req.bucketQuotaUsages [] with
        | mk srv₂ rest =>
          obtain ⟨ss₂, res⟩ := rest
          rw [htrack] at hresult hpast
          rcases hresult with ⟨e, he, hcode⟩ | ⟨hkept, hreports⟩
          · dsimp only at he
            subst he
            exact absurd (hpast e rfl) hcode
          · dsimp only at hkept hreports
            subst hreports
            apply answer_offers
            rw [hkept, hdomain]
            exact hengine

end Message

-- ---------------------------------------------------------------------------
-- Two servers
-- ---------------------------------------------------------------------------

theorem SameResponse.of_actions {as as' : List BucketAction} (h : List.Forall₂ SameAction as as') :
    SameResponse (responseOf as) (responseOf as') := by
  cases h with
  | nil => trivial
  | cons ha has => exact List.Forall₂.cons ha has

/-- The same `BucketId`s in the same order. -/
def SameBuckets (req req' : UsageReports) : Prop :=
  List.Forall₂ (fun u u' => SameId u.bucketId u'.bucketId)
    req.bucketQuotaUsages req'.bucketQuotaUsages

theorem SameBuckets.namedReports {req req' : UsageReports} (h : SameBuckets req req') :
    List.Forall₂ SameReport (namedReports req) (namedReports req') := by
  apply filter_nonEmpty_same
  rw [List.forall₂_map_left_iff, List.forall₂_map_right_iff]
  exact h

/-- Two servers with engines built from the same configuration, in any two
states and with stores of any two types, and two messages for the same domain
that name the same buckets. If both calls get past validation, they hand the
same response to `stream.Send`, or both none, and that is what is sent unless
`Send` fails. -/
theorem same_config_same_response {σ₁ σ₂ : Type} [BucketStore σ₁] [BucketStore σ₂]
    {compile : Str → Except GoError Regexp} {config : Config} {e₁ e₂ : EngineValue}
    (hbuilt₁ : buildEngine compile config = .ok e₁) (hbuilt₂ : buildEngine compile config = .ok e₂)
    {cfg₁ cfg₂ : Limits} {label₁ label₂ : Str} {sendErr₁ sendErr₂ : Option GoError}
    {srv₁ : Server σ₁} {srv₂ : Server σ₂} {ss₁ ss₂ : StreamState} {req₁ req₂ : UsageReports}
    (hdomain : boundTo ss₁ req₁ = boundTo ss₂ req₂) (hbuckets : SameBuckets req₁ req₂)
    (hpast₁ :
      (handleMessage cfg₁ label₁ e₁.processUsage sendErr₁ srv₁ ss₁ req₁).PastValidation)
    (hpast₂ :
      (handleMessage cfg₂ label₂ e₂.processUsage sendErr₂ srv₂ ss₂ req₂).PastValidation) :
    SameResponse (offered cfg₁ label₁ e₁.processUsage srv₁ ss₁ req₁)
        (offered cfg₂ label₂ e₂.processUsage srv₂ ss₂ req₂) ∧
      (handleMessage cfg₁ label₁ e₁.processUsage sendErr₁ srv₁ ss₁ req₁).response =
        (if sendErr₁ = none then offered cfg₁ label₁ e₁.processUsage srv₁ ss₁ req₁ else none) ∧
      (handleMessage cfg₂ label₂ e₂.processUsage sendErr₂ srv₂ ss₂ req₂).response =
        (if sendErr₂ = none then offered cfg₂ label₂ e₂.processUsage srv₂ ss₂ req₂ else none) := by
  rw [hbuilt₁] at hbuilt₂
  cases hbuilt₂
  obtain ⟨as₁, as₂, hengine₁, hengine₂, hsame⟩ :=
    e₁.processUsage_same (boundTo ss₁ req₁) hbuckets.namedReports
  have hnone : ∀ d, e₁.processUsage d [] = .ok [] := fun d => e₁.processUsage_eq d []
  obtain ⟨hoffer₁, hsent₁⟩ := handleMessage_offered hpast₁ (hnone _) hengine₁
  obtain ⟨hoffer₂, hsent₂⟩ := handleMessage_offered hpast₂ (hnone _) (hdomain ▸ hengine₂)
  rw [hoffer₁, hoffer₂]
  exact ⟨SameResponse.of_actions hsame, hsent₁, hsent₂⟩

/-- A stream in domain `"d"` that already has the sample bucket. -/
def subscribedStream : StreamState :=
  ⟨[100], [100], true, (∅ : GoMap BucketKey BucketId).insert (bucketKeyFromProto (some sampleId))
    sampleId⟩

/-- The sample bucket again, without a domain and with other counts. -/
def laterReq : UsageReports := ⟨[], [⟨some sampleId, some 7, 900, 0⟩]⟩

/-- A first message on a fresh server and a later one on a server that counts
two references on the bucket and cannot send. -/
theorem same_response_other_history :
    let e : EngineValue := .default
      ⟨some (tokenBucket defaultConfig.engine.defaultTokensPerFill
        defaultConfig.engine.reportingInterval),
        some (defaultConfig.engine.reportingInterval.times 2)⟩
    let fresh : Server MemoryStorage := ⟨∅, MemoryStorage.newMemoryStorage⟩
    let used : Server MemoryStorage :=
      ⟨(∅ : BucketRefs).insert sampleKey 2, MemoryStorage.newMemoryStorage⟩
    SameResponse (offered noLimits [] e.processUsage fresh newStream sampleReq)
        (offered ⟨1, 1, 1, 1, 1⟩ [] e.processUsage used subscribedStream laterReq) ∧
      (handleMessage noLimits [] e.processUsage none fresh newStream sampleReq).response =
        offered noLimits [] e.processUsage fresh newStream sampleReq ∧
      (handleMessage ⟨1, 1, 1, 1, 1⟩ [] e.processUsage (some "closed") used subscribedStream
        laterReq).response = none :=
  have hsame : SameBuckets sampleReq laterReq := List.Forall₂.cons (fun _ => rfl) List.Forall₂.nil
  have hdomain : boundTo newStream sampleReq = boundTo subscribedStream laterReq := by decide
  @same_config_same_response MemoryStorage MemoryStorage _ _ compileAny defaultConfig _ _ rfl rfl
    noLimits ⟨1, 1, 1, 1, 1⟩ [] [] none (some "closed") _ _ newStream subscribedStream sampleReq
    laterReq hdomain hsame (Handled.pastValidation_of_ok rfl) (Handled.pastValidation_of_send rfl)

end Rlqs
