import Rlqs.Server.Swap

/-!
# RLQS server — do the streams end up with the installed engine?

After a swap the push goroutine brings every stream the assignments of the new
engine, and a bucket subscribed after the push has listed the stream's
subscriptions is answered by a handler that loads the engine later. So for
every bucket a serving stream is subscribed to, the last response was the
installed engine's or one of it is still to come (`UpToDate`), unless a
response of a replaced engine is sent after the last one of the installed
engine: a handler that has loaded the old engine, or the push of an earlier
swap, can be that late (`stale_assignment_last`).

* `Converging` — the invariant of runs in which stale responses come first;
* `swap_converges` — when nothing is in flight, the last response for every
  subscribed bucket was produced by the installed engine.
-/

namespace Rlqs

open Interleave Steps

variable {σ : Type} {engines : ℕ → Engine} {w w' : World σ}

-- ---------------------------------------------------------------------------
-- The invariant
-- ---------------------------------------------------------------------------

/-- The reports a push has collected. -/
def PushPC.reports : PushPC → List UsageReport
  | .process _ _ reports _ => reports
  | _ => []

/-- The last response for the bucket was the installed engine's, or one of it is
still to come. -/
def UpToDate (w : World σ) (i : ℕ) (p : Handler) (key : BucketKey) : Prop :=
  lastVersion p.sent key = some w.engine ∨ p.owes w.engine key = true ∨
    w.pushOwes i key = true

structure Converging (w : World σ) : Prop where
  wf : ∀ p ∈ w.pool.procs, p.Wf
  sound : ∀ p ∈ w.pool.procs, p.Sound
  pushes : ∀ q ∈ w.pushes, ∀ r ∈ q.pc.reports, r.nonEmpty = true
  upToDate : ∀ i p, w.pool.procs[i]? = some p → p.pc.serving = true →
    ∀ key ∈ p.ss.subscriptions, UpToDate w i p key

theorem World.pushOwes_iff {i : ℕ} {key : BucketKey} :
    w.pushOwes i key = true ↔
      ∃ q ∈ w.pushes, q.version = w.engine ∧ q.pc.owes i key = true := by
  unfold World.pushOwes
  simp

/-- A push moves on: what it or another push was to send is still to be sent, as
far as its new control point says so. -/
theorem World.pushOwes_set {pool : Pool (Shared σ) Handler} {j i : ℕ} {q : Push} {pc : PushPC}
    {key : BucketKey} (hengine : pool.shared.engine = w.engine) (hq : w.pushes[j]? = some q)
    (hkeep : q.version = w.engine → q.pc.owes i key = true → pc.owes i key = true)
    (h : w.pushOwes i key = true) :
    (⟨pool, w.pushes.set j { q with pc := pc }⟩ : World σ).pushOwes i key = true := by
  obtain ⟨q₀, hmem, hversion, howes⟩ := World.pushOwes_iff.mp h
  obtain ⟨j₀, hj₀⟩ := List.getElem?_of_mem hmem
  have hlt : j < w.pushes.length := (List.getElem?_eq_some_iff.mp hq).1
  refine World.pushOwes_iff.mpr ?_
  show ∃ q₁ ∈ w.pushes.set j { q with pc := pc }, q₁.version = pool.shared.engine ∧ _
  rw [hengine]
  by_cases hj : j₀ = j
  · rw [hj, hq] at hj₀
    cases hj₀
    exact ⟨_, List.mem_set hlt _, hversion, hkeep hversion howes⟩
  · refine ⟨q₀, List.mem_of_getElem? (i := j₀) ?_, hversion, howes⟩
    rw [List.getElem?_set_ne (Ne.symm hj)]
    exact hj₀

/-- A stream that serves and is subscribed to something is registered. -/
theorem Handler.Wf.registered_of_mem {p : Handler} (h : p.Wf) (hserving : p.pc.serving = true)
    {key : BucketKey} (hkey : key ∈ p.ss.subscriptions) : p.registered = true := by
  rw [h.registered_eq]
  cases hpc : p.pc with
  | start =>
    rw [h.unbound (h.start hpc)] at hkey
    exact absurd hkey (AList.notMem_empty key)
  | decRef k a => rw [hpc] at hserving; cases hserving
  | remove k a => rw [hpc] at hserving; cases hserving
  | cleanup todo => rw [hpc] at hserving; cases hserving
  | done => rw [hpc] at hserving; cases hserving
  | _ => rfl

theorem newWorld_converging (store : σ) : Converging (newWorld store) where
  wf _ h := nomatch h
  sound _ h := nomatch h
  pushes _ h := nomatch h
  upToDate _ _ h := nomatch h

-- ---------------------------------------------------------------------------
-- Steps of handlers and swaps
-- ---------------------------------------------------------------------------

theorem Converging.connect (h : Converging w) :
    Converging ⟨⟨w.pool.shared, w.pool.procs ++ [newHandler]⟩, w.pushes⟩ := by
  have hmem : ∀ p ∈ w.pool.procs ++ [newHandler], p ∈ w.pool.procs ∨ p = newHandler := by
    intro p hp
    rcases List.mem_append.mp hp with hp | hp
    · exact Or.inl hp
    · exact Or.inr (List.mem_singleton.mp hp)
  refine ⟨fun p hp => ?_, fun p hp => ?_, h.pushes, fun i p hp hserving key hkey => ?_⟩
  · rcases hmem p hp with hp | rfl
    · exact h.wf p hp
    · exact newHandler_wf
  · rcases hmem p hp with hp | rfl
    · exact h.sound p hp
    · exact ⟨(fun _ _ h => nomatch h), (fun _ h => nomatch h), rfl⟩
  · rcases Nat.lt_or_ge i w.pool.procs.length with hi | hi
    · rw [show (w.pool.procs ++ [newHandler])[i]? = _ from List.getElem?_append_left hi] at hp
      exact h.upToDate i p hp hserving key hkey
    · rw [show (w.pool.procs ++ [newHandler])[i]? = _ from List.getElem?_append_right hi] at hp
      rw [List.mem_singleton.mp (List.mem_of_getElem? hp)] at hkey
      exact absurd hkey (AList.notMem_empty key)

/-- A step of stream `i`. A response of a replaced engine is sent only while one
of the installed engine is to come. -/
theorem Converging.handler (h : Converging w) {i : ℕ} {p p' : Handler} {sh' : Shared σ}
    (hp : w.pool.procs[i]? = some p) (hwf : p'.Wf) (hsound : p'.Sound)
    (hprogress : Progress w.engine p p') (hengine : sh'.engine = w.engine)
    (hstale : ∀ u all, p.pc = .send u all → u ≠ w.engine → p.registered = true →
      ∀ key ∈ actionKeys all, key ∈ p.ss.subscriptions → w.owes i key = true) :
    Converging ⟨⟨sh', w.pool.procs.set i p'⟩, w.pushes⟩ := by
  have hmem : p ∈ w.pool.procs := List.mem_of_getElem? hp
  refine ⟨fun q hq => ?_, fun q hq => ?_, h.pushes, fun j q hj hserving key hkey => ?_⟩
  · rcases mem_set_cases hq with rfl | hq
    · exact hwf
    · exact h.wf q hq
  · rcases mem_set_cases hq with rfl | hq
    · exact hsound
    · exact h.sound q hq
  have hpushes : w.pushOwes j key = true →
      (⟨⟨sh', w.pool.procs.set i p'⟩, w.pushes⟩ : World σ).pushOwes j key = true := by
    intro howes
    obtain ⟨q₀, hq₀, hversion, howes⟩ := World.pushOwes_iff.mp howes
    exact World.pushOwes_iff.mpr ⟨q₀, hq₀, hversion.trans hengine.symm, howes⟩
  show lastVersion q.sent key = some sh'.engine ∨ q.owes sh'.engine key = true ∨ _
  rw [hengine]
  rcases getElem_set_cases hj with ⟨rfl, rfl⟩ | ⟨-, hq⟩
  · cases hprogress with
    | leaves hpc =>
      rw [hpc] at hserving
      simp at hserving
    | goes hserving' hsubs hsent howes =>
      rcases hsubs key hkey with hold | hnew
      · rw [hsent]
        rcases h.upToDate j p hp hserving' key hold with hlast | howed | hpush
        · exact Or.inl hlast
        · exact Or.inr (Or.inl (howes key howed))
        · exact Or.inr (Or.inr (hpushes hpush))
      · exact Or.inr (Or.inl hnew)
    | sends u all hpc =>
      have hserving' : p.pc.serving = true := by rw [hpc]; rfl
      have hsub : key ∈ p.ss.subscriptions := hkey
      -- what the handler itself was to answer is in this response
      have hown : p.owes w.engine key = true → u = w.engine ∧ key ∈ actionKeys all := by
        intro howed
        rw [Handler.owes_iff, hpc] at howed
        exact ⟨howed.1 u rfl, by simpa [PC.reports, PC.response] using howed.2⟩
      show lastVersion (p.sent ++ [(u, all)]) key = _ ∨ _
      rw [lastVersion_append]
      by_cases hin : key ∈ actionKeys all
      · rw [if_pos hin]
        by_cases hu : u = w.engine
        · exact Or.inl (congrArg some hu)
        · have hreg := (h.wf p hmem).registered_of_mem hserving' hsub
          have howes := hstale u all hpc hu hreg key hin hsub
          unfold World.owes at howes
          rw [hp, Bool.or_eq_true] at howes
          rcases howes with howed | hpush
          · exact absurd (hown howed).1 hu
          · exact Or.inr (Or.inr (hpushes hpush))
      · rw [if_neg hin]
        rcases h.upToDate j p hp hserving' key hsub with hlast | howed | hpush
        · exact Or.inl hlast
        · exact absurd (hown howed).2 hin
        · exact Or.inr (Or.inr (hpushes hpush))
  · rcases h.upToDate j q hq hserving key hkey with hlast | howed | hpush
    · exact Or.inl hlast
    · exact Or.inr (Or.inl howed)
    · exact Or.inr (Or.inr (hpushes hpush))

/-- After a swap, the new push is to visit every stream. -/
theorem Converging.swap (h : Converging w) :
    Converging ⟨{ w.pool with shared := { w.pool.shared with engine := w.engine + 1 } },
      w.pushes ++ [⟨w.engine + 1, .snapshot⟩]⟩ := by
  refine ⟨h.wf, h.sound, fun q hq => ?_, fun i p hp hserving key hkey => Or.inr (Or.inr ?_)⟩
  · rcases List.mem_append.mp hq with hq | hq
    · exact h.pushes q hq
    · rw [List.mem_singleton.mp hq]
      exact fun _ hr => nomatch hr
  · exact World.pushOwes_iff.mpr
      ⟨⟨w.engine + 1, .snapshot⟩, List.mem_append_right _ List.mem_cons_self, rfl, rfl⟩

-- ---------------------------------------------------------------------------
-- Steps of pushes
-- ---------------------------------------------------------------------------

/-- The reports of `order` are non-empty and cover the subscriptions. -/
theorem pushReports_spec {p : Handler} (h : p.Sound) {order : List BucketKey}
    (horder : order.Perm p.ss.subscriptions.keys) :
    (∀ r ∈ pushReports p.ss order, r.nonEmpty = true) ∧
      ∀ key ∈ p.ss.subscriptions, key ∈ (pushReports p.ss order).map UsageReport.key := by
  refine ⟨fun r hr => ?_, fun key hkey => ?_⟩
  · obtain ⟨key, -, hkey⟩ := List.mem_filterMap.mp hr
    obtain ⟨id, hid, rfl⟩ := Option.map_eq_some_iff.mp hkey
    have hlen := (h.entry key id hid).2
    simpa [UsageReport.nonEmpty] using hlen
  · obtain ⟨id, hid⟩ := (GoMap.mem_iff_lookup _ _).mp hkey
    have hmem : (⟨some id, 0, 0, 0⟩ : UsageReport) ∈ pushReports p.ss order := by
      refine List.mem_filterMap.mpr ⟨key, horder.mem_iff.mpr (AList.mem_keys.mp hkey), ?_⟩
      rw [hid]
      rfl
    have hkey' : UsageReport.key ⟨some id, 0, 0, 0⟩ = key := (h.entry key id hid).1.symm
    rw [← hkey']
    exact List.mem_map_of_mem hmem

theorem mem_registeredStreams {hs : List Handler} {i : ℕ} {p : Handler} (hp : hs[i]? = some p)
    (hreg : p.registered = true) : i ∈ registeredStreams hs := by
  refine List.mem_filter.mpr ⟨List.mem_range.mpr (List.getElem?_eq_some_iff.mp hp).1, ?_⟩
  rw [hp]
  exact hreg

/-- A push's step that sends nothing. -/
theorem Converging.push (h : Converging w) {j : ℕ} {q : Push} {pc : PushPC}
    (hq : w.pushes[j]? = some q) (hreports : ∀ r ∈ pc.reports, r.nonEmpty = true)
    (hkeep : ∀ i p, w.pool.procs[i]? = some p → p.pc.serving = true →
      ∀ key ∈ p.ss.subscriptions, q.pc.owes i key = true → pc.owes i key = true) :
    Converging ⟨w.pool, w.pushes.set j { q with pc := pc }⟩ := by
  refine ⟨h.wf, h.sound, fun q' hq' => ?_, fun i p hp hserving key hkey => ?_⟩
  · rcases mem_set_cases hq' with rfl | hq'
    · exact hreports
    · exact h.pushes q' hq'
  · rcases h.upToDate i p hp hserving key hkey with hlast | howed | hpush
    · exact Or.inl hlast
    · exact Or.inr (Or.inl howed)
    · exact Or.inr (Or.inr (World.pushOwes_set rfl hq
        (fun _ => hkeep i p hp hserving key hkey) hpush))

/-- A push's `Send` to stream `i`. -/
theorem Converging.pushSent (h : Converging w) {j i : ℕ} {q : Push} {actions : List BucketAction}
    {todo : List ℕ} {p : Handler} (hq : w.pushes[j]? = some q) (hpc : q.pc = .send i actions todo)
    (hp : w.pool.procs[i]? = some p)
    (hstale : q.version ≠ w.engine → p.registered = true →
      ∀ key ∈ actionKeys actions, key ∈ p.ss.subscriptions → w.owes i key = true) :
    Converging ⟨{ w.pool with
        procs := w.pool.procs.set i { p with sent := p.sent ++ [(q.version, actions)] } },
      w.pushes.set j { q with pc := .visit todo }⟩ := by
  have hmem : p ∈ w.pool.procs := List.mem_of_getElem? hp
  refine ⟨fun q' hq' => ?_, fun q' hq' => ?_, fun q' hq' => ?_,
    fun i' p' hp' hserving key hkey => ?_⟩
  · rcases mem_set_cases hq' with rfl | hq'
    · have hwf := h.wf p hmem
      exact ⟨hwf.held_perm, hwf.nodup, hwf.registered_eq, hwf.bound, hwf.unbound, hwf.tracked,
        hwf.incRef_key, hwf.start⟩
    · exact h.wf q' hq'
  · rcases mem_set_cases hq' with rfl | hq'
    · have hsound := h.sound p hmem
      exact ⟨hsound.entry, hsound.reports, hsound.abandons⟩
    · exact h.sound q' hq'
  · rcases mem_set_cases hq' with rfl | hq'
    · exact fun _ hr => nomatch hr
    · exact h.pushes q' hq'
  rcases getElem_set_cases hp' with ⟨rfl, rfl⟩ | ⟨hi, hold⟩
  · show lastVersion (p.sent ++ [(q.version, actions)]) key = some w.engine ∨
      p.owes w.engine key = true ∨ _
    rw [lastVersion_append]
    by_cases hin : key ∈ actionKeys actions
    · rw [if_pos hin]
      by_cases hversion : q.version = w.engine
      · exact Or.inl (congrArg some hversion)
      · -- a stale response: the installed engine's is still to come
        have hreg := (h.wf p hmem).registered_of_mem hserving hkey
        have howes := hstale hversion hreg key hin hkey
        unfold World.owes at howes
        rw [hp, Bool.or_eq_true] at howes
        rcases howes with howed | hpush
        · exact Or.inr (Or.inl howed)
        · exact Or.inr (Or.inr (World.pushOwes_set rfl hq (fun hv => absurd hv hversion) hpush))
    · rw [if_neg hin]
      rcases h.upToDate i' p hp hserving key hkey with hlast | howed | hpush
      · exact Or.inl hlast
      · exact Or.inr (Or.inl howed)
      · refine Or.inr (Or.inr (World.pushOwes_set rfl hq (fun _ howes => ?_) hpush))
        rw [hpc] at howes
        simpa [PushPC.owes, hin] using howes
  · rcases h.upToDate i' p' hold hserving key hkey with hlast | howed | hpush
    · exact Or.inl hlast
    · exact Or.inr (Or.inl howed)
    · refine Or.inr (Or.inr (World.pushOwes_set rfl hq (fun _ howes => ?_) hpush))
      rw [hpc] at howes
      simpa [PushPC.owes, hi] using howes

/-- Every step of a push keeps the invariant; a stale response is sent first. -/
theorem Converging.pushEffect (hengines : ∀ v, AnswersAll (engines v)) (h : Converging w) {j : ℕ}
    {q : Push} {hs' : List Handler} {pc' : PushPC} (hq : w.pushes[j]? = some q)
    {x : PushInput}
    (heffect : PushEffect (engines q.version) q.version w.pool.procs q.pc x hs' pc')
    (hstale : ∀ i actions todo, q.pc = .send i actions todo → q.version ≠ w.engine →
      ∀ p, w.pool.procs[i]? = some p → p.registered = true →
      ∀ key ∈ actionKeys actions, key ∈ p.ss.subscriptions → w.owes i key = true) :
    Converging ⟨{ w.pool with procs := hs' }, w.pushes.set j { q with pc := pc' }⟩ := by
  have hcollected := h.pushes q (List.mem_of_getElem? hq)
  generalize hpc : q.pc = pc at heffect
  cases heffect with
  | @listed order horder =>
    refine h.push hq (fun _ hr => nomatch hr) fun i p hp hserving key hkey _ => ?_
    have hreg := (h.wf p (List.mem_of_getElem? hp)).registered_of_mem hserving hkey
    simpa [PushPC.owes] using horder.mem_iff.mpr (mem_registeredStreams hp hreg)
  | @skipped i todo order p hp hnone =>
    refine h.push hq (fun _ hr => nomatch hr) fun i' p' hp' hserving key hkey howes => ?_
    rw [hpc] at howes
    -- the stream that is skipped has no subscriptions
    have hi : i' ≠ i := by
      rintro rfl
      obtain rfl : p' = p := Option.some.inj (hp'.symm.trans hp)
      rcases hnone with hbound | hlen
      · rw [(h.wf p' (List.mem_of_getElem? hp)).unbound hbound] at hkey
        exact absurd hkey (AList.notMem_empty key)
      · have hnil : p'.ss.subscriptions.keys = [] := List.eq_nil_of_length_eq_zero hlen
        rw [AList.mem_keys, hnil] at hkey
        simp at hkey
    simpa [PushPC.owes, hi] using howes
  | @collected i todo order p hp _ _ horder =>
    obtain ⟨hnonEmpty, hcover⟩ := pushReports_spec (h.sound p (List.mem_of_getElem? hp)) horder
    refine h.push hq hnonEmpty fun i' p' hp' hserving key hkey howes => ?_
    rw [hpc] at howes
    by_cases hi : i' = i
    · subst hi
      obtain rfl : p' = p := Option.some.inj (hp'.symm.trans hp)
      exact decide_eq_true (Or.inl ⟨rfl, hcover key hkey⟩)
    · simpa [PushPC.owes, hi] using howes
  | @unanswered i domain reports todo hreply =>
    rw [hpc] at hcollected
    obtain ⟨actions, hok, hkeys, -⟩ := (hengines q.version).keys domain hcollected
    have hnil : reports.map UsageReport.key = [] := by
      cases actions with
      | nil => exact hkeys.symm
      | cons a as => exact absurd hok (hreply a as)
    refine h.push hq (fun _ hr => nomatch hr) fun i' p' hp' hserving key hkey howes => ?_
    rw [hpc] at howes
    simpa [PushPC.owes, hnil] using howes
  | @replied i domain reports todo a as hreply =>
    rw [hpc] at hcollected
    obtain ⟨actions, hok, hkeys, -⟩ := (hengines q.version).keys domain hcollected
    obtain rfl : a :: as = actions := Except.ok.inj (hreply.symm.trans hok)
    refine h.push hq (fun _ hr => nomatch hr) fun i' p' hp' hserving key hkey howes => ?_
    rw [hpc] at howes
    have hsame : actionKeys (a :: as) = reports.map UsageReport.key := hkeys
    simpa only [PushPC.owes, hsame] using howes
  | @sent i actions todo p hp =>
    exact h.pushSent hq hpc hp fun hversion hreg =>
      hstale i actions todo hpc hversion p hp hreg

-- ---------------------------------------------------------------------------
-- Whole runs
-- ---------------------------------------------------------------------------

/-- What the condition says about the response a move sends. -/
theorem staleFirst_spec {m : SwapMove} {i v : ℕ} {actions : List BucketAction} {p : Handler}
    (h : staleFirst w m = true) (hsends : w.sends m = some (i, v, actions)) (hv : v ≠ w.engine)
    (hp : w.pool.procs[i]? = some p) (hreg : p.registered = true) :
    ∀ key ∈ actionKeys actions, key ∈ p.ss.subscriptions → w.owes i key = true := by
  intro key hkey hsub
  simp only [staleFirst, hsends, hp, Option.all_some, hreg, Bool.not_true, Bool.false_or,
    Bool.or_eq_true, beq_iff_eq, List.all_eq_true] at h
  have hall := (h.resolve_left hv) key hkey
  simpa [hsub] using hall

/-- A handler about to send takes no step but `Send`. -/
theorem sent_of_step [BucketStore σ] {cfg : Limits} {sh : Shared σ} {c : Shared σ × Handler}
    {p : Handler} {x : Input} {u : ℕ} {all : List BucketAction} (hpc : p.pc = .send u all)
    (hs : handlerStep cfg sh p (answered engines p x) = some c) : ∃ e, x = .sent e := by
  cases x with
  | sent e => exact ⟨e, rfl⟩
  | _ => simp [handlerStep, answered, hpc] at hs

/-- One move that meets the condition. -/
theorem Converging.next [BucketStore σ] {cfg : Limits} (hengines : ∀ v, AnswersAll (engines v))
    (h : Converging w) {m : SwapMove} (hfirst : staleFirst w m = true)
    (hn : w.next cfg engines m = some w') : Converging w' := by
  rcases World.next_cases hn with ⟨-, rfl⟩ | ⟨i, x, p, sh', p', rfl, hp, hs, rfl⟩ | ⟨-, rfl⟩ |
    ⟨j, x, q, hs', pc', rfl, hq, hstep, rfl⟩
  · exact h.connect
  · have hmem : p ∈ w.pool.procs := List.mem_of_getElem? hp
    obtain ⟨hsound, hprogress, hengine⟩ := handlerStep_progress hengines (h.sound p hmem) hs
    refine h.handler hp (handlerStep_wf (h.wf p hmem) hs) hsound hprogress hengine ?_
    intro u all hpc hu hreg
    obtain ⟨e, rfl⟩ := sent_of_step hpc hs
    refine staleFirst_spec hfirst ?_ hu hp hreg
    simp [World.sends, hp, hpc]
  · exact h.swap
  · refine h.pushEffect hengines hq (pushStep_cases hstep) fun i actions todo hpc hv p hp hreg => ?_
    refine staleFirst_spec hfirst ?_ hv hp hreg
    obtain ⟨v, pc⟩ := q
    obtain rfl : pc = .send i actions todo := hpc
    cases x with
    | tick => simp [World.sends, hq]
    | streams order => cases hstep
    | subscriptions order => cases hstep

theorem PC.idle_cases {pc : PC} (h : pc.idle = true) :
    pc = .start ∨ pc = .opened ∨ pc = .recv ∨ pc = .done := by
  cases pc with
  | start => exact Or.inl rfl
  | opened => exact Or.inr (Or.inl rfl)
  | recv => exact Or.inr (Or.inr (Or.inl rfl))
  | done => exact Or.inr (Or.inr (Or.inr rfl))
  | _ => cases h

/-- **Convergence after `SwapEngine`.** With engines that answer every report,
in every interleaving of handlers, pushes and swaps in which a response of a
replaced engine is only sent while one of the installed engine is still to come
for the same stream and bucket: whenever no handler and no push is in flight,
the last action sent on a registered stream for a bucket it is subscribed to
was produced by the installed engine. -/
theorem swap_converges [BucketStore σ] {cfg : Limits} (hengines : ∀ v, AnswersAll (engines v))
    {store : σ}
    (hrun : Run (World.next cfg engines) (fun w m => staleFirst w m = true) (newWorld store) w)
    (hquiet : w.quiescent = true) {p : Handler} (hp : p ∈ w.pool.procs)
    (hreg : p.registered = true) {key : BucketKey} (hsub : key ∈ p.ss.subscriptions) :
    lastVersion p.sent key = some w.engine := by
  have hinv : Converging w :=
    Run.invariant (I := Converging) hrun (newWorld_converging store)
      fun _ _ _ _ h hfirst hn => h.next hengines hfirst hn
  obtain ⟨hidle, hfinished⟩ : (∀ p ∈ w.pool.procs, p.pc.idle = true) ∧
      ∀ q ∈ w.pushes, q.pc.finished = true := by
    simpa [World.quiescent] using hquiet
  obtain ⟨i, hi⟩ := List.getElem?_of_mem hp
  -- an idle handler that is registered serves, and owes nothing
  have hpc : p.pc.serving = true ∧ p.owes w.engine key = false := by
    have hlisted := (hinv.wf p hp).registered_eq
    rw [hreg] at hlisted
    unfold Handler.owes
    rcases PC.idle_cases (hidle p hp) with hpc | hpc | hpc | hpc
    · rw [hpc] at hlisted
      cases hlisted
    · rw [hpc]
      exact ⟨rfl, rfl⟩
    · rw [hpc]
      exact ⟨rfl, rfl⟩
    · rw [hpc] at hlisted
      cases hlisted
  rcases hinv.upToDate i p hi hpc.1 key hsub with hlast | howed | hpush
  · exact hlast
  · rw [hpc.2] at howed
    simp at howed
  · -- a finished push owes nothing
    obtain ⟨q, hq, -, howes⟩ := World.pushOwes_iff.mp hpush
    have hdone := hfinished q hq
    unfold PushPC.finished at hdone
    split at hdone
    · rename_i heq
      rw [heq] at howes
      cases howes
    · simp at hdone

-- ---------------------------------------------------------------------------
-- One stream and one swap
-- ---------------------------------------------------------------------------

/-- Engines that assign their own number of requests per second. -/
def sampleEngines (v : ℕ) : Engine :=
  DefaultEngineConfig.processUsage ⟨some (.requestsPerTimeUnit (UInt64.ofNat v) .second), none⟩

/-- Stream `0` opens and sends the sample report; its handler loads the engine. -/
def loadMoves : List SwapMove := .connect :: askInputs.map (.handler 0)

/-- The handler of stream `0` calls the engine and sends the response. -/
def answerMoves : List SwapMove :=
  [.handler 0 (.reply (.ok [])), .handler 0 .tick, .handler 0 .tick, .handler 0 (.sent none)]

/-- An engine is installed, and its push runs to its end. -/
def swapMoves : List SwapMove :=
  [.swap, .push 0 (.streams [0]), .push 0 (.subscriptions [bucketKeyFromProto (some sampleId)]),
    .push 0 .tick, .push 0 .tick]

/-- The whole push runs between the handler's load of the engine and its `Send`:
the client ends up with the assignment of the replaced engine. -/
theorem stale_assignment_last :
    ∃ w, Run (World.next noLimits sampleEngines) free (newWorld MemoryStorage.newMemoryStorage) w ∧
      w.quiescent = true ∧ w.engine = 1 ∧
      ∃ p ∈ w.pool.procs, p.registered = true ∧
        bucketKeyFromProto (some sampleId) ∈ p.ss.subscriptions ∧
        lastVersion p.sent (bucketKeyFromProto (some sampleId)) = some 0 := by
  have hrun := run_exec_free (World.next noLimits sampleEngines)
    (newWorld MemoryStorage.newMemoryStorage) (loadMoves ++ swapMoves ++ answerMoves) (by decide)
  exact ⟨_, hrun, by decide, by decide, _, List.mem_cons_self, by decide, by decide, by decide⟩

/-- The handler sends before the swap. -/
theorem swap_converges_in_turn :
    ∃ w, Run (World.next noLimits sampleEngines) (fun w m => staleFirst w m = true)
        (newWorld MemoryStorage.newMemoryStorage) w ∧
      w.quiescent = true ∧ w.engine = 1 ∧
      ∃ p ∈ w.pool.procs, p.registered = true ∧
        bucketKeyFromProto (some sampleId) ∈ p.ss.subscriptions ∧
        lastVersion p.sent (bucketKeyFromProto (some sampleId)) = some w.engine := by
  have hrun := run_exec (World.next noLimits sampleEngines) staleFirst
    (newWorld MemoryStorage.newMemoryStorage) (loadMoves ++ answerMoves ++ swapMoves) (by decide)
  refine ⟨_, hrun, by decide, by decide, _, List.mem_cons_self, by decide, by decide, ?_⟩
  exact swap_converges (fun v => defaultEngine_answersAll _) hrun (by decide) List.mem_cons_self
    (by decide) (by decide)

end Rlqs
