import Rlqs.Config.Rewatch
import Rlqs.Main.Reload

/-!
# RLQS main — from the config file to the live engine

The watcher of `Config/FileWatch.lean` and the reload loop of `Main/Reload.lean` in
one process: the loop takes a config out of the channel and reloads it, while the
file is written, timers fire and reloads run in goroutines of their own.

What reaches the loop last is what is served. Every fired timer has its own
reload, and nothing orders their sends: of two reloads that are under way at the
same time the one that read the older content may send last, and then the process
serves the older content although nothing is pending any more
(`overtaken_reload_is_served`). As long as no timer fires while a reload is under
way, configs arrive in the order of their versions (`InOrder`), and the last valid
content of the file is the one that is served (`file_is_served`). The other two
conditions are those of the watcher (`FileWatch.Timely`) and of the loop (the
concrete type of the engine does not change). The process is not shut down here: what
a cancelled context can do to the watcher is in `Config/Watcher.lean`.
-/

namespace Rlqs

open Config Steps

-- ---------------------------------------------------------------------------
-- The process and its file
-- ---------------------------------------------------------------------------

/-- The process is `none` once it has panicked. -/
structure Deployment where
  file : FileWatch
  process : Option Process

/-- A move of the file or its watcher, or something else that happens to the
process: a stream binds a domain, or the store is used. -/
inductive DeployMove where
  | file (m : FileMove)
  | bind (domain : Str)
  | use (u : StoreUse)

/-- The move is one of the watcher or the loop. -/
def DeployMove.own : DeployMove → Bool
  | .file m => m.own
  | _ => false

section Model

variable (compile : Str → Except GoError Regexp) (loads : Str → Except GoError Config)

/-- One move. The loop of `main` reloads what it receives; a process that has
panicked takes no step of its own. -/
def Deployment.next (d : Deployment) : DeployMove → Option Deployment
  | .file .receive =>
    match d.process, d.file.buffer with
    | some p, some c => (d.file.next loads .receive).map fun f => ⟨f, p.reload compile c.2⟩
    | _, _ => none
  | .file m =>
    if m.own && d.process.isNone then none
    else (d.file.next loads m).map fun f => { d with file := f }
  | .bind domain => d.process.map fun p => { d with process := p.next compile (.bind domain) }
  | .use u => d.process.map fun p => { d with process := p.next compile (.use u) }

/-- The timer does not fire while an earlier reload is under way. -/
def FileWatch.Unhurried (f : FileWatch) : FileMove → Prop
  | .fire => ∀ pc ∈ f.reloads, pc = .done
  | _ => True

instance unhurriedDecidable (f : FileWatch) (m : FileMove) : Decidable (f.Unhurried m) :=
  match m with
  | .fire => inferInstanceAs (Decidable (∀ pc ∈ f.reloads, pc = .done))
  | .write _ | .replace _ _ | .event | .load _ | .remove _ | .add _ | .send _ | .receive =>
    inferInstanceAs (Decidable True)

/-- A config whose engine can be built has policies exactly if the startup config
has some. -/
def SameKind (startup c : Config) : Prop :=
  valid compile c = true → c.engine.policyList.isEmpty = startup.engine.policyList.isEmpty

/-- New content of the file does not change the concrete type of the engine. -/
def KeepsKind (startup : Config) : FileMove → Prop
  | .write data | .replace data _ => ∀ c, loads data = .ok c → SameKind compile startup c
  | _ => True

/-- The conditions on a move. -/
def Deployment.Orderly (startup : Config) (d : Deployment) : DeployMove → Prop
  | .file m => d.file.Timely loads m ∧ d.file.Unhurried m ∧ KeepsKind compile loads startup m
  | _ => True

end Model

variable {compile : Str → Except GoError Regexp} {loads : Str → Except GoError Config}

-- ---------------------------------------------------------------------------
-- Configs arrive in order
-- ---------------------------------------------------------------------------

/-- One reload at a time, and what it has read is the newest: what is delivered is
in the order of the versions, what waits in the channel is newer, and what a reload
holds is newer still. No config is newer than the last valid content. -/
structure InOrder (loads : Str → Except GoError Config) (f : FileWatch) : Prop where
  one : ∀ (i j : ℕ) (pc pc' : RewatchPC), f.reloads[i]? = some pc → f.reloads[j]? = some pc' →
    pc ≠ .done → pc' ≠ .done → i = j
  delivered : f.delivered.Pairwise fun c c' => c.1 ≤ c'.1
  buffer : ∀ b, f.buffer = some b → ∀ c ∈ f.delivered, c.1 ≤ b.1
  reload : ∀ pc ∈ f.reloads, ∀ r, pc.loaded = some r →
    ∀ c, c ∈ f.delivered ∨ f.buffer = some c → c.1 ≤ r.1
  newest : ∀ c, f.Holds c → ∃ l, f.lastValid = some l ∧ c.1 ≤ l.1 ∧ (c.1 = l.1 → c = l)
  current : ∀ c, loads f.data = .ok c → f.version ≠ 0 → f.lastValid = some (f.version, c)
  numbered : ∀ l, f.lastValid = some l → l.1 ≤ f.version
  due : f.Due → f.version ≠ 0

section Order

variable {f f' : FileWatch} {m : FileMove}

theorem watchStarted_inOrder (data : Str) : InOrder loads (watchStarted data) where
  one _ _ _ _ h := nomatch h
  delivered := List.Pairwise.nil
  buffer _ h := nomatch h
  reload _ h := nomatch h
  newest c h := by simp [watchStarted, FileWatch.Holds] at h
  current _ _ h := absurd rfl h
  numbered _ h := nomatch h
  due h := by simp [watchStarted, FileWatch.Due] at h

/-- A reload under way is the only one. -/
theorem InOrder.alone (h : InOrder loads f) {j : ℕ} {pc pc' : RewatchPC}
    (hj : f.reloads[j]? = some pc) (hpc : pc ≠ .done) {i : ℕ} {q : RewatchPC}
    (hi : (f.reloads.set j pc')[i]? = some q) (hq : q ≠ .done) : i = j ∧ q = pc' := by
  have hlt := (List.getElem?_eq_some_iff.mp hj).1
  by_cases hij : j = i
  · subst hij
    rw [List.getElem?_set_self hlt] at hi
    exact ⟨rfl, (Option.some.inj hi).symm⟩
  · rw [List.getElem?_set_ne hij] at hi
    exact absurd (h.one i j q pc hi hj hq hpc).symm hij

/-- The reload goes on: it holds `pc'.loaded`, which is what it held or is newer than
everything. -/
theorem InOrder.goto (h : InOrder loads f) {j : ℕ} {pc pc' : RewatchPC}
    (hj : f.reloads[j]? = some pc) (hpc : pc ≠ .done)
    (hnew : ∀ r, pc'.loaded = some r → ∀ c, c ∈ f.delivered ∨ f.buffer = some c → c.1 ≤ r.1)
    (hheld : ∀ r, pc'.loaded = some r → ∃ l, f.lastValid = some l ∧ r.1 ≤ l.1 ∧ (r.1 = l.1 → r = l))
    (hdue : pc' ≠ .load) : InOrder loads (f.goto j pc') where
  one i i' q q' hi hi' hq hq' := by
    rw [(h.alone hj hpc hi hq).1, (h.alone hj hpc hi' hq').1]
  delivered := h.delivered
  buffer := h.buffer
  reload q hmem r hr := by
    obtain ⟨i, hi⟩ := List.getElem?_of_mem hmem
    have hq : q ≠ .done := by
      rintro rfl
      simp [RewatchPC.loaded] at hr
    rw [(h.alone hj hpc hi hq).2] at hr
    exact hnew r hr
  newest c hc := by
    rcases (FileWatch.holds_goto hj pc' c).mp (Or.inr hc) with hloaded | hold
    · exact hheld c hloaded
    · exact h.newest c hold
  current := h.current
  numbered := h.numbered
  due hd := by
    apply h.due
    rcases hd with ha | he | ⟨q, hmem, rfl⟩
    · exact Or.inl ha
    · exact Or.inr (Or.inl he)
    · obtain ⟨i, hi⟩ := List.getElem?_of_mem hmem
      exact absurd (h.alone hj hpc hi (by simp)).2.symm hdue

/-- A reload moves on with the config it has. -/
theorem InOrder.goto_same (h : InOrder loads f) {j : ℕ} {pc pc' : RewatchPC} {c : Loaded}
    (hj : f.reloads[j]? = some pc) (hpc : pc.loaded = some c) (hpc' : pc'.loaded = some c) :
    InOrder loads (f.goto j pc') := by
  have hmem := List.mem_of_getElem? hj
  refine h.goto hj ?_ ?_ ?_ ?_
  · rintro rfl
    simp [RewatchPC.loaded] at hpc
  · intro r hr
    exact h.reload pc hmem r (hpc.trans (hpc'.symm.trans hr))
  · intro r hr
    exact h.newest r (Or.inr (Or.inr ⟨pc, hmem, hpc.trans (hpc'.symm.trans hr)⟩))
  · rintro rfl
    simp [RewatchPC.loaded] at hpc'

/-- No part of the order is about the watch. -/
theorem InOrder.rewatched (h : InOrder loads f) (watch : Option ℕ) :
    InOrder loads { f with watch := watch } :=
  ⟨h.one, h.delivered, h.buffer, h.reload, h.newest, h.current, h.numbered, h.due⟩

/-- A reload sends: it was the only one that held a config. -/
theorem InOrder.sent (h : InOrder loads f) {j : ℕ} {c : Loaded}
    (hj : f.reloads[j]? = some (.select c)) (hb : f.buffer = none) :
    InOrder loads { f.goto j .done with buffer := some c } := by
  have hmem := List.mem_of_getElem? hj
  have hgone : ∀ q ∈ (f.goto j .done).reloads, q.loaded = none := by
    intro q hq
    obtain ⟨i, hi⟩ := List.getElem?_of_mem hq
    by_cases hdone : q = .done
    · rw [hdone]
      rfl
    · rw [(h.alone hj (by simp) hi hdone).2]
      rfl
  have hbase : InOrder loads (f.goto j .done) :=
    h.goto hj (by simp) (fun r hr => nomatch hr) (fun r hr => nomatch hr) (by simp)
  refine ⟨hbase.one, h.delivered, ?_, ?_, ?_, h.current, h.numbered, hbase.due⟩
  · intro b hbuf c' hc'
    cases hbuf
    exact h.reload _ hmem c rfl c' (Or.inl hc')
  · intro q hq r hr
    rw [hgone q hq] at hr
    simp at hr
  · intro c' hc'
    exact h.newest c' ((FileWatch.holds_send hj hb c').mp hc')

/-- The loop takes a config out of the channel. -/
theorem InOrder.received (h : InOrder loads f) {c : Loaded} (hb : f.buffer = some c) :
    InOrder loads { f with buffer := none, delivered := f.delivered ++ [c] } := by
  refine ⟨h.one, ?_, (fun b hbuf => nomatch hbuf), ?_, ?_, h.current, h.numbered, h.due⟩
  · rw [List.pairwise_append]
    refine ⟨h.delivered, List.pairwise_singleton _ _, fun a ha b hbmem => ?_⟩
    rw [List.mem_singleton.mp hbmem]
    exact h.buffer c hb a ha
  · intro pc hpc r hr c' hc'
    apply h.reload pc hpc r hr
    rcases hc' with hc' | hc'
    · rcases List.mem_append.mp hc' with hold | hnew
      · exact Or.inl hold
      · rw [List.mem_singleton.mp hnew]
        exact Or.inr hb
    · simp at hc'
  · intro c' hc'
    exact h.newest c' ((FileWatch.holds_receive hb c').mp hc')

/-- The timer fires while no reload is under way. -/
theorem InOrder.fired (h : InOrder loads f) (harmed : f.armed = true)
    (hdone : ∀ pc ∈ f.reloads, pc = .done) :
    InOrder loads { f with armed := false, reloads := f.reloads ++ [.load] } := by
  have hidle : ∀ (i : ℕ) (pc : RewatchPC), (f.reloads ++ [.load])[i]? = some pc → pc ≠ .done →
      i = f.reloads.length ∧ pc = .load := by
    intro i pc hi hpc
    rcases Nat.lt_or_ge i f.reloads.length with hlt | hge
    · rw [List.getElem?_append_left hlt] at hi
      exact absurd (hdone pc (List.mem_of_getElem? hi)) hpc
    · rw [List.getElem?_append_right hge, List.getElem?_singleton] at hi
      split at hi
      · exact ⟨by omega, (Option.some.inj hi).symm⟩
      · simp at hi
  refine ⟨fun i j pc pc' hi hj hpc hpc' => ?_, h.delivered, h.buffer, fun pc hmem r hr => ?_,
    fun c hc => h.newest c ((f.holds_fire c).mp hc), h.current, h.numbered,
    fun _ => h.due (Or.inl harmed)⟩
  · rw [(hidle i pc hi hpc).1, (hidle j pc' hj hpc').1]
  · rcases List.mem_append.mp hmem with hold | hnew
    · rw [hdone pc hold] at hr
      simp [RewatchPC.loaded] at hr
    · rw [List.mem_singleton.mp hnew] at hr
      simp [RewatchPC.loaded] at hr

/-- A step of the watcher. -/
theorem InOrder.own (h : InOrder loads f) (ht : OwnTurn loads f f')
    (hfire : f.armed = true → f'.armed = false → ∀ pc ∈ f.reloads, pc = .done) :
    InOrder loads f' := by
  cases ht with
  | @event op ops he =>
    refine ⟨h.one, h.delivered, h.buffer, h.reload, h.newest, h.current, h.numbered, fun hd => ?_⟩
    apply h.due
    unfold FileWatch.Due at hd ⊢
    rw [he]
    simpa only [List.mem_cons, exists_eq_or_imp, Bool.or_eq_true, or_assoc] using hd
  | fire ha => exact h.fired ha (hfire ha rfl)
  | failed hj hl =>
    exact h.goto hj (by simp) (fun r hr => nomatch hr) (fun r hr => nomatch hr) (by simp)
  | @loaded j c hj hl =>
    -- what has just been read is the last valid content
    have hlast : f.lastValid = some (f.version, c) :=
      h.current c hl (h.due (Or.inr (Or.inr ⟨_, List.mem_of_getElem? hj, rfl⟩)))
    refine h.goto hj (by simp) (fun r hr c' hc' => ?_) (fun r hr => ?_) (by simp)
    · obtain ⟨l, hl', hle, -⟩ := h.newest c' (hc'.imp_right Or.inl)
      cases hr
      rw [hlast] at hl'
      cases hl'
      exact hle
    · cases hr
      exact ⟨_, hlast, le_rfl, fun _ => rfl⟩
  | @remove j c hj => exact (h.goto_same hj rfl rfl).rewatched none
  | @add j c hj => exact (h.goto_same hj rfl rfl).rewatched _
  | @send j c hj hb => exact h.sent hj hb
  | @receive c hb => exact h.received hb

theorem FileWatch.put_valid {data : Str} {c : Config} (hd : loads data = .ok c) :
    (f.put loads data).lastValid = some (f.version + 1, c) := by
  simp only [FileWatch.put, hd]

theorem FileWatch.put_invalid {data : Str} {e : GoError} (hd : loads data = .error e) :
    (f.put loads data).lastValid = f.lastValid := by
  simp only [FileWatch.put, hd]

/-- New content of the file, with whatever events and watch. -/
theorem InOrder.put (h : InOrder loads f) {data : Str} (hfile : f'.data = data ∧
      f'.version = f.version + 1 ∧ f'.lastValid = (f.put loads data).lastValid)
    (hsame : f'.reloads = f.reloads ∧ f'.buffer = f.buffer ∧ f'.delivered = f.delivered) :
    InOrder loads f' := by
  obtain ⟨rfl, hversion, hlast⟩ := hfile
  obtain ⟨hreloads, hbuffer, hdelivered⟩ := hsame
  refine ⟨?_, ?_, ?_, ?_, ?_, ?_, ?_, ?_⟩
  · rw [hreloads]
    exact h.one
  · rw [hdelivered]
    exact h.delivered
  · rw [hbuffer, hdelivered]
    exact h.buffer
  · rw [hreloads, hbuffer, hdelivered]
    exact h.reload
  · intro c hc
    unfold FileWatch.Holds at hc
    rw [hreloads, hbuffer, hdelivered] at hc
    obtain ⟨l, hl, hle, heq⟩ := h.newest c hc
    cases hd : loads f'.data with
    | error e => exact ⟨l, hlast.trans ((FileWatch.put_invalid hd).trans hl), hle, heq⟩
    | ok cfg =>
      -- the new content is newer than anything that was held
      have hold := h.numbered l hl
      refine ⟨_, hlast.trans (FileWatch.put_valid hd), ?_, fun hsame => ?_⟩
      · show c.1 ≤ f.version + 1
        omega
      · have hsame' : c.1 = f.version + 1 := hsame
        omega
  · intro c hc _
    rw [hlast, FileWatch.put_valid hc, hversion]
  · intro l hl
    rw [hversion]
    cases hd : loads f'.data with
    | error e =>
      rw [hlast, FileWatch.put_invalid hd] at hl
      have := h.numbered l hl
      omega
    | ok cfg =>
      rw [hlast, FileWatch.put_valid hd] at hl
      cases hl
      exact le_rfl
  · intro _
    rw [hversion]
    omega

/-- When nothing is pending and the file is up to date, its last valid content was
delivered last. -/
theorem InOrder.last_delivered (h : InOrder loads f) (hup : f.UpToDate) :
    f.delivered.getLast? = f.lastValid := by
  rcases List.eq_nil_or_concat f.delivered with hnil | ⟨cs, d, hd⟩
  · rw [hnil, List.getLast?_nil]
    cases hl : f.lastValid with
    | none => rfl
    | some l =>
      have hmem := hup.2 l hl
      rw [hnil] at hmem
      simp at hmem
  · obtain ⟨l, hl, hle, heq⟩ := h.newest d (Or.inl (by rw [hd]; simp))
    have hmem := hup.2 l hl
    have hsorted := h.delivered
    rw [hd] at hmem hsorted ⊢
    rw [List.concat_eq_append] at hmem hsorted ⊢
    rw [List.getLast?_concat, hl]
    rcases List.mem_append.mp hmem with hmem | hmem
    · -- everything delivered before `d` is at most as new
      have hge := (List.pairwise_append.mp hsorted).2.2 l hmem d List.mem_cons_self
      rw [heq (le_antisymm hle hge)]
    · rw [List.mem_singleton.mp hmem]

end Order

-- ---------------------------------------------------------------------------
-- One move
-- ---------------------------------------------------------------------------

/-- The file and its watcher, in the runs considered. -/
structure Tracked (compile : Str → Except GoError Regexp) (loads : Str → Except GoError Config)
    (startup : Config) (f : FileWatch) : Prop where
  order : InOrder loads f
  numbered : f.Numbered
  kept : f.Kept loads
  data : ∀ c, loads f.data = .ok c → SameKind compile startup c
  held : ∀ c, f.Holds c → SameKind compile startup c.2

section File

variable {f f' : FileWatch} {m : FileMove} {startup : Config}

/-- Every move but the firing of the timer leaves an armed timer armed, and every
move but a receive leaves what is delivered. -/
theorem FileWatch.next_frame (hn : f.next loads m = some f') :
    (m ≠ .fire → f.armed = true → f'.armed = true) ∧
      (m ≠ .receive → f'.delivered = f.delivered) := by
  cases m with
  | fire =>
    simp only [FileWatch.next] at hn
    split at hn
    · cases hn
      exact ⟨fun h => absurd rfl h, fun _ => rfl⟩
    · simp at hn
  | receive =>
    simp only [FileWatch.next] at hn
    split at hn
    · cases hn
      exact ⟨fun _ harmed => harmed, fun h => absurd rfl h⟩
    · simp at hn
  | event =>
    simp only [FileWatch.next] at hn
    split at hn
    · simp at hn
    · cases hn
      exact ⟨fun _ harmed => by simp [harmed], fun _ => rfl⟩
  | write data =>
    cases hn
    exact ⟨fun _ harmed => harmed, fun _ => rfl⟩
  | replace data ops =>
    simp only [FileWatch.next] at hn
    split at hn
    · cases hn
      exact ⟨fun _ harmed => harmed, fun _ => rfl⟩
    · simp at hn
  | load j =>
    simp only [FileWatch.next] at hn
    split at hn
    · split at hn
      all_goals
        cases hn
        exact ⟨fun _ harmed => harmed, fun _ => rfl⟩
    · simp at hn
  | remove j | add j =>
    simp only [FileWatch.next] at hn
    split at hn
    · cases hn
      exact ⟨fun _ harmed => harmed, fun _ => rfl⟩
    · simp at hn
  | send j =>
    simp only [FileWatch.next] at hn
    split at hn
    · split at hn
      · cases hn
        exact ⟨fun _ harmed => harmed, fun _ => rfl⟩
      · simp at hn
    · simp at hn

theorem watchStarted_tracked {data : Str} (hload : loads data = .ok startup) :
    Tracked compile loads startup (watchStarted data) where
  order := watchStarted_inOrder data
  numbered := watchStarted_numbered data
  kept := ⟨Or.inl rfl, fun c hm => nomatch hm⟩
  data c hc _ := by
    have hsame : loads data = .ok c := hc
    rw [hload] at hsame
    cases hsame
    rfl
  held c hc := by simp [watchStarted, FileWatch.Holds] at hc

/-- A step of the watcher holds nothing new but the content of the file. -/
theorem OwnTurn.held (ht : OwnTurn loads f f') :
    f'.data = f.data ∧ f'.lastValid = f.lastValid ∧
      ∀ c, f'.Holds c → f.Holds c ∨ loads f.data = .ok c.2 := by
  cases ht with
  | event he => exact ⟨rfl, rfl, fun c hc => Or.inl hc⟩
  | fire ha => exact ⟨rfl, rfl, fun c hc => Or.inl ((f.holds_fire c).mp hc)⟩
  | failed hj hl =>
    exact ⟨rfl, rfl, fun c hc => Or.inl ((FileWatch.holds_goto_same hj .done rfl c).mp hc)⟩
  | @loaded j cfg hj hl =>
    refine ⟨rfl, rfl, fun c hc => ?_⟩
    rcases (FileWatch.holds_loaded hj _ c).mp hc with rfl | hold
    · exact Or.inr hl
    · exact Or.inl hold
  | @remove j c hj =>
    exact ⟨rfl, rfl, fun c' hc => Or.inl ((FileWatch.holds_goto_same hj (.add c) rfl c').mp hc)⟩
  | @add j c hj =>
    exact ⟨rfl, rfl, fun c' hc => Or.inl ((FileWatch.holds_goto_same hj (.select c) rfl c').mp hc)⟩
  | send hj hb => exact ⟨rfl, rfl, fun c hc => Or.inl ((FileWatch.holds_send hj hb c).mp hc)⟩
  | receive hb => exact ⟨rfl, rfl, fun c hc => Or.inl ((FileWatch.holds_receive hb c).mp hc)⟩

/-- Every orderly move of the file and its watcher. -/
theorem Tracked.next (h : Tracked compile loads startup f) (htimely : f.Timely loads m)
    (hunhurried : f.Unhurried m) (hkind : KeepsKind compile loads startup m)
    (hn : f.next loads m = some f') : Tracked compile loads startup f' := by
  have hnumbered := FileWatch.numbered_next h.numbered hn
  cases hm : m.own with
  | true =>
    have ht := FileWatch.next_own hm hn
    obtain ⟨hdata, -, hheld⟩ := ht.held
    refine ⟨h.order.own ht fun harmed hoff => ?_, hnumbered, ht.kept_iff.mpr h.kept, ?_, ?_⟩
    · -- only the firing of the timer disarms it
      by_cases hfire : m = .fire
      · subst hfire
        exact hunhurried
      · rw [(FileWatch.next_frame hn).1 hfire harmed] at hoff
        simp at hoff
    · rw [hdata]
      exact h.data
    · intro c hc
      rcases hheld c hc with hold | hnew
      · exact h.held c hold
      · exact h.data c.2 hnew
  | false =>
    have hkept := (FileWatch.kept_iff_timely h.numbered hm hn).mpr htimely
    cases m with
    | write data =>
      cases hn
      exact ⟨h.order.put ⟨rfl, rfl, rfl⟩ ⟨rfl, rfl, rfl⟩, hnumbered, hkept, hkind,
        h.held⟩
    | replace data ops =>
      obtain ⟨events, -, rfl⟩ := FileWatch.next_replace h.numbered hn
      exact ⟨h.order.put ⟨rfl, rfl, rfl⟩ ⟨rfl, rfl, rfl⟩, hnumbered, hkept, hkind,
        h.held⟩
    | _ => simp [FileMove.own] at hm

end File

-- ---------------------------------------------------------------------------
-- The process
-- ---------------------------------------------------------------------------

/-- The process runs, and has been delivered what its watcher has delivered. -/
structure Deployed (compile : Str → Except GoError Regexp) (loads : Str → Except GoError Config)
    (startup : Config) (p₀ : Process) (d : Deployment) : Prop where
  file : Tracked compile loads startup d.file
  process : ∃ p hs, d.process = some p ∧ p₀.run compile hs = some p ∧
    delivered hs = d.file.delivered.map Prod.snd

section Run

variable {d d' : Deployment} {m : DeployMove} {startup : Config} {redis : Redis} {p₀ : Process}

/-- What the loop has no part in. -/
theorem Deployment.next_file (d : Deployment) {fm : FileMove} (hne : fm ≠ .receive) :
    d.next compile loads (.file fm) =
      if fm.own && d.process.isNone then none
      else (d.file.next loads fm).map fun f => { d with file := f } := by
  cases fm <;> first | rfl | exact absurd rfl hne

/-- Everything a move can do. -/
theorem Deployment.next_cases (hn : d.next compile loads m = some d') :
    (∃ p c f, m = .file .receive ∧ d.process = some p ∧ d.file.buffer = some c ∧
      d.file.next loads .receive = some f ∧ d' = ⟨f, p.reload compile c.2⟩) ∨
    (∃ fm f, m = .file fm ∧ fm ≠ .receive ∧ d.file.next loads fm = some f ∧
      d' = { d with file := f }) ∨
    (∃ p h, m.own = false ∧ d.process = some p ∧ delivered [h] = [] ∧
      d' = { d with process := p.next compile h }) := by
  cases m with
  | bind domain =>
    obtain ⟨p, hp, rfl⟩ := Option.map_eq_some_iff.mp hn
    exact Or.inr (Or.inr ⟨p, _, rfl, hp, rfl, rfl⟩)
  | use u =>
    obtain ⟨p, hp, rfl⟩ := Option.map_eq_some_iff.mp hn
    exact Or.inr (Or.inr ⟨p, _, rfl, hp, rfl, rfl⟩)
  | file fm =>
    by_cases hreceive : fm = .receive
    · subst hreceive
      simp only [Deployment.next] at hn
      split at hn
      · rename_i p c hp hc
        obtain ⟨f, hf, rfl⟩ := Option.map_eq_some_iff.mp hn
        exact Or.inl ⟨p, c, f, rfl, hp, hc, hf, rfl⟩
      · simp at hn
    · rw [d.next_file hreceive] at hn
      split at hn
      · simp at hn
      · obtain ⟨f, hf, rfl⟩ := Option.map_eq_some_iff.mp hn
        exact Or.inr (Or.inl ⟨fm, f, rfl, hreceive, hf, rfl⟩)

/-- Every orderly move. -/
theorem Deployed.next (h : Deployed compile loads startup p₀ d)
    (hstart : startProcess compile startup redis = some p₀)
    (hok : d.Orderly compile loads startup m) (hn : d.next compile loads m = some d') :
    Deployed compile loads startup p₀ d' := by
  obtain ⟨p, hs, hp, hrun, hdelivered⟩ := h.process
  rcases Deployment.next_cases hn with ⟨q, c, f, rfl, hq, hc, hf, rfl⟩ |
    ⟨fm, f, rfl, hne, hf, rfl⟩ | ⟨q, e, -, hq, he, rfl⟩
  · -- the loop reloads what it has received; the type of the engine does not change
    obtain rfl : p = q := Option.some.inj (hp.symm.trans hq)
    have hkind : SameKind compile startup c.2 := h.file.held c (Or.inr (Or.inl hc))
    have hf' : f.delivered = d.file.delivered ++ [c] := by
      simp only [FileWatch.next, hc, Option.some.injEq] at hf
      rw [← hf]
    have hall : delivered (hs ++ [.deliver c.2]) = f.delivered.map Prod.snd := by
      rw [delivered_snoc, hdelivered, hf', List.map_append]
      rfl
    have huniform : Uniform compile startup (delivered (hs ++ [.deliver c.2])) := by
      rw [delivered_snoc]
      intro c' hc'
      rcases List.mem_append.mp hc' with hold | hnew
      · exact (run_isSome_iff hs hstart).mp ⟨p, hrun⟩ c' hold
      · rw [List.mem_singleton.mp hnew]
        exact hkind
    obtain ⟨p', hp'⟩ := (run_isSome_iff _ hstart).mpr huniform
    have hreload : p.reload compile c.2 = some p' := by
      rw [Process.run_snoc, hrun, Option.bind_some] at hp'
      exact hp'
    exact ⟨h.file.next hok.1 hok.2.1 hok.2.2 hf, p', _, hreload, hp', hall⟩
  · refine ⟨h.file.next hok.1 hok.2.1 hok.2.2 hf, p, hs, hp, hrun, ?_⟩
    rw [(FileWatch.next_frame hf).2 hne]
    exact hdelivered
  · obtain rfl : p = q := Option.some.inj (hp.symm.trans hq)
    have hall : delivered (hs ++ [e]) = d.file.delivered.map Prod.snd := by
      rw [delivered_snoc, he, List.append_nil, hdelivered]
    obtain ⟨p', hp'⟩ : ∃ p', p₀.run compile (hs ++ [e]) = some p' := by
      rw [run_isSome_iff _ hstart, hall, ← hdelivered]
      exact (run_isSome_iff hs hstart).mp ⟨p, hrun⟩
    have hnext : p.next compile e = some p' := by
      rw [Process.run_snoc, hrun, Option.bind_some] at hp'
      exact hp'
    exact ⟨h.file, p', _, hnext, hp', hall⟩

-- ---------------------------------------------------------------------------
-- What is served
-- ---------------------------------------------------------------------------

/-- The last content that `Load` accepts, or that of the start. -/
def FileWatch.content (f : FileWatch) (startup : Config) : Config :=
  (f.lastValid.map Prod.snd).getD startup

/-- The process runs with the engine built from `c` and a classifier with the patterns
and the cap of that of `c`. -/
def Deployment.Serves (compile : Str → Except GoError Regexp) (d : Deployment) (c : Config) :
    Prop :=
  ∃ p k, d.process = some p ∧ buildEngine compile c = .ok p.engine ∧
    buildDomainClassifier compile c = .ok k ∧ p.classifier.patterns = k.patterns ∧
    p.classifier.maxDomains = k.maxDomains

theorem Deployed.serves (h : Deployed compile loads startup p₀ d)
    (hstart : startProcess compile startup redis = some p₀) (hrest : d.file.AtRest)
    (hvalid : valid compile (d.file.content startup) = true) :
    d.Serves compile (d.file.content startup) := by
  obtain ⟨p, hs, hp, hrun, hdelivered⟩ := h.process
  have hlive := run_live hstart hrun
  have hlast := h.file.order.last_delivered (hrest.kept_iff.mp h.file.kept)
  have hcurrent : p.currentCfg = d.file.content startup := by
    rw [hlive.current, hdelivered]
    unfold FileWatch.content at hvalid ⊢
    rcases List.eq_nil_or_concat d.file.delivered with hnil | ⟨cs, c, hcs⟩
    · rw [hnil, List.getLast?_nil] at hlast
      rw [hnil, ← hlast]
      rfl
    · rw [hcs, List.concat_eq_append, List.getLast?_concat] at hlast
      rw [← hlast] at hvalid ⊢
      rw [hcs, List.concat_eq_append, List.map_append, List.map_singleton, lastValid_snoc]
      exact if_pos hvalid
  obtain ⟨k, hk, hpatterns, hmax⟩ := hlive.classifier
  have hengine := hlive.engine
  rw [hcurrent] at hengine hk
  exact ⟨p, k, hp, hengine, hk, hpatterns, hmax⟩

/-- As long as something is pending, the watcher or the loop can take an orderly
step. -/
theorem Deployed.exists_own (h : Deployed compile loads startup p₀ d) (hrest : ¬ d.file.AtRest) :
    ∃ m d', m.own = true ∧ d.Orderly compile loads startup m ∧
      d.next compile loads m = some d' := by
  obtain ⟨p, -, hp, -, -⟩ := h.process
  -- a step of the watcher is a step of the process
  have hstep : ∀ fm : FileMove, fm.own = true → d.file.Unhurried fm →
      (d.file.next loads fm).isSome = true → ∃ m d', m.own = true ∧
        d.Orderly compile loads startup m ∧ d.next compile loads m = some d' := by
    intro fm hown hunhurried hsome
    have htimely : d.file.Timely loads fm ∧ KeepsKind compile loads startup fm := by
      cases fm <;> first | exact ⟨trivial, trivial⟩ | cases hown
    obtain ⟨f, hf⟩ := Option.isSome_iff_exists.mp hsome
    by_cases hreceive : fm = .receive
    · subst hreceive
      obtain ⟨c, hc⟩ : ∃ c, d.file.buffer = some c := by
        simp only [FileWatch.next] at hf
        split at hf
        · rename_i c hc
          exact ⟨c, hc⟩
        · simp at hf
      exact ⟨.file .receive, ⟨f, p.reload compile c.2⟩, rfl, ⟨htimely.1, hunhurried, htimely.2⟩,
        by simp only [Deployment.next, hp, hc, hf, Option.map_some]⟩
    · refine ⟨.file fm, { d with file := f }, hown, ⟨htimely.1, hunhurried, htimely.2⟩, ?_⟩
      rw [d.next_file hreceive, hp, hf]
      simp
  by_cases hbusy : ∀ pc ∈ d.file.reloads, pc = .done
  · obtain ⟨fm, hown, hsome⟩ := FileWatch.exists_own loads hrest
    refine hstep fm hown ?_ hsome
    cases fm <;> first | exact hbusy | exact trivial
  · push Not at hbusy
    obtain ⟨pc, hmem, hpc⟩ := hbusy
    obtain ⟨j, hj⟩ := List.getElem?_of_mem hmem
    cases pc with
    | load =>
      refine hstep (.load j) rfl trivial ?_
      cases hl : loads d.file.data with
      | error e => simp [FileWatch.next, hj, hl]
      | ok cfg => simp [FileWatch.next, hj, hl]
    | remove c => exact hstep (.remove j) rfl trivial (by simp [FileWatch.next, hj])
    | add c => exact hstep (.add j) rfl trivial (by simp [FileWatch.next, hj])
    | select c =>
      cases hb : d.file.buffer with
      | none => exact hstep (.send j) rfl trivial (by simp [FileWatch.next, hj, hb])
      | some b => exact hstep .receive rfl trivial (by simp [FileWatch.next, hb])
    | done => exact absurd rfl hpc

/-- A step of the watcher or the loop is one of the watcher. -/
theorem Deployment.own_turn (hm : m.own = true) (hn : d.next compile loads m = some d') :
    OwnTurn loads d.file d'.file := by
  rcases Deployment.next_cases hn with ⟨q, c, f, rfl, -, -, hf, rfl⟩ |
    ⟨fm, f, rfl, -, hf, rfl⟩ | ⟨q, e, hnot, -⟩
  · exact FileWatch.next_own rfl hf
  · exact FileWatch.next_own hm hf
  · rw [hm] at hnot
    simp at hnot

/-- Left alone, the watcher and the loop handle everything that is pending. -/
theorem Deployed.comes_to_rest (h : Deployed compile loads startup p₀ d)
    (hstart : startProcess compile startup redis = some p₀) :
    ∃ d', Run (Deployment.next compile loads)
        (fun d m => m.own = true ∧ d.Orderly compile loads startup m) d d' ∧
      d'.file.AtRest ∧ d'.file.lastValid = d.file.lastValid ∧
      Deployed compile loads startup p₀ d' := by
  -- on the number of steps that are left
  induction hw : d.file.weight using Nat.strong_induction_on generalizing d with
  | _ n ih =>
    by_cases hrest : d.file.AtRest
    · exact ⟨d, Relation.ReflTransGen.refl, hrest, rfl, h⟩
    · obtain ⟨m, d₁, hm, hok, hn⟩ := h.exists_own hrest
      have hturn := Deployment.own_turn hm hn
      have hlt := hturn.weight_lt
      obtain ⟨d', hrun, hrest', hlast, hd'⟩ :=
        ih d₁.file.weight (hw ▸ hlt) (h.next hstart hok hn) rfl
      exact ⟨d', Relation.ReflTransGen.head ⟨m, ⟨hm, hok⟩, hn⟩ hrun, hrest',
        hlast.trans hturn.held.2.1, hd'⟩

/-- **The file is served.** In every run, up to the shutdown of the process, in which
every write and replacement of the file is timely (`FileWatch.Timely`; so at rest the
file may be written in place, and may not be replaced), new content keeps the concrete
type of the engine, and no timer fires while a reload is under way: the process has not
panicked; whenever nothing is pending the file is watched, and if an engine can be built
from the last content that `Load` accepts, the process serves with this engine and its
classifier; and left alone, it comes to that. -/
theorem file_is_served {data : Str} (hload : loads data = .ok startup)
    (hstart : startProcess compile startup redis = some p₀)
    (h : Run (Deployment.next compile loads) (Deployment.Orderly compile loads startup)
      ⟨watchStarted data, some p₀⟩ d) :
    d.process.isSome = true ∧
    (d.file.AtRest → d.file.Watched ∧ (valid compile (d.file.content startup) = true →
      d.Serves compile (d.file.content startup))) ∧
    ∃ d', Run (Deployment.next compile loads)
        (fun d m => m.own = true ∧ d.Orderly compile loads startup m) d d' ∧
      d'.file.AtRest ∧ (valid compile (d.file.content startup) = true →
        d'.Serves compile (d.file.content startup)) := by
  have hd : Deployed compile loads startup p₀ d := by
    refine Run.invariant (I := Deployed compile loads startup p₀) h
      ⟨watchStarted_tracked hload, p₀, [], rfl, rfl, rfl⟩ ?_
    intro d m d' _ hd hok hn
    exact hd.next hstart hok hn
  obtain ⟨p, -, hp, -, -⟩ := hd.process
  refine ⟨by rw [hp]; rfl, fun hrest => ?_, ?_⟩
  · exact ⟨(hrest.kept_iff.mp hd.file.kept).1, hd.serves hstart hrest⟩
  · obtain ⟨d', hrun, hrest, hlast, hd'⟩ := hd.comes_to_rest hstart
    have hcontent : d'.file.content startup = d.file.content startup := by
      unfold FileWatch.content
      rw [hlast]
    refine ⟨d', hrun, hrest, fun hvalid => ?_⟩
    rw [← hcontent] at hvalid ⊢
    exact hd'.serves hstart hrest hvalid

end Run

-- ---------------------------------------------------------------------------
-- Two reloads
-- ---------------------------------------------------------------------------

/-- The default config with other default tokens. -/
def withTokens (n : UInt64) : Config :=
  defaultConfig.withEngine { defaultConfig.engine with defaultTokensPerFill := n }

/-- The file is written, the reload reads it, the file is written again, and the
second reload goes all the way before the first goes on. -/
def overtakingMoves : List DeployMove :=
  [.file (.write (tokensFile 2)), .file .event, .file .fire, .file (.load 0),
   .file (.write (tokensFile 3)), .file .event, .file .fire, .file (.load 1), .file (.remove 1),
   .file (.add 1), .file (.send 1), .file .receive,
   .file (.remove 0), .file (.add 0), .file (.send 0), .file .receive]

/-- No file has policies for this decoder. -/
theorem sampleLoads_policyList {data : Str} {c : Config} (h : sampleLoads data = .ok c) :
    c.engine.policyList = [] := by
  have hresolved : ∃ cfg : Config, cfg.engine.policies = none ∧ c = resolve sampleSources cfg := by
    simp only [sampleLoads, loadData, load, sampleSources] at h
    rw [if_neg (by decide)] at h
    split at h
    · cases h
    · rename_i cfg hcfg
      refine ⟨cfg, ?_, (Except.ok.inj h).symm⟩
      split at hcfg
      · exact Except.ok.inj hcfg ▸ rfl
      · split at hcfg
        · exact Except.ok.inj hcfg ▸ rfl
        · cases hcfg
  obtain ⟨cfg, hnone, rfl⟩ := hresolved
  rw [EngineConfig.policyList, resolve_engine]
  simp [EngineConfig.resolveDeprecated, hnone]

theorem sampleLoads_keepsKind (m : FileMove) :
    KeepsKind compileAny sampleLoads (withTokens 1) m := by
  have hkind : ∀ data c, sampleLoads data = .ok c → SameKind compileAny (withTokens 1) c := by
    intro data c hc _
    rw [sampleLoads_policyList hc]
    rfl
  cases m <;> first | exact hkind _ | exact trivial

/-- The file is written, and the reload goes all the way. -/
def servedMoves : List DeployMove :=
  [.file (.write (tokensFile 2)), .file .event, .file .fire, .file (.load 0), .file (.remove 0),
   .file (.add 0), .file (.send 0), .file .receive]

/-- A write in place is read, delivered and served. -/
theorem file_is_served_written :
    ∃ p₀ d, startProcess compileAny (withTokens 1) emptyRedis = some p₀ ∧
      Run (Deployment.next compileAny sampleLoads)
        (Deployment.Orderly compileAny sampleLoads (withTokens 1))
        ⟨watchStarted (tokensFile 1), some p₀⟩ d ∧
      d.file.AtRest ∧ d.file.content (withTokens 1) = withTokens 2 ∧
      d.Serves compileAny (withTokens 2) := by
  have hok : ∀ (d : Deployment) (m : DeployMove), (match m with
      | .file m => decide (d.file.Timely sampleLoads m) && decide (d.file.Unhurried m)
      | _ => true) = true → d.Orderly compileAny sampleLoads (withTokens 1) m := by
    intro d m hm
    cases m with
    | file m =>
      simp only [Bool.and_eq_true, decide_eq_true_eq] at hm
      exact ⟨hm.1, hm.2, sampleLoads_keepsKind m⟩
    | bind domain => exact trivial
    | use u => exact trivial
  obtain ⟨d, hrun, hrest, hcontent⟩ : ∃ d, Run (Deployment.next compileAny sampleLoads)
      (Deployment.Orderly compileAny sampleLoads (withTokens 1))
        ⟨watchStarted (tokensFile 1), startProcess compileAny (withTokens 1) emptyRedis⟩ d ∧
      d.file.AtRest ∧ d.file.content (withTokens 1) = withTokens 2 :=
    ⟨_, run_exec_of (Deployment.next compileAny sampleLoads) hok _ servedMoves rfl,
      ⟨rfl, rfl, rfl, by decide⟩, rfl⟩
  have hserved := (file_is_served rfl rfl hrun).2.1 hrest
  rw [hcontent] at hserved
  exact ⟨_, d, rfl, hrun, hrest, hcontent, hserved.2 rfl⟩

/-- A reload that is overtaken sends the older content last: nothing is pending, and
the process does not serve what the file says. -/
theorem overtaken_reload_is_served :
    ∃ p₀ d, startProcess compileAny (withTokens 1) emptyRedis = some p₀ ∧
      Run (Deployment.next compileAny sampleLoads) free ⟨watchStarted (tokensFile 1), some p₀⟩ d ∧
      d.file.AtRest ∧ d.file.Watched ∧ d.file.content (withTokens 1) = withTokens 3 ∧
      d.Serves compileAny (withTokens 2) ∧ ¬ d.Serves compileAny (withTokens 3) := by
  have hrun := run_exec_free (Deployment.next compileAny sampleLoads)
    ⟨watchStarted (tokensFile 1), startProcess compileAny (withTokens 1) emptyRedis⟩
    overtakingMoves rfl
  refine ⟨_, _, rfl, hrun, ⟨rfl, rfl, rfl, by decide⟩, rfl, rfl,
    ⟨_, _, rfl, rfl, rfl, rfl, rfl⟩, ?_⟩
  rintro ⟨p, k, hp, he, -⟩
  cases hp
  have hengine := EngineValue.default.inj (Except.ok.inj he)
  have hstrategy := Option.some.inj (congrArg DefaultEngineConfig.defaultStrategy hengine)
  exact absurd hstrategy (by decide)

end Rlqs
