import Rlqs.Lib.Interleave
import Rlqs.Config.FileWatch
import Rlqs.Config.Load

/-!
# RLQS config — does the config file stay watched?

Only a reload that has loaded the file adds the watch again, and only `Write` and
`Create` lead to a reload. A replacement while the watcher is at rest is therefore
never noticed, and neither is any change after it (`replacement_ends_reloading`).
A write between `fsw.Remove` and `fsw.Add` is lost as well; and content that `Load`
rejects hides valid content that no reload has read yet.

What will become of the watch and of the last valid content once everything that is
pending has been handled can be read off any state (`FileWatch.Kept`). No step of
the watcher changes it, so that it is decided by the writes and replacements alone,
each in the state it comes in (`FileWatch.Timely`).

* `OwnTurn.kept_iff` — the steps of the watcher change nothing about the outcome;
* `FileWatch.kept_iff_timely` — what a write or a replacement makes of it;
* `FileWatch.comes_to_rest` — left alone, the watcher handles what is pending;
* `config_file_stays_watched` — the runs in which the file stays watched and the
  last valid content is delivered, and that every other write or replacement breaks
  it.
-/

namespace Rlqs

open Steps Interleave

section Rewatch

variable {loads : Str → Except GoError Config} {f f' : FileWatch} {m : FileMove}

-- ---------------------------------------------------------------------------
-- What is still to come
-- ---------------------------------------------------------------------------

/-- The config that a reload has loaded and not sent. -/
def RewatchPC.loaded : RewatchPC → Option Loaded
  | .remove c | .add c | .select c => some c
  | .load | .done => none

/-- The reload has still to add the watch. -/
def RewatchPC.adding : RewatchPC → Bool
  | .remove _ | .add _ => true
  | .load | .select _ | .done => false

namespace FileWatch

/-- The file will be loaded: a reload is about to, or a timer is armed, or an event
that arms it is waiting. -/
def Due (f : FileWatch) : Prop :=
  f.armed = true ∨ (∃ op ∈ f.events, op.triggers = true) ∨ ∃ pc ∈ f.reloads, pc = .load

/-- A reload will add the watch. -/
def Adding (f : FileWatch) : Prop := ∃ pc ∈ f.reloads, pc.adding = true

/-- The config has been loaded, and is delivered or on its way. -/
def Holds (f : FileWatch) (c : Loaded) : Prop :=
  c ∈ f.delivered ∨ f.buffer = some c ∨ ∃ pc ∈ f.reloads, pc.loaded = some c

/-- The last valid content has been loaded. -/
def Caught (f : FileWatch) : Prop := ∀ c ∈ f.lastValid, f.Holds c

instance dueDecidable (f : FileWatch) : Decidable f.Due :=
  inferInstanceAs (Decidable (_ ∨ (∃ op ∈ f.events, op.triggers = true) ∨ ∃ pc ∈ f.reloads, _))

instance addingDecidable (f : FileWatch) : Decidable f.Adding :=
  inferInstanceAs (Decidable (∃ pc ∈ f.reloads, pc.adding = true))

instance holdsDecidable (f : FileWatch) (c : Loaded) : Decidable (f.Holds c) :=
  inferInstanceAs (Decidable (_ ∨ _ ∨ ∃ pc ∈ f.reloads, pc.loaded = some c))

instance caughtDecidable (f : FileWatch) : Decidable f.Caught :=
  inferInstanceAs (Decidable (∀ c ∈ f.lastValid, f.Holds c))

/-- Nothing is pending: no event, no timer, no reload and no config in the
channel. -/
def AtRest (f : FileWatch) : Prop :=
  f.events = [] ∧ f.armed = false ∧ f.buffer = none ∧ ∀ pc ∈ f.reloads, pc = .done

/-- The file at the path is watched, and the last valid content is delivered. -/
def UpToDate (f : FileWatch) : Prop := f.Watched ∧ ∀ c ∈ f.lastValid, c ∈ f.delivered

end FileWatch

variable (loads) in
/-- The file is watched or will be, and the last valid content is loaded or will be. -/
structure FileWatch.Kept (f : FileWatch) : Prop where
  watch : f.Watched ∨ f.Adding ∨ (f.Due ∧ ∃ cfg, loads f.data = .ok cfg)
  config : ∀ c ∈ f.lastValid, f.Holds c ∨ (f.Due ∧ c.1 = f.version ∧ loads f.data = .ok c.2)

-- ---------------------------------------------------------------------------
-- Steps of the watcher
-- ---------------------------------------------------------------------------

section Goto

variable {j : ℕ} {pc : RewatchPC} (hj : f.reloads[j]? = some pc) (pc' : RewatchPC)

include hj

/-- A reload that neither was about to load nor is now changes nothing that is due. -/
theorem FileWatch.due_goto (hpc : pc ≠ .load) (hpc' : pc' ≠ .load) :
    (f.goto j pc').Due ↔ f.Due := by
  have hset := exists_mem_set pc' (· = RewatchPC.load) hj
  simp only [hpc, hpc', false_or] at hset
  unfold FileWatch.Due
  exact or_congr_right (or_congr_right hset)

theorem FileWatch.adding_goto (hpc : pc.adding = false) (hpc' : pc'.adding = false) :
    (f.goto j pc').Adding ↔ f.Adding := by
  have hset := exists_mem_set pc' (fun pc => pc.adding = true) hj
  simp only [hpc, hpc', Bool.false_eq_true, false_or] at hset
  exact hset

theorem FileWatch.holds_goto (c : Loaded) :
    (pc.loaded = some c ∨ (f.goto j pc').Holds c) ↔ (pc'.loaded = some c ∨ f.Holds c) := by
  have hset := exists_mem_set pc' (fun pc => pc.loaded = some c) hj
  unfold FileWatch.Holds FileWatch.goto
  dsimp only
  generalize (∃ q ∈ f.reloads.set j pc', q.loaded = some c) = held' at hset ⊢
  generalize (∃ q ∈ f.reloads, q.loaded = some c) = held at hset ⊢
  tauto

/-- A reload moves on with the config it has. -/
theorem FileWatch.holds_goto_same (hpc : pc.loaded = pc'.loaded) (c : Loaded) :
    (f.goto j pc').Holds c ↔ f.Holds c := by
  have hlt := (List.getElem?_eq_some_iff.mp hj).1
  have hgoto := FileWatch.holds_goto hj pc' c
  rw [← hpc] at hgoto
  by_cases hc : pc.loaded = some c
  · exact iff_of_true (Or.inr (Or.inr ⟨pc', List.mem_set hlt _, hpc ▸ hc⟩))
      (Or.inr (Or.inr ⟨pc, List.mem_of_getElem? hj, hc⟩))
  · simpa only [hc, false_or] using hgoto

end Goto

theorem FileWatch.holds_fire (f : FileWatch) (c : Loaded) :
    ({ f with armed := false, reloads := f.reloads ++ [.load] } : FileWatch).Holds c ↔
      f.Holds c := by
  simp [FileWatch.Holds, RewatchPC.loaded, or_and_right, exists_or]

theorem FileWatch.holds_loaded {j : ℕ} (hj : f.reloads[j]? = some .load) (c c' : Loaded) :
    (f.goto j (.remove c)).Holds c' ↔ (c' = c ∨ f.Holds c') := by
  have hgoto := FileWatch.holds_goto hj (.remove c) c'
  simpa only [RewatchPC.loaded, reduceCtorEq, false_or, Option.some.injEq, eq_comm] using hgoto

theorem FileWatch.holds_send {j : ℕ} {c : Loaded} (hj : f.reloads[j]? = some (.select c))
    (hb : f.buffer = none) (c' : Loaded) :
    ({ f.goto j .done with buffer := some c } : FileWatch).Holds c' ↔ f.Holds c' := by
  have hgoto := FileWatch.holds_goto hj .done c'
  unfold FileWatch.Holds FileWatch.goto at hgoto ⊢
  simp only [RewatchPC.loaded, hb, reduceCtorEq, false_or] at hgoto ⊢
  rw [← hgoto, or_left_comm]

theorem FileWatch.holds_receive {c : Loaded} (hb : f.buffer = some c) (c' : Loaded) :
    ({ f with buffer := none, delivered := f.delivered ++ [c] } : FileWatch).Holds c' ↔
      f.Holds c' := by
  unfold FileWatch.Holds
  rw [hb]
  simp only [List.mem_append, List.mem_singleton, reduceCtorEq, false_or, or_assoc,
    Option.some.injEq, eq_comm (a := c)]

/-- The parts of `Kept` that a step may leave alone. -/
theorem FileWatch.kept_congr (hfile : f'.data = f.data ∧ f'.version = f.version ∧
      f'.lastValid = f.lastValid)
    (hwatch : f'.Watched ∨ f'.Adding ↔ f.Watched ∨ f.Adding)
    (hdue : ∀ cfg, loads f.data = .ok cfg → (f'.Due ↔ f.Due))
    (hholds : ∀ c, f'.Holds c ↔ f.Holds c) : f'.Kept loads ↔ f.Kept loads := by
  obtain ⟨hdata, hversion, hvalid⟩ := hfile
  have hdue' : ∀ cfg, (f'.Due ∧ loads f.data = .ok cfg) ↔ (f.Due ∧ loads f.data = .ok cfg) := by
    intro cfg
    exact and_congr_left (hdue cfg)
  have hw : (f'.Watched ∨ f'.Adding ∨ (f'.Due ∧ ∃ cfg, loads f'.data = .ok cfg)) ↔
      (f.Watched ∨ f.Adding ∨ (f.Due ∧ ∃ cfg, loads f.data = .ok cfg)) := by
    rw [← or_assoc, ← or_assoc, hwatch, hdata, ← exists_and_left, ← exists_and_left]
    simp only [hdue']
  have hc : ∀ c, (f'.Holds c ∨ (f'.Due ∧ c.1 = f'.version ∧ loads f'.data = .ok c.2)) ↔
      (f.Holds c ∨ (f.Due ∧ c.1 = f.version ∧ loads f.data = .ok c.2)) := by
    intro c
    rw [hholds, hdata, hversion, and_left_comm, hdue', and_left_comm]
  constructor
  · rintro ⟨hkw, hkc⟩
    exact ⟨hw.mp hkw, fun c hm => (hc c).mp (hkc c (hvalid ▸ hm))⟩
  · rintro ⟨hkw, hkc⟩
    exact ⟨hw.mpr hkw, fun c hm => (hc c).mpr (hkc c (hvalid ▸ hm))⟩

/-- Loading valid content is what was due: afterwards the reload adds the watch
and has the config. -/
theorem FileWatch.kept_loaded {j : ℕ} {cfg : Config} (hj : f.reloads[j]? = some .load)
    (hl : loads f.data = .ok cfg) :
    (f.goto j (.remove (f.version, cfg))).Kept loads ↔ f.Kept loads := by
  have hdue : f.Due := Or.inr (Or.inr ⟨_, List.mem_of_getElem? hj, rfl⟩)
  have hlt := (List.getElem?_eq_some_iff.mp hj).1
  have hadding : (f.goto j (.remove (f.version, cfg))).Adding := ⟨_, List.mem_set hlt _, rfl⟩
  have hholds := FileWatch.holds_loaded hj (f.version, cfg)
  have hfresh : ∀ c : Loaded, (c.1 = f.version ∧ loads f.data = .ok c.2) ↔
      c = (f.version, cfg) := by
    intro c
    rw [hl, Except.ok.injEq, eq_comm (a := cfg), Prod.ext_iff]
  constructor
  · rintro ⟨-, hkc⟩
    refine ⟨Or.inr (Or.inr ⟨hdue, cfg, hl⟩), fun c hm => ?_⟩
    rcases hkc c hm with hc | ⟨-, hc⟩
    · rcases (hholds c).mp hc with hc | hc
      · exact Or.inr ⟨hdue, (hfresh c).mpr hc⟩
      · exact Or.inl hc
    · exact Or.inr ⟨hdue, hc⟩
  · rintro ⟨-, hkc⟩
    refine ⟨Or.inr (Or.inl hadding), fun c hm => Or.inl ((hholds c).mpr ?_)⟩
    rcases hkc c hm with hc | ⟨-, hc⟩
    · exact Or.inr hc
    · exact Or.inl ((hfresh c).mp hc)

/-- What will become of the watch and of the last valid content is changed by no
step of the watcher. -/
theorem OwnTurn.kept_iff (h : OwnTurn loads f f') : f'.Kept loads ↔ f.Kept loads := by
  cases h with
  | @event op ops he =>
    -- an event that triggers arms the timer
    refine FileWatch.kept_congr ⟨rfl, rfl, rfl⟩ Iff.rfl (fun _ _ => ?_) fun _ => Iff.rfl
    unfold FileWatch.Due
    rw [he]
    simp only [List.mem_cons, exists_eq_or_imp, Bool.or_eq_true, or_assoc]
  | fire ha =>
    refine FileWatch.kept_congr ⟨rfl, rfl, rfl⟩ ?_ (fun _ _ => ?_) f.holds_fire
    · simp [FileWatch.Watched, FileWatch.Adding, RewatchPC.adding, or_and_right, exists_or]
    · simp [FileWatch.Due, ha]
  | @failed j e hj hl =>
    refine FileWatch.kept_congr ⟨rfl, rfl, rfl⟩
      (or_congr_right (FileWatch.adding_goto hj _ rfl rfl)) (fun cfg hok => ?_)
      (FileWatch.holds_goto_same hj .done rfl)
    -- the content is not valid, so nothing hinges on its being due
    rw [hl] at hok
    simp at hok
  | loaded hj hl => exact FileWatch.kept_loaded hj hl
  | @remove j c hj =>
    have hlt := (List.getElem?_eq_some_iff.mp hj).1
    refine FileWatch.kept_congr ⟨rfl, rfl, rfl⟩ ?_
      (fun _ _ => FileWatch.due_goto hj _ (by simp) (by simp))
      (FileWatch.holds_goto_same hj (.add c) rfl)
    exact iff_of_true (Or.inr ⟨_, List.mem_set hlt _, rfl⟩)
      (Or.inr ⟨_, List.mem_of_getElem? hj, rfl⟩)
  | @add j c hj =>
    refine FileWatch.kept_congr ⟨rfl, rfl, rfl⟩ ?_
      (fun _ _ => FileWatch.due_goto hj _ (by simp) (by simp))
      (FileWatch.holds_goto_same hj (.select c) rfl)
    exact iff_of_true (Or.inl rfl) (Or.inr ⟨_, List.mem_of_getElem? hj, rfl⟩)
  | send hj hb =>
    exact FileWatch.kept_congr ⟨rfl, rfl, rfl⟩
      (or_congr_right (FileWatch.adding_goto hj _ rfl rfl))
      (fun _ _ => FileWatch.due_goto hj _ (by simp) (by simp)) (FileWatch.holds_send hj hb)
  | receive hb =>
    exact FileWatch.kept_congr ⟨rfl, rfl, rfl⟩ Iff.rfl (fun _ _ => Iff.rfl)
      (FileWatch.holds_receive hb)

-- ---------------------------------------------------------------------------
-- Writes and replacements
-- ---------------------------------------------------------------------------

/-- The watch is on the file at the path or gone, and no config is newer than the
file. -/
structure FileWatch.Numbered (f : FileWatch) : Prop where
  watch : f.watch = none ∨ f.Watched
  holds : ∀ c, f.Holds c → c.1 ≤ f.version

theorem watchStarted_numbered (data : Str) : (watchStarted data).Numbered :=
  ⟨Or.inr rfl, fun c hc => by simp [watchStarted, FileWatch.Holds] at hc⟩

theorem OwnTurn.numbered (hf : f.Numbered) (h : OwnTurn loads f f') : f'.Numbered := by
  cases h with
  | event he => exact ⟨hf.watch, hf.holds⟩
  | fire ha => exact ⟨hf.watch, fun c hc => hf.holds c ((f.holds_fire c).mp hc)⟩
  | failed hj hl =>
    exact ⟨hf.watch, fun c hc => hf.holds c ((FileWatch.holds_goto_same hj .done rfl c).mp hc)⟩
  | loaded hj hl =>
    refine ⟨hf.watch, fun c hc => ?_⟩
    rcases (FileWatch.holds_loaded hj _ c).mp hc with rfl | hc
    · exact le_rfl
    · exact hf.holds c hc
  | @remove j c hj =>
    exact ⟨Or.inl rfl,
      fun c' hc => hf.holds c' ((FileWatch.holds_goto_same hj (.add c) rfl c').mp hc)⟩
  | @add j c hj =>
    exact ⟨Or.inr rfl,
      fun c' hc => hf.holds c' ((FileWatch.holds_goto_same hj (.select c) rfl c').mp hc)⟩
  | send hj hb => exact ⟨hf.watch, fun c hc => hf.holds c ((FileWatch.holds_send hj hb c).mp hc)⟩
  | receive hb => exact ⟨hf.watch, fun c hc => hf.holds c ((FileWatch.holds_receive hb c).mp hc)⟩

/-- A replacement takes the watch away, and none of the events it causes triggers. -/
theorem FileWatch.next_replace {data : Str} {ops : List FsOp} (hf : f.Numbered)
    (h : f.next loads (.replace data ops) = some f') :
    ∃ events, (∀ op ∈ events, op.triggers = false) ∧
      f' = { f.put loads data with
        inode := f.inode + 1, watch := none, events := f.events ++ events } := by
  simp only [FileWatch.next] at h
  split at h
  · rename_i hops
    cases h
    by_cases hw : f.Watched
    · refine ⟨ops, ?_, by rw [if_pos hw, if_pos hw]⟩
      simpa using hops
    · have hnone : f.watch = none := hf.watch.resolve_right hw
      exact ⟨[], by simp, by rw [if_neg hw, if_neg hw, hnone, List.append_nil]⟩
  · simp at h

theorem FileWatch.numbered_next (hf : f.Numbered) (h : f.next loads m = some f') :
    f'.Numbered := by
  cases hm : m.own with
  | true => exact OwnTurn.numbered hf (FileWatch.next_own hm h)
  | false =>
    -- new content leaves the configs where they are and has a higher version
    have hle : ∀ c, f.Holds c → c.1 ≤ f.version + 1 := by
      intro c hc
      have := hf.holds c hc
      omega
    cases m with
    | write data =>
      cases h
      exact ⟨hf.watch, hle⟩
    | replace data ops =>
      obtain ⟨events, -, rfl⟩ := FileWatch.next_replace hf h
      exact ⟨Or.inl rfl, hle⟩
    | _ => simp [FileMove.own] at hm

/-- After new content, everything hangs on whether it is loaded, or, when it is not
valid, on what was there before. -/
theorem FileWatch.kept_put {data : Str} (hf : f.Numbered) (hfile : f'.data = data ∧
      f'.version = f.version + 1 ∧ f'.lastValid = (f.put loads data).lastValid)
    (hholds : ∀ c, f'.Holds c ↔ f.Holds c) :
    f'.Kept loads ↔
      if (loads data).isOk then f'.Due else (f'.Watched ∨ f'.Adding) ∧ f.Caught := by
  obtain ⟨rfl, hversion, hvalid⟩ := hfile
  cases hl : loads f'.data with
  | ok cfg =>
    have hlast : f'.lastValid = some (f.version + 1, cfg) := by
      rw [hvalid, FileWatch.put, hl]
    constructor
    · rintro ⟨-, hkc⟩
      rcases hkc _ hlast with hold | ⟨hdue, -⟩
      · -- nothing that is held is that new
        have hle := hf.holds _ ((hholds _).mp hold)
        dsimp only at hle
        omega
      · exact hdue
    · intro hdue
      refine ⟨Or.inr (Or.inr ⟨hdue, cfg, hl⟩), fun c hm => Or.inr ⟨hdue, ?_⟩⟩
      rw [hlast, Option.mem_some_iff] at hm
      subst hm
      exact ⟨hversion.symm, hl⟩
  | error e =>
    have hlast : f'.lastValid = f.lastValid := by
      rw [hvalid, FileWatch.put, hl]
    have hno : ∀ {cfg : Config}, (Except.error e : Except GoError Config) ≠ .ok cfg := by simp
    constructor
    · rintro ⟨hkw, hkc⟩
      rw [hl] at hkw hkc
      refine ⟨?_, fun c hm => ?_⟩
      · rcases hkw with hw | ha | ⟨-, cfg, hcfg⟩
        · exact Or.inl hw
        · exact Or.inr ha
        · exact absurd hcfg hno
      · rcases hkc c (hlast ▸ hm) with hc | ⟨-, -, hcfg⟩
        · exact (hholds c).mp hc
        · exact absurd hcfg hno
    · rintro ⟨hkw, hkc⟩
      refine ⟨?_, fun c hm => Or.inl ((hholds c).mpr (hkc c (hlast ▸ hm)))⟩
      rcases hkw with hw | ha
      · exact Or.inl hw
      · exact Or.inr (Or.inl ha)

variable (loads) in
/-- The condition on a write or replacement, in the state before it. Valid content
must come while the file is about to be loaded anyway, or, when it is written in
place, while it is watched. Content that `Load` rejects must come when the last
valid content has been loaded already, and while a reload is about to add the
watch, or, when it is written in place, while the file is watched. -/
def FileWatch.Timely (f : FileWatch) : FileMove → Prop
  | .write data =>
    if (loads data).isOk then f.Watched ∨ f.Due else (f.Watched ∨ f.Adding) ∧ f.Caught
  | .replace data _ => if (loads data).isOk then f.Due else f.Adding ∧ f.Caught
  | _ => True

instance timelyDecidable (f : FileWatch) (m : FileMove) : Decidable (f.Timely loads m) :=
  match m with
  | .write data => inferInstanceAs (Decidable (if (loads data).isOk then _ else _))
  | .replace data _ => inferInstanceAs (Decidable (if (loads data).isOk then _ else _))
  | .event | .fire | .load _ | .remove _ | .add _ | .send _ | .receive =>
    inferInstanceAs (Decidable True)

/-- The condition is exact for what the watcher will hold and deliver. -/
theorem FileWatch.kept_iff_timely (hf : f.Numbered) (hm : m.own = false)
    (h : f.next loads m = some f') : f'.Kept loads ↔ f.Timely loads m := by
  cases m with
  | write data =>
    have hf' := (Option.some.inj h).symm
    have hdue : f'.Due ↔ f.Watched ∨ f.Due := by
      subst hf'
      by_cases hw : f.Watched
      · simp [FileWatch.Due, hw, FsOp.triggers]
      · simp only [hw, false_or]
        exact Iff.rfl
    have hkept : f'.Kept loads ↔
        if (loads data).isOk then f'.Due else (f'.Watched ∨ f'.Adding) ∧ f.Caught := by
      subst hf'
      exact FileWatch.kept_put hf ⟨rfl, rfl, rfl⟩ fun _ => Iff.rfl
    rw [hkept, hdue, hf']
    exact Iff.rfl
  | replace data ops =>
    obtain ⟨events, htriggers, hf'⟩ := FileWatch.next_replace hf h
    have hdue : f'.Due ↔ f.Due := by
      have hquiet : ¬ ∃ op ∈ events, op.triggers = true := by
        rintro ⟨op, hop, ht⟩
        rw [htriggers op hop] at ht
        simp at ht
      simp only [hf', FileWatch.Due, FileWatch.put, List.mem_append, or_and_right, exists_or,
        hquiet, or_false]
    have hgone : ¬ f'.Watched := by
      subst hf'
      exact fun hw => nomatch hw
    have hkept : f'.Kept loads ↔
        if (loads data).isOk then f'.Due else (f'.Watched ∨ f'.Adding) ∧ f.Caught := by
      subst hf'
      exact FileWatch.kept_put hf ⟨rfl, rfl, rfl⟩ fun _ => Iff.rfl
    simp only [hkept, hdue, hgone, false_or]
    rw [hf']
    exact Iff.rfl
  | _ => simp [FileMove.own] at hm

-- ---------------------------------------------------------------------------
-- At rest
-- ---------------------------------------------------------------------------

/-- At rest the outcome is what it was going to be. -/
theorem FileWatch.AtRest.kept_iff (h : f.AtRest) : f.Kept loads ↔ f.UpToDate := by
  obtain ⟨hevents, harmed, hbuffer, hdone⟩ := h
  have hnone : ∀ {P : RewatchPC → Prop}, ¬ P .done → ¬ ∃ pc ∈ f.reloads, P pc := by
    rintro P hP ⟨pc, hmem, hpc⟩
    rw [hdone pc hmem] at hpc
    exact hP hpc
  have hdue : ¬ f.Due := by
    simp only [FileWatch.Due, hevents, harmed, hnone (P := (· = RewatchPC.load)) (by simp)]
    simp
  have hadding : ¬ f.Adding := hnone (by simp [RewatchPC.adding])
  have hholds : ∀ c, f.Holds c ↔ c ∈ f.delivered := by
    intro c
    simp only [FileWatch.Holds, hbuffer, reduceCtorEq,
      hnone (P := fun pc => pc.loaded = some c) (by simp [RewatchPC.loaded]), or_false]
  constructor
  · rintro ⟨hkw, hkc⟩
    simp only [hdue, hadding, hholds, false_and, or_false] at hkw hkc
    exact ⟨hkw, hkc⟩
  · rintro ⟨hw, hc⟩
    exact ⟨Or.inl hw, fun c hm => Or.inl ((hholds c).mpr (hc c hm))⟩

/-- How many steps a reload has still to take, at most. -/
def RewatchPC.weight : RewatchPC → ℕ
  | .load => 5
  | .remove _ => 4
  | .add _ => 3
  | .select _ => 2
  | .done => 0

/-- How many steps the watcher has still to take, at most: an event may arm the
timer, a timer start a reload, and a reload fill the channel. -/
def FileWatch.weight (f : FileWatch) : ℕ :=
  7 * f.events.length + 6 * f.armed.toNat + tally RewatchPC.weight f.reloads +
    f.buffer.toList.length

/-- A reload that moves on takes its own steps off. -/
theorem FileWatch.weight_goto {j : ℕ} {pc : RewatchPC} (hj : f.reloads[j]? = some pc)
    (pc' : RewatchPC) : (f.goto j pc').weight + pc.weight = f.weight + pc'.weight := by
  have hset := tally_set RewatchPC.weight pc' hj
  unfold FileWatch.weight FileWatch.goto
  dsimp only
  omega

theorem OwnTurn.weight_lt (h : OwnTurn loads f f') : f'.weight < f.weight := by
  cases h with
  | @event op ops he =>
    have harmed := Bool.toNat_le (f.armed || op.triggers)
    unfold FileWatch.weight
    dsimp only
    rw [he, List.length_cons]
    omega
  | fire ha =>
    unfold FileWatch.weight
    simp only [ha, tally_append, tally_cons, tally_nil, RewatchPC.weight, Bool.toNat_true,
      Bool.toNat_false]
    omega
  | failed hj hl =>
    have hgoto := FileWatch.weight_goto hj .done
    simp only [RewatchPC.weight] at hgoto
    omega
  | @loaded j cfg hj hl =>
    have hgoto := FileWatch.weight_goto hj (.remove (f.version, cfg))
    simp only [RewatchPC.weight] at hgoto
    omega
  | @remove j c hj =>
    have hgoto := FileWatch.weight_goto hj (.add c)
    simp only [RewatchPC.weight] at hgoto
    show (f.goto j (.add c)).weight < f.weight
    omega
  | @add j c hj =>
    have hgoto := FileWatch.weight_goto hj (.select c)
    simp only [RewatchPC.weight] at hgoto
    show (f.goto j (.select c)).weight < f.weight
    omega
  | @send j c hj hb =>
    -- what the reload gives up is more than what the channel gets
    have hgoto := FileWatch.weight_goto hj .done
    simp only [FileWatch.weight, FileWatch.goto, RewatchPC.weight, hb, Option.toList_some,
      Option.toList_none, List.length_cons, List.length_nil] at hgoto ⊢
    omega
  | receive hb =>
    unfold FileWatch.weight
    simp only [hb, Option.toList_some, Option.toList_none, List.length_cons, List.length_nil]
    omega

/-- As long as something is pending, the watcher can take a step. -/
theorem FileWatch.exists_own (loads : Str → Except GoError Config) (h : ¬ f.AtRest) :
    ∃ m : FileMove, m.own = true ∧ (f.next loads m).isSome = true := by
  by_cases hevents : f.events = []
  · cases harmed : f.armed with
    | true => exact ⟨.fire, rfl, by simp [FileWatch.next, harmed]⟩
    | false =>
      cases hbuffer : f.buffer with
      | some c => exact ⟨.receive, rfl, by simp [FileWatch.next, hbuffer]⟩
      | none =>
        obtain ⟨pc, hmem, hpc⟩ : ∃ pc ∈ f.reloads, pc ≠ .done := by
          by_contra hall
          exact h ⟨hevents, harmed, hbuffer, by simpa using hall⟩
        obtain ⟨j, hj⟩ := List.getElem?_of_mem hmem
        cases pc with
        | load =>
          refine ⟨.load j, rfl, ?_⟩
          cases hl : loads f.data with
          | error e => simp [FileWatch.next, hj, hl]
          | ok cfg => simp [FileWatch.next, hj, hl]
        | remove c => exact ⟨.remove j, rfl, by simp [FileWatch.next, hj]⟩
        | add c => exact ⟨.add j, rfl, by simp [FileWatch.next, hj]⟩
        | select c => exact ⟨.send j, rfl, by simp [FileWatch.next, hj, hbuffer]⟩
        | done => exact absurd rfl hpc
  · obtain ⟨op, ops, he⟩ := List.exists_cons_of_ne_nil hevents
    exact ⟨.event, rfl, by simp [FileWatch.next, he]⟩

variable (loads) in
/-- The watcher and its receiver go on, and the file is left alone. -/
def OwnRun : FileWatch → FileWatch → Prop := Run (FileWatch.next loads) fun _ m => m.own = true

/-- Left alone, the watcher handles everything that is pending. -/
theorem FileWatch.comes_to_rest (loads : Str → Except GoError Config) (f : FileWatch) :
    ∃ f', OwnRun loads f f' ∧ f'.AtRest := by
  -- on the number of steps that are left
  induction hn : f.weight using Nat.strong_induction_on generalizing f with
  | _ n ih =>
    by_cases hrest : f.AtRest
    · exact ⟨f, Relation.ReflTransGen.refl, hrest⟩
    · obtain ⟨m, hm, hsome⟩ := FileWatch.exists_own loads hrest
      obtain ⟨f₁, hstep⟩ := Option.isSome_iff_exists.mp hsome
      have hlt := (FileWatch.next_own hm hstep).weight_lt
      obtain ⟨f', hrun, hrest'⟩ := ih f₁.weight (hn ▸ hlt) f₁ rfl
      exact ⟨f', Relation.ReflTransGen.head ⟨m, hm, hstep⟩ hrun, hrest'⟩

-- ---------------------------------------------------------------------------
-- Whole runs
-- ---------------------------------------------------------------------------

theorem OwnRun.kept_iff (h : OwnRun loads f f') : f'.Kept loads ↔ f.Kept loads :=
  Run.invariant (I := fun g => g.Kept loads ↔ f.Kept loads) h Iff.rfl
    fun _ _ _ _ ih hm hn => (FileWatch.next_own hm hn).kept_iff.trans ih

/-- Whether the watcher ends up to date is settled before it takes a step. -/
theorem FileWatch.upToDate_at_rest_iff (f : FileWatch) :
    (∀ f', OwnRun loads f f' → f'.AtRest → f'.UpToDate) ↔ f.Kept loads := by
  constructor
  · intro h
    obtain ⟨f', hrun, hrest⟩ := f.comes_to_rest loads
    rw [← hrun.kept_iff, hrest.kept_iff]
    exact h f' hrun hrest
  · intro hkept f' hrun hrest
    exact hrest.kept_iff.mp (hrun.kept_iff.mpr hkept)

theorem run_kept {data : Str}
    (h : Run (FileWatch.next loads) (FileWatch.Timely loads) (watchStarted data) f) :
    f.Numbered ∧ f.Kept loads := by
  refine Run.invariant (I := fun f => f.Numbered ∧ f.Kept loads) h
    ⟨watchStarted_numbered data, Or.inl rfl, fun c hm => nomatch hm⟩ ?_
  rintro f m f' - ⟨hf, hkept⟩ htimely hn
  refine ⟨FileWatch.numbered_next hf hn, ?_⟩
  cases hm : m.own with
  | true => exact (FileWatch.next_own hm hn).kept_iff.mpr hkept
  | false => exact (FileWatch.kept_iff_timely hf hm hn).mpr htimely

/-- **When the config file stays watched.** In every run in which each write and
each replacement is timely, whenever nothing is pending the file at the path is
watched and the last valid content written has been delivered; and the watcher,
left alone, comes to rest. This is exact: after a move, the watcher ends up to date
whenever it comes to rest if and only if the move was timely. -/
theorem config_file_stays_watched {data : Str}
    (h : Run (FileWatch.next loads) (FileWatch.Timely loads) (watchStarted data) f) :
    (f.AtRest → f.UpToDate) ∧
    (∃ f', OwnRun loads f f' ∧ f'.AtRest) ∧
    ∀ m f', f.next loads m = some f' →
      ((∀ f'', OwnRun loads f' f'' → f''.AtRest → f''.UpToDate) ↔ f.Timely loads m) := by
  obtain ⟨hf, hkept⟩ := run_kept h
  refine ⟨fun hrest => hrest.kept_iff.mp hkept, f.comes_to_rest loads, fun m f' hn => ?_⟩
  rw [FileWatch.upToDate_at_rest_iff]
  cases hm : m.own with
  | true =>
    -- a step of the watcher is always timely
    have htimely : f.Timely loads m := by
      cases m with
      | write data => simp [FileMove.own] at hm
      | replace data ops => simp [FileMove.own] at hm
      | _ => exact trivial
    exact iff_of_true ((FileWatch.next_own hm hn).kept_iff.mpr hkept) htimely
  | false => exact FileWatch.kept_iff_timely hf hm hn

-- ---------------------------------------------------------------------------
-- A replacement at rest
-- ---------------------------------------------------------------------------

/-- Nothing is watched and no event that triggers, no timer and no reload is left. -/
structure FileWatch.Dead (f : FileWatch) : Prop where
  watch : f.watch = none
  events : ∀ op ∈ f.events, op.triggers = false
  armed : f.armed = false
  buffer : f.buffer = none
  reloads : ∀ pc ∈ f.reloads, pc = .done

/-- Nothing wakes a dead watcher up, whatever is done to the file. -/
theorem FileWatch.Dead.next (hd : f.Dead) (h : f.next loads m = some f') :
    f'.Dead ∧ f'.delivered = f.delivered := by
  have hunwatched : ¬ f.Watched := by
    unfold FileWatch.Watched
    rw [hd.watch]
    simp
  have hidle : ∀ {j : ℕ} {pc : RewatchPC}, pc ≠ .done → f.reloads[j]? ≠ some pc := by
    intro j pc hpc hj
    exact hpc (hd.reloads pc (List.mem_of_getElem? hj))
  cases hm : m.own with
  | true =>
    cases FileWatch.next_own hm h with
    | @event op ops he =>
      have htriggers := hd.events
      rw [he, List.forall_mem_cons] at htriggers
      refine ⟨⟨hd.watch, htriggers.2, ?_, hd.buffer, hd.reloads⟩, rfl⟩
      rw [hd.armed, htriggers.1]
      rfl
    | fire ha =>
      rw [hd.armed] at ha
      simp at ha
    | failed hj hl => exact absurd hj (hidle (by simp))
    | loaded hj hl => exact absurd hj (hidle (by simp))
    | remove hj => exact absurd hj (hidle (by simp))
    | add hj => exact absurd hj (hidle (by simp))
    | send hj hb => exact absurd hj (hidle (by simp))
    | receive hb =>
      rw [hd.buffer] at hb
      simp at hb
  | false =>
    cases m with
    | write data =>
      cases h
      refine ⟨⟨hd.watch, ?_, hd.armed, hd.buffer, hd.reloads⟩, rfl⟩
      rw [if_neg hunwatched]
      exact hd.events
    | replace data ops =>
      simp only [FileWatch.next] at h
      split at h
      · cases h
        exact ⟨⟨hd.watch, hd.events, hd.armed, hd.buffer, hd.reloads⟩, rfl⟩
      · simp at h
    | _ => simp [FileMove.own] at hm

/-- **A replacement at rest ends hot reloading for good.** Whatever happens to the
file and the watcher afterwards, the file is never watched again and nothing more
is delivered. -/
theorem replacement_ends_reloading {data₀ data : Str} {ops : List FsOp}
    (hrun : Run (FileWatch.next loads) free (watchStarted data₀) f) (hrest : f.AtRest)
    (h : f.next loads (.replace data ops) = some f') {f'' : FileWatch}
    (hrun' : Run (FileWatch.next loads) free f' f'') :
    f''.watch = none ∧ f''.delivered = f.delivered := by
  have hf : f.Numbered := Run.invariant hrun (watchStarted_numbered data₀)
    fun _ _ _ _ hf _ hn => FileWatch.numbered_next hf hn
  obtain ⟨hevents, harmed, hbuffer, hreloads⟩ := hrest
  obtain ⟨events, htriggers, rfl⟩ := FileWatch.next_replace hf h
  have hdead : FileWatch.Dead { f.put loads data with
      inode := f.inode + 1, watch := none, events := f.events ++ events } := by
    refine ⟨rfl, ?_, harmed, hbuffer, hreloads⟩
    rw [hevents]
    exact htriggers
  have hkept := Run.invariant (I := fun g => g.Dead ∧ g.delivered = f.delivered) hrun'
    ⟨hdead, rfl⟩ fun _ _ _ _ hg _ hn => by
      obtain ⟨hd, hdelivered⟩ := hg.1.next hn
      exact ⟨hd, hdelivered.trans hg.2⟩
  exact ⟨hkept.1.watch, hkept.2⟩

end Rewatch

-- ---------------------------------------------------------------------------
-- Two changes of the file
-- ---------------------------------------------------------------------------

/-- `Load` of a path whose file holds `data`. -/
def loadData (src : Sources) (path data : Str) : Except GoError Config :=
  load { src with readFile := fun _ => .ok data } path

/-- The path `c` of a file that holds `data`. -/
def sampleLoads : Str → Except GoError Config := loadData sampleSources [99]

/-- The file is atomically replaced by another valid one. `fsnotify` reports
`Chmod` and `Remove`, and the watcher is done with them. -/
def replacedMoves : List FileMove := [.replace (tokensFile 2) [.chmod, .remove], .event, .event]

/-- The replacement is never seen: nothing is pending, the file is not watched, and
its content is not delivered. -/
theorem replacement_is_never_seen :
    ∃ f, Run (FileWatch.next sampleLoads) free (watchStarted (tokensFile 1)) f ∧ f.AtRest ∧
      ¬ f.Watched ∧ f.lastValid.isSome = true ∧ f.delivered = [] := by
  have hrun := run_exec_free (FileWatch.next sampleLoads) (watchStarted (tokensFile 1))
    replacedMoves rfl
  exact ⟨_, hrun, ⟨rfl, rfl, rfl, by decide⟩, by decide, rfl, rfl⟩

/-- The file is written in place, and the reload goes all the way. -/
def writtenMoves : List FileMove :=
  [.write (tokensFile 2), .event, .fire, .load 0, .remove 0, .add 0, .send 0, .receive]

/-- A write in place is seen and delivered. -/
theorem write_is_delivered :
    ∃ f, Run (FileWatch.next sampleLoads) (FileWatch.Timely sampleLoads)
        (watchStarted (tokensFile 1)) f ∧
      f.AtRest ∧ f.lastValid.isSome = true ∧ f.UpToDate := by
  have hok : ∀ f m, decide (FileWatch.Timely sampleLoads f m) = true →
      FileWatch.Timely sampleLoads f m := fun _ _ hm => of_decide_eq_true hm
  obtain ⟨f, hrun, hrest, hvalid⟩ : ∃ f, Run (FileWatch.next sampleLoads)
      (FileWatch.Timely sampleLoads) (watchStarted (tokensFile 1)) f ∧ f.AtRest ∧
      f.lastValid.isSome = true :=
    ⟨_, run_exec_of (FileWatch.next sampleLoads) hok (watchStarted (tokensFile 1)) writtenMoves rfl,
      ⟨rfl, rfl, rfl, by decide⟩, rfl⟩
  exact ⟨f, hrun, hrest, hvalid, (config_file_stays_watched hrun).1 hrest⟩

end Rlqs
