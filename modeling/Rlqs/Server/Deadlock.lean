import Rlqs.Server.Exclusion

/-!
# RLQS server — every lock is released again

From every reachable state of the goroutines of `Server/Locks.lean`, those that
hold a lock can go on by themselves until every lock is free
(`locks_are_released`). So no two of them wait for each other, and whoever waits
for a lock can be served.

The one section that can take long is that of `ss.sendMu`: `stream.Send` returns when the
client reads, or when the stream ends, and neither is up to the server. So the streams on
which a `Send` never returns are a parameter here, `stuck`; their `ss.sendMu` may stay
taken, and all other locks are released all the same.

The order of the locks is `s.mu`, then `ss.mu`, then `ss.sendMu`: `StreamStats`
takes `ss.mu` under `s.mu`, and no section under `ss.mu` or `ss.sendMu` takes
another of these locks. Sections are short: `left` bounds the steps until a
goroutine holds no lock, and every step of a holder makes it smaller without
touching the bounds of the others.
-/

namespace Rlqs

open Interleave Steps Mutex

variable {σ : Type} [BucketStore σ] {cfg : Limits} {w w' : LockWorld σ} {store : σ}

-- ---------------------------------------------------------------------------
-- Sections end
-- ---------------------------------------------------------------------------

/-- The order in which locks are taken. -/
def Lock.rank : Lock → ℕ
  | .mu => 0
  | .ss _ => 1
  | .send _ => 2

/-- Only `StreamStats` takes a lock with another in its hands. -/
theorem order_of_wants {t : Thread} {l : Lock} (hl : t.wants cfg = some l) {m : Lock}
    (hm : m ∈ t.holds) : m = .mu ∧ ∃ i, l = .ss i := by
  cases t with
  | handler self pc =>
    cases pc <;> simp [Thread.wants] at hl
    simp [Thread.holds, FinePC.holds] at hm
  | push pc =>
    cases pc <;> simp [Thread.wants] at hl
    simp [Thread.holds, FinePushPC.holds] at hm
  | stats pc =>
    cases pc <;> simp [Thread.wants] at hl
    · simp [Thread.holds, StatsPC.holds] at hm
    · simp only [Thread.holds, StatsPC.holds, List.mem_singleton] at hm
      exact ⟨hm, _, hl.symm⟩

/-- What a `range` loop over `l` has still to give. -/
def toGive {α : Type} [DecidableEq α] (l got : List α) : ℕ :=
  (l.filter fun a => decide (a ∉ got)).length

theorem toGive_lt {α : Type} [DecidableEq α] {l got : List α} {a : α} (ha : a ∈ l)
    (hnew : a ∉ got) : toGive l (got ++ [a]) < toGive l got := by
  have hsplit : (l.filter fun b => decide (b ∉ got ++ [a])) =
      (l.filter fun b => decide (b ∉ got)).filter fun b => decide (b ≠ a) := by
    rw [List.filter_filter]
    congr 1
    funext b
    rw [← Bool.decide_and]
    congr 1
    simp [and_comm]
  unfold toGive
  rw [hsplit, List.length_filter_lt_length_iff_exists]
  exact ⟨a, List.mem_filter.mpr ⟨ha, by simpa using hnew⟩, by simp⟩

/-- The buckets of a stream. -/
def bucketsOf (hs : List FineHandler) (i : ℕ) : List BucketKey :=
  ((hs[i]?.map FineHandler.ss).map fun ss => ss.subscriptions.keys).getD []

/-- A bound on the steps a handler takes until it holds no lock. -/
def FinePC.left : FinePC → ℕ
  | .out _ => 0
  | .leave .. => 1
  | .register | .bindCheck .. | .trackPut _ | .incWrite .. | .abandonDelete _ | .decDelete ..
  | .sending .. | .unregister => 2
  | .bindMark _ | .trackLimit _ | .incRead .. | .abandonTest _ | .decTest .. => 3
  | .bindMetric .. | .trackTest _ | .decWrite .. => 4
  | .bindClassify _ | .decRead .. => 5
  | .bindDomain _ => 6
  | .bindTest _ => 7

def FinePushPC.left (hs : List FineHandler) : FinePushPC → ℕ
  | .out _ => 0
  | .leave .. => 1
  | .listing got => toGive (streamsOf hs) got + 2
  | .collectTest i _ => toGive (bucketsOf hs i) [] + 3
  | .collecting i _ got .. => toGive (bucketsOf hs i) got + 2
  | .sending .. => 2

def StatsPC.left (hs : List FineHandler) : StatsPC → ℕ
  | .call | .returned _ => 0
  | .unlocking _ => 1
  | .listing stats => 4 * toGive (streamsOf hs) (stats.map Prod.fst) + 2
  | .visiting i stats => 4 * toGive (streamsOf hs) (stats.map Prod.fst ++ [i]) + 5
  | .reading i stats => 4 * toGive (streamsOf hs) (stats.map Prod.fst ++ [i]) + 4
  | .leaving _ stats => 4 * toGive (streamsOf hs) (stats.map Prod.fst) + 3

def Thread.left (hs : List FineHandler) : Thread → ℕ
  | .handler _ pc => pc.left
  | .push pc => pc.left hs
  | .stats pc => pc.left hs

/-- What a goroutine still has to do depends only on what its locks protect. -/
theorem Thread.left_congr {hs hs' : List FineHandler} {t : Thread}
    (hmu : .mu ∈ t.holds → streamsOf hs' = streamsOf hs)
    (hss : ∀ i, .ss i ∈ t.holds → bucketsOf hs' i = bucketsOf hs i) :
    t.left hs' = t.left hs := by
  cases t with
  | handler self pc => rfl
  | push pc =>
    cases pc with
    | listing got =>
      simp only [Thread.left, FinePushPC.left]
      rw [hmu (List.mem_singleton_self _)]
    | collectTest i todo =>
      simp only [Thread.left, FinePushPC.left]
      rw [hss i (List.mem_singleton_self _)]
    | collecting i domain got reports todo =>
      simp only [Thread.left, FinePushPC.left]
      rw [hss i (List.mem_singleton_self _)]
    | _ => rfl
  | stats pc =>
    cases pc with
    | listing stats | visiting i stats | reading i stats | leaving i stats =>
      simp only [Thread.left, StatsPC.left]
      rw [hmu (by simp [Thread.holds, StatsPC.holds])]
    | _ => rfl

/-- Inside a section a handler always has a next step, and it comes closer to the
`Unlock`. -/
theorem fineStep_ready (cfg : Limits) (sh : Shared σ) (locks : Lock → Bool) {h : FineHandler}
    (hheld : h.pc.holds h.self ≠ []) :
    ∃ x c, fineStep cfg sh locks h x = some c ∧ c.2.2.pc.left < h.pc.left := by
  cases hpc : h.pc with
  | out pc =>
    rw [hpc] at hheld
    exact absurd rfl hheld
  | bindClassify req =>
    refine ⟨.label [], ?_⟩
    simp only [fineStep, hpc, innerStep]
    exact ⟨_, rfl, by simp [FinePC.left]⟩
  | sending v all =>
    refine ⟨.sent none, ?_⟩
    simp only [fineStep, hpc, innerStep]
    exact ⟨_, rfl, by simp [FinePC.left]⟩
  | bindTest req =>
    refine ⟨.tick, ?_⟩
    simp only [fineStep, hpc, innerStep]
    split
    · exact ⟨_, rfl, by simp [FinePC.left]⟩
    · split
      · exact ⟨_, rfl, by simp [FinePC.left]⟩
      · exact ⟨_, rfl, by simp [FinePC.left]⟩
  | bindCheck fresh req | trackTest t | trackLimit t | abandonTest t | decTest n key k =>
    refine ⟨.tick, ?_⟩
    simp only [fineStep, hpc, innerStep]
    split
    · exact ⟨_, rfl, by simp [FinePC.left]⟩
    · exact ⟨_, rfl, by simp [FinePC.left]⟩
  | _ =>
    refine ⟨.tick, ?_⟩
    simp only [fineStep, hpc, innerStep]
    exact ⟨_, rfl, by simp [FinePC.left]⟩

/-- The streams a push is going to visit or is at. -/
def PushPC.ahead : PushPC → List ℕ
  | .snapshot => []
  | .visit todo => todo
  | .process i _ _ todo | .send i _ todo => i :: todo

def FinePushPC.ahead : FinePushPC → List ℕ
  | .out pc | .leave _ pc => pc.ahead
  | .listing got => got
  | .collectTest i todo | .collecting i _ _ _ todo | .sending i _ todo => i :: todo

/-- The stream a call of `StreamStats` is at. -/
def StatsPC.ahead : StatsPC → List ℕ
  | .visiting i _ | .reading i _ => [i]
  | _ => []

theorem exists_handler {hs : List FineHandler} {i : ℕ} (hi : i < hs.length) :
    ∃ h, hs[i]? = some h := ⟨_, List.getElem?_eq_getElem hi⟩

theorem lt_of_mem_streamsOf {hs : List FineHandler} {i : ℕ} (h : i ∈ streamsOf hs) :
    i < hs.length := List.mem_range.mp (List.mem_of_mem_filter h)

theorem finePushStep_ready (v : ℕ) {hs : List FineHandler} (locks : Lock → Bool)
    {pc : FinePushPC} (hheld : pc.holds ≠ []) (hrange : ∀ i ∈ pc.ahead, i < hs.length) :
    ∃ x c, finePushStep v hs locks pc x = some c ∧ c.2.2.left c.1 < pc.left hs := by
  cases pc with
  | out pc => exact absurd rfl hheld
  | leave l pc => exact ⟨.tick, _, rfl, Nat.zero_lt_one⟩
  | listing got =>
    by_cases hall : ∀ i ∈ streamsOf hs, i ∈ got
    · refine ⟨.tick, (hs, locks, .leave .mu (.visit got)), ?_, ?_⟩
      · simp only [finePushStep, innerPushStep, if_pos hall, Option.map_some]
      · simp [FinePushPC.left]
    · push Not at hall
      obtain ⟨i, hi, hnew⟩ := hall
      refine ⟨.stream i, (hs, locks, .listing (got ++ [i])), ?_, ?_⟩
      · simp only [finePushStep, innerPushStep, if_pos (And.intro hi hnew), Option.map_some]
      · simpa [FinePushPC.left] using toGive_lt hi hnew
  | collectTest i todo =>
    obtain ⟨h, hh⟩ := exists_handler (hrange i List.mem_cons_self)
    refine ⟨.tick, ?_⟩
    simp only [finePushStep, innerPushStep, hh]
    split
    · exact ⟨_, rfl, by simp [FinePushPC.left]⟩
    · exact ⟨_, rfl, by simp [FinePushPC.left]⟩
  | collecting i domain got reports todo =>
    obtain ⟨h, hh⟩ := exists_handler (hrange i List.mem_cons_self)
    have hbuckets : bucketsOf hs i = h.ss.subscriptions.keys := by simp [bucketsOf, hh]
    by_cases hall : ∀ key ∈ h.ss.subscriptions.keys, key ∈ got
    · refine ⟨.tick, ?_⟩
      simp only [finePushStep, innerPushStep, hh, if_pos hall]
      exact ⟨_, rfl, by simp [FinePushPC.left]⟩
    · push Not at hall
      obtain ⟨key, hkey, hnew⟩ := hall
      obtain ⟨id, hid⟩ := Option.isSome_iff_exists.mp (AList.lookup_isSome.mpr hkey)
      refine ⟨.bucket key, ?_⟩
      simp only [finePushStep, innerPushStep, hh, Option.bind_some, hid, if_neg hnew]
      refine ⟨_, rfl, ?_⟩
      rw [← hbuckets] at hkey
      simpa [FinePushPC.left] using toGive_lt hkey hnew
  | sending i actions todo =>
    obtain ⟨h, hh⟩ := exists_handler (hrange i List.mem_cons_self)
    refine ⟨.sent none, ?_⟩
    simp only [finePushStep, innerPushStep, hh]
    exact ⟨_, rfl, by simp [FinePushPC.left]⟩

theorem statsStep_ready {hs : List FineHandler} {locks : Lock → Bool} {pc : StatsPC}
    (hheld : pc.holds ≠ []) (hrange : ∀ i ∈ pc.ahead, i < hs.length)
    (hfree : ∀ l, (Thread.stats pc).wants cfg = some l → locks l = false) :
    ∃ x c, statsStep hs locks pc x = some c ∧ c.2.left hs < pc.left hs := by
  cases pc with
  | call => exact absurd rfl hheld
  | returned stats => exact absurd rfl hheld
  | unlocking stats => exact ⟨.tick, _, rfl, Nat.zero_lt_one⟩
  | leaving i stats => exact ⟨.tick, _, rfl, Nat.lt_succ_self _⟩
  | visiting i stats =>
    refine ⟨.tick, (Function.update locks (.ss i) true, .reading i stats), ?_, Nat.lt_succ_self _⟩
    simp only [statsStep, hfree (.ss i) rfl, Bool.false_eq_true, if_false]
  | reading i stats =>
    obtain ⟨h, hh⟩ := exists_handler (hrange i (List.mem_singleton_self i))
    refine ⟨.tick, (locks, .leaving i (stats ++ [(i, h.ss.info)])), ?_, ?_⟩
    · simp only [statsStep, hh]
    · simp [StatsPC.left]
  | listing stats =>
    by_cases hall : ∀ i ∈ streamsOf hs, i ∈ stats.map Prod.fst
    · refine ⟨.tick, (locks, .unlocking stats), ?_, ?_⟩
      · simp only [statsStep, if_pos hall]
      · simp [StatsPC.left]
    · push Not at hall
      obtain ⟨i, hi, hnew⟩ := hall
      refine ⟨.stream i, (locks, .visiting i stats), ?_, ?_⟩
      · simp only [statsStep, if_pos (And.intro hi hnew)]
      · have hlt := toGive_lt hi hnew
        simp only [StatsPC.left]
        omega

-- ---------------------------------------------------------------------------
-- The streams that are visited
-- ---------------------------------------------------------------------------

/-- Pushes and calls of `StreamStats` visit streams there are. -/
structure LockWorld.InRange (w : LockWorld σ) : Prop where
  pushes : ∀ q ∈ w.pushes, ∀ i ∈ q.pc.ahead, i < w.handlers.length
  stats : ∀ pc ∈ w.stats, ∀ i ∈ pc.ahead, i < w.handlers.length

theorem FinePushTurn.ahead {v : ℕ} {hs hs' : List FineHandler} {locks locks' : Lock → Bool}
    {pc pc' : FinePushPC} (ht : FinePushTurn v hs locks pc hs' locks' pc')
    (hrange : ∀ i ∈ pc.ahead, i < hs.length) : ∀ i ∈ pc'.ahead, i < hs.length := by
  cases ht with
  | @lock pc l first hsec hfree =>
    unfold pushSectionOf at hsec
    split at hsec
    case h_4 => simp at hsec
    · cases hsec
      simp [FinePushPC.ahead]
    · cases hsec
      exact hrange
    · cases hsec
      exact hrange
  | @listed got i hreg hnew =>
    intro j hj
    rcases List.mem_append.mp hj with hj | hj
    · exact hrange j hj
    · rw [List.mem_singleton.mp hj]
      exact lt_of_mem_streamsOf hreg
  | unanswered | skipped | sent | sendFailed =>
    exact fun j hj => hrange j (List.mem_cons_of_mem _ hj)
  | _ => exact hrange

theorem StatsTurn.ahead {hs : List FineHandler} {locks locks' : Lock → Bool} {pc pc' : StatsPC}
    (ht : StatsTurn hs locks pc locks' pc') (hrange : ∀ i ∈ pc.ahead, i < hs.length) :
    ∀ i ∈ pc'.ahead, i < hs.length := by
  cases ht with
  | listed hreg hnew =>
    intro j hj
    rw [List.mem_singleton.mp hj]
    exact lt_of_mem_streamsOf hreg
  | lockStream => exact hrange
  | _ => exact fun j hj => nomatch hj

theorem LockWorld.InRange.turn {m : LockMove} (hr : w.InRange) (ht : LockTurn cfg w m w') :
    w'.InRange := by
  cases ht with
  | connect =>
    have hlt : w.handlers.length < (w.handlers ++ [newFineHandler w.handlers.length]).length := by
      simp
    exact ⟨fun q hq i hi => (hr.pushes q hq i hi).trans hlt,
      fun pc hpc i hi => (hr.stats pc hpc i hi).trans hlt⟩
  | swap =>
    refine ⟨fun q hq => ?_, hr.stats⟩
    rcases List.mem_append.mp hq with hq | hq
    · exact hr.pushes q hq
    · rw [List.mem_singleton.mp hq]
      exact fun i hi => nomatch hi
  | call =>
    refine ⟨hr.pushes, fun pc hpc => ?_⟩
    rcases List.mem_append.mp hpc with hpc | hpc
    · exact hr.stats pc hpc
    · rw [List.mem_singleton.mp hpc]
      exact fun i hi => nomatch hi
  | @handler i x h h' sh' locks' hh hturn =>
    have hlen : (w.handlers.set i h').length = w.handlers.length := List.length_set
    exact ⟨fun q hq i hi => hlen ▸ hr.pushes q hq i hi,
      fun pc hpc i hi => hlen ▸ hr.stats pc hpc i hi⟩
  | @push j x q hs' locks' pc' hq hturn =>
    have hlen : hs'.length = w.handlers.length := by
      have hmap := congrArg List.length hturn.map_thread
      simpa using hmap
    refine ⟨fun p hp i hi => ?_, fun pc hpc i hi => hlen ▸ hr.stats pc hpc i hi⟩
    show i < hs'.length
    rw [hlen]
    rcases mem_set_cases hp with rfl | hp
    · exact hturn.ahead (hr.pushes q (List.mem_of_getElem? hq)) i hi
    · exact hr.pushes p hp i hi
  | @stats j x pc pc' locks' hpc hturn =>
    refine ⟨hr.pushes, fun p hp => ?_⟩
    rcases mem_set_cases hp with rfl | hp
    · exact hturn.ahead (hr.stats pc (List.mem_of_getElem? hpc))
    · exact hr.stats p hp

theorem run_inRange (h : Run (LockWorld.next cfg) free (newLockWorld store) w) : w.InRange := by
  refine Run.invariant (I := LockWorld.InRange) h ⟨?_, ?_⟩ ?_
  · exact fun q hq => nomatch hq
  · exact fun pc hpc => nomatch hpc
  · intro w m w' _ hr _ hn
    exact hr.turn (LockWorld.next_turn hn)

-- ---------------------------------------------------------------------------
-- The holders go on
-- ---------------------------------------------------------------------------

/-- The goroutine that takes the step. -/
def LockWorld.mover (w : LockWorld σ) (m : LockMove) : Option Thread :=
  m.goroutine.bind w.thread

/-- A step of a goroutine that holds a lock, and is not inside a `Send` that never
returns. -/
def LockWorld.holderMoves (stuck : ℕ → Prop) (w : LockWorld σ) (m : LockMove) : Prop :=
  ∃ t, w.mover m = some t ∧ t.holds ≠ [] ∧ ∀ i, t.sending = some i → ¬ stuck i

/-- A lock whose holder is not inside a `Send` that never returns. -/
def Lock.Released (stuck : ℕ → Prop) (l : Lock) : Prop := ∀ i, l = .send i → ¬ stuck i

/-- A bound on the steps until no lock is taken. -/
def LockWorld.left (w : LockWorld σ) : ℕ := tally (Thread.left w.handlers) w.threads

theorem bucketsOf_set {hs : List FineHandler} {i j : ℕ} {h h' : FineHandler}
    (hh : hs[i]? = some h) (hss : i = j → h'.ss = h.ss) :
    bucketsOf (hs.set i h') j = bucketsOf hs j := by
  unfold bucketsOf
  rw [List.getElem?_set]
  split
  · rename_i hij
    rw [if_pos (List.getElem?_eq_some_iff.mp hh).1, ← hij, hh]
    simp [hss hij]
  · rfl

/-- Replacing one goroutine by one with less to do, when the others have as much to
do as before. -/
theorem left_lt {hs hs' : List FineHandler} {ts ts' rest : List Thread} {t t' : Thread}
    (hts : ts.Perm (t :: rest)) (hts' : ts'.Perm (t' :: rest)) (hlt : t'.left hs' < t.left hs)
    (hrest : ∀ u ∈ rest, u.left hs' = u.left hs) :
    tally (Thread.left hs') ts' < tally (Thread.left hs) ts := by
  rw [tally_perm hts, tally_perm hts', tally_cons, tally_cons, tally_congr hrest]
  omega

/-- A handler inside a section takes a step. -/
theorem LockWorld.Locked.handler_moves (cfg : Limits) (hw : w.Locked) {h : FineHandler}
    (hmem : h ∈ w.handlers) (hheld : h.thread.holds ≠ []) :
    ∃ m w', w.mover m = some h.thread ∧ w.next cfg m = some w' ∧ w'.left < w.left := by
  obtain ⟨i, hh⟩ := List.getElem?_of_mem hmem
  obtain ⟨x, ⟨sh', locks', h'⟩, hstep, hlt⟩ := fineStep_ready cfg w.shared w.locks hheld
  have hturn := fineStep_turn hstep
  obtain ⟨rest, hts, hset⟩ := LockWorld.handler_others hh
  refine ⟨.handler i x, { w with shared := sh', locks := locks', handlers := w.handlers.set i h' },
    LockWorld.thread_handler hh, by simp [LockWorld.next, hh, hstep], ?_⟩
  refine left_lt hts (hset h') hlt ?_
  -- the others hold none of the locks under which this step changes anything
  have hother := (hts.pairwise_iff fun hdis l hu ht => hdis l ht hu).mp hw.consistent.pairwise
  intro u hu
  have hdis := (List.pairwise_cons.mp hother).1 u hu
  refine Thread.left_congr (fun hmu => ?_) fun j hj => ?_
  · exact streamsOf_set hh (hturn.keeps_mu fun hmu' => hdis _ hmu' hmu).2
  · refine bucketsOf_set hh fun hij => hturn.keeps_ss fun hss => hdis _ hss ?_
    rw [hw.self i h hh, hij]
    exact hj

/-- A push inside a section takes a step. -/
theorem LockWorld.InRange.push_moves (cfg : Limits) (hr : w.InRange) {q : FinePush}
    (hmem : q ∈ w.pushes) (hheld : q.thread.holds ≠ []) :
    ∃ m w', w.mover m = some q.thread ∧ w.next cfg m = some w' ∧ w'.left < w.left := by
  obtain ⟨j, hq⟩ := List.getElem?_of_mem hmem
  obtain ⟨x, ⟨hs', locks', pc'⟩, hstep, hlt⟩ := finePushStep_ready q.version w.locks hheld
    (hr.pushes q hmem)
  have hturn := finePushStep_turn hstep
  obtain ⟨rest, hts, hset⟩ := LockWorld.push_others hq
  refine ⟨.push j x,
    { w with handlers := hs', locks := locks', pushes := w.pushes.set j { q with pc := pc' } },
    LockWorld.thread_push hq,
    by simp only [LockWorld.next, hq, hstep, Option.map_some], ?_⟩
  have hts' := hset { q with pc := pc' }
  rw [← hturn.map_thread] at hts'
  refine left_lt hts hts' hlt fun u _ => ?_
  rcases hturn.handlers with rfl | ⟨i, actions, todo, h, -, hh, -, rfl⟩
  · rfl
  · exact Thread.left_congr (fun _ => streamsOf_set hh rfl)
      fun j _ => bucketsOf_set hh fun _ => rfl

/-- A call of `StreamStats` that does not wait for a taken lock takes a step. -/
theorem LockWorld.InRange.stats_moves (cfg : Limits) (hr : w.InRange) {pc : StatsPC}
    (hmem : pc ∈ w.stats) (hheld : pc.holds ≠ [])
    (hready : ∀ l, (Thread.stats pc).wants cfg = some l → w.locks l = false) :
    ∃ m w', w.mover m = some (.stats pc) ∧ w.next cfg m = some w' ∧ w'.left < w.left := by
  obtain ⟨j, hpc⟩ := List.getElem?_of_mem hmem
  obtain ⟨x, ⟨locks', pc'⟩, hstep, hlt⟩ := statsStep_ready hheld (hr.stats pc hmem) hready
  obtain ⟨rest, hts, hset⟩ := LockWorld.stats_others hpc
  refine ⟨.stats j x, { w with locks := locks', stats := w.stats.set j pc' },
    LockWorld.thread_stats hpc,
    by simp only [LockWorld.next, hpc, hstep, Option.map_some], ?_⟩
  exact left_lt hts (hset pc') hlt fun _ _ => rfl

/-- While a lock is taken that is to be released, some holder can take a step that brings
it closer to releasing its locks. -/
theorem LockWorld.Locked.holder_moves (cfg : Limits) (hw : w.Locked) (hr : w.InRange)
    {stuck : ℕ → Prop} {l : Lock} (hl : w.locks l = true) (hrel : l.Released stuck) :
    ∃ m w', w.holderMoves stuck m ∧ w.next cfg m = some w' ∧ w'.left < w.left := by
  obtain ⟨t, ht, ⟨k, hk, hrel'⟩, hready⟩ := hw.consistent.exists_ready (Thread.wants cfg) Lock.rank
    (Lock.Released stuck) (fun t _ l hl m hm _ => by
      obtain ⟨rfl, i, rfl⟩ := order_of_wants hl hm
      exact ⟨(fun _ h => nomatch h), Nat.zero_lt_one⟩) hl hrel
  have hheld : t.holds ≠ [] := List.ne_nil_of_mem hk
  -- inside a `Send` the one lock held is that of the stream
  have hreturns : ∀ i, t.sending = some i → ¬ stuck i := by
    intro i hi
    rw [Thread.holds_of_sending hi] at hk
    exact hrel' i (List.mem_singleton.mp hk)
  obtain ⟨m, w', hmover, hnext, hlt⟩ :
      ∃ m w', w.mover m = some t ∧ w.next cfg m = some w' ∧ w'.left < w.left := by
    rw [LockWorld.threads, List.mem_append, List.mem_append] at ht
    rcases ht with (ht | ht) | ht
    · obtain ⟨h, hmem, rfl⟩ := List.mem_map.mp ht
      exact hw.handler_moves cfg hmem hheld
    · obtain ⟨q, hmem, rfl⟩ := List.mem_map.mp ht
      exact hr.push_moves cfg hmem hheld
    · obtain ⟨pc, hmem, rfl⟩ := List.mem_map.mp ht
      exact hr.stats_moves cfg hmem hheld hready
  exact ⟨m, w', ⟨t, hmover, hheld, hreturns⟩, hnext, hlt⟩

/-- **Every lock is released again.** Let `stuck` be the streams on which a `Send` never
returns. From every reachable state the goroutines that hold a lock can go on by
themselves, nobody else taking a step and no `Send` on a stuck stream returning, until
every lock is free but the `ss.sendMu` of stuck streams: there is no deadlock, and
whoever waits for another lock can be served. Where every `Send` returns, every lock is
released. -/
theorem locks_are_released (cfg : Limits) (store : σ) (stuck : ℕ → Prop)
    (h : Run (LockWorld.next cfg) free (newLockWorld store) w) :
    ∃ w', Run (LockWorld.next cfg) (LockWorld.holderMoves stuck) w w' ∧
      ∀ l, w'.locks l = true → ∃ i, stuck i ∧ l = .send i := by
  have hw := run_locked h
  have hr := run_inRange h
  -- on the bound of the steps left
  induction hn : w.left using Nat.strong_induction_on generalizing w with
  | _ n ih =>
    by_cases hfree : ∀ l, w.locks l = true → ∃ i, stuck i ∧ l = .send i
    · exact ⟨w, Relation.ReflTransGen.refl, hfree⟩
    · push Not at hfree
      obtain ⟨l, hl, hrel⟩ := hfree
      obtain ⟨m, w₁, hmoves, hnext, hlt⟩ := hw.holder_moves cfg hr hl
        fun i heq hstuck => hrel i hstuck heq
      have hturn := LockWorld.next_turn hnext
      obtain ⟨w', hrun, hfree'⟩ := ih w₁.left (hn ▸ hlt) (h.tail ⟨m, trivial, hnext⟩)
        (hw.turn hturn) (hr.turn hturn) rfl
      exact ⟨w', Relation.ReflTransGen.head ⟨m, hmoves, hnext⟩ hrun, hfree'⟩

/-- Stream 0 is inside a `Send` that never returns, and a call of `StreamStats` reads it
with `s.mu` and `ss.mu` in its hands. -/
def sendingAndRead : List LockMove :=
  List.flatten [[.connect], ticks 0 4, [.handler 0 (.recv sampleReq)], ticks 0 3,
    [.handler 0 (.label [])], ticks 0 17,
    [.handler 0 (.reply (.ok [⟨some sampleId, .quotaAssignment ⟨none, none⟩⟩]))], ticks 0 3,
    [.call, .stats 0 .tick, .stats 0 (.stream 0), .stats 0 .tick]]

def sendingWorld : Option (LockWorld MemoryStorage) :=
  exec (LockWorld.next noLimits) (fun _ _ => true)
    (newLockWorld MemoryStorage.newMemoryStorage) sendingAndRead

theorem locks_are_released_while_sending :
    ∃ w w', Run (LockWorld.next noLimits) free (newLockWorld MemoryStorage.newMemoryStorage) w ∧
      w.locks .mu = true ∧ w.locks (.ss 0) = true ∧ w.locks (.send 0) = true ∧
      Run (LockWorld.next noLimits) (LockWorld.holderMoves fun i => i = 0) w w' ∧
      ∀ l, w'.locks l = true → ∃ i, i = 0 ∧ l = .send i := by
  have hsome : sendingWorld.isSome = true := by decide +kernel
  have htaken : (sendingWorld.all fun w =>
      w.locks .mu && w.locks (.ss 0) && w.locks (.send 0)) = true := by decide +kernel
  obtain ⟨w, hw⟩ := Option.isSome_iff_exists.mp hsome
  have hexec : exec (LockWorld.next noLimits) (fun _ _ => true)
      (newLockWorld MemoryStorage.newMemoryStorage) sendingAndRead = some w := hw
  have hrun : Run (LockWorld.next noLimits) free (newLockWorld MemoryStorage.newMemoryStorage) w :=
    run_of_exec (fun _ _ _ => trivial) hexec
  rw [hw, Option.all_some, Bool.and_eq_true, Bool.and_eq_true] at htaken
  obtain ⟨w', hrun', hfree⟩ := locks_are_released _ _ (fun i => i = 0) hrun
  exact ⟨w, w', hrun, htaken.1.1, htaken.1.2, htaken.2, hrun', hfree⟩

end Rlqs
