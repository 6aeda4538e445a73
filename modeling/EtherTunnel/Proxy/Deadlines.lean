import EtherTunnel.Proxy.Splice
import Mathlib.Algebra.Order.Monoid.Defs

/-!
# A splice under deadlines

| here | there |
| --- | --- |
| `Watched.lastMs`, `asMillis`, `idleFor` | `ActivityClock` (`proxy.rs:120-148`) |
| `CopyOne.bumps` | where `copy_one` calls `clock.bump()` (`proxy.rs:274-276`) |
| `tickPeriod` | `proxy.rs:187-193` |
| `afterTick` | `Interval::poll_tick` under `MissedTickBehavior::Delay` |
| `Watched.step` | the `select!` of `copy_bidirectional_timeout` (`proxy.rs:197-216`) |

Times are nanoseconds from the clock's epoch, at which the sleep and the interval start too. A timer is
never early and may be late. Each of the three branches of the `select!` is a step; that it is biased
towards the copy only takes orders away.

A direction reports activity when it has read something and when a whole chunk is written. A `write_all`
that is taken up bit by bit reports nothing in between.

`deadlines_sound` is about every schedule: what a deadline can cut and what it leaves behind.
`silent_splice_reclaimed` assumes a runtime that is at most `slack` late, and says until when a splice can
go on.
-/

namespace EtherTunnel

/-! ## The loop -/

def nanosPerMilli : Nat := 1000000

/-- `Duration::as_millis`, which rounds down. -/
def asMillis (nanos : Nat) : Nat := nanos / nanosPerMilli

inductive TimedOut where
  | idle
  | absolute
deriving DecidableEq

structure Watched where
  splice : Splice := {}
  now : Nat := 0
  lastMs : Nat := 0
  nextTick : Nat := 0
  /-- The deadline that ended it, and when. -/
  verdict : Option (TimedOut × Nat) := none
deriving DecidableEq

inductive WatchAct where
  | elapse (nanos : Nat)
  | copy (side : Side) (act : CopyAct)
  | absoluteSleep
  | tick

/-- The copy reports activity on this action. -/
def CopyOne.bumps (c : CopyOne) : CopyAct → Bool
  | .read chunk => chunk ≠ []
  | .write k _ =>
    match c.phase with
    | .writing _ rest => rest.drop k = []
    | .reading | .closing | .done | .failed => false
  | .readFails | .writeFails | .shutdown _ | .drain _ => false

def tickPeriod (idle : Option Nat) : Nat :=
  (idle.map fun d => min (max (d / 4) (10 * nanosPerMilli)) (1000 * nanosPerMilli)).getD
    (1000 * nanosPerMilli)

/-- A tick more than five milliseconds late puts the later ones off. -/
def afterTick (timeout now period : Nat) : Nat :=
  if timeout + 5 * nanosPerMilli < now then now + period else timeout + period

namespace Watched

variable (w : Watched)

/-- In nanoseconds, but only whole milliseconds are counted. -/
def idleFor : Nat := (asMillis w.now - w.lastMs) * nanosPerMilli

/-- The copy has not returned, and no deadline has fired. -/
def running : Bool := w.verdict.isNone && w.splice.returned.isNone

/-- The step reports activity. -/
def active : WatchAct → Bool
  | .copy side act => (w.splice.dir side).bumps act
  | .elapse _ | .absoluteSleep | .tick => false

variable (idle absolute : Option Nat)

def step : WatchAct → Option Watched
  | .elapse nanos => some { w with now := w.now + nanos }
  | .copy side act =>
    if w.verdict.isNone then
      (w.splice.step (side, act)).map fun splice =>
        { w with splice, lastMs := if w.active (.copy side act) then asMillis w.now else w.lastMs }
    else none
  | .absoluteSleep =>
    if w.running ∧ absolute.any (· ≤ w.now) then some { w with verdict := some (.absolute, w.now) }
    else none
  | .tick =>
    -- without either bound there is no loop
    if w.running ∧ (idle.isSome ∨ absolute.isSome) ∧ w.nextTick ≤ w.now then
      if idle.any (· ≤ w.idleFor) then some { w with verdict := some (.idle, w.now) }
      else some { w with nextTick := afterTick w.nextTick w.now (tickPeriod idle) }
    else none

end Watched

/-! ## What a step can do -/

variable {idle absolute : Option Nat} {w w' : Watched} {act : WatchAct}

theorem running_iff : w.running = true ↔ w.verdict = none ∧ w.splice.returned = none := by
  rw [Watched.running, Bool.and_eq_true, Option.isNone_iff_eq_none, Option.isNone_iff_eq_none]

inductive WatchMoved (idle absolute : Option Nat) (w : Watched) : WatchAct → Watched → Prop where
  | elapse (nanos : Nat) : WatchMoved idle absolute w (.elapse nanos) { w with now := w.now + nanos }
  | copy (side : Side) (act : CopyAct) (splice : Splice) : w.verdict = none →
      w.splice.step (side, act) = some splice →
      WatchMoved idle absolute w (.copy side act)
        { w with splice, lastMs := if w.active (.copy side act) then asMillis w.now else w.lastMs }
  | absoluteSleep (d : Nat) : w.running = true → absolute = some d → d ≤ w.now →
      WatchMoved idle absolute w .absoluteSleep { w with verdict := some (.absolute, w.now) }
  | idleTick (d : Nat) : w.running = true → idle = some d → d ≤ w.idleFor →
      WatchMoved idle absolute w .tick { w with verdict := some (.idle, w.now) }
  | quietTick : w.running = true → w.nextTick ≤ w.now → (∀ d, idle = some d → w.idleFor < d) →
      WatchMoved idle absolute w .tick
        { w with nextTick := afterTick w.nextTick w.now (tickPeriod idle) }

theorem watchMoved_of_step (h : w.step idle absolute act = some w') : WatchMoved idle absolute w act w' := by
  cases act with
  | elapse nanos =>
    cases h
    exact .elapse nanos
  | copy side act =>
    obtain ⟨hverdict, h⟩ := Option.ite_none_right_eq_some.1 h
    obtain ⟨splice, hsplice, rfl⟩ := Option.map_eq_some_iff.1 h
    exact .copy side act splice (Option.isNone_iff_eq_none.1 hverdict) hsplice
  | absoluteSleep =>
    obtain ⟨⟨hrunning, hdue⟩, heq⟩ := Option.ite_none_right_eq_some.1 h
    cases heq
    obtain ⟨d, rfl, hle⟩ := (Option.any_eq_true _ _).1 hdue
    exact .absoluteSleep d hrunning rfl (of_decide_eq_true hle)
  | tick =>
    obtain ⟨⟨hrunning, -, hdue⟩, h⟩ := Option.ite_none_right_eq_some.1 h
    split at h
    · rename_i hidle
      cases h
      obtain ⟨d, rfl, hle⟩ := (Option.any_eq_true _ _).1 hidle
      exact .idleTick d hrunning rfl (of_decide_eq_true hle)
    · rename_i hidle
      cases h
      refine .quietTick hrunning hdue fun d hd => ?_
      rw [hd, Option.any_some, decide_eq_true_eq] at hidle
      exact Nat.lt_of_not_le hidle

/-! ## What a deadline can cut -/

/-- The copy's part of a schedule. -/
def copyAct : WatchAct → Option (Side × CopyAct)
  | .copy side act => some (side, act)
  | .elapse _ | .absoluteSleep | .tick => none

/-- The clock is not ahead of itself, and a verdict has its reason. -/
structure WatchInv (idle absolute : Option Nat) (w : Watched) : Prop where
  clock : w.lastMs ≤ asMillis w.now
  idleCut : ∀ t, w.verdict = some (.idle, t) → w.lastMs ≤ asMillis t ∧
    ∃ d, idle = some d ∧ d ≤ (asMillis t - w.lastMs) * nanosPerMilli
  absoluteCut : ∀ t, w.verdict = some (.absolute, t) → ∃ d, absolute = some d ∧ d ≤ t
  unfinished : w.verdict ≠ none → w.splice.returned = none

theorem watchInv_start : WatchInv idle absolute {} :=
  ⟨Nat.le_refl _, nofun, nofun, fun hne => absurd rfl hne⟩

theorem WatchInv.moved (h : WatchInv idle absolute w) (hmove : WatchMoved idle absolute w act w') :
    WatchInv idle absolute w' := by
  cases hmove with
  | elapse nanos =>
    refine ⟨h.clock.trans ?_, h.idleCut, h.absoluteCut, h.unfinished⟩
    exact Nat.div_le_div_right (Nat.le_add_right _ _)
  | copy side act splice hverdict hsplice =>
    refine ⟨?_, fun t ht => ?_, fun t ht => ?_, fun hne => absurd hverdict hne⟩
    · dsimp only
      split
      · exact Nat.le_refl _
      · exact h.clock
    · rw [hverdict] at ht
      cases ht
    · rw [hverdict] at ht
      cases ht
  | absoluteSleep d hrunning habs hle =>
    refine ⟨h.clock, fun t ht => ?_, fun t ht => ?_, fun _ => (running_iff.1 hrunning).2⟩
    · cases ht
    · cases ht
      exact ⟨d, habs, hle⟩
  | idleTick d hrunning hidle hle =>
    refine ⟨h.clock, fun t ht => ?_, fun t ht => ?_, fun _ => (running_iff.1 hrunning).2⟩
    · cases ht
      exact ⟨h.clock, d, hidle, hle⟩
    · cases ht
  | quietTick hrunning hdue hquiet => exact ⟨h.clock, h.idleCut, h.absoluteCut, h.unfinished⟩

/-- The clock only moves on, and an active step sets it. -/
theorem WatchInv.lastMs_step (h : WatchInv idle absolute w) (hmove : WatchMoved idle absolute w act w') :
    w.lastMs ≤ w'.lastMs ∧ (w.active act = true → w'.lastMs = asMillis w.now) ∧
      (w'.lastMs = w.lastMs ∨ w.active act = true) := by
  cases hmove with
  | copy side act splice hverdict hsplice =>
    dsimp only
    by_cases hactive : w.active (.copy side act) = true
    · rw [if_pos hactive]
      exact ⟨h.clock, fun _ => rfl, .inr hactive⟩
    · rw [if_neg hactive]
      exact ⟨Nat.le_refl _, fun hact => absurd hact hactive, .inl rfl⟩
  | elapse nanos | absoluteSleep d hrunning habs hle | idleTick d hrunning hidle hle
  | quietTick hrunning hdue hquiet => exact ⟨Nat.le_refl _, nofun, .inl rfl⟩

theorem lastMs_run {sched : List WatchAct} : ∀ {w : Watched}, WatchInv idle absolute w →
    Lts.run (Watched.step · idle absolute ·) w sched = some w' →
    w.lastMs ≤ w'.lastMs ∧
    (∀ p ∈ Lts.trace (Watched.step · idle absolute ·) w sched, p.1.active p.2 = true →
      asMillis p.1.now ≤ w'.lastMs) ∧
    (w'.lastMs = w.lastMs ∨ ∃ p ∈ Lts.trace (Watched.step · idle absolute ·) w sched,
      p.1.active p.2 = true ∧ w'.lastMs = asMillis p.1.now) := by
  induction sched with
  | nil =>
    intro w h hrun
    cases hrun
    exact ⟨Nat.le_refl _, nofun, .inl rfl⟩
  | cons act sched ih =>
    intro w h hrun
    obtain ⟨m, hm, hrest⟩ := (Lts.run_cons_eq_some _).1 hrun
    have hmove := watchMoved_of_step hm
    obtain ⟨hle, hset, hkept⟩ := h.lastMs_step hmove
    obtain ⟨ihle, ihall, ihlast⟩ := ih (h.moved hmove) hrest
    have htrace : Lts.trace (Watched.step · idle absolute ·) w (act :: sched) =
        (w, act) :: Lts.trace (Watched.step · idle absolute ·) m sched := by
      simp only [Lts.trace, hm, Option.elim_some]
    rw [htrace]
    refine ⟨hle.trans ihle, fun p hp hactive => ?_, ?_⟩
    · rcases List.mem_cons.1 hp with rfl | hp
      · exact (hset hactive).symm.le.trans ihle
      · exact ihall p hp hactive
    · rcases ihlast with hlast | ⟨p, hp, hactive, hlast⟩
      · rcases hkept with hkept | hactive
        · exact .inl (hlast.trans hkept)
        · exact .inr ⟨(w, act), List.mem_cons_self, hactive, hlast.trans (hset hactive)⟩
      · exact .inr ⟨p, List.mem_cons_of_mem _ hp, hactive, hlast⟩

/-- The deadlines do not touch the copy. -/
theorem splice_run {sched : List WatchAct} : ∀ {w : Watched},
    Lts.run (Watched.step · idle absolute ·) w sched = some w' →
    Lts.run Splice.step w.splice (sched.filterMap copyAct) = some w'.splice := by
  induction sched with
  | nil =>
    intro w hrun
    cases hrun
    rfl
  | cons act sched ih =>
    intro w hrun
    obtain ⟨m, hm, hrest⟩ := (Lts.run_cons_eq_some _).1 hrun
    have hplain := ih hrest
    cases watchMoved_of_step hm with
    | copy side act splice hverdict hsplice =>
      exact (Lts.run_cons_eq_some _).2 ⟨splice, hsplice, hplain⟩
    | elapse nanos | absoluteSleep d hrunning habs hle | idleTick d hrunning hidle hle
    | quietTick hrunning hdue hquiet => exact hplain

/-- What a splice under deadlines owes, with `sched` behind it. -/
structure DeadlinesSound (idle absolute : Option Nat) (sched : List WatchAct) (w : Watched) : Prop where
  /-- A run of the plain splice, cut short at most. -/
  plain : Lts.run Splice.step {} (sched.filterMap copyAct) = some w.splice
  bytes : w.splice.Faithful
  /-- Nothing was active in either direction for as long as `idle`, up to the rounding of the clock. -/
  idleCut : ∀ t, w.verdict = some (.idle, t) → ∃ d, idle = some d ∧ d ≤ t ∧
    ∀ p ∈ Lts.trace (Watched.step · idle absolute ·) {} sched, p.1.active p.2 = true →
      p.1.now + d < t + nanosPerMilli
  absoluteCut : ∀ t, w.verdict = some (.absolute, t) → ∃ d, absolute = some d ∧ d ≤ t
  /-- A copy that has returned is not overruled. -/
  finished : w.splice.returned ≠ none → w.verdict = none

theorem watchInv_run {sched : List WatchAct} (hrun : Lts.run (Watched.step · idle absolute ·) {} sched = some w) :
    WatchInv idle absolute w :=
  Lts.run_inv (G := fun _ _ => True) (fun _ _ _ h _ hs => h.moved (watchMoved_of_step hs)) watchInv_start
    (Lts.steps_of_forall fun _ _ => trivial) hrun

theorem faithful_run {sched : List (Side × CopyAct)} {s : Splice}
    (hrun : Lts.run Splice.step {} sched = some s) : s.Faithful := by
  refine Splice.faithful_of_inv (Lts.run_inv (I := fun s => ∀ side, (s.dir side).Inv)
    (G := fun _ _ => True) (fun s act s' h _ hs => ?_) ?_ (Lts.steps_of_forall fun _ _ => trivial) hrun)
  · exact Splice.forall_dir_step h (fun c' hmove => (h act.1).moved hmove) hs
  · intro side
    cases side <;> exact CopyOne.inv_start

theorem asMillis_le {nanos : Nat} : asMillis nanos * nanosPerMilli ≤ nanos := Nat.div_mul_le_self _ _

theorem lt_asMillis (nanos : Nat) : nanos < asMillis nanos * nanosPerMilli + nanosPerMilli :=
  Nat.lt_div_mul_add (by decide)

/-- **What a deadline can cut.** For all deadlines and every schedule of reads, writes, ticks and passing
time: the bytes are those of a plain splice that stopped there; the idle deadline fires only after both
directions were silent for `idle`, less the millisecond the clock rounds off; the absolute one not before
its time; and a copy that has returned keeps its result. -/
theorem deadlines_sound (idle absolute : Option Nat) (sched : List WatchAct) (w : Watched)
    (hrun : Lts.run (Watched.step · idle absolute ·) {} sched = some w) :
    DeadlinesSound idle absolute sched w := by
  have hinv := watchInv_run hrun
  have hplain : Lts.run Splice.step {} (sched.filterMap copyAct) = some w.splice := splice_run hrun
  obtain ⟨-, hall, -⟩ := lastMs_run watchInv_start hrun
  refine ⟨hplain, faithful_run hplain, fun t ht => ?_, hinv.absoluteCut, fun hret => ?_⟩
  · obtain ⟨hclock, d, rfl, hd⟩ := hinv.idleCut t ht
    have hsub : (asMillis t - w.lastMs) * nanosPerMilli + w.lastMs * nanosPerMilli =
        asMillis t * nanosPerMilli := by
      rw [← Nat.add_mul, Nat.sub_add_cancel hclock]
    have ht' : asMillis t * nanosPerMilli ≤ t := asMillis_le
    refine ⟨d, rfl, ?_, fun p hp hactive => ?_⟩
    · omega
    · have hlast : asMillis p.1.now * nanosPerMilli ≤ w.lastMs * nanosPerMilli :=
        Nat.mul_le_mul_right _ (hall p hp hactive)
      have hnow := lt_asMillis p.1.now
      omega
  · by_contra hne
    exact hret (hinv.unfinished hne)

/-! ## Until when a splice can go on -/

/-- Time does not run past a due timer of a running splice by more than `slack`. -/
def PromptTo (idle absolute : Option Nat) (slack : Nat) (w : Watched) : WatchAct → Prop
  | .elapse nanos => w.running = true →
      (idle.isSome → w.now + nanos ≤ w.nextTick + slack) ∧
      ∀ d ∈ absolute, w.now + nanos ≤ d + slack
  | .copy _ _ | .absoluteSleep | .tick => True

instance (idle absolute : Option Nat) (slack : Nat) (w : Watched) :
    (act : WatchAct) → Decidable (PromptTo idle absolute slack w act)
  | .elapse nanos => inferInstanceAs (Decidable (w.running = true →
      (idle.isSome → w.now + nanos ≤ w.nextTick + slack) ∧ ∀ d ∈ absolute, w.now + nanos ≤ d + slack))
  | .copy _ _ | .absoluteSleep | .tick => .isTrue trivial

/-- The next tick is due soon after the deadline that the last activity set. -/
structure TickInv (idle absolute : Option Nat) (slack : Nat) (w : Watched) : Prop where
  due : ∀ d, idle = some d →
    w.nextTick < w.lastMs * nanosPerMilli + nanosPerMilli + d + tickPeriod idle
  prompt : w.running = true → (idle.isSome → w.now ≤ w.nextTick + slack) ∧
    ∀ d ∈ absolute, w.now ≤ d + slack

theorem afterTick_le {timeout now period : Nat} (h : timeout ≤ now) :
    afterTick timeout now period ≤ now + period := by
  unfold afterTick
  split
  · exact Nat.le_refl _
  · exact Nat.add_le_add_right h _

theorem le_afterTick (timeout now period : Nat) : timeout ≤ afterTick timeout now period := by
  unfold afterTick
  split
  · omega
  · omega

theorem running_of_copy {side : Side} {act : CopyAct} {splice : Splice} (hverdict : w.verdict = none)
    (hsplice : w.splice.step (side, act) = some splice) : w.running = true := by
  obtain ⟨hopen, -⟩ := Option.ite_none_right_eq_some.1 hsplice
  exact running_iff.2 ⟨hverdict, hopen⟩

theorem TickInv.moved {slack : Nat} (h : TickInv idle absolute slack w) (hclock : w.lastMs ≤ asMillis w.now)
    (hprompt : PromptTo idle absolute slack w act) (hmove : WatchMoved idle absolute w act w') :
    TickInv idle absolute slack w' := by
  cases hmove with
  | elapse nanos => exact ⟨h.due, fun hrunning => hprompt hrunning⟩
  | copy side act splice hverdict hsplice =>
    refine ⟨fun d hd => (h.due d hd).trans_le ?_, fun _ => h.prompt (running_of_copy hverdict hsplice)⟩
    dsimp only
    split
    · have hmul := Nat.mul_le_mul_right nanosPerMilli hclock
      omega
    · exact Nat.le_refl _
  | absoluteSleep d hrunning habs hle =>
    exact ⟨h.due, fun hrun => by cases (running_iff.1 hrun).1⟩
  | idleTick d hrunning hidle hle =>
    exact ⟨h.due, fun hrun => by cases (running_iff.1 hrun).1⟩
  | quietTick hrunning hdue hquiet =>
    have hafter : afterTick w.nextTick w.now (tickPeriod idle) ≤ w.now + tickPeriod idle := afterTick_le hdue
    have hbefore : w.nextTick ≤ afterTick w.nextTick w.now (tickPeriod idle) :=
      le_afterTick _ _ _
    refine ⟨fun d hd => ?_, fun _ => ⟨fun hsome => ?_, (h.prompt hrunning).2⟩⟩
    · -- the check that passed was less than `d` after the last activity
      have hlt := hquiet d hd
      have hnow := lt_asMillis w.now
      have hsub : (asMillis w.now - w.lastMs) * nanosPerMilli + w.lastMs * nanosPerMilli =
          asMillis w.now * nanosPerMilli := by
        rw [← Nat.add_mul, Nat.sub_add_cancel hclock]
      rw [Watched.idleFor] at hlt
      dsimp only
      omega
    · have := (h.prompt hrunning).1 hsome
      dsimp only
      omega

/-- Activity that a schedule saw, or its start. -/
def ActiveAt (idle absolute : Option Nat) (sched : List WatchAct) (a : Nat) : Prop :=
  a = 0 ∨ ∃ p ∈ Lts.trace (Watched.step · idle absolute ·) {} sched, p.1.active p.2 = true ∧ p.1.now = a

/-- **A silent splice is reclaimed.** If the runtime polls the splice at most `slack` after a timer is due,
then a splice that still runs was active less than `idle`, a tick, a millisecond and `slack` ago, and is no
older than `absolute` and `slack`. -/
theorem silent_splice_reclaimed (idle absolute : Option Nat) (slack : Nat) (sched : List WatchAct)
    (w : Watched) (hrun : Lts.run (Watched.step · idle absolute ·) {} sched = some w)
    (hprompt : Lts.Steps (Watched.step · idle absolute ·) (PromptTo idle absolute slack) {} sched)
    (hrunning : w.running = true) :
    (∀ d, idle = some d → ∃ a, ActiveAt idle absolute sched a ∧
      w.now < a + d + tickPeriod idle + nanosPerMilli + slack) ∧
    ∀ d, absolute = some d → w.now ≤ d + slack := by
  have hboth : WatchInv idle absolute w ∧ TickInv idle absolute slack w := by
    refine Lts.run_inv (I := fun w => WatchInv idle absolute w ∧ TickInv idle absolute slack w)
      (fun w act w' h hp hs => ?_) ⟨watchInv_start, fun d _ => ?_, fun _ => ⟨fun _ => ?_, fun d _ => ?_⟩⟩
      hprompt hrun
    · have hmove := watchMoved_of_step hs
      exact ⟨h.1.moved hmove, h.2.moved h.1.clock hp hmove⟩
    · have : 0 < nanosPerMilli := by decide
      dsimp only
      omega
    · exact Nat.zero_le _
    · exact Nat.zero_le _
  obtain ⟨-, htick⟩ := hboth
  obtain ⟨hnext, habs⟩ := htick.prompt hrunning
  refine ⟨fun d hd => ?_, fun d hd => habs d hd⟩
  have hdue := htick.due d hd
  have hnow := hnext (by rw [hd]; rfl)
  obtain ⟨-, -, hlast⟩ := lastMs_run watchInv_start hrun
  rcases hlast with hlast | ⟨p, hp, hactive, hlast⟩
  · refine ⟨0, .inl rfl, ?_⟩
    have hzero : w.lastMs = 0 := hlast
    rw [hzero] at hdue
    omega
  · refine ⟨p.1.now, .inr ⟨p, hp, hactive, rfl⟩, ?_⟩
    have hle : asMillis p.1.now * nanosPerMilli ≤ p.1.now := asMillis_le
    rw [hlast] at hdue
    omega

section examples

/-- A chunk, and then 42 milliseconds of silence under an idle deadline of 40. -/
def idleSplice : List WatchAct :=
  [.copy .a2b (.read [104]), .copy .a2b (.write 1 1), .tick, .elapse 12000000, .tick, .elapse 30000000]

theorem deadlines_sound_idle : ∃ w,
    Lts.run (Watched.step · (some 40000000) none ·) {} (idleSplice ++ [.tick]) = some w ∧
    w.verdict = some (.idle, 42000000) ∧
    DeadlinesSound (some 40000000) none (idleSplice ++ [.tick]) w := by
  have hend : (Lts.run (Watched.step · (some 40000000) none ·) {} (idleSplice ++ [.tick])).map
      (·.verdict) = some (some (.idle, 42000000)) := by
    decide +kernel
  obtain ⟨w, hrun, hw⟩ := Option.map_eq_some_iff.1 hend
  exact ⟨w, hrun, hw, deadlines_sound (some 40000000) none _ w hrun⟩

/-- The same splice before its last tick. -/
theorem silent_splice_reclaimed_idle : ∃ w,
    Lts.run (Watched.step · (some 40000000) none ·) {} idleSplice = some w ∧ w.running = true ∧
    ∃ a, ActiveAt (some 40000000) none idleSplice a ∧
      w.now < a + 40000000 + tickPeriod (some 40000000) + nanosPerMilli + 25000000 := by
  have hend : (Lts.run (Watched.step · (some 40000000) none ·) {} idleSplice).map (·.running) = some true := by
    decide +kernel
  have hprompt : Lts.Steps (Watched.step · (some 40000000) none ·)
      (PromptTo (some 40000000) none 25000000) {} idleSplice := by
    decide +kernel
  obtain ⟨w, hrun, hw⟩ := Option.map_eq_some_iff.1 hend
  exact ⟨w, hrun, hw, (silent_splice_reclaimed (some 40000000) none 25000000 idleSplice w hrun hprompt
    hw).1 40000000 rfl⟩

end examples

end EtherTunnel
