import Agnocast.Agnocastlib.ClockTimer
import Agnocast.Agnocastlib.TimerInfo

/-!
# The library — what the schedule of a timer keeps

* `nextCallTime_spec`    — on the times that clocks deliver, no operation overflows and the next
  call time is the first one on the grid that is due.
* `timer_schedule`       — that, and over any calls with new periods in between the deadline
  neither moves back nor falls behind the clock.
* `jump_activated`       — what a jump that activates ROS time makes of a timer.
* `remainder_kept`       — when the timer still waits for the remainder of its period: what is
  saved before the jump is the remainder, but it is used as the elapsed part.
-/

namespace Agnocast

open CheckedInt

/-! ## The next call time -/

/-- The nanoseconds that a clock delivers: a time is not negative, and its seconds are a number
of 32 bits. What is short of 2^62 is more than that. -/
def Delivered (t : Int64) : Prop := 0 ≤ t.toInt ∧ t.toInt < 2 ^ 62

instance (t : Int64) : Decidable (Delivered t) := inferInstanceAs (Decidable (_ ∧ _))

/-- The first time that is due and on the grid of the timer; with a period of zero, the later of
the two times. -/
def IsNextDeadline (next period now n : Int) : Prop :=
  (0 < period → IsLeast {n | now ≤ n ∧ next + period ≤ n ∧ n ≡ next [ZMOD period]} n) ∧
    (period = 0 → n = max next now)

theorem IsNextDeadline.le {next period now n : Int} (h : IsNextDeadline next period now n)
    (hperiod : 0 ≤ period) : next ≤ n ∧ now ≤ n := by
  rcases hperiod.lt_or_eq with hpos | hzero
  · obtain ⟨hnow, hnext, -⟩ := (h.1 hpos).1
    exact ⟨by omega, hnow⟩
  · rw [h.2 hzero.symm]
    exact ⟨le_max_left .., le_max_right ..⟩

/-- The mathematical result of the computation. -/
theorem advanceCallTime_isNextDeadline {next period : Int} (now : Int) (hperiod : 0 ≤ period) :
    IsNextDeadline next period now (advanceCallTime next period now) := by
  unfold advanceCallTime
  refine ⟨fun hpos => ?_, fun hzero => ?_⟩
  · simp only
    -- the grid through the next point is the grid
    have hgrid : ∀ n, n ≡ next + period [ZMOD period] ↔ n ≡ next [ZMOD period] := fun n => by
      rw [Int.ModEq, Int.ModEq, Int.add_emod_right]
    split
    next hlate =>
      rw [if_neg hpos.ne']
      have hleast := isLeast_roundUp hpos hlate
      simpa only [hgrid] using hleast
    next hearly =>
      refine ⟨⟨not_lt.mp hearly, le_rfl, ?_⟩, fun n hn => hn.2.1⟩
      exact Int.add_emod_right ..
  · subst hzero
    simp only [add_zero, if_true]
    split
    next hlate => exact (max_eq_right hlate.le).symm
    next hearly => exact (max_eq_left (not_lt.mp hearly)).symm

/-- **No operation overflows** on the times that clocks deliver, and nothing is divided by zero. -/
theorem nextCallTime_eq {next period now : Int64} (hperiod : 0 ≤ period.toInt)
    (hnext : 0 ≤ next.toInt) (hsum : next.toInt + period.toInt < 2 ^ 63) (hnow : Delivered now) :
    ∃ n, nextCallTime next period now = some n ∧
      n.toInt = advanceCallTime next.toInt period.toInt now.toInt := by
  obtain ⟨hnonneg, hlt⟩ := hnow
  obtain ⟨first, hfirst, hfirstInt⟩ := add_of_fits (a := next) (b := period) ⟨by omega, hsum⟩
  unfold nextCallTime advanceCallTime
  rw [hfirst, ← hfirstInt]
  simp only [Option.bind_eq_bind, Option.bind_some, Int64.lt_iff_toInt_lt]
  by_cases hlate : first.toInt < now.toInt
  · rw [if_pos hlate, if_pos hlate]
    by_cases hzero : period = 0
    · exact ⟨now, by rw [if_pos hzero]; rfl, by rw [if_pos (by rw [hzero]; rfl)]⟩
    · have hzeroInt : period.toInt ≠ 0 := fun h => hzero (Int64.toInt_inj.mp h)
      have hpos : 0 < period.toInt := by omega
      rw [if_neg hzero, if_neg hzeroInt]
      -- how far the clock is ahead, and the rounded-down number of periods in it
      obtain ⟨ahead, hahead, haheadInt⟩ := sub_of_fits (a := now) (b := first)
        ⟨by omega, by omega⟩
      obtain ⟨less, hless, hlessInt⟩ := sub_of_fits (a := ahead) (b := 1)
        (by rw [haheadInt]; exact ⟨by simp; omega, by simp; omega⟩)
      have hone : (1 : Int64).toInt = 1 := by decide
      rw [hone, haheadInt] at hlessInt
      obtain ⟨quotient, hquotient, hquotientInt⟩ := div_of_nonneg (a := less) (b := period)
        (by omega) hpos
      rw [hlessInt] at hquotientInt
      have hquotientNonneg : 0 ≤ quotient.toInt := by
        rw [hquotientInt]
        exact Int.ediv_nonneg (by omega) hpos.le
      have hquotientLe : quotient.toInt ≤ less.toInt := by
        rw [hquotientInt, ← hlessInt]
        exact Int.ediv_le_self _ (by omega)
      obtain ⟨periods, hperiods, hperiodsInt⟩ := add_of_fits (a := 1) (b := quotient)
        (by rw [hone]; exact ⟨by omega, by omega⟩)
      rw [hone, hquotientInt] at hperiodsInt
      -- the result is less than a period past the clock
      have hresult := roundUp_lt first.toInt now.toInt hpos
      rw [← hperiodsInt] at hresult ⊢
      have hmulNonneg : 0 ≤ periods.toInt * period.toInt :=
        mul_nonneg (by rw [hperiodsInt, ← hquotientInt]; omega) hpos.le
      obtain ⟨step, hstep, hstepInt⟩ := mul_of_fits (a := periods) (b := period)
        ⟨by omega, by omega⟩
      obtain ⟨n, hn, hnInt⟩ := add_of_fits (a := first) (b := step)
        (by rw [hstepInt]; exact ⟨by omega, by omega⟩)
      refine ⟨n, ?_, by rw [hnInt, hstepInt]⟩
      simp only [hahead, hless, hquotient, hperiods, hstep, Option.bind_some, hn]
  · rw [if_neg hlate, if_neg hlate]
    exact ⟨first, rfl, rfl⟩

/-- The next call time of an execution. -/
theorem nextCallTime_spec {next period now : Int64} (hperiod : 0 ≤ period.toInt)
    (hnext : 0 ≤ next.toInt) (hsum : next.toInt + period.toInt < 2 ^ 63) (hnow : Delivered now) :
    ∃ n, nextCallTime next period now = some n ∧
      IsNextDeadline next.toInt period.toInt now.toInt n.toInt := by
  obtain ⟨n, hn, heq⟩ := nextCallTime_eq hperiod hnext hsum hnow
  exact ⟨n, hn, heq ▸ advanceCallTime_isNextDeadline now.toInt hperiod⟩

/-! ## The schedule over a run -/

/-- The calls of the schedule, on times that clocks deliver and with periods that are not
negative. -/
def OnSchedule : Option TimerInfo → TimerInput → Prop
  | some x, .handleTimerEvent now =>
    0 ≤ x.periodNs.toInt ∧ 0 ≤ x.nextCallTimeNs.toInt ∧
      x.nextCallTimeNs.toInt + x.periodNs.toInt < 2 ^ 63 ∧ ∀ t ∈ now, Delivered t
  | some x, .setPeriod _ now _ => 0 ≤ x.nextCallTimeNs.toInt ∧ ∀ t ∈ now, Delivered t
  | some _, .cancel | some _, .destroy => True
  | _, _ => False

/-- By the reading that there is, not by all readings. -/
instance (now : Option Int64) : Decidable (∀ t ∈ now, Delivered t) :=
  Option.decidableForallMem now

instance : (s : Option TimerInfo) → (i : TimerInput) → Decidable (OnSchedule s i)
  | some x, .handleTimerEvent now =>
    inferInstanceAs (Decidable (0 ≤ x.periodNs.toInt ∧ 0 ≤ x.nextCallTimeNs.toInt ∧
      x.nextCallTimeNs.toInt + x.periodNs.toInt < 2 ^ 63 ∧ ∀ t ∈ now, Delivered t))
  | some x, .setPeriod _ now _ =>
    inferInstanceAs (Decidable (0 ≤ x.nextCallTimeNs.toInt ∧ ∀ t ∈ now, Delivered t))
  | some _, .cancel | some _, .destroy => inferInstanceAs (Decidable True)
  | some _, .reset .. | some _, .jump .. | none, .handleTimerEvent _ | none, .setPeriod ..
  | none, .reset .. | none, .jump .. | none, .cancel | none, .destroy =>
    inferInstanceAs (Decidable False)

/-- What a call of the schedule does to the times. -/
structure ScheduleStep (x : TimerInfo) (i : TimerInput) (o : TimerOutcome) (y : TimerInfo) : Prop where
  forward : x.nextCallTimeNs.toInt ≤ y.nextCallTimeNs.toInt
  reached : ∀ now, i = .handleTimerEvent (some now) → o = .executed →
    now.toInt ≤ y.nextCallTimeNs.toInt

/-- An execution of a timer that is not canceled. -/
theorem handleTimerEvent_spec {x : TimerInfo} {now : Int64} (halive : x.alive = true)
    (hcanceled : x.canceled = false) (hperiod : 0 ≤ x.periodNs.toInt)
    (hnext : 0 ≤ x.nextCallTimeNs.toInt)
    (hsum : x.nextCallTimeNs.toInt + x.periodNs.toInt < 2 ^ 63) (hnow : Delivered now) :
    ∃ n, x.handleTimerEvent (some now) =
        some (.executed, { x with lastCallTimeNs := now, nextCallTimeNs := n }) ∧
      IsNextDeadline x.nextCallTimeNs.toInt x.periodNs.toInt now.toInt n.toInt := by
  obtain ⟨n, hn, hspec⟩ := nextCallTime_spec hperiod hnext hsum hnow
  refine ⟨n, ?_, hspec⟩
  simp [TimerInfo.handleTimerEvent, halive, hcanceled, hn]

theorem handleTimerEvent_step {x : TimerInfo} {now : Option Int64}
    (h : OnSchedule (some x) (.handleTimerEvent now)) :
    ∃ o y, x.handleTimerEvent now = some (o, y) ∧ ScheduleStep x (.handleTimerEvent now) o y := by
  obtain ⟨hperiod, hnext, hsum, hnow⟩ := h
  by_cases hlive : (!x.alive || x.canceled) = true
  · exact ⟨.returned, x, if_pos hlive, le_rfl, fun _ _ ho => by cases ho⟩
  · cases now with
    | none =>
      refine ⟨.threw, x, ?_, le_rfl, fun _ hi => by cases hi⟩
      rw [TimerInfo.handleTimerEvent, if_neg hlive]
    | some now =>
      obtain ⟨halive, hcanceled⟩ : x.alive = true ∧ x.canceled = false := by simpa using hlive
      obtain ⟨n, hn, hspec⟩ := handleTimerEvent_spec halive hcanceled hperiod hnext hsum
        (hnow now rfl)
      obtain ⟨hforward, hreached⟩ := hspec.le hperiod
      refine ⟨_, _, hn, hforward, fun t ht _ => ?_⟩
      cases ht
      exact hreached

theorem setPeriod_step {x : TimerInfo} {newPeriod : Int64} {now : Option Int64} {armed : Bool}
    (h : OnSchedule (some x) (.setPeriod newPeriod now armed)) :
    ∃ o y, x.setPeriod newPeriod now armed = some (o, y) ∧
      ScheduleStep x (.setPeriod newPeriod now armed) o y := by
  obtain ⟨hnext, hnow⟩ := h
  -- the deadline stays
  suffices ∃ o y, x.setPeriod newPeriod now armed = some (o, y) ∧
      y.nextCallTimeNs = x.nextCallTimeNs by
    obtain ⟨o, y, hy, heq⟩ := this
    exact ⟨o, y, hy, by rw [heq], fun _ hi => by cases hi⟩
  unfold TimerInfo.setPeriod
  cases hfd : x.timerFd with
  | none => exact ⟨_, _, rfl, rfl⟩
  | some spec =>
    cases now with
    | none => exact ⟨_, _, rfl, rfl⟩
    | some t =>
      have ht := (hnow t rfl).1
      have hlt := x.nextCallTimeNs.toInt_lt
      have hle := t.toInt_lt
      obtain ⟨remaining, hremaining, -⟩ := sub_of_fits (a := x.nextCallTimeNs) (b := t)
        ⟨by omega, by omega⟩
      simp only [hremaining, Option.bind_eq_bind, Option.bind_some]
      cases armed with
      | true => exact ⟨_, _, rfl, rfl⟩
      | false => exact ⟨_, _, rfl, rfl⟩

/-- One call of the schedule. -/
theorem call_onSchedule {x : TimerInfo} {i : TimerInput} (h : OnSchedule (some x) i) :
    ∃ o y, x.call i = some (o, y) ∧ ScheduleStep x i o y := by
  cases i with
  | handleTimerEvent now => exact handleTimerEvent_step h
  | setPeriod newPeriod now armed => exact setPeriod_step h
  | reset now armed => exact h.elim
  | jump before after change => exact h.elim
  | cancel => exact ⟨_, _, rfl, le_rfl, fun _ hi => by cases hi⟩
  | destroy => exact ⟨_, _, rfl, le_rfl, fun _ hi => by cases hi⟩

/-- What the calls so far say of the deadline. -/
structure DeadlineKept (tr : List TimerEvent) (x : TimerInfo) : Prop where
  forward : ∀ ev ∈ tr, ∃ y, ev.pre = some y ∧ y.nextCallTimeNs.toInt ≤ x.nextCallTimeNs.toInt
  reached : ∀ ev ∈ tr, ∀ now, ev.input = .handleTimerEvent (some now) →
    ev.output = some .executed → now.toInt ≤ x.nextCallTimeNs.toInt

theorem deadlineKept_of_run {tr : List TimerEvent} {s : Option TimerInfo}
    (h : Transition.Run timerInfo OnSchedule tr s) : ∃ x, s = some x ∧ DeadlineKept tr x := by
  induction h with
  | init h =>
    obtain ⟨x, rfl⟩ := Option.isSome_iff_exists.mp h
    exact ⟨x, rfl, by simp, by simp⟩
  | step i hr hg ih =>
    obtain ⟨x, rfl, hkept⟩ := ih
    obtain ⟨o, y, hy, hstep⟩ := call_onSchedule hg
    have houtput : (timerInfo.step (some x) i).1 = some o := by simp [timerInfo, hy]
    refine ⟨y, by simp [timerInfo, hy], fun ev hev => ?_, fun ev hev now hi ho => ?_⟩
    · rcases List.mem_cons.mp hev with rfl | hev
      · exact ⟨x, rfl, hstep.forward⟩
      · obtain ⟨z, hz, hle⟩ := hkept.forward ev hev
        exact ⟨z, hz, hle.trans hstep.forward⟩
    · rcases List.mem_cons.mp hev with rfl | hev
      · exact hstep.reached now hi (Option.some.inj (houtput.symm.trans ho))
      · exact (hkept.reached ev hev now hi ho).trans hstep.forward

/-- **The schedule**: an execution sets the first deadline on the grid that is due, and nothing
overflows; over any executions with any new periods in between the deadline does not move back
and does not fall behind what the clock read. -/
theorem timer_schedule :
    (∀ (x : TimerInfo) (now : Int64), x.alive = true → x.canceled = false →
      OnSchedule (some x) (.handleTimerEvent (some now)) →
      ∃ n, x.handleTimerEvent (some now) =
          some (.executed, { x with lastCallTimeNs := now, nextCallTimeNs := n }) ∧
        IsNextDeadline x.nextCallTimeNs.toInt x.periodNs.toInt now.toInt n.toInt) ∧
    ∀ (tr : List TimerEvent) (s : Option TimerInfo), Transition.Run timerInfo OnSchedule tr s →
      ∃ x, s = some x ∧ DeadlineKept tr x := by
  refine ⟨fun x now halive hcanceled h => ?_, fun tr s h => deadlineKept_of_run h⟩
  obtain ⟨hperiod, hnext, hsum, hnow⟩ := h
  exact handleTimerEvent_spec halive hcanceled hperiod hnext hsum (hnow now rfl)

/-- A timer with a period of 10 that was due at 30. -/
def dueTimer : TimerInfo where
  alive := true
  canceled := false
  lastCallTimeNs := 20
  nextCallTimeNs := 30
  periodNs := 10
  timeCredit := 0
  timerFd := none
  clockEventfd := some 0

/-- An execution at 60 that missed two cycles, a new period, and an execution at 65. -/
theorem timer_schedule_missed :
    (∃ n, dueTimer.handleTimerEvent (some 60) =
        some (.executed, { dueTimer with lastCallTimeNs := 60, nextCallTimeNs := n }) ∧
      IsNextDeadline 30 10 60 n.toInt) ∧
    ∃ tr x, Transition.Run timerInfo OnSchedule tr (some x) ∧ DeadlineKept tr x ∧ tr.length = 3 := by
  refine ⟨timer_schedule.1 dueTimer 60 rfl rfl (by decide), ?_⟩
  have hguarded : timerInfo.Guarded OnSchedule (some dueTimer)
      [.handleTimerEvent (some 60), .setPeriod 7 (some 60) true, .handleTimerEvent (some 65)] := by
    decide
  have hrun := (Transition.Run.init rfl).exec hguarded
  obtain ⟨x, hx, hkept⟩ := timer_schedule.2 _ _ hrun
  exact ⟨_, x, hx ▸ hrun, hkept, rfl⟩

/-! ## Changes of the time source -/

/-- ROS time is activated: the readings are not zero, and the timer waits for no more than its
period. -/
structure Activates (x : TimerInfo) (oldNow newNow : Int64) : Prop where
  oldPos : 0 < oldNow.toInt
  newPos : 0 < newNow.toInt
  waiting : 0 ≤ x.nextCallTimeNs.toInt - oldNow.toInt
  within : x.nextCallTimeNs.toInt - oldNow.toInt ≤ x.periodNs.toInt

/-- After the jump the timer waits as long as it would have waited without it. -/
def RemainderKept (x : TimerInfo) (oldNow newNow : Int64) : Prop :=
  ∃ y, x.jump (some oldNow) (some newNow) .rosTimeActivated = some y ∧
    y.nextCallTimeNs.toInt - newNow.toInt = x.nextCallTimeNs.toInt - oldNow.toInt

/-- The times after the jump are set from what was left immediately before it, if anything was. -/
structure FreshCredit (x : TimerInfo) (oldNow newNow : Int64) (y : TimerInfo) : Prop where
  due : x.nextCallTimeNs = oldNow →
    y.nextCallTimeNs = x.nextCallTimeNs ∧ y.lastCallTimeNs = x.lastCallTimeNs
  waiting : x.nextCallTimeNs ≠ oldNow →
    y.nextCallTimeNs.toInt =
        newNow.toInt - (x.nextCallTimeNs.toInt - oldNow.toInt) + x.periodNs.toInt ∧
      y.lastCallTimeNs.toInt = newNow.toInt - (x.nextCallTimeNs.toInt - oldNow.toInt)

/-- A timer that is due keeps its time over the jump; else half of the period must be left, and
the new time must exist. -/
def RemainderCondition (x : TimerInfo) (oldNow newNow : Int64) : Prop :=
  if x.nextCallTimeNs = oldNow then oldNow = newNow
  else
    2 * (x.nextCallTimeNs.toInt - oldNow.toInt) = x.periodNs.toInt ∧
      newNow.toInt + (x.nextCallTimeNs.toInt - oldNow.toInt) < 2 ^ 63

/-- The jump with the credit that is saved before it. -/
theorem jump_activated {x : TimerInfo} {oldNow newNow credit : Int64}
    (h : Activates x oldNow newNow) (hcredit : sub x.nextCallTimeNs oldNow = some credit) :
    x.jump (some oldNow) (some newNow) .rosTimeActivated =
      if credit = 0 then some { x with timerFd := none, timeCredit := 0 }
      else do
        let elapsed ← sub newNow credit
        let next ← add elapsed x.periodNs
        return { x with
          timerFd := none, timeCredit := 0, nextCallTimeNs := next, lastCallTimeNs := elapsed } := by
  have hold : oldNow ≠ 0 := by
    rintro rfl
    exact absurd h.oldPos (by decide)
  have hnew : newNow ≠ 0 := by
    rintro rfl
    exact absurd h.newPos (by decide)
  simp only [TimerInfo.jump, TimerInfo.handlePreTimeJump, if_neg hold, hcredit,
    Option.bind_eq_bind, Option.bind_some, TimerInfo.handlePostTimeJump, if_neg hnew]
  rfl

/-- The saved credit is what is left, and zero for a timer that is due. -/
theorem credit_spec {x : TimerInfo} {oldNow newNow : Int64} (h : Activates x oldNow newNow) :
    ∃ credit, sub x.nextCallTimeNs oldNow = some credit ∧
      credit.toInt = x.nextCallTimeNs.toInt - oldNow.toInt ∧
      (credit = 0 ↔ x.nextCallTimeNs = oldNow) := by
  have hlt := x.nextCallTimeNs.toInt_lt
  have hpos := h.oldPos
  have hwaiting := h.waiting
  obtain ⟨credit, hcredit, hint⟩ := sub_of_fits (a := x.nextCallTimeNs) (b := oldNow)
    ⟨by omega, by omega⟩
  refine ⟨credit, hcredit, hint, ?_⟩
  have hzero : (0 : Int64).toInt = 0 := by decide
  rw [← Int64.toInt_inj, ← Int64.toInt_inj, hint, hzero]
  omega

/-- **What is used is what was saved**: no credit of an earlier jump. -/
theorem freshCredit_of_jump {x y : TimerInfo} {oldNow newNow : Int64}
    (h : Activates x oldNow newNow)
    (hjump : x.jump (some oldNow) (some newNow) .rosTimeActivated = some y) :
    FreshCredit x oldNow newNow y := by
  obtain ⟨credit, hcredit, hint, hzero⟩ := credit_spec h
  rw [jump_activated h hcredit] at hjump
  by_cases hdue : credit = 0
  · rw [if_pos hdue] at hjump
    obtain rfl := Option.some.inj hjump
    exact ⟨fun _ => ⟨rfl, rfl⟩, fun hne => absurd (hzero.mp hdue) hne⟩
  · rw [if_neg hdue] at hjump
    refine ⟨fun heq => absurd (hzero.mpr heq) hdue, fun _ => ?_⟩
    simp only [Option.bind_eq_bind, Option.bind_eq_some_iff] at hjump
    obtain ⟨elapsed, helapsed, next, hnext, hy⟩ := hjump
    obtain rfl := Option.some.inj hy
    have helapsedInt : elapsed.toInt = newNow.toInt - credit.toInt := toInt_of_checked helapsed
    have hnextInt : next.toInt = elapsed.toInt + x.periodNs.toInt := toInt_of_checked hnext
    rw [← hint]
    exact ⟨by rw [hnextInt, helapsedInt], helapsedInt⟩

theorem remainderKept_iff {x : TimerInfo} {oldNow newNow : Int64} (h : Activates x oldNow newNow) :
    RemainderKept x oldNow newNow ↔ RemainderCondition x oldNow newNow := by
  obtain ⟨credit, hcredit, hint, hzero⟩ := credit_spec h
  unfold RemainderKept RemainderCondition
  rw [jump_activated h hcredit]
  by_cases hdue : credit = 0
  · -- a timer that is due: nothing is set
    have heq := hzero.mp hdue
    rw [if_pos hdue, if_pos heq, heq]
    constructor
    · rintro ⟨y, hy, hrest⟩
      obtain rfl := Option.some.inj hy
      simp only at hrest
      exact Int64.toInt_inj.mp (by omega)
    · rintro rfl
      exact ⟨_, rfl, rfl⟩
  · have hne : x.nextCallTimeNs ≠ oldNow := fun heq => hdue (hzero.mpr heq)
    -- the remainder is taken over when the new time has room for it
    have hnewPos := h.newPos
    have hnewLt := newNow.toInt_lt
    have hwithin := h.within
    have hwaiting := h.waiting
    have hperiodLt := x.periodNs.toInt_lt
    obtain ⟨elapsed, helapsed, helapsedInt⟩ := sub_of_fits (a := newNow) (b := credit)
      ⟨by omega, by omega⟩
    rw [if_neg hdue, if_neg hne]
    simp only [Option.bind_eq_bind, helapsed, Option.bind_some]
    constructor
    · rintro ⟨y, hy, hrest⟩
      obtain ⟨next, hnext, hy⟩ := Option.bind_eq_some_iff.mp hy
      obtain rfl := Option.some.inj hy
      have hnextInt : next.toInt = elapsed.toInt + x.periodNs.toInt := toInt_of_checked hnext
      have hnextLt := next.toInt_lt
      simp only at hrest
      omega
    · rintro ⟨hhalf, hfits⟩
      obtain ⟨next, hnext, hnextInt⟩ := add_of_fits (a := elapsed) (b := x.periodNs)
        ⟨by omega, by omega⟩
      refine ⟨_, by rw [hnext]; rfl, ?_⟩
      simp only
      omega

/-- **When the remainder is kept**: after any run, a jump that activates ROS time keeps the
remainder of the period exactly if the timer is due and the clock does not change, or if half of
the period is left. The credit is always the one of this jump. -/
theorem remainder_kept {tr : List TimerEvent} {x : TimerInfo}
    (_ : Transition.Run timerInfo Transition.anyStep tr (some x)) {oldNow newNow : Int64}
    (h : Activates x oldNow newNow) :
    (RemainderKept x oldNow newNow ↔ RemainderCondition x oldNow newNow) ∧
      ∀ y, x.jump (some oldNow) (some newNow) .rosTimeActivated = some y →
        FreshCredit x oldNow newNow y :=
  ⟨remainderKept_iff h, fun _ hy => freshCredit_of_jump h hy⟩

/-- Half of the period is left. -/
theorem remainder_kept_half :
    (RemainderKept dueTimer 25 100 ↔ RemainderCondition dueTimer 25 100) ∧
      ∀ y, dueTimer.jump (some 25) (some 100) .rosTimeActivated = some y →
        FreshCredit dueTimer 25 100 y :=
  remainder_kept (.init rfl : Transition.Run timerInfo _ [] (some dueTimer))
    ⟨by decide, by decide, by decide, by decide⟩

/-- Two of ten are left, and the timer waits for eight. -/
theorem remainder_exchanged :
    ¬ ∀ (tr : List TimerEvent) (x : TimerInfo) (oldNow newNow : Int64),
      Transition.Run timerInfo Transition.anyStep tr (some x) → Activates x oldNow newNow →
        RemainderKept x oldNow newNow := by
  intro h
  obtain ⟨y, hy, hrest⟩ := h [] dueTimer 28 100 (.init rfl)
    ⟨by decide, by decide, by decide, by decide⟩
  have hjump : dueTimer.jump (some 28) (some 100) .rosTimeActivated =
      some { dueTimer with lastCallTimeNs := 98, nextCallTimeNs := 108 } := by decide
  rw [hjump] at hy
  obtain rfl := Option.some.inj hy
  exact absurd hrest (by decide)

end Agnocast
