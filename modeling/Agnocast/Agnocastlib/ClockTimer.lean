import Mathlib.Data.Int.Order.Basic
import Agnocast.Lib.Bag
import Agnocast.Lib.Transition

/-!
# The library — a timer on simulated time

A `ROS_TIME` timer under a clock that is set by its time source: the post-jump callback
writes `clock_eventfd` when the timer is due, `ClockEventHandler::handle` reads it, tests
whether the timer is ready and queues an executable, and the executable runs
`handle_timer_event`, which stores the next call time and calls the user's callback.

* `ClockTimer` — one timer, the clock, the executables of its callback group, and every run of
  `handle` and of `handle_timer_event` that is under way, one atomic access a step.
* `clockTimer` — the transition system; a callback answers with its `Execution`.

The clock calls its jump callbacks before it can be set again, so there is at most one under
way. Changes of the time source, `reset` and `set_period` are not part of the system. A step
that is not possible leaves the state as it is.
-/

namespace Agnocast

/-! ## The state -/

/-- Where a post-jump callback stands, with what it has loaded. -/
inductive PostJump
  | entered
  | clocked (nowNs : Int)
  | lastLoaded (nowNs lastCallNs : Int)
  | nextLoaded (nowNs lastCallNs nextCallNs : Int)
  deriving DecidableEq, Repr

/-- Where a clock event stands, from `epoll_wait` to the end of its executable. -/
inductive ClockJob
  /-- `handle` was called. -/
  | dispatched
  /-- The timer was found under its id. -/
  | found
  /-- `clock_eventfd` was read and was not zero. -/
  | drained
  | clocked (nowNs : Int)
  /-- The timer was ready; the executable is not yet in the list. -/
  | ready
  /-- In `ready_agnocast_executables_`. -/
  | queued
  /-- Taken from the list. -/
  | taken
  /-- In `handle_timer_event`; the timer exists and is not canceled. -/
  | running
  | timed (nowNs : Int)
  | lastStored (nowNs : Int)
  | nextLoaded (nowNs nextCallNs : Int)
  /-- The next call time is stored over `due`. -/
  | advanced (due : Int)
  /-- The callable has returned. -/
  | returned
  deriving DecidableEq, Repr

/-- An execution found the timer ready and has not stored the next call time yet. -/
def ClockJob.unsettled : ClockJob → Bool
  | .ready | .queued | .taken | .running | .timed _ | .lastStored _ | .nextLoaded .. => true
  | _ => false

/-- The next call time that a callback's execution replaced. -/
def ClockJob.due? : ClockJob → Option Int
  | .advanced due => some due
  | _ => none

/-- The timer (`TimerInfo` and what it needs of `TimerBase`), the clock, and the timer's
callback group: `othersRunning` counts the group's other executables that were taken. -/
structure ClockTimer where
  nowNs : Int
  lastCallTimeNs : Int
  nextCallTimeNs : Int
  periodNs : Int
  canceled : Bool
  destroyed : Bool
  clockEventfd : Nat
  postJump : Option PostJump
  jobs : List ClockJob
  mutuallyExclusive : Bool
  canBeTakenFrom : Bool
  othersRunning : Nat
  deriving DecidableEq

/-- `register_timer_info` at a clock that reads `nowNs`. -/
def registerTimerInfo (nowNs periodNs : Int) (mutuallyExclusive : Bool) : ClockTimer where
  nowNs := nowNs
  lastCallTimeNs := nowNs
  nextCallTimeNs := nowNs + periodNs
  periodNs := periodNs
  canceled := false
  destroyed := false
  clockEventfd := 0
  postJump := none
  jobs := []
  mutuallyExclusive := mutuallyExclusive
  canBeTakenFrom := true
  othersRunning := 0

/-- A call of the user's callback: what the clock reads, and the next call time that the
previous execution had set (the first one: the time from registration). -/
structure Execution where
  clockNs : Int
  due : Int
  deriving DecidableEq, Repr

/-! ## The functions -/

/-- The next call time that `handle_timer_event` computes. -/
def advanceCallTime (nextCallTimeNs periodNs nowNs : Int) : Int :=
  let next := nextCallTimeNs + periodNs
  -- "in case the timer has missed at least one cycle"
  if next < nowNs then
    if periodNs = 0 then nowNs
    else next + (1 + (nowNs - next - 1) / periodNs) * periodNs
  else next

namespace ClockTimer

/-- One job moves on, or ends. -/
def move (x : ClockTimer) (job : ClockJob) (jobs : List ClockJob) : ClockTimer :=
  { x with jobs := Bag.replace x.jobs job jobs }

/-- The next access of `handle_post_time_jump`, for a jump without a clock change. -/
def postTimeJump (x : ClockTimer) : PostJump → ClockTimer
  | .entered => { x with postJump := some (.clocked x.nowNs) }
  | .clocked nowNs => { x with postJump := some (.lastLoaded nowNs x.lastCallTimeNs) }
  | .lastLoaded nowNs lastCallNs =>
    { x with postJump := some (.nextLoaded nowNs lastCallNs x.nextCallTimeNs) }
  | .nextLoaded nowNs lastCallNs nextCallNs =>
    if nextCallNs ≤ nowNs then
      { x with
        postJump := none
        clockEventfd :=
          if !x.destroyed && !x.canceled then x.clockEventfd + 1 else x.clockEventfd }
    else if nowNs < lastCallNs then
      -- "Post backwards time jump that went further back than 1 period"
      { x with postJump := none, nextCallTimeNs := nowNs + x.periodNs, lastCallTimeNs := nowNs }
    else { x with postJump := none }

/-- `can_be_taken_from().exchange(false)` of a mutually exclusive group. -/
def groupFree (x : ClockTimer) : Bool := !x.mutuallyExclusive || x.canBeTakenFrom

/-- The flag after an executable of the group was taken or has finished. -/
def setGroup (x : ClockTimer) (free : Bool) : Bool :=
  if x.mutuallyExclusive then free else x.canBeTakenFrom

/-- The next access of a job: `ClockEventHandler::handle` up to the ready list, the executor's
take, and `handle_timer_event`. -/
def runJob (x : ClockTimer) (job : ClockJob) : Option Execution × ClockTimer :=
  match job with
  | .dispatched => (none, x.move job (if x.destroyed then [] else [.found]))
  | .found =>
    if x.clockEventfd = 0 then (none, x.move job [])
    else (none, { x.move job [.drained] with clockEventfd := 0 })
  | .drained => (none, x.move job [.clocked x.nowNs])
  -- "Check if timer is ready"
  | .clocked nowNs => (none, x.move job (if nowNs < x.nextCallTimeNs then [] else [.ready]))
  | .ready => (none, x.move job [.queued])
  | .queued =>
    if x.groupFree then (none, { x.move job [.taken] with canBeTakenFrom := x.setGroup false })
    else (none, x)
  | .taken => (none, x.move job (if x.destroyed || x.canceled then [.returned] else [.running]))
  | .running => (none, x.move job [.timed x.nowNs])
  | .timed nowNs => (none, { x.move job [.lastStored nowNs] with lastCallTimeNs := nowNs })
  | .lastStored nowNs => (none, x.move job [.nextLoaded nowNs x.nextCallTimeNs])
  | .nextLoaded nowNs nextCallNs =>
    (none,
      { x.move job [.advanced x.nextCallTimeNs] with
        nextCallTimeNs := advanceCallTime nextCallNs x.periodNs nowNs })
  | .advanced due => (some ⟨x.nowNs, due⟩, x.move job [.returned])
  | .returned => (none, { x.move job [] with canBeTakenFrom := x.setGroup true })

end ClockTimer

/-- What can happen. -/
inductive ClockInput
  /-- The time source sets the clock forward and calls the jump callbacks. -/
  | jump (nowNs : Int)
  /-- The post-jump callback goes on. -/
  | postJump
  /-- A thread gets the timer's clock event from `epoll_wait`. -/
  | dispatch
  /-- A job goes on. -/
  | run (job : ClockJob)
  /-- Another executable of the callback group is taken, or finishes. -/
  | takeOther
  | finishOther
  | cancel
  | destroy
  deriving DecidableEq, Repr

/-- One step; a callback that is called answers with its execution. -/
def ClockTimer.step (x : ClockTimer) : ClockInput → Option Execution × ClockTimer
  | .jump nowNs =>
    (none, if x.nowNs < nowNs ∧ x.postJump = none then { x with nowNs, postJump := some .entered }
      else x)
  | .postJump =>
    match x.postJump with
    | none => (none, x)
    | some pc => (none, x.postTimeJump pc)
  | .dispatch =>
    (none, if 0 < x.clockEventfd then { x with jobs := .dispatched :: x.jobs } else x)
  | .run job => if job ∈ x.jobs then x.runJob job else (none, x)
  | .takeOther =>
    (none,
      if x.groupFree then
        { x with canBeTakenFrom := x.setGroup false, othersRunning := x.othersRunning + 1 }
      else x)
  | .finishOther =>
    (none,
      if 0 < x.othersRunning then
        { x with canBeTakenFrom := x.setGroup true, othersRunning := x.othersRunning - 1 }
      else x)
  | .cancel => (none, { x with canceled := true })
  | .destroy => (none, { x with destroyed := true })

/-- A timer that is registered at a clock that reads `nowNs`. -/
def clockTimer (nowNs periodNs : Int) (mutuallyExclusive : Bool) :
    Transition.System ClockTimer ClockInput (Option Execution) where
  init := fun x => x = registerTimerInfo nowNs periodNs mutuallyExclusive
  step := ClockTimer.step

abbrev ClockEvent := Transition.Event ClockTimer ClockInput (Option Execution)

/-- The executions of a run, newest first. -/
def executions (tr : List ClockEvent) : List Execution := tr.filterMap Transition.Event.output

/-- The timer is never found ready while an earlier execution has not settled its next call
time. -/
def ReadyWhenSettled (x : ClockTimer) : ClockInput → Prop
  | .run (.clocked nowNs) =>
    x.nextCallTimeNs ≤ nowNs → ∀ job ∈ x.jobs, job.unsettled = false
  | _ => True

instance (x : ClockTimer) : (i : ClockInput) → Decidable (ReadyWhenSettled x i)
  | .run (.clocked nowNs) =>
    inferInstanceAs (Decidable (x.nextCallTimeNs ≤ nowNs → ∀ job ∈ x.jobs, job.unsettled = false))
  | .run .dispatched | .run .found | .run .drained | .run .ready | .run .queued | .run .taken
  | .run .running | .run (.timed _) | .run (.lastStored _) | .run (.nextLoaded ..)
  | .run (.advanced _) | .run .returned | .jump _ | .postJump | .dispatch | .takeOther
  | .finishOther | .cancel | .destroy => inferInstanceAs (Decidable True)

end Agnocast
