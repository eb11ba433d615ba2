import Agnocast.Lib.CheckedInt
import Agnocast.Lib.Transition

/-!
# The library — the schedule of a timer

`agnocast_timer_info.cpp`: the times that a timer keeps, and what moves them: an execution, a new
period, a reset and the jumps of its clock.

* `TimerInfo` — the times, the descriptors and what is read of `TimerBase`.
* `nextCallTime` — the next call time of `handle_timer_event`.
* `timerInfo` — the transition system.

The signed operations have no result where they overflow, and a call that meets one leaves no
timer: a state is an `Option`. What the clock reads is part of the input; it may also throw. A
jump calls both callbacks. Log messages are left out.
-/

namespace Agnocast

/-- What `timerfd_settime` was told: seconds and nanoseconds. -/
structure ItimerSpec where
  itValue : Int × Int
  itInterval : Int × Int
  deriving DecidableEq, Repr

/-- `rcl_clock_change_t`. -/
inductive ClockChange
  | rosTimeNoChange
  | rosTimeActivated
  | rosTimeDeactivated
  | systemTimeNoChange
  deriving DecidableEq, Repr

/-- `TimerInfo`. A descriptor that is `-1` is `none`: of `timer_fd` the last specification is
kept, of `clock_eventfd` the counter. -/
structure TimerInfo where
  /-- `timer.lock()` finds the timer. -/
  alive : Bool
  canceled : Bool
  lastCallTimeNs : Int64
  nextCallTimeNs : Int64
  periodNs : Int64
  timeCredit : Int64
  timerFd : Option ItimerSpec
  clockEventfd : Option Nat
  deriving DecidableEq, Repr

/-- How a call ends. -/
inductive TimerOutcome
  | returned
  /-- The callback of the timer is called. -/
  | executed
  | threw
  deriving DecidableEq, Repr

/-! ## The functions -/

/-- `ns_to_armed_timespec`. -/
def nsToArmedTimespec (ns : Int64) : Int × Int :=
  -- "{0, 0} disarms the timerfd"
  if ns = 0 then (0, 1) else (ns.toInt.tdiv 1000000000, ns.toInt.tmod 1000000000)

/-- The next call time in `handle_timer_event`. -/
def nextCallTime (nextCallTimeNs periodNs nowNs : Int64) : Option Int64 := do
  let next ← CheckedInt.add nextCallTimeNs periodNs
  -- "in case the timer has missed at least one cycle"
  if next < nowNs then
    if periodNs = 0 then return nowNs
    else
      let nowAhead ← CheckedInt.sub nowNs next
      let less ← CheckedInt.sub nowAhead 1
      let quotient ← CheckedInt.div less periodNs
      let periodsAhead ← CheckedInt.add 1 quotient
      let ahead ← CheckedInt.mul periodsAhead periodNs
      CheckedInt.add next ahead
  else return next

namespace TimerInfo

/-- `handle_timer_event`, up to the call of the callback. -/
def handleTimerEvent (x : TimerInfo) (now : Option Int64) : Option (TimerOutcome × TimerInfo) :=
  if !x.alive || x.canceled then some (.returned, x)
  else
    match now with
    | none => some (.threw, x)
    | some nowNs => do
      let next ← nextCallTime x.nextCallTimeNs x.periodNs nowNs
      return (.executed, { x with lastCallTimeNs := nowNs, nextCallTimeNs := next })

/-- `set_timer_fd`: `timerfd_settime` may fail. -/
def setTimerFd (x : TimerInfo) (spec : ItimerSpec) (armed : Bool) : TimerOutcome × TimerInfo :=
  if armed then (.returned, { x with timerFd := some spec }) else (.threw, x)

/-- `TimerInfo::set_period`. -/
def setPeriod (x : TimerInfo) (newPeriod : Int64) (now : Option Int64) (armed : Bool) :
    Option (TimerOutcome × TimerInfo) :=
  let x := { x with periodNs := newPeriod }
  match x.timerFd, now with
  | none, _ => some (.returned, x)
  | some _, none => some (.threw, x)
  | some _, some nowNs => do
    let remaining ← CheckedInt.sub x.nextCallTimeNs nowNs
    return x.setTimerFd ⟨nsToArmedTimespec (if remaining < 0 then 0 else remaining),
      nsToArmedTimespec newPeriod⟩ armed

/-- `TimerInfo::reset`. -/
def reset (x : TimerInfo) (now : Option Int64) (armed : Bool) : Option (TimerOutcome × TimerInfo) :=
  match now with
  | none => some (.threw, x)
  | some nowNs => do
    let next ← CheckedInt.add nowNs x.periodNs
    let x := { x with nextCallTimeNs := next }
    let period := nsToArmedTimespec x.periodNs
    return if x.timerFd.isSome then x.setTimerFd ⟨period, period⟩ armed else (.returned, x)

/-- `handle_pre_time_jump`. -/
def handlePreTimeJump (x : TimerInfo) (now : Option Int64) : Option TimerInfo :=
  match now with
  | none => some x
  | some nowNs =>
    -- "No time credit if clock is uninitialized"
    if nowNs = 0 then some x
    else do
      let credit ← CheckedInt.sub x.nextCallTimeNs nowNs
      return { x with timeCredit := credit }

/-- `handle_post_time_jump`. -/
def handlePostTimeJump (x : TimerInfo) (now : Option Int64) (change : ClockChange) :
    Option TimerInfo :=
  match now with
  | none => some x
  | some nowNs =>
    match change with
    | .rosTimeActivated =>
      let x := { x with timerFd := none }
      -- "Can't apply time credit if clock is uninitialized"
      if nowNs = 0 then some x
      else
        let timeCredit := x.timeCredit
        let x := { x with timeCredit := 0 }
        if timeCredit = 0 then some x
        else do
          let elapsed ← CheckedInt.sub nowNs timeCredit
          let next ← CheckedInt.add elapsed x.periodNs
          return { x with nextCallTimeNs := next, lastCallTimeNs := elapsed }
    | .rosTimeDeactivated => some x
    | .rosTimeNoChange | .systemTimeNoChange =>
      if x.nextCallTimeNs ≤ nowNs then
        some { x with
          clockEventfd := if x.alive && !x.canceled then x.clockEventfd.map (· + 1)
            else x.clockEventfd }
      else if nowNs < x.lastCallTimeNs then do
        -- "Post backwards time jump that went further back than 1 period"
        let next ← CheckedInt.add nowNs x.periodNs
        return { x with nextCallTimeNs := next, lastCallTimeNs := nowNs }
      else some x

/-- A jump of the clock: what it reads before and after. -/
def jump (x : TimerInfo) (before after : Option Int64) (change : ClockChange) : Option TimerInfo := do
  let x ← x.handlePreTimeJump before
  x.handlePostTimeJump after change

end TimerInfo

/-! ## The system -/

/-- What can happen. -/
inductive TimerInput
  | handleTimerEvent (now : Option Int64)
  | setPeriod (newPeriod : Int64) (now : Option Int64) (armed : Bool)
  | reset (now : Option Int64) (armed : Bool)
  | jump (before after : Option Int64) (change : ClockChange)
  | cancel
  | destroy
  deriving DecidableEq, Repr

/-- One call on a timer. -/
def TimerInfo.call (x : TimerInfo) : TimerInput → Option (TimerOutcome × TimerInfo)
  | .handleTimerEvent now => x.handleTimerEvent now
  | .setPeriod newPeriod now armed => x.setPeriod newPeriod now armed
  | .reset now armed => x.reset now armed
  | .jump before after change => (x.jump before after change).map (TimerOutcome.returned, ·)
  | .cancel => some (.returned, { x with canceled := true })
  | .destroy => some (.returned, { x with alive := false })

/-- A timer, from any state on. -/
def timerInfo : Transition.System (Option TimerInfo) TimerInput (Option TimerOutcome) where
  init s := s.isSome = true
  step s i := ((s.bind (·.call i)).map Prod.fst, (s.bind (·.call i)).map Prod.snd)

abbrev TimerEvent := Transition.Event (Option TimerInfo) TimerInput (Option TimerOutcome)

end Agnocast
