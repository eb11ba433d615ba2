import Mathlib.Logic.Function.Basic
import Agnocast.Kmod.Basic
import Agnocast.Lib.Transition

/-!
# The client library — the registries of callbacks and timers

One process that spins Agnocast executors. A subscription registers a `CallbackInfo` under
an id, and its eventfd is watched with that id; a handler that is woken copies the info out
of the registry, reads the eventfd, and queues an executable that carries the copy. A timer
registers a shared `TimerInfo`, and its executables carry the pointer.

The threads of the process share `work`: every handler that is between two of its steps and
every executable that is queued or running, of every executor. Which of them goes next is
the input, so any assignment of executables to threads and callback groups is one of the
runs.

* `Library`       — the registries, the objects, the fds, the work.
* `Library.step`  — one critical section or one system call of one thread.
* `library`       — the transition system, from a process that has created nothing.
-/

namespace Agnocast

/-- `MAX_CALLBACK_INFO_ID`. -/
def maxCallbackInfoId : Nat := 2 ^ 32 - 1 - 1000

/-- `MAX_TIMER_ID`. -/
def maxTimerId : Nat := 2 ^ 32 - 1 - 1000

/-- The event types that an executor waits for. -/
inductive EpollEventType
  | subscription
  | timer
  | clock
  deriving DecidableEq, Repr

/-- `callback` stands for the closure, by the subscription whose function it is. -/
structure CallbackInfo where
  topicName : Name
  subscriberId : Int
  isTransientLocal : Bool
  notifyEventfd : Int
  callback : Nat
  needEpollUpdate : Bool := true
  deriving DecidableEq, Repr

/-- How far the destructor of a subscription has come: not begun, the registry entry is
erased, the subscriber is removed from the kernel, the eventfd is closed. -/
inductive Phase
  | alive
  | erased
  | removed
  | returned
  deriving DecidableEq, Repr

structure SubscriptionObject where
  callbackInfoId : Nat
  topicName : Name
  id : Int
  notifyEventfd : Int
  phase : Phase
  deriving DecidableEq, Repr

/-- The kernel still knows the subscriber. -/
def SubscriptionObject.inKernel (obj : SubscriptionObject) : Bool :=
  obj.phase = .alive ∨ obj.phase = .erased

/-- A `TimerBase`: whether somebody still owns it, whether its destructor has run, and which
of its fds are not in the epoll yet. -/
structure TimerObject where
  timerId : Nat
  owned : Bool
  unregistered : Bool
  fdNeedUpdate : List EpollEventType
  deriving DecidableEq, Repr

/-- What a thread or a queue holds. `executable` is queued, or taken and not yet at its
ioctl; `received` is in the loop over the entries it was given. A timer is named by its
object, which its `TimerInfo` belongs to. -/
inductive Work
  | event (type : EpollEventType) (localId : Nat)
  | copied (id : Nat) (info : CallbackInfo)
  | executable (id : Nat) (info : CallbackInfo)
  | received (id : Nat) (info : CallbackInfo) (entries : Nat) (callAgain : Bool)
  | timerFound (timer : Nat)
  | timerExecutable (timer : Nat)
  | timerCalling (timer : Nat)
  deriving DecidableEq, Repr

/-- The work has a `shared_ptr` to the timer itself. -/
def Work.locksTimer (timer : Nat) : Work → Bool
  | .timerFound t => t = timer
  | .timerCalling t => t = timer
  | _ => false

/-- The work has a `shared_ptr` to the `TimerInfo`. -/
def Work.holdsTimerInfo (timer : Nat) : Work → Bool
  | .timerFound t => t = timer
  | .timerExecutable t => t = timer
  | .timerCalling t => t = timer
  | _ => false

/-- The process. An open eventfd is mapped to whether its counter is nonzero; `interest` is
what the epolls watch of the subscriptions, `watchedTimers` of the timers. -/
structure Library where
  id2CallbackInfo : Nat → Option CallbackInfo
  nextCallbackInfoId : Nat
  subscriptions : Nat → Option SubscriptionObject
  nextSubscription : Nat
  eventfds : Int → Option Bool
  interest : List (Int × Nat)
  id2TimerInfo : Nat → Option Nat
  nextTimerId : Nat
  timers : Nat → Option TimerObject
  nextTimer : Nat
  watchedTimers : List (EpollEventType × Nat)
  work : List Work
  exited : Bool

/-- Nothing has been created. -/
def Library.empty : Library where
  id2CallbackInfo _ := none
  nextCallbackInfoId := 0
  subscriptions _ := none
  nextSubscription := 0
  eventfds _ := none
  interest := []
  id2TimerInfo _ := none
  nextTimerId := 0
  timers _ := none
  nextTimer := 0
  watchedTimers := []
  work := []
  exited := false

/-- The exits whose cause is in the library itself. -/
inductive ExitCause
  | timerInfoMissing
  | eventfdRead
  | epollCtl
  deriving DecidableEq, Repr

/-- What is seen of a step. -/
inductive Observed
  | receiveMsg (info : CallbackInfo)
  | callback (info : CallbackInfo)
  | exit (cause : ExitCause)
  deriving DecidableEq, Repr

/-- What can happen next. -/
inductive LibraryInput
  | createSubscription (topicName : Name) (subscriberId : Int) (isTransientLocal : Bool) (fd : Int)
  | eraseCallbackInfo (subscription : Nat)
  | removeSubscriber (subscription : Nat)
  | closeNotifyEventfd (subscription : Nat)
  | createTimer (fds : List EpollEventType)
  | dropTimer (timer : Nat)
  | unregisterTimerInfo (timer : Nat)
  | closeTimerFd (timer : Nat)
  | publish (subscription : Nat)
  | prepareSubscription (id : Nat)
  | prepareTimer (type : EpollEventType) (id : Nat)
  | epollWait (type : EpollEventType) (localId : Nat)
  | handle (type : EpollEventType) (localId : Nat)
  | readEventfd (id : Nat) (info : CallbackInfo)
  | receiveMsg (id : Nat) (info : CallbackInfo) (reply : Option (Nat × Bool))
  | callback (id : Nat) (info : CallbackInfo) (entries : Nat) (callAgain : Bool)
  | finish (id : Nat) (info : CallbackInfo) (callAgain : Bool)
  | readTimer (timer : Nat) (expired : Bool)
  | lockTimer (timer : Nat) (canceled : Bool)
  | finishTimer (timer : Nat)
  deriving DecidableEq, Repr

namespace Library

def setSubscription (x : Library) (s : Nat) (obj : SubscriptionObject) : Library :=
  { x with subscriptions := Function.update x.subscriptions s (some obj) }

def setTimer (x : Library) (t : Nat) (obj : TimerObject) : Library :=
  { x with timers := Function.update x.timers t (some obj) }

/-- One work is done and others come of it. -/
def replaceWork (x : Library) (w : Work) (ws : List Work) : Library :=
  { x with work := ws ++ x.work.erase w }

/-- `close(agnocast_fd); exit(EXIT_FAILURE)`. -/
def exit (x : Library) (cause : ExitCause) : Option Observed × Library :=
  (some (.exit cause), { x with exited := true })

/-! ## Subscriptions -/

/-- The constructor: the kernel has answered with an id for a subscriber with the eventfd,
and the system has given an fd that was not in use. An id that is too large throws, and then
only `~SubscriptionBase` runs. -/
def createSubscription (x : Library) (topicName : Name) (subscriberId : Int)
    (isTransientLocal : Bool) (fd : Int) : Library :=
  if (x.eventfds fd).isSome then x
  else
    let id := x.nextCallbackInfoId
    let y := { x with
      nextCallbackInfoId := (id + 1) % 2 ^ 32
      nextSubscription := x.nextSubscription + 1
      eventfds := Function.update x.eventfds fd (some false) }
    if maxCallbackInfoId ≤ id then
      y.setSubscription x.nextSubscription ⟨id, topicName, subscriberId, fd, .erased⟩
    else
      { y.setSubscription x.nextSubscription ⟨id, topicName, subscriberId, fd, .alive⟩ with
        id2CallbackInfo := Function.update x.id2CallbackInfo id
          (some ⟨topicName, subscriberId, isTransientLocal, fd, x.nextSubscription, true⟩) }

/-- The body of `~Subscription`. -/
def eraseCallbackInfo (x : Library) (s : Nat) : Library :=
  match x.subscriptions s with
  | none => x
  | some obj =>
    if obj.phase = .alive then
      { x.setSubscription s { obj with phase := .erased } with
        id2CallbackInfo := Function.update x.id2CallbackInfo obj.callbackInfoId none }
    else x

/-- The first half of `~SubscriptionBase`: the kernel forgets the subscriber. -/
def removeSubscriber (x : Library) (s : Nat) : Library :=
  match x.subscriptions s with
  | none => x
  | some obj =>
    if obj.phase = .erased then x.setSubscription s { obj with phase := .removed } else x

/-- The second half: the eventfd is closed, which takes it out of the epolls, and the
destructor returns. -/
def closeNotifyEventfd (x : Library) (s : Nat) : Library :=
  match x.subscriptions s with
  | none => x
  | some obj =>
    if obj.phase = .removed then
      { x.setSubscription s { obj with phase := .returned } with
        eventfds := Function.update x.eventfds obj.notifyEventfd none
        interest := x.interest.filter fun p => p.1 ≠ obj.notifyEventfd }
    else x

/-- The kernel signals the eventfds of the subscribers it knows. -/
def publish (x : Library) (s : Nat) : Library :=
  match x.subscriptions s with
  | none => x
  | some obj =>
    if obj.inKernel ∧ (x.eventfds obj.notifyEventfd).isSome then
      { x with eventfds := Function.update x.eventfds obj.notifyEventfd (some true) }
    else x

/-- `SubscriptionEventHandler::prepare_epoll`, one entry of its loop. `EPOLL_CTL_ADD` fails
for an fd that is closed or already there. -/
def prepareSubscription (x : Library) (id : Nat) : Option Observed × Library :=
  match x.id2CallbackInfo id with
  | none => (none, x)
  | some info =>
    if info.needEpollUpdate = false then (none, x)
    else if x.eventfds info.notifyEventfd = none ∨ info.notifyEventfd ∈ x.interest.map Prod.fst then
      x.exit .epollCtl
    else
      (none,
        { x with
          id2CallbackInfo :=
            Function.update x.id2CallbackInfo id (some { info with needEpollUpdate := false })
          interest := (info.notifyEventfd, id) :: x.interest
          -- what was published before it joined is received at once
          work := if info.isTransientLocal then .executable id info :: x.work else x.work })

/-! ## Timers -/

/-- `create_timer`; an id that is too large throws. -/
def createTimer (x : Library) (fds : List EpollEventType) : Library :=
  let y := { x with nextTimerId := (x.nextTimerId + 1) % 2 ^ 32 }
  if maxTimerId ≤ x.nextTimerId then y
  else
    { y.setTimer x.nextTimer ⟨x.nextTimerId, true, false, fds⟩ with
      nextTimer := x.nextTimer + 1
      id2TimerInfo := Function.update x.id2TimerInfo x.nextTimerId (some x.nextTimer) }

/-- `timer.lock()` on the `weak_ptr` succeeds: somebody owns the timer, or a handler or an
executable has locked it. -/
def timerAlive (x : Library) (t : Nat) : Bool :=
  (x.timers t).any (·.owned) || x.work.any (·.locksTimer t)

/-- The `TimerInfo`, and with it the fds, exists: the registry or some work points to it. -/
def timerInfoAlive (x : Library) (t : Nat) : Bool :=
  (x.timers t).any (fun obj => x.id2TimerInfo obj.timerId = some t) ||
    x.work.any (·.holdsTimerInfo t)

/-- The owner lets go. -/
def dropTimer (x : Library) (t : Nat) : Library :=
  match x.timers t with
  | none => x
  | some obj => x.setTimer t { obj with owned := false }

/-- `~TimerBase`, once the last `shared_ptr` is gone. -/
def unregisterTimerInfo (x : Library) (t : Nat) : Library :=
  match x.timers t with
  | none => x
  | some obj =>
    if obj.unregistered = false ∧ x.timerAlive t = false then
      { x.setTimer t { obj with unregistered := true } with
        id2TimerInfo := Function.update x.id2TimerInfo obj.timerId none }
    else x

/-- ROS time becomes active: `handle_post_time_jump` closes the timerfd. -/
def closeTimerFd (x : Library) (t : Nat) : Library :=
  match x.timers t with
  | none => x
  | some obj =>
    { x.setTimer t { obj with fdNeedUpdate := obj.fdNeedUpdate.filter (· ≠ .timer) } with
      watchedTimers := x.watchedTimers.filter (· ≠ (.timer, t)) }

/-- `prepare_epoll` of the timer and of the clock handler, one entry of the loop. An fd of a
`TimerInfo` in the registry is open, and is added once. -/
def prepareTimer (x : Library) (type : EpollEventType) (id : Nat) : Library :=
  match x.id2TimerInfo id with
  | none => x
  | some t =>
    match x.timers t with
    | none => x
    | some obj =>
      if x.timerAlive t ∧ type ∈ obj.fdNeedUpdate then
        { x.setTimer t { obj with fdNeedUpdate := obj.fdNeedUpdate.filter (· ≠ type) } with
          watchedTimers := (type, t) :: x.watchedTimers }
      else x

/-! ## Handlers and executables -/

/-- `epoll_wait` can return the event: its fd is in the epoll and ready. -/
def readyEvent (x : Library) : EpollEventType → Nat → Bool
  | .subscription, localId =>
    x.interest.any fun p => p.2 = localId ∧ x.eventfds p.1 = some true
  | type, localId =>
    x.watchedTimers.any fun p => p.1 = type ∧ (x.timers p.2).any (·.timerId = localId) ∧
      x.timerInfoAlive p.2

/-- The first half of `handle`, the critical section: what is registered under the id. -/
def handle (x : Library) (type : EpollEventType) (localId : Nat) : Option Observed × Library :=
  match type with
  | .subscription =>
    match x.id2CallbackInfo localId with
    -- "callback was unregistered (subscription destroyed): this is normal"
    | none => (none, x.replaceWork (.event type localId) [])
    | some info => (none, x.replaceWork (.event type localId) [.copied localId info])
  | _ =>
    match x.id2TimerInfo localId with
    | none => x.exit .timerInfoMissing
    | some t =>
      if x.timerAlive t then (none, x.replaceWork (.event type localId) [.timerFound t])
      else (none, x.replaceWork (.event type localId) [])

/-- The second half for a subscription: the eventfd of the copy is read. -/
def readEventfd (x : Library) (id : Nat) (info : CallbackInfo) : Option Observed × Library :=
  match x.eventfds info.notifyEventfd with
  | none => x.exit .eventfdRead
  -- `EAGAIN`
  | some false => (none, x.replaceWork (.copied id info) [])
  | some true =>
    (none,
      { x.replaceWork (.copied id info) [.executable id info] with
        eventfds := Function.update x.eventfds info.notifyEventfd (some false) })

/-- `receive_and_execute_message` up to its loop. An ioctl that fails ends the process. -/
def receiveMsg (x : Library) (id : Nat) (info : CallbackInfo) (reply : Option (Nat × Bool)) :
    Option Observed × Library :=
  match reply with
  | none => (some (.receiveMsg info), { x with exited := true })
  | some (entries, callAgain) =>
    (some (.receiveMsg info),
      x.replaceWork (.executable id info) [.received id info entries callAgain])

/-- A step of a thread on the work it has, if it has it. -/
def act (x : Library) : LibraryInput → Option Observed × Library
  | .createSubscription topicName subscriberId isTransientLocal fd =>
    (none, x.createSubscription topicName subscriberId isTransientLocal fd)
  | .eraseCallbackInfo s => (none, x.eraseCallbackInfo s)
  | .removeSubscriber s => (none, x.removeSubscriber s)
  | .closeNotifyEventfd s => (none, x.closeNotifyEventfd s)
  | .createTimer fds => (none, x.createTimer fds)
  | .dropTimer t => (none, x.dropTimer t)
  | .unregisterTimerInfo t => (none, x.unregisterTimerInfo t)
  | .closeTimerFd t => (none, x.closeTimerFd t)
  | .publish s => (none, x.publish s)
  | .prepareSubscription id => x.prepareSubscription id
  | .prepareTimer type id => (none, x.prepareTimer type id)
  | .epollWait type localId =>
    (none, if x.readyEvent type localId then { x with work := .event type localId :: x.work } else x)
  | .handle type localId =>
    if .event type localId ∈ x.work then x.handle type localId else (none, x)
  | .readEventfd id info => if .copied id info ∈ x.work then x.readEventfd id info else (none, x)
  | .receiveMsg id info reply =>
    if .executable id info ∈ x.work then x.receiveMsg id info reply else (none, x)
  | .callback id info entries callAgain =>
    if .received id info (entries + 1) callAgain ∈ x.work then
      (some (.callback info),
        x.replaceWork (.received id info (entries + 1) callAgain)
          [.received id info entries callAgain])
    else (none, x)
  | .finish id info callAgain =>
    if .received id info 0 callAgain ∈ x.work then
      (none,
        x.replaceWork (.received id info 0 callAgain)
          (if callAgain then [.executable id info] else []))
    else (none, x)
  | .readTimer t expired =>
    if .timerFound t ∈ x.work then
      (none, x.replaceWork (.timerFound t) (if expired then [.timerExecutable t] else []))
    else (none, x)
  | .lockTimer t canceled =>
    if .timerExecutable t ∈ x.work then
      (none,
        x.replaceWork (.timerExecutable t)
          (if x.timerAlive t ∧ canceled = false then [.timerCalling t] else []))
    else (none, x)
  | .finishTimer t =>
    if .timerCalling t ∈ x.work then (none, x.replaceWork (.timerCalling t) []) else (none, x)

/-- One step, with what is seen of it. -/
def step (x : Library) (i : LibraryInput) : Option Observed × Library :=
  if x.exited then (none, x) else x.act i

end Library

/-- A process that has created nothing yet. -/
def library : Transition.System Library LibraryInput (Option Observed) where
  init x := x = .empty
  step := Library.step

/-- A step of the process, with what was seen of it. -/
abbrev LibraryEvent := Transition.Event Library LibraryInput (Option Observed)

end Agnocast
