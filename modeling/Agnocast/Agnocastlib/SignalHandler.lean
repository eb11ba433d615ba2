import Mathlib.Logic.Function.Basic
import Agnocast.Lib.Bag
import Agnocast.Lib.Transition

/-!
# The client library — `SignalHandler`

`agnocast::init` installs handlers of SIGINT and SIGTERM and starts a thread that processes signals;
`agnocast::shutdown` takes them away. A handler records its signal and wakes the thread through an
eventfd; the thread shuts the context down and writes the eventfds of the executors.

Representation:

* **Steps.** An access to an atomic is a step, and so is a system call. What stands under `mutex_` is
  taken apart where it touches atomics or descriptors. A thread that waits for a mutex stays where it
  is.
* **Handlers** run on any thread, so any number of them are under way: a bag of positions. What the
  action that was installed before does in a handler comes before the first step.
* **Descriptors** are numbered as they are made: the number of a closed one does not come back, so
  that an access to it shows even if the operating system has given its number away.
* **Threads.** Any number of them call `shutdown`; the one that gets to uninstall goes on in `control`,
  where the one thread that calls `init` stands too.
* A system call that fails ends the process, as the caller exits; `fails` says whether it does.
* `registrations` is left of the past: the eventfds whose registration has succeeded, and that were not
  unregistered since.
-/

namespace Agnocast

/-! ## Positions -/

/-- `SignalHandler::State`. -/
inductive SignalHandlerState
  | notInstalled
  | installed
  | uninstalling
  deriving DecidableEq, Repr

/-- Where a call of `signal_handler` stands. -/
inductive SignalHandlerPos
  /-- It has not counted itself in; the action that was there before runs here. -/
  | dispatched
  | counted
  /-- `signal_received_` is set. -/
  | recorded
  /-- `signal_eventfd_` is loaded. -/
  | loaded (fd : Option Nat)
  /-- It has written, or there was nothing to write to. -/
  | written
  deriving DecidableEq, Repr

/-- It is counted in `handler_inflight_count_`. -/
def SignalHandlerPos.inFlight : SignalHandlerPos → Bool
  | .dispatched => false
  | _ => true

/-- Where the thread in `signal_processing_loop` stands. -/
inductive SignalThreadPos
  | notRunning
  /-- At the head of the loop. -/
  | exchange
  /-- It has a signal and wants `g_context_mtx`. -/
  | shutdownContext
  /-- It wants `mutex_` to notify the executors. -/
  | notify
  /-- It holds `mutex_` and has these eventfds to write. -/
  | notifying (left : List Nat)
  | stopTest
  /-- In `wait_for_signal_eventfd`. -/
  | load
  | reading (fd : Nat)
  | finished
  deriving DecidableEq, Repr

/-- Where `agnocast::init` stands, or `uninstall` after its test. -/
inductive SignalControlPos
  | idle
  | initContext
  /-- It wants `mutex_`. -/
  | install
  | storeEventfd (fd : Nat)
  | clearStop
  | clearReceived
  | startThread
  | installSigint
  | installSigterm
  | setInstalled
  | restoreSigint
  | restoreSigterm (failed : Bool)
  | requestStop
  | loadEventfd
  | wake (fd : Option Nat)
  /-- It has released `mutex_` and joins the thread. -/
  | join
  /-- It wants `mutex_` again. -/
  | invalidate
  | drain (fd : Nat)
  | close (fd : Nat)
  | setNotInstalled
  deriving DecidableEq, Repr

/-- It holds `mutex_`. -/
def SignalControlPos.locked : SignalControlPos → Bool
  | .idle => false
  | .initContext => false
  | .install => false
  | .join => false
  | .invalidate => false
  | _ => true

/-- A call of `agnocast::init` is under way. -/
def SignalControlPos.inInit : SignalControlPos → Bool
  | .initContext => true
  | .install => true
  | .storeEventfd _ => true
  | .clearStop => true
  | .clearReceived => true
  | .startThread => true
  | .installSigint => true
  | .installSigterm => true
  | .setInstalled => true
  | _ => false

/-- Where a call of `agnocast::shutdown` stands that has not got to uninstall. -/
inductive ShutdownCall
  | shutdownContext
  /-- It wants `mutex_` to notify the executors. -/
  | notify
  /-- It holds `mutex_` and has these eventfds to write. -/
  | notifying (left : List Nat)
  /-- It wants `mutex_` in `uninstall`. -/
  | uninstall
  deriving DecidableEq, Repr

/-- It holds `mutex_`. -/
def ShutdownCall.locked : ShutdownCall → Bool
  | .notifying _ => true
  | _ => false

/-! ## The state -/

/-- The members of `SignalHandler`, the context, and what the kernel and the threads add to them. -/
structure SignalHandler where
  state : SignalHandlerState
  eventfds : List Nat
  stopRequested : Bool
  signalReceived : Bool
  signalEventfd : Option Nat
  handlerInflightCount : Nat
  /-- `initialized_` of `g_context` -/
  initialized : Bool
  /-- `signal_handler` is the action of SIGINT. -/
  sigint : Bool
  /-- `signal_handler` is the action of SIGTERM. -/
  sigterm : Bool
  fds : Nat
  isOpen : Nat → Bool
  /-- The eventfd belongs to an executor. -/
  isExecutor : Nat → Bool
  /-- The counter of an eventfd. -/
  counter : Nat → Nat
  thread : SignalThreadPos
  handlers : List SignalHandlerPos
  control : SignalControlPos
  calls : List ShutdownCall
  exited : Bool
  registrations : List Nat

/-- What happens next. -/
inductive SignalInput
  /-- SIGTERM or SIGINT is delivered. -/
  | signal (term : Bool)
  /-- A handler that stands there goes on. -/
  | handlerStep (pos : SignalHandlerPos)
  /-- The processing thread goes on. -/
  | threadStep
  | callInit
  | callShutdown
  /-- A call of `shutdown` that stands there goes on. -/
  | callStep (pos : ShutdownCall)
  /-- `init` or `uninstall` goes on. -/
  | controlStep (fails : Bool)
  /-- An executor makes its eventfd. -/
  | createExecutor
  | registerShutdownEvent (fd : Nat)
  | unregisterShutdownEvent (fd : Nat)
  /-- An executor closes its eventfd. -/
  | closeExecutor (fd : Nat)
  deriving DecidableEq, Repr

/-- What can be seen of a step. -/
inductive SignalOutput
  | silent
  | wrote (fd : Nat)
  | read (fd : Nat)
  /-- `register_shutdown_event` returns. -/
  | registered (success : Bool)
  | unregistered
  /-- The thread has processed a signal. -/
  | processed
  | initReturned
  | shutdownReturned
  deriving DecidableEq, Repr

namespace SignalHandler

variable (s : SignalHandler)

/-- Nobody holds `mutex_`. -/
def mutexFree : Bool :=
  !s.control.locked && !(s.calls.any ShutdownCall.locked) &&
    match s.thread with
    | .notifying _ => false
    | _ => true

/-- `exit(EXIT_FAILURE)`. -/
def exit : SignalHandler := { s with exited := true }

/-- `write` of one to an eventfd; nothing comes of it when it is closed. -/
def writeEventfd (fd : Nat) : SignalHandler :=
  if s.isOpen fd then { s with counter := Function.update s.counter fd (s.counter fd + 1) } else s

/-- One round of `notify_all_executors`: an eventfd that is closed is erased. -/
def notifyExecutor (fd : Nat) : SignalHandler :=
  if s.isOpen fd then s.writeEventfd fd else { s with eventfds := s.eventfds.filter (· ≠ fd) }

/-- The descriptor that the kernel gives next. -/
def newEventfd (executor : Bool) : SignalHandler :=
  { s with
    fds := s.fds + 1
    isOpen := Function.update s.isOpen s.fds true
    isExecutor := Function.update s.isExecutor s.fds executor
    counter := Function.update s.counter s.fds 0 }

def closeFd (fd : Nat) : SignalHandler := { s with isOpen := Function.update s.isOpen fd false }

/-! ## Handlers -/

/-- `signal_handler` is the action of SIGTERM, or of SIGINT. -/
def handles (term : Bool) : Bool := if term then s.sigterm else s.sigint

/-- The next step of a `signal_handler` that is under way. -/
def handlerStep (pos : SignalHandlerPos) : SignalOutput × SignalHandler :=
  match pos with
  | .dispatched =>
    (.silent, { s with
      handlers := Bag.replace s.handlers pos [.counted]
      handlerInflightCount := s.handlerInflightCount + 1 })
  | .counted =>
    (.silent, { s with handlers := Bag.replace s.handlers pos [.recorded], signalReceived := true })
  | .recorded =>
    (.silent, { s with handlers := Bag.replace s.handlers pos [.loaded s.signalEventfd] })
  | .loaded none => (.silent, { s with handlers := Bag.replace s.handlers pos [.written] })
  | .loaded (some fd) =>
    (.wrote fd, { s.writeEventfd fd with handlers := Bag.replace s.handlers pos [.written] })
  | .written =>
    (.silent, { s with
      handlers := Bag.replace s.handlers pos []
      handlerInflightCount := s.handlerInflightCount - 1 })

/-! ## The processing thread -/

/-- The thread goes on at another place. -/
def goto (pos : SignalThreadPos) : SignalHandler := { s with thread := pos }

/-- The next step of `signal_processing_loop`. -/
def threadStep : SignalOutput × SignalHandler :=
  match s.thread with
  | .notRunning => (.silent, s)
  | .exchange =>
    if s.signalReceived then
      (.silent, { s with signalReceived := false, thread := .shutdownContext })
    else (.silent, s.goto .stopTest)
  | .shutdownContext => (.silent, { s with initialized := false, thread := .notify })
  | .notify =>
    if !s.mutexFree then (.silent, s)
    else if s.state ≠ .installed then (.processed, s.goto .stopTest)
    else (.silent, s.goto (.notifying s.eventfds))
  | .notifying (fd :: left) => (.wrote fd, (s.notifyExecutor fd).goto (.notifying left))
  | .notifying [] => (.processed, s.goto .stopTest)
  | .stopTest => (.silent, s.goto (if s.stopRequested then .finished else .load))
  | .load =>
    match s.signalEventfd with
    | none => (.silent, s.goto .exchange)
    | some fd => (.silent, s.goto (.reading fd))
  | .reading fd =>
    if !s.isOpen fd then (.read fd, s.goto .exchange)
    -- it sleeps until the counter is not zero
    else if s.counter fd = 0 then (.read fd, s)
    else (.read fd, { s with counter := Function.update s.counter fd 0, thread := .exchange })
  | .finished => (.silent, s)

/-! ## `init` and `shutdown` -/

/-- The next step of a call of `agnocast::shutdown` that is under way. -/
def callStep (pos : ShutdownCall) : SignalOutput × SignalHandler :=
  match pos with
  | .shutdownContext =>
    (.silent, { s with initialized := false, calls := Bag.replace s.calls pos [.notify] })
  | .notify =>
    if !s.mutexFree then (.silent, s)
    else if s.state ≠ .installed then (.silent, { s with calls := Bag.replace s.calls pos [.uninstall] })
    else (.silent, { s with calls := Bag.replace s.calls pos [.notifying s.eventfds] })
  | .notifying (fd :: left) =>
    (.wrote fd, { s.notifyExecutor fd with calls := Bag.replace s.calls pos [.notifying left] })
  | .notifying [] => (.silent, { s with calls := Bag.replace s.calls pos [.uninstall] })
  | .uninstall =>
    if !s.mutexFree then (.silent, s)
    else if s.state ≠ .installed then (.shutdownReturned, { s with calls := Bag.replace s.calls pos [] })
    else
      (.silent, { s with
        state := .uninstalling
        calls := Bag.replace s.calls pos []
        control := .restoreSigint })

/-- `init` or `uninstall` goes on at another place. -/
def proceed (pos : SignalControlPos) : SignalHandler := { s with control := pos }

/-- The next step of `agnocast::init`, or of `uninstall` after its test. -/
def controlStep (fails : Bool) : SignalOutput × SignalHandler :=
  match s.control with
  | .idle => (.silent, s)
  | .initContext => (.silent, { s with initialized := true, control := .install })
  | .install =>
    if !s.mutexFree then (.silent, s)
    else if s.state ≠ .notInstalled then (.initReturned, s.proceed .idle)
    else if fails then (.silent, { s with eventfds := [] }.exit)
    else (.silent, { s.newEventfd false with eventfds := [], control := .storeEventfd s.fds })
  | .storeEventfd fd => (.silent, { s with signalEventfd := some fd, control := .clearStop })
  | .clearStop => (.silent, { s with stopRequested := false, control := .clearReceived })
  | .clearReceived => (.silent, { s with signalReceived := false, control := .startThread })
  | .startThread => (.silent, { s with thread := .exchange, control := .installSigint })
  | .installSigint =>
    if fails then (.silent, s.exit)
    else (.silent, { s with sigint := true, control := .installSigterm })
  | .installSigterm =>
    if fails then (.silent, s.exit)
    else (.silent, { s with sigterm := true, control := .setInstalled })
  | .setInstalled => (.initReturned, { s with state := .installed, control := .idle })
  | .restoreSigint =>
    if fails then (.silent, s.proceed (.restoreSigterm true))
    else (.silent, { s with sigint := false, control := .restoreSigterm false })
  | .restoreSigterm failed =>
    if failed || fails then (.silent, s.exit)
    else (.silent, { s with sigterm := false, control := .requestStop })
  | .requestStop => (.silent, { s with stopRequested := true, control := .loadEventfd })
  | .loadEventfd => (.silent, s.proceed (.wake s.signalEventfd))
  | .wake none => (.silent, s.proceed .join)
  | .wake (some fd) => (.wrote fd, (s.writeEventfd fd).proceed .join)
  | .join =>
    match s.thread with
    | .notRunning => (.silent, s.exit)
    | .finished => (.silent, { s with thread := .notRunning, control := .invalidate })
    | _ => (.silent, s)
  | .invalidate =>
    if !s.mutexFree then (.silent, s)
    else
      match s.signalEventfd with
      | none => (.silent, s.exit)
      | some fd => (.silent, { s with signalEventfd := none, control := .drain fd })
  | .drain fd =>
    if 0 < s.handlerInflightCount then (.silent, s) else (.silent, s.proceed (.close fd))
  | .close fd =>
    if fails then (.silent, s.exit) else (.silent, (s.closeFd fd).proceed .setNotInstalled)
  | .setNotInstalled =>
    (.shutdownReturned, { s with state := .notInstalled, control := .idle })

/-! ## Executors -/

/-- `register_shutdown_event`. -/
def registerShutdownEvent (fd : Nat) : SignalOutput × SignalHandler :=
  if !s.mutexFree then (.silent, s)
  else if s.state ≠ .installed then (.registered false, s)
  else
    (.registered true, { s with
      eventfds := s.eventfds.insert fd
      registrations := s.registrations.insert fd })

/-- `unregister_shutdown_event`. -/
def unregisterShutdownEvent (fd : Nat) : SignalOutput × SignalHandler :=
  if !s.mutexFree then (.silent, s)
  else
    (.unregistered, { s with
      eventfds := if s.state = .notInstalled then s.eventfds else s.eventfds.filter (· ≠ fd)
      registrations := s.registrations.filter (· ≠ fd) })

/-- What an input does. -/
def move : SignalInput → SignalOutput × SignalHandler
  | .signal term =>
    (.silent, if s.handles term then { s with handlers := s.handlers ++ [.dispatched] } else s)
  | .handlerStep pos => if pos ∈ s.handlers then s.handlerStep pos else (.silent, s)
  | .threadStep => s.threadStep
  | .callInit => (.silent, if s.control = .idle then s.proceed .initContext else s)
  | .callShutdown => (.silent, { s with calls := s.calls ++ [.shutdownContext] })
  | .callStep pos => if pos ∈ s.calls then s.callStep pos else (.silent, s)
  | .controlStep fails => s.controlStep fails
  | .createExecutor => (.silent, s.newEventfd true)
  | .registerShutdownEvent fd => s.registerShutdownEvent fd
  | .unregisterShutdownEvent fd => s.unregisterShutdownEvent fd
  | .closeExecutor fd => (.silent, s.closeFd fd)

/-- A process in which nothing has been initialized. -/
def fresh : SignalHandler where
  state := .notInstalled
  eventfds := []
  stopRequested := false
  signalReceived := false
  signalEventfd := none
  handlerInflightCount := 0
  initialized := false
  sigint := false
  sigterm := false
  fds := 0
  isOpen _ := false
  isExecutor _ := false
  counter _ := 0
  thread := .notRunning
  handlers := []
  control := .idle
  calls := []
  exited := false
  registrations := []

/-- What is assumed of the callers: `init` is called when no cycle is open and none of the calls is
under way, `shutdown` not during `init`, and an executor keeps its eventfd open from its registration
until it has unregistered it. -/
def behaves : SignalInput → Bool
  | .callInit => s.state = .notInstalled && s.control = .idle && s.calls.isEmpty
  | .callShutdown => !s.control.inInit
  | .registerShutdownEvent fd => s.isExecutor fd && s.isOpen fd
  | .unregisterShutdownEvent fd => s.isExecutor fd
  | .closeExecutor fd => s.isExecutor fd && fd ∉ s.registrations
  | _ => true

end SignalHandler

/-- The signal handling of a process; when it has exited it does nothing more. -/
def signalHandling : Transition.System SignalHandler SignalInput SignalOutput where
  init s := s = SignalHandler.fresh
  step s i := if s.exited then (.silent, s) else s.move i

end Agnocast
