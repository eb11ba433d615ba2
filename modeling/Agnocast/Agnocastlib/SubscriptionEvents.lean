import Agnocast.Agnocastlib.CallbackInfo
import Agnocast.Delivery.NewEntries

/-!
# The client library — the wake-up of a callback subscription

A publication wakes a subscription through the eventfd that its subscriber was added with:
the kernel signals the eventfd after the entry is in the topic, an executor that watches it
drains the counter and queues an executable, and the executable receives. The steps are
taken by different threads, and each of them is one step here.

`SubscriberProcess` is a process with callback subscriptions over the kernel module. Its
threads share `work`, of whatever executor they are. An eventfd is known to the module and
to the epolls by its open file, and to the library by its number, which the system gives
away again when it is closed.

* `SubscriberProcess.step`  — one critical section or one system call of one thread, or an
  ioctl of somebody else.
* `Wakeable`                — what is asked of a subscription in every state.
* `LeavesAlone`, `OwnReads` — what is assumed of the others, and of the reads.

`EpollUpdateDispatcher` and the executors' loops are left out: `prepare_epoll` runs whenever
the input says so.
-/

namespace Agnocast

/-! ## The state -/

/-- How far a subscription is: its subscriber is added, its callback registered, the registry
entry erased, the subscriber removed, the eventfd closed. -/
inductive SubscriptionStage
  | initialized
  | registered
  | unregistered
  | removed
  | closed
  deriving DecidableEq, Repr

/-- A `Subscription`. `eventfd` is the open file behind `notifyEventfd`. -/
structure CallbackSubscription where
  topicName : Name
  id : Int
  isTransientLocal : Bool
  notifyEventfd : Int
  eventfd : EventfdCtx
  callbackInfoId : Nat
  stage : SubscriptionStage
  deriving DecidableEq, Repr

/-- The kernel knows the subscriber. -/
def CallbackSubscription.inKernel (sub : CallbackSubscription) : Prop :=
  sub.stage = .initialized ∨ sub.stage = .registered ∨ sub.stage = .unregistered

/-- What a thread or a queue holds. `drained` has read the eventfd and is about to queue;
`executable` is queued, or taken and not yet at its ioctl; `received` is in the loop over the
entries it was given. -/
inductive ReceiveWork
  | event (id : Nat)
  | copied (id : Nat) (info : CallbackInfo)
  | drained (id : Nat) (info : CallbackInfo)
  | executable (id : Nat) (info : CallbackInfo)
  | received (id : Nat) (info : CallbackInfo) (entries : List (Int × Nat)) (callAgain : Bool)
  deriving DecidableEq, Repr

/-- The process and the module. `callback` of a `CallbackInfo` is the index of the
subscription. -/
structure SubscriberProcess where
  kmod : Kmod
  /-- The PUBLISH_MSGs that are in their signal loop. -/
  publishing : List Publishing
  /-- Topic and id of the entries whose PUBLISH_MSG failed after the insertion. -/
  unsignalled : List (Nat × Int)
  counters : EventfdCtx → Nat
  nextEventfd : EventfdCtx
  eventfds : Int → Option EventfdCtx
  subscriptions : Nat → Option CallbackSubscription
  nextSubscription : Nat
  id2CallbackInfo : Nat → Option CallbackInfo
  nextCallbackInfoId : Nat
  /-- What the epolls watch, with the id in the event. -/
  interest : List (EventfdCtx × Nat)
  work : List ReceiveWork
  exited : Bool

/-- What can happen next. -/
inductive SubscriberInput
  /-- An ioctl of another process, or of another part of this one. -/
  | kernel (i : Input)
  /-- The next round of a signal loop. -/
  | signal (p : Publishing)
  | initializeSubscription (env : Env) (topicName : Name) (args : SubscriberArgs) (fd : Int)
  | registerCallback (subscription : Nat)
  | eraseCallbackInfo (subscription : Nat)
  | removeSubscriber (subscription : Nat)
  | closeNotifyEventfd (subscription : Nat)
  /-- One entry of the loop, and what `validate_callback_group` says of its group. -/
  | prepareEpoll (id : Nat) (validated : Bool)
  | epollWait (id : Nat)
  | handle (id : Nat)
  | readEventfd (id : Nat) (info : CallbackInfo)
  | enqueueReceiveAndExecute (id : Nat) (info : CallbackInfo)
  | receiveMsg (env : Env) (id : Nat) (info : CallbackInfo)
  | callback (id : Nat) (info : CallbackInfo) (entry : Int × Nat) (rest : List (Int × Nat))
      (callAgain : Bool)
  | finish (id : Nat) (info : CallbackInfo) (callAgain : Bool)

-- The process and its ipc namespace.
variable (pid : Pid) (ipcNs : IpcNs)

namespace SubscriberProcess

def setSubscription (x : SubscriberProcess) (c : Nat) (sub : CallbackSubscription) :
    SubscriberProcess :=
  { x with subscriptions := Function.update x.subscriptions c (some sub) }

/-- One work is done and others come of it. -/
def replaceWork (x : SubscriberProcess) (w : ReceiveWork) (ws : List ReceiveWork) :
    SubscriberProcess :=
  { x with work := ws ++ x.work.erase w }

/-- `close(agnocast_fd); exit(EXIT_FAILURE)`. -/
def exit (x : SubscriberProcess) : SubscriberProcess := { x with exited := true }

/-! ## The kernel -/

/-- An ioctl up to the point where it holds no lock of a topic. -/
def ioctl (x : SubscriberProcess) (i : Input) : Reply × SubscriberProcess :=
  ((Agnocast.step x.kmod i).1,
    { x with
      kmod := (Agnocast.step x.kmod i).2
      publishing := (Agnocast.publishing x.kmod i).toList ++ x.publishing
      unsignalled := (Agnocast.unsignalled x.kmod i).toList ++ x.unsignalled })

/-- `agnocast_eventfd_signal` on the next context of the list. -/
def signal (x : SubscriberProcess) (p : Publishing) : SubscriberProcess :=
  match p.notifyCtxs with
  | [] => { x with publishing := x.publishing.erase p }
  | ctx :: rest =>
    { x with
      publishing := { p with notifyCtxs := rest } :: x.publishing.erase p
      counters := Function.update x.counters ctx (x.counters ctx + 1) }

/-- `eventfd_ctx_fdget`. -/
def eventfdGet (x : SubscriberProcess) (fd : Int) : Except Errno EventfdCtx :=
  match x.eventfds fd with
  | none => .error .EBADF
  | some ctx => .ok ctx

/-! ## Creation and destruction -/

/-- `eventfd`, which gives a number that is not in use. -/
def openEventfd (x : SubscriberProcess) (fd : Int) : SubscriberProcess :=
  { x with
    counters := Function.update x.counters x.nextEventfd 0
    nextEventfd := x.nextEventfd + 1
    eventfds := Function.update x.eventfds fd (some x.nextEventfd) }

/-- The ADD_SUBSCRIBER of `initialize`. -/
def addSubscriberInput (x : SubscriberProcess) (env : Env) (topicName : Name)
    (args : SubscriberArgs) (fd : Int) : Input :=
  ⟨{ env with eventfdGet := x.eventfdGet },
    .addSubscriber topicName ipcNs { args with pid := pid, isTakeSub := false } fd⟩

/-- `SubscriptionBase::initialize`, for a callback subscription. -/
def initializeSubscription (x : SubscriberProcess) (env : Env) (topicName : Name)
    (args : SubscriberArgs) (fd : Int) : SubscriberProcess :=
  if fd < 0 ∨ (x.eventfds fd).isSome then x
  else
    let y := x.openEventfd fd
    match y.ioctl (y.addSubscriberInput pid ipcNs env topicName args fd) with
    | (.endpointAdded (.ok id), z) =>
      { z.setSubscription z.nextSubscription
          ⟨topicName, id, args.qosIsTransientLocal, fd, x.nextEventfd, 0, .initialized⟩ with
        nextSubscription := z.nextSubscription + 1 }
    | (_, z) => z.exit

/-- `register_callback`. An id that is too large throws, and then only `~SubscriptionBase`
runs. -/
def registerCallback (x : SubscriberProcess) (c : Nat) : SubscriberProcess :=
  match x.subscriptions c with
  | none => x
  | some sub =>
    if sub.stage ≠ .initialized then x
    else
      let id := x.nextCallbackInfoId
      let y := { x with nextCallbackInfoId := (id + 1) % 2 ^ 32 }
      if maxCallbackInfoId ≤ id then y.setSubscription c { sub with stage := .unregistered }
      else
        { y.setSubscription c { sub with callbackInfoId := id, stage := .registered } with
          id2CallbackInfo := Function.update x.id2CallbackInfo id
            (some ⟨sub.topicName, sub.id, sub.isTransientLocal, sub.notifyEventfd, c, true⟩) }

/-- The body of `~Subscription`. -/
def eraseCallbackInfo (x : SubscriberProcess) (c : Nat) : SubscriberProcess :=
  match x.subscriptions c with
  | none => x
  | some sub =>
    if sub.stage = .registered then
      { x.setSubscription c { sub with stage := .unregistered } with
        id2CallbackInfo := Function.update x.id2CallbackInfo sub.callbackInfoId none }
    else x

/-- The REMOVE_SUBSCRIBER of `~SubscriptionBase`. -/
def removeSubscriberInput (sub : CallbackSubscription) : Input :=
  ⟨.smooth, .removeSubscriber pid sub.topicName ipcNs sub.id⟩

/-- The first half of `~SubscriptionBase`; an ioctl that fails is only warned of. -/
def removeSubscriber (x : SubscriberProcess) (c : Nat) : SubscriberProcess :=
  match x.subscriptions c with
  | none => x
  | some sub =>
    if sub.stage = .unregistered then
      (x.ioctl (removeSubscriberInput pid ipcNs sub)).2.setSubscription c
        { sub with stage := .removed }
    else x

/-- The second half: the number is free, and no epoll watches the file any more. -/
def closeNotifyEventfd (x : SubscriberProcess) (c : Nat) : SubscriberProcess :=
  match x.subscriptions c with
  | none => x
  | some sub =>
    if sub.stage = .removed then
      { x.setSubscription c { sub with stage := .closed } with
        eventfds := Function.update x.eventfds sub.notifyEventfd none
        interest := x.interest.filter fun p => x.eventfds sub.notifyEventfd ≠ some p.1 }
    else x

/-! ## The event handler -/

/-- `SubscriptionEventHandler::prepare_epoll`, one entry. `EPOLL_CTL_ADD` fails for a number
that is closed or a file that is there already. -/
def prepareEpoll (x : SubscriberProcess) (id : Nat) (validated : Bool) : SubscriberProcess :=
  match x.id2CallbackInfo id with
  | none => x
  | some info =>
    if info.needEpollUpdate = false then x
    else if validated = false then x
    else
      match x.eventfds info.notifyEventfd with
      | none => x.exit
      | some ctx =>
        if ctx ∈ x.interest.map Prod.fst then x.exit
        else
          { x with
            id2CallbackInfo :=
              Function.update x.id2CallbackInfo id (some { info with needEpollUpdate := false })
            interest := (ctx, id) :: x.interest
            -- what was published before it joined is received at once
            work := if info.isTransientLocal then .executable id info :: x.work else x.work }

/-- `epoll_wait` can return the event: what it watches is readable. -/
def readyEvent (x : SubscriberProcess) (id : Nat) : Bool :=
  x.interest.any fun p => p.2 = id && 0 < x.counters p.1

/-- `handle` up to the end of its critical section. -/
def handle (x : SubscriberProcess) (id : Nat) : SubscriberProcess :=
  match x.id2CallbackInfo id with
  -- "callback was unregistered (subscription destroyed): this is normal"
  | none => x.replaceWork (.event id) []
  | some info => x.replaceWork (.event id) [.copied id info]

/-- `handle` reads the eventfd of its copy. -/
def readEventfd (x : SubscriberProcess) (id : Nat) (info : CallbackInfo) : SubscriberProcess :=
  match x.eventfds info.notifyEventfd with
  | none => x.exit
  | some ctx =>
    -- `EAGAIN`
    if x.counters ctx = 0 then x.replaceWork (.copied id info) []
    else
      { x.replaceWork (.copied id info) [.drained id info] with
        counters := Function.update x.counters ctx 0 }

/-- The RECEIVE_MSG of `receive_and_execute_message`. -/
def receiveMsgInput (env : Env) (info : CallbackInfo) : Input :=
  ⟨env, .receiveMsg pid info.topicName ipcNs info.subscriberId maxPublisherNum⟩

/-- `receive_and_execute_message` up to its loop. -/
def receiveMsg (x : SubscriberProcess) (env : Env) (id : Nat) (info : CallbackInfo) :
    SubscriberProcess :=
  match x.ioctl (receiveMsgInput pid ipcNs env info) with
  | (.received (.ok (reply, _)), y) =>
    y.replaceWork (.executable id info) [.received id info reply.entries reply.callAgain]
  | (_, y) => y.exit

/-- A step of a thread of the process on the work it has, if it has it. -/
def act (x : SubscriberProcess) : SubscriberInput → SubscriberProcess
  | .kernel _ | .signal _ => x
  | .initializeSubscription env topicName args fd =>
    x.initializeSubscription pid ipcNs env topicName args fd
  | .registerCallback c => x.registerCallback c
  | .eraseCallbackInfo c => x.eraseCallbackInfo c
  | .removeSubscriber c => x.removeSubscriber pid ipcNs c
  | .closeNotifyEventfd c => x.closeNotifyEventfd c
  | .prepareEpoll id validated => x.prepareEpoll id validated
  | .epollWait id => if x.readyEvent id then { x with work := .event id :: x.work } else x
  | .handle id => if .event id ∈ x.work then x.handle id else x
  | .readEventfd id info => if .copied id info ∈ x.work then x.readEventfd id info else x
  | .enqueueReceiveAndExecute id info =>
    if .drained id info ∈ x.work then x.replaceWork (.drained id info) [.executable id info] else x
  | .receiveMsg env id info =>
    if .executable id info ∈ x.work then x.receiveMsg pid ipcNs env id info else x
  | .callback id info entry rest callAgain =>
    if .received id info (entry :: rest) callAgain ∈ x.work then
      x.replaceWork (.received id info (entry :: rest) callAgain) [.received id info rest callAgain]
    else x
  | .finish id info callAgain =>
    if .received id info [] callAgain ∈ x.work then
      x.replaceWork (.received id info [] callAgain)
        (if callAgain then [.executable id info] else [])
    else x

/-- One step; a process that has exited takes none. -/
def step (x : SubscriberProcess) : SubscriberInput → SubscriberProcess
  | .kernel i => (x.ioctl i).2
  | .signal p => if p ∈ x.publishing then x.signal p else x
  | i => if x.exited then x else x.act pid ipcNs i

/-- No subscription was created yet. -/
def idle (σ : Kmod) : SubscriberProcess where
  kmod := σ
  publishing := []
  unsignalled := []
  counters _ := 0
  nextEventfd := 0
  eventfds _ := none
  subscriptions _ := none
  nextSubscription := 0
  id2CallbackInfo _ := none
  nextCallbackInfoId := 0
  interest := []
  work := []
  exited := false

end SubscriberProcess

/-- A registered process that has created no callback subscription yet; whatever happened to
the module before. -/
def subscriberProcess : Transition.System SubscriberProcess SubscriberInput Unit where
  init x := ∃ σ, Reachable σ ∧
    (∃ p, findProcessInfo σ pid = some p ∧ p.role ≠ .unlinkDaemon) ∧ x = .idle σ
  step x i := ((), x.step pid ipcNs i)

/-! ## What is asked -/

namespace SubscriberProcess

variable (x : SubscriberProcess)

/-- The subscription of the info has an entry it could receive: deliverable, newer than its
watermark, and the subscriber is not one of depth zero, which receives nothing. -/
def CouldReceive (info : CallbackInfo) (tp : Nat) (en : EntryNode) : Prop :=
  ∃ w s, findTopicForCurrent x.kmod pid info.topicName ipcNs = some w ∧ w.topic = tp ∧
    findSubscriberInfo (x.kmod.topicStructs tp) info.subscriberId = some s ∧
    en ∈ undelivered x.kmod (x.kmod.topicStructs tp) s ∧ 0 < s.qosDepth

/-- The publish that created the entry has not signalled the subscription. -/
def NotSignalled (info : CallbackInfo) (tp : Nat) (en : EntryNode) : Prop :=
  (∃ p ∈ x.publishing, p.topic = tp ∧ p.entryId = en.entryId ∧
    ∃ ctx ∈ p.notifyCtxs, x.eventfds info.notifyEventfd = some ctx) ∨
  (tp, en.entryId) ∈ x.unsignalled

/-- The counter of the subscription's eventfd is positive. -/
def Readable (info : CallbackInfo) : Prop :=
  ∃ ctx, x.eventfds info.notifyEventfd = some ctx ∧ 0 < x.counters ctx

/-- A receive executable of the subscription is queued or has not yet done its ioctl. -/
def Queued (info : CallbackInfo) : Prop :=
  ∃ id info', .executable id info' ∈ x.work ∧ info'.callback = info.callback

/-- An executable is about to be queued: a handler has drained the counter, or an executable
that was told to call again is in its loop. -/
def AboutToQueue (info : CallbackInfo) : Prop :=
  ∃ id info', info'.callback = info.callback ∧ (.drained id info' ∈ x.work ∨
    ∃ entries, .received id info' entries true ∈ x.work)

/-- The eventfd of the subscription is watched under its id. -/
def Armed (id : Nat) (info : CallbackInfo) : Prop :=
  ∃ ctx, x.eventfds info.notifyEventfd = some ctx ∧ (ctx, id) ∈ x.interest

/-- One of the four: an unsignalled publish, a positive counter, an update of the epoll to
come, an executable. -/
def WakeupPending (info : CallbackInfo) (tp : Nat) (en : EntryNode) : Prop :=
  x.NotSignalled info tp en ∨ x.Readable info ∨ info.needEpollUpdate = true ∨ x.Queued info

/-- What is asked of the subscription `c` once it is registered: an entry that it could
receive has a wake-up pending, or an executable is about to be queued; the next
`prepare_epoll` of an executor that owns its group arms it, and queues an executable for a
transient-local one; after that its eventfd is watched. -/
structure Wakeable (c : Nat) : Prop where
  pending : ∀ id info, x.id2CallbackInfo id = some info → info.callback = c → ∀ tp en,
    x.CouldReceive pid ipcNs info tp en → x.WakeupPending info tp en ∨ x.AboutToQueue info
  prepared : ∀ id info, x.id2CallbackInfo id = some info → info.callback = c →
    info.needEpollUpdate = true → x.exited = false →
      let y := x.step pid ipcNs (.prepareEpoll id true)
      y.id2CallbackInfo id = some { info with needEpollUpdate := false } ∧ y.Armed id info ∧
        (info.isTransientLocal = true → y.Queued info)
  watched : ∀ id info, x.id2CallbackInfo id = some info → info.callback = c →
    info.needEpollUpdate = false → x.Armed id info

end SubscriberProcess

/-! ## What is assumed -/

/-- What an ioctl of somebody else leaves alone: it neither ends the registration of the
process nor removes a subscriber of one of its subscriptions, and no pid registers while an
old publisher of it is left. -/
structure LeavesAlone (x : SubscriberProcess) (call : Call) : Prop where
  registers : ∀ tp, RegistersUnlisted x.kmod call tp
  exit : call ≠ .processExitCleanup pid
  commit : ∀ ns callerPid, call ≠ .commitExitProcess ns pid callerPid
  leave : ∀ c sub, x.subscriptions c = some sub → sub.inKernel →
    ∀ w, findTopicForCurrent x.kmod pid sub.topicName ipcNs = some w →
      ¬ Permits x.kmod call w.topic (.leave sub.id)

/-- Everybody else leaves the process alone. -/
def OthersApart (x : SubscriberProcess) : SubscriberInput → Prop
  | .kernel i => LeavesAlone pid ipcNs x i.call
  | _ => True

/-- No handler of another subscription reads the eventfd of `c`, through a number that its
own subscription had before. -/
def OwnReads (c : Nat) (x : SubscriberProcess) : SubscriberInput → Prop
  | .readEventfd _ info => info.callback ≠ c → ∀ sub, x.subscriptions c = some sub →
      x.eventfds info.notifyEventfd ≠ some sub.eventfd
  | _ => True

/-- A step of the process or the module. -/
abbrev SubscriberEvent := Transition.Event SubscriberProcess SubscriberInput Unit

end Agnocast
