import Agnocast.Lib.Bag
import Agnocast.Lib.Table
import Agnocast.Agnocastlib.CallbackInfo

/-!
# The client library — registration with the epolls

A callback waits in a registry, marked `need_epoll_update`, until a thread of the executor
that its callback group is associated with puts it into the executor's epoll. The threads
look only when the executor's tracker asks for it: whoever registers a callback asks all
trackers, whoever associates a group or a node asks the tracker of the executor. The request
is consumed before the registries are scanned, and the scans skip callbacks of groups that
are not associated yet.

* `Executors`     — the registries, the callback groups, the nodes and the executors of a
  process, and what each thread is in the middle of.
* `epollUpdates`  — the transition system; an access to something shared is a step.
* `RequestStands` — what is said about states.

Executors, nodes, groups and callbacks only come. The mutexes restrict the runs and play no
part. What `prepare_epoll` queues for a transient local subscription is left out.
-/

namespace Agnocast

/-! ## The state -/

/-- A `CallbackInfo` in its registry. -/
structure CallbackEntry where
  id : Nat
  callbackGroup : Nat
  needEpollUpdate : Bool
  deriving DecidableEq, Repr

/-- A `TimerInfo` in its registry; `timerFd` and `clockEventfd` say which fds it has. -/
structure TimerEntry where
  timerId : Nat
  callbackGroup : Nat
  timerFd : Bool
  timerFdNeedUpdate : Bool
  clockEventfd : Bool
  clockEventfdNeedUpdate : Bool
  needEpollUpdate : Bool
  deriving DecidableEq, Repr

/-- `id2_callback_info` and `id2_timer_info`. -/
inductive Registry
  | callbacks
  | timers
  deriving DecidableEq, Repr

structure CallbackGroup where
  automaticallyAddToExecutorWithNode : Bool
  associatedWithExecutor : Bool
  deriving DecidableEq, Repr

/-- A node and its callback groups. -/
structure NodeBase where
  callbackGroups : List Nat
  associatedWithExecutor : Bool
  deriving DecidableEq, Repr

/-- An `AgnocastOnlyExecutor`; of the groups' maps the keys. -/
structure OnlyExecutor where
  needUpdate : Bool
  weakGroupsAssociatedWithExecutorToNodes : List Nat
  weakGroupsToNodesAssociatedWithExecutor : List Nat
  weakNodes : List Nat
  deriving DecidableEq, Repr

/-- What a thread is in the middle of. -/
inductive UpdateThread
  /-- A thread of executor `x` has taken the request. -/
  | taken (x : Nat)
  /-- It goes through the nodes of the executor, and through the groups of a node. -/
  | adding (x : Nat) (nodes groups : List Nat)
  /-- It goes through a registry, for the handler of the type. -/
  | preparing (x : Nat) (type : EpollEventType) (left : List Nat)
  /-- The callback has its id, and is registered next. -/
  | callback (id group : Nat)
  | timer (info : TimerEntry)
  /-- It is registered, and all trackers are asked next. -/
  | requestAll (registry : Registry) (id : Nat)
  /-- The trackers that are left to ask. -/
  | requesting (registry : Registry) (id : Nat) (left : List Nat)
  /-- The group is marked as associated, and is inserted next. -/
  | group (x group : Nat)
  | requestGroup (x group : Nat)
  /-- The node is marked as associated, and its groups come next. -/
  | node (x node : Nat)
  | addingNode (x node : Nat) (groups : List Nat)
  | requestNode (x node : Nat)
  deriving DecidableEq, Repr

/-- A process; `watched` is what the epolls of the executors have. -/
structure Executors where
  id2CallbackInfo : List CallbackEntry
  nextCallbackInfoId : Nat
  id2TimerInfo : List TimerEntry
  nextTimerId : Nat
  groups : Nat
  group : Nat → CallbackGroup
  node : Nat → NodeBase
  executors : Nat
  executor : Nat → OnlyExecutor
  watched : List (Nat × EpollEventType × Nat)
  threads : List UpdateThread
  exited : Bool

/-- What a thread does next. -/
inductive EpollUpdateInput
  /-- The constructor of an executor registers a tracker. -/
  | createExecutor
  | createCallbackGroup (node : Nat) (automaticallyAdd : Bool)
  | registerCallback (group : Nat)
  | registerTimerInfo (group : Nat) (isRosTime rosTimeIsActive : Bool)
  | addCallbackGroup (x group : Nat)
  | addNode (x node : Nat)
  | takeUpdateRequest (x : Nat)
  /-- A thread goes on. -/
  | advance (t : UpdateThread)
  /-- The scan comes to `id`; `epollCtl` says whether `EPOLL_CTL_ADD` would succeed. -/
  | prepare (x : Nat) (type : EpollEventType) (left : List Nat) (id : Nat) (epollCtl : Bool)
  deriving DecidableEq, Repr

/-! ## The steps -/

/-- The fd of the type is open and not in an epoll. -/
def TimerEntry.pending (e : TimerEntry) : EpollEventType → Bool
  | .subscription => false
  | .timer => e.timerFd && e.timerFdNeedUpdate
  | .clock => e.clockEventfd && e.clockEventfdNeedUpdate

/-- `need_epoll_update` after the flag of the type's fd is cleared, if `cleared`. -/
def TimerEntry.update (e : TimerEntry) (type : EpollEventType) (cleared : Bool) : TimerEntry :=
  let e := { e with
    timerFdNeedUpdate := if cleared && type == EpollEventType.timer then false else e.timerFdNeedUpdate
    clockEventfdNeedUpdate :=
      if cleared && type == EpollEventType.clock then false else e.clockEventfdNeedUpdate }
  { e with needEpollUpdate := e.timerFdNeedUpdate || e.clockEventfdNeedUpdate }

namespace Executors

variable (s : Executors)

/-- The thread is replaced by what it becomes. -/
def become (t : UpdateThread) (ts : List UpdateThread) : Executors :=
  { s with threads := Bag.replace s.threads t ts }

def setExecutor (x : Nat) (e : OnlyExecutor) : Executors :=
  { s with executor := Function.update s.executor x e }

def setGroup (g : Nat) (c : CallbackGroup) : Executors :=
  { s with group := Function.update s.group g c }

/-- `request_update`. -/
def requestUpdate (x : Nat) : Executors := s.setExecutor x { s.executor x with needUpdate := true }

/-- `is_callback_group_associated`. -/
def isCallbackGroupAssociated (x g : Nat) : Bool :=
  if (s.executor x).weakGroupsAssociatedWithExecutorToNodes.isEmpty &&
      (s.executor x).weakGroupsToNodesAssociatedWithExecutor.isEmpty &&
      (s.executor x).weakNodes.isEmpty then false
  else
    decide (g ∈ (s.executor x).weakGroupsAssociatedWithExecutorToNodes) ||
      decide (g ∈ (s.executor x).weakGroupsToNodesAssociatedWithExecutor)

/-- The body of the loops over the groups of a node: the group joins if it may and nobody
else has it. -/
def tryAssociate (x g : Nat) : Executors :=
  if (s.group g).automaticallyAddToExecutorWithNode && !(s.group g).associatedWithExecutor then
    (s.setGroup g { s.group g with associatedWithExecutor := true }).setExecutor x
      { s.executor x with
        weakGroupsToNodesAssociatedWithExecutor :=
          g :: (s.executor x).weakGroupsToNodesAssociatedWithExecutor }
  else s

/-- `close(agnocast_fd); exit(EXIT_FAILURE)`. -/
def exit : Executors := { s with exited := true }

/-- The constructor of the group, which goes into the list of its node. -/
def createCallbackGroup (n : Nat) (automaticallyAdd : Bool) : Executors :=
  { s.setGroup s.groups ⟨automaticallyAdd, false⟩ with
    groups := s.groups + 1
    node := Function.update s.node n
      { s.node n with callbackGroups := (s.node n).callbackGroups ++ [s.groups] } }

/-- `allocate_callback_info_id`, which throws when the ids are used up. -/
def registerCallback (g : Nat) : Executors :=
  let s' := { s with nextCallbackInfoId := (s.nextCallbackInfoId + 1) % 2 ^ 32 }
  if maxCallbackInfoId ≤ s.nextCallbackInfoId ∨ s.groups ≤ g then s'
  else { s' with threads := .callback s.nextCallbackInfoId g :: s.threads }

/-- `allocate_timer_id`, and `register_timer_info` up to its critical section. -/
def registerTimerInfo (g : Nat) (isRosTime rosTimeIsActive : Bool) : Executors :=
  let s' := { s with nextTimerId := (s.nextTimerId + 1) % 2 ^ 32 }
  let timerFd := !(isRosTime && rosTimeIsActive)
  if maxTimerId ≤ s.nextTimerId ∨ s.groups ≤ g then s'
  else
    { s' with
      threads := .timer ⟨s.nextTimerId, g, timerFd, timerFd, isRosTime, isRosTime, true⟩ ::
        s.threads }

/-- `add_callback_group` up to its mutex. -/
def addCallbackGroup (x g : Nat) : Executors :=
  if (s.group g).associatedWithExecutor then s.exit
  else
    { s.setGroup g { s.group g with associatedWithExecutor := true } with
      threads := .group x g :: s.threads }

/-- `add_node` up to its mutex. -/
def addNode (x n : Nat) : Executors :=
  if (s.node n).associatedWithExecutor then s.exit
  else
    { s with
      node := Function.update s.node n { s.node n with associatedWithExecutor := true }
      threads := .node x n :: s.threads }

/-- `take_update_request`; without a request the thread goes on to wait. -/
def takeUpdateRequest (x : Nat) : Executors :=
  if x < s.executors ∧ (s.executor x).needUpdate then
    { s.setExecutor x { s.executor x with needUpdate := false } with
      threads := .taken x :: s.threads }
  else s

/-- The next step of a thread. -/
def advance (t : UpdateThread) : Executors :=
  match t with
  -- `add_callback_groups_from_nodes_associated_to_executor`
  | .taken x => s.become t [.adding x (s.executor x).weakNodes []]
  | .adding x nodes (g :: groups) => (s.tryAssociate x g).become t [.adding x nodes groups]
  | .adding x (n :: nodes) [] => s.become t [.adding x nodes (s.node n).callbackGroups]
  -- `EpollManager::prepare_epoll`, one handler after the other
  | .adding x [] [] =>
    s.become t [.preparing x .subscription (s.id2CallbackInfo.map CallbackEntry.id)]
  | .preparing x .subscription [] =>
    s.become t [.preparing x .timer (s.id2TimerInfo.map TimerEntry.timerId)]
  | .preparing x .timer [] =>
    s.become t [.preparing x .clock (s.id2TimerInfo.map TimerEntry.timerId)]
  | .preparing _ .clock [] => s.become t []
  | .preparing _ _ (_ :: _) => s
  -- `register_callback` and `register_timer_info`
  | .callback id g =>
    { s.become t [.requestAll .callbacks id] with
      id2CallbackInfo := ⟨id, g, true⟩ :: HTable.hashDel CallbackEntry.id id s.id2CallbackInfo }
  | .timer info =>
    { s.become t [.requestAll .timers info.timerId] with
      id2TimerInfo := info :: HTable.hashDel TimerEntry.timerId info.timerId s.id2TimerInfo }
  -- `request_update_all`
  | .requestAll registry id => s.become t [.requesting registry id (List.range s.executors)]
  | .requesting registry id (x :: left) =>
    (s.requestUpdate x).become t [.requesting registry id left]
  | .requesting _ _ [] => s.become t []
  -- `add_callback_group`
  | .group x g =>
    if g ∈ (s.executor x).weakGroupsAssociatedWithExecutorToNodes then s.exit
    else
      (s.setExecutor x { s.executor x with
        weakGroupsAssociatedWithExecutorToNodes :=
          g :: (s.executor x).weakGroupsAssociatedWithExecutorToNodes }).become t
        [.requestGroup x g]
  | .requestGroup x _ => (s.requestUpdate x).become t []
  -- `add_node`
  | .node x n => s.become t [.addingNode x n (s.node n).callbackGroups]
  | .addingNode x n (g :: groups) => (s.tryAssociate x g).become t [.addingNode x n groups]
  | .addingNode x n [] =>
    (s.setExecutor x { s.executor x with
      weakNodes := (s.executor x).weakNodes ++ [n] }).become t [.requestNode x n]
  | .requestNode x _ => (s.requestUpdate x).become t []

/-- One round of `SubscriptionEventHandler::prepare_epoll`. -/
def prepareCallback (x : Nat) (e : CallbackEntry) (epollCtl : Bool) : Executors :=
  if !e.needEpollUpdate then s
  else if !s.isCallbackGroupAssociated x e.callbackGroup then s
  else if !epollCtl then s.exit
  else
    { s with
      id2CallbackInfo :=
        HTable.modify CallbackEntry.id e.id (fun e => { e with needEpollUpdate := false })
          s.id2CallbackInfo
      watched := (x, .subscription, e.id) :: s.watched }

/-- One round of the `prepare_epoll` of the timer and of the clock handler. -/
def prepareTimerInfo (x : Nat) (type : EpollEventType) (e : TimerEntry) (epollCtl : Bool) :
    Executors :=
  if !e.needEpollUpdate then s
  else if !s.isCallbackGroupAssociated x e.callbackGroup then s
  else if e.pending type && !epollCtl then s.exit
  else
    { s with
      id2TimerInfo :=
        HTable.modify TimerEntry.timerId e.timerId (fun e => e.update type (e.pending type))
          s.id2TimerInfo
      watched := if e.pending type then (x, type, e.timerId) :: s.watched else s.watched }

/-- The scan comes to an id. -/
def prepare (x : Nat) (type : EpollEventType) (id : Nat) (epollCtl : Bool) : Executors :=
  match type with
  | .subscription =>
    (HTable.lookup CallbackEntry.id id s.id2CallbackInfo).elim s fun e =>
      s.prepareCallback x e epollCtl
  | _ =>
    (HTable.lookup TimerEntry.timerId id s.id2TimerInfo).elim s fun e =>
      s.prepareTimerInfo x type e epollCtl

/-- What happens in a process that has not exited. -/
def act : EpollUpdateInput → Executors
  | .createExecutor => { s with executors := s.executors + 1 }
  | .createCallbackGroup n automaticallyAdd => s.createCallbackGroup n automaticallyAdd
  | .registerCallback g => s.registerCallback g
  | .registerTimerInfo g isRosTime rosTimeIsActive =>
    s.registerTimerInfo g isRosTime rosTimeIsActive
  | .addCallbackGroup x g => if x < s.executors ∧ g < s.groups then s.addCallbackGroup x g else s
  | .addNode x n => if x < s.executors then s.addNode x n else s
  | .takeUpdateRequest x => s.takeUpdateRequest x
  | .advance t => if t ∈ s.threads then s.advance t else s
  | .prepare x type left id epollCtl =>
    -- the entries are visited in the order of the map, which is any
    if .preparing x type left ∈ s.threads ∧ id ∈ left then
      let s' := s.prepare x type id epollCtl
      if s'.exited then s'
      else s'.become (.preparing x type left) [.preparing x type (left.erase id)]
    else s

/-- One step. -/
def step (i : EpollUpdateInput) : Unit × Executors := ((), if s.exited then s else s.act i)

/-- Nothing has been created; a tracker starts with a request. -/
def empty : Executors where
  id2CallbackInfo := []
  nextCallbackInfoId := 0
  id2TimerInfo := []
  nextTimerId := 0
  groups := 0
  group _ := ⟨false, false⟩
  node _ := ⟨[], false⟩
  executors := 0
  executor _ := ⟨true, [], [], []⟩
  watched := []
  threads := []
  exited := false

end Executors

/-- A process from its start. -/
def epollUpdates : Transition.System Executors EpollUpdateInput Unit where
  init s := s = .empty
  step := Executors.step

abbrev EpollUpdateEvent := Transition.Event Executors EpollUpdateInput Unit

/-! ## What is said about states -/

namespace UpdateThread

/-- The thread is one of executor `x`, has taken a request, and has not finished the
`prepare_epoll` that follows. -/
def updates (x : Nat) : UpdateThread → Prop
  | .taken y => y = x
  | .adding y _ _ => y = x
  | .preparing y _ _ => y = x
  | _ => False

/-- The thread registers the callback, or associates its group `g` with executor `x`, and its
request has not reached the executor. -/
def requests (node : Nat → NodeBase) (x : Nat) (registry : Registry) (id g : Nat) :
    UpdateThread → Prop
  | .requestAll registry' id' => registry' = registry ∧ id' = id
  | .requesting registry' id' left => registry' = registry ∧ id' = id ∧ x ∈ left
  | .requestGroup y g' => y = x ∧ g' = g
  | .addingNode y n _ => y = x ∧ g ∈ (node n).callbackGroups
  | .requestNode y n => y = x ∧ g ∈ (node n).callbackGroups
  | _ => False

end UpdateThread

namespace Executors

variable (s : Executors)

/-- A callback of the group is registered and still has `need_epoll_update`. -/
def Needs : Registry → Nat → Nat → Prop
  | .callbacks, id, g =>
    ∃ e ∈ s.id2CallbackInfo, e.id = id ∧ e.callbackGroup = g ∧ e.needEpollUpdate = true
  | .timers, id, g =>
    ∃ e ∈ s.id2TimerInfo, e.timerId = id ∧ e.callbackGroup = g ∧ e.needEpollUpdate = true

/-- Node `n` was added to executor `x` and has the group, which may join and which nobody has. -/
structure OfNode (x n g : Nat) : Prop where
  added : n ∈ (s.executor x).weakNodes
  created : g ∈ (s.node n).callbackGroups
  automatic : (s.group g).automaticallyAddToExecutorWithNode = true
  free : (s.group g).associatedWithExecutor = false

/-- The group is associated with the executor: it is in one of the maps, or will be as soon
as somebody looks at the nodes. -/
def Associated (x g : Nat) : Prop := s.isCallbackGroupAssociated x g = true ∨ ∃ n, s.OfNode x n g

/-- **No registration is missed**: while a callback needs the update, the tracker of its
executor asks for one, or a thread of the executor is at it, or the request is on its way. -/
def RequestStands : Prop :=
  ∀ registry id g, s.Needs registry id g → ∀ x, s.Associated x g →
    (s.executor x).needUpdate = true ∨ (∃ t ∈ s.threads, t.updates x) ∨
      ∃ t ∈ s.threads, t.requests s.node x registry id g

end Executors

end Agnocast
