import Agnocast.Agnocastlib.IsolatedExecutor

/-!
# The client library — the callback-isolated executor without ROS 2

`AgnocastOnlyCallbackIsolatedExecutor` gives every callback group a child executor in a thread of its
own. It overrides `add_node`, `spin` and `cancel` of `AgnocastOnlyExecutor`, and inherits
`add_callback_group`, `remove_callback_group` and `remove_node`; a child is an
`AgnocastOnlySingleThreadedExecutor` with one group.

Representation:

* **Steps.** An access to an atomic is a step, and so is what stands under a mutex, but that a
  collection releases no mutex from one node to the next. A call that takes more than one step stands
  in `calls` in between; any threads may be in calls, those of children among them.
* **Waiting** for a new group ends by a notification or by a timeout, so it may end at any time.
* Nodes, groups and children are numbered as they come. What is held by a `shared_ptr` of a call or of
  `spin` does not expire.
* The handler of signals stays installed, so that executors can be made. `ok` turns false when a signal
  comes.
* `due` is what is left of the past: the groups there were when the last scan began.
-/

namespace Agnocast

/-! ## The state -/

/-- A callback group, of the node that has created it. -/
structure OnlyGroup where
  automaticallyAddToExecutorWithNode : Bool
  node : Nat
  alive : Bool
  /-- `get_associated_with_executor_atomic()` -/
  associated : Bool
  deriving DecidableEq, Repr

/-- A child executor with its thread. -/
structure OnlyChild where
  group : Nat
  stage : ChildStage
  spinning : Bool
  cancelRequested : Bool
  deriving DecidableEq, Repr

/-- Where the thread in `spin` stands; `monitor` tells the loop from the part before it. -/
inductive OnlySpinPos
  | idle
  /-- `spinning_` is set. -/
  | entered
  /-- It holds `mutex_` and has these nodes to look at. -/
  | collecting (monitor : Bool) (nodes found : List Nat)
  /-- It has released `mutex_` and wants `child_resources_mutex_`. -/
  | collected (monitor : Bool) (found : List Nat)
  /-- It holds `child_resources_mutex_`. -/
  | spawning (monitor : Bool) (left : List Nat)
  /-- `spawn_child_executor` is called for the group. -/
  | spawn (monitor : Bool) (group : Nat) (left : List Nat)
  /-- At the head of the monitoring loop. -/
  | loop
  /-- It has waited. -/
  | waited
  /-- After the loop; it wants `child_resources_mutex_`. -/
  | broken
  /-- It joins the threads. -/
  | joining (left : List Nat)
  | returned
  deriving DecidableEq, Repr

/-- The groups that were collected and are not spawned yet. -/
def OnlySpinPos.groups : OnlySpinPos → List Nat
  | .collecting _ _ found => found
  | .collected _ found => found
  | .spawning _ left => left
  | .spawn _ g left => g :: left
  | _ => []

/-- Where a call stands that takes more than one step. -/
inductive OnlyCall
  /-- `add_callback_group(group, node)` has set the flag and wants `mutex_`. -/
  | addCallbackGroup (group node : Nat)
  /-- `remove_node(node)` has read the flag and wants `mutex_`. -/
  | removeNode (node : Nat)
  /-- `cancel()` has set `cancel_requested_`. -/
  | cancel
  /-- It has cleared `spinning_` and wants `child_resources_mutex_`. -/
  | cancelling
  deriving DecidableEq, Repr

/-- The group that a call is about to add. -/
def OnlyCall.addedGroup : OnlyCall → Option Nat
  | .addCallbackGroup g _ => some g
  | _ => none

/-- The executor, and the nodes and groups of the process. -/
structure OnlyIsolatedExecutor where
  nodes : Nat
  nodeAlive : Nat → Bool
  nodeAssociated : Nat → Bool
  groups : Nat
  group : Nat → OnlyGroup
  weakGroupsAssociatedWithExecutorToNodes : List (Nat × Nat)
  weakGroupsToNodesAssociatedWithExecutor : List (Nat × Nat)
  weakNodes : List Nat
  spinning : Bool
  cancelRequested : Bool
  children : Nat
  child : Nat → OnlyChild
  weakChildExecutors : List Nat
  childThreads : List Nat
  ok : Bool
  spin : OnlySpinPos
  calls : List OnlyCall
  exited : Bool
  due : List Nat

/-- What happens next. -/
inductive OnlyInput
  | createNode
  | createCallbackGroup (node : Nat) (automaticallyAdd : Bool)
  /-- The last `shared_ptr` to it is gone. -/
  | expireNode (n : Nat)
  | expireGroup (g : Nat)
  | addNode (n : Nat)
  | removeNode (n : Nat)
  | addCallbackGroup (g n : Nat)
  | removeCallbackGroup (g : Nat)
  | cancel
  /-- The call at this place goes on. -/
  | advance (k : Nat)
  | callSpin
  /-- The thread in `spin` goes on. -/
  | spinStep
  /-- The thread of a child goes on. -/
  | childStep (c : Nat)
  /-- A signal: `agnocast::ok()` turns false. -/
  | shutdown
  deriving DecidableEq, Repr

namespace OnlyIsolatedExecutor

variable (s : OnlyIsolatedExecutor)

/-! ## Groups and nodes -/

def setGroup (g : Nat) (x : OnlyGroup) : OnlyIsolatedExecutor :=
  { s with group := Function.update s.group g x }

def setChild (c : Nat) (x : OnlyChild) : OnlyIsolatedExecutor :=
  { s with child := Function.update s.child c x }

/-- `get_associated_with_executor_atomic().store`. -/
def setAssociated (g : Nat) (b : Bool) : OnlyIsolatedExecutor :=
  s.setGroup g { s.group g with associated := b }

/-- `close(agnocast_fd); exit(EXIT_FAILURE)`. -/
def exit : OnlyIsolatedExecutor := { s with exited := true }

/-- The group has an entry in `weak_groups_associated_with_executor_to_nodes_`. -/
def isManual (g : Nat) : Bool := s.weakGroupsAssociatedWithExecutorToNodes.any fun e => e.1 = g

/-- A call of `add_callback_group` is about to make that entry. -/
def isBeingAdded (g : Nat) : Bool := s.calls.any fun call => call.addedGroup = some g

/-- The groups of a node that are there. -/
def groupsOfNode (n : Nat) : List Nat :=
  (List.range s.groups).filter fun g => (s.group g).alive && (s.group g).node = n

/-- A group that is there and has been added, by itself or through its node. -/
def isAdded (g : Nat) : Bool :=
  (s.group g).alive &&
    (s.isManual g || ((s.group g).automaticallyAddToExecutorWithNode &&
      (s.group g).node ∈ s.weakNodes && s.nodeAlive (s.group g).node))

/-- A `shared_ptr` to the group is held by a call or by `spin`. -/
def holdsGroup (g : Nat) : Bool := g ∈ s.spin.groups || s.isBeingAdded g

/-- A `shared_ptr` to the node is held by a call or by `spin`. -/
def holdsNode (n : Nat) : Bool :=
  (s.spin.groups.any fun g => (s.group g).node = n) || s.calls.any fun call =>
    match call with
    | .addCallbackGroup _ n' => n' = n
    | .removeNode n' => n' = n
    | _ => false

/-- No collection holds `mutex_`. -/
def mutexFree : Bool :=
  match s.spin with
  | .collecting _ _ _ => false
  | _ => true

/-- `spin` does not hold `child_resources_mutex_`. -/
def childResourcesMutexFree : Bool :=
  match s.spin with
  | .spawning _ _ => false
  | .spawn _ _ _ => false
  | _ => true

/-! ## The registry -/

/-- `add_node`. -/
def addNode (n : Nat) : OnlyIsolatedExecutor :=
  if s.weakGroupsAssociatedWithExecutorToNodes.any fun e =>
      (s.group e.1).alive && (s.group e.1).node = n then s.exit
  else if n ∈ s.weakNodes then s.exit
  else { s with weakNodes := s.weakNodes ++ [n] }

/-- `AgnocastOnlyExecutor::add_callback_group`, up to its mutex. -/
def addCallbackGroup (g n : Nat) : OnlyIsolatedExecutor :=
  if (s.group g).associated then s.exit
  else { s.setAssociated g true with calls := s.calls ++ [.addCallbackGroup g n] }

/-- `AgnocastOnlyExecutor::remove_callback_group`. -/
def removeCallbackGroup (g : Nat) : OnlyIsolatedExecutor :=
  match s.weakGroupsAssociatedWithExecutorToNodes.find? fun e => e.1 = g with
  | none => s.exit
  | some e =>
    if !s.nodeAlive e.2 then s.exit
    else
      { s.setAssociated g false with
        weakGroupsAssociatedWithExecutorToNodes :=
          s.weakGroupsAssociatedWithExecutorToNodes.filter fun e => e.1 ≠ g }

/-- `AgnocastOnlyExecutor::remove_node`, up to its mutex. -/
def removeNode (n : Nat) : OnlyIsolatedExecutor :=
  if !s.nodeAssociated n then s.exit else { s with calls := s.calls ++ [.removeNode n] }

/-- `AgnocastOnlyExecutor::remove_node`, under its mutex. -/
def removeNodeLocked (n : Nat) : OnlyIsolatedExecutor :=
  if n ∉ s.weakNodes then s.exit
  else
    let gone := s.weakGroupsToNodesAssociatedWithExecutor.filter fun e => e.2 = n
    let s' := gone.foldl (fun s e => s.setAssociated e.1 false) s
    { s' with
      weakNodes := s.weakNodes.filter (· ≠ n)
      weakGroupsToNodesAssociatedWithExecutor :=
        s.weakGroupsToNodesAssociatedWithExecutor.filter fun e => e.2 ≠ n
      nodeAssociated := Function.update s.nodeAssociated n false }

/-! ## The children -/

/-- `cancel()` on a child executor, which is gone when its thread has ended. -/
def cancelChild (c : Nat) : OnlyIsolatedExecutor :=
  if (s.child c).stage = .finished then s
  else s.setChild c { s.child c with spinning := false, cancelRequested := true }

/-- `cancel()` on every child executor. -/
def cancelChildren : OnlyIsolatedExecutor := s.weakChildExecutors.foldl cancelChild s

/-- The next step of a child's thread: `spinning_.exchange(true)`, and then the test of the loop. At
the end of the thread its executor is destroyed. -/
def childStep (c : Nat) : OnlyIsolatedExecutor :=
  match (s.child c).stage with
  | .started =>
    if (s.child c).spinning then s.exit
    else s.setChild c { s.child c with stage := .looping, spinning := true }
  | .looping =>
    if (s.child c).spinning && !(s.child c).cancelRequested && s.ok then s
    else
      (s.setChild c { s.child c with stage := .finished, spinning := false }).setAssociated
        (s.child c).group false
  | .finished => s

/-- `spawn_child_executor`: the group is added to a new executor, and its thread is started. -/
def spawnChildExecutor (monitor : Bool) (g : Nat) (left : List Nat) : OnlyIsolatedExecutor :=
  if (s.group g).associated then s.exit
  else
    { (s.setAssociated g true).setChild s.children ⟨g, .started, false, false⟩ with
      children := s.children + 1
      weakChildExecutors := s.weakChildExecutors ++ [s.children]
      childThreads := s.childThreads ++ [s.children]
      spin := .spawning monitor left }

/-! ## The thread in `spin` -/

/-- The beginning of a collection, under `mutex_`; the monitor does not look at groups that have been
added by hand. -/
def startCollecting (monitor : Bool) : OnlyIsolatedExecutor :=
  { s with
    spin := .collecting monitor s.weakNodes
      (if monitor then []
      else (s.weakGroupsAssociatedWithExecutorToNodes.filter fun e =>
        (s.group e.1).alive && s.nodeAlive e.2).map Prod.fst)
    due := (List.range s.groups).filter s.isAdded }

/-- The groups that a collection finds in a node. -/
def collect (monitor : Bool) (n : Nat) : List Nat :=
  if s.nodeAlive n then
    (s.groupsOfNode n).filter fun g => (s.group g).automaticallyAddToExecutorWithNode &&
      !(monitor && (s.group g).associated)
  else []

/-- `spin` goes on at another place. -/
def goto (pos : OnlySpinPos) : OnlyIsolatedExecutor := { s with spin := pos }

/-- `spin` returns. -/
def leave : OnlyIsolatedExecutor := { s with spin := .returned, spinning := false }

/-- The next step of the thread in `spin`. -/
def spinStep : OnlyIsolatedExecutor :=
  match s.spin with
  | .idle => s
  | .entered => if s.cancelRequested then s.leave else s.startCollecting false
  | .collecting monitor (n :: nodes) found =>
    s.goto (.collecting monitor nodes (found ++ s.collect monitor n))
  | .collecting monitor [] found =>
    s.goto (if monitor && found.isEmpty then .loop else .collected monitor found)
  | .collected monitor found =>
    if s.spinning && !s.cancelRequested && (!monitor || s.ok) then s.goto (.spawning monitor found)
    -- before the loop `spin` returns at once
    else if monitor then s.goto .broken else s.leave
  | .spawning _ [] => s.goto .loop
  | .spawning monitor (g :: left) =>
    if monitor && (s.group g).associated then s.goto (.spawning monitor left)
    else s.goto (.spawn monitor g left)
  | .spawn monitor g left => s.spawnChildExecutor monitor g left
  | .loop =>
    s.goto (if s.ok && s.spinning && !s.cancelRequested then .waited else .broken)
  | .waited =>
    if s.ok && s.spinning && !s.cancelRequested then s.startCollecting true else s.goto .broken
  | .broken =>
    { s.cancelChildren with
      spin := .joining s.childThreads, childThreads := [], weakChildExecutors := [] }
  | .joining (c :: left) =>
    if (s.child c).stage = .finished then s.goto (.joining left) else s
  | .joining [] => s.leave
  | .returned => s

/-- `spin()` is called. -/
def callSpin : OnlyIsolatedExecutor :=
  if s.spinning then s.exit else { s with spinning := true, spin := .entered }

/-! ## The calls -/

/-- The next step of the call at place `k`. -/
def advance (k : Nat) : OnlyIsolatedExecutor :=
  match s.calls[k]? with
  | none => s
  | some (.addCallbackGroup g n) =>
    if !s.mutexFree then s
    -- added twice
    else if s.isManual g then s.exit
    else
      { s with
        calls := s.calls.eraseIdx k
        weakGroupsAssociatedWithExecutorToNodes :=
          s.weakGroupsAssociatedWithExecutorToNodes ++ [(g, n)] }
  | some (.removeNode n) =>
    if !s.mutexFree then s else { s.removeNodeLocked n with calls := s.calls.eraseIdx k }
  | some .cancel => { s with spinning := false, calls := s.calls.set k .cancelling }
  | some .cancelling =>
    if !s.childResourcesMutexFree then s else { s.cancelChildren with calls := s.calls.eraseIdx k }

/-- What an input does. -/
def move : OnlyInput → OnlyIsolatedExecutor
  | .createNode =>
    { s with nodes := s.nodes + 1, nodeAlive := Function.update s.nodeAlive s.nodes true }
  | .createCallbackGroup n automaticallyAdd =>
    { s.setGroup s.groups ⟨automaticallyAdd, n, true, false⟩ with groups := s.groups + 1 }
  | .expireNode n =>
    if s.holdsNode n then s else { s with nodeAlive := Function.update s.nodeAlive n false }
  | .expireGroup g => if s.holdsGroup g then s else s.setGroup g { s.group g with alive := false }
  | .addNode n => if s.mutexFree then s.addNode n else s
  | .removeNode n => s.removeNode n
  | .addCallbackGroup g n => s.addCallbackGroup g n
  | .removeCallbackGroup g => if s.mutexFree then s.removeCallbackGroup g else s
  | .cancel => { s with cancelRequested := true, calls := s.calls ++ [.cancel] }
  | .advance k => s.advance k
  | .callSpin => s.callSpin
  | .spinStep => s.spinStep
  | .childStep c => s.childStep c
  | .shutdown => { s with ok := false }

/-- An executor that has just been made, before there are nodes. -/
def fresh : OnlyIsolatedExecutor where
  nodes := 0
  nodeAlive _ := false
  nodeAssociated _ := false
  groups := 0
  group _ := ⟨false, 0, false, false⟩
  weakGroupsAssociatedWithExecutorToNodes := []
  weakGroupsToNodesAssociatedWithExecutor := []
  weakNodes := []
  spinning := false
  cancelRequested := false
  children := 0
  child _ := ⟨0, .finished, false, false⟩
  weakChildExecutors := []
  childThreads := []
  ok := true
  spin := .idle
  calls := []
  exited := false
  due := []

end OnlyIsolatedExecutor

/-- The executor; a process that has exited does nothing more. -/
def onlyIsolatedExecutor : Transition.System OnlyIsolatedExecutor OnlyInput Unit where
  init s := s = OnlyIsolatedExecutor.fresh
  step s i := ((), if s.exited then s else s.move i)

namespace OnlyIsolatedExecutor

variable (s : OnlyIsolatedExecutor)

/-! ## What is promised -/

/-- The calls that the executor is made for: nothing is added twice, what is removed has been added,
there is one `spin`, and a node lives as long as its groups that have been added by hand. -/
def allowed : OnlyInput → Bool
  | .createCallbackGroup n _ => s.nodeAlive n
  | .expireNode n => s.weakGroupsAssociatedWithExecutorToNodes.all fun e => e.2 ≠ n
  | .addNode n =>
    s.nodeAlive n && n ∉ s.weakNodes && (List.range s.groups).all fun g =>
      !((s.group g).alive && (s.group g).node = n && (s.isManual g || s.isBeingAdded g))
  | .removeNode n => s.nodeAlive n && n ∈ s.weakNodes && .removeNode n ∉ s.calls
  | .addCallbackGroup g n =>
    (s.group g).alive && (s.group g).node = n && s.nodeAlive n && !s.isManual g &&
      !s.isBeingAdded g && !((s.group g).automaticallyAddToExecutorWithNode && n ∈ s.weakNodes)
  | .removeCallbackGroup g => (s.group g).alive && s.isManual g
  | .callSpin => s.spin = .idle
  | _ => true

/-- The calls that keep clear of what the inherited operations do: no node is removed, and a group is
added by hand only while `spin` does not run, and is gone or removed when it is called. -/
def avoids : OnlyInput → Bool
  | .removeNode _ => false
  | .addCallbackGroup _ _ => s.spin = .idle || s.spin = .returned
  | .callSpin =>
    (s.weakGroupsAssociatedWithExecutorToNodes.all fun e => !(s.group e.1).alive) &&
      s.calls.all fun call => call.addedGroup.isNone
  | _ => true

/-- The child executes the callbacks of the group. -/
def Serves (c g : Nat) : Prop :=
  c < s.children ∧ (s.child c).stage ≠ .finished ∧ (s.child c).group = g

/-- It spins, and a scan has been made since the groups in `due` were there. -/
def Scanned : Prop :=
  (s.spin = .loop ∨ s.spin = .waited) ∧ s.ok = true ∧ s.cancelRequested = false

/-- What the executor promises: it does not terminate the process, and every group that has been
added is served by exactly one child once a scan has been made. -/
structure AcceptsItsApi : Prop where
  exited : s.exited = false
  once : ∀ g c c', s.Serves c g → s.Serves c' g → c = c'
  served : s.Scanned → ∀ g ∈ s.due, s.isAdded g = true → ∃ c, s.Serves c g

end OnlyIsolatedExecutor

end Agnocast
