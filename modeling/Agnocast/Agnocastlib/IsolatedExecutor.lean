import Mathlib.Logic.Function.Basic
import Agnocast.Lib.Transition

/-!
# The client library — the callback-isolated executor

`CallbackIsolatedAgnocastExecutor` gives every callback group a child executor in a thread
of its own. The thread in `spin` spawns the children: it collects groups under `mutex_` and
spawns them under `child_resources_mutex_`, first those that are there and then, as a
monitor, those that have come. Other threads add and remove nodes and groups under the one
mutex, and cancel and stop children under the other.

* `IsolatedExecutor` — the registry, the children, the three vectors and where the spinning
  thread and each caller stand.
* `isolatedExecutor` — the transition system; an access to something shared is a step, and
  what stands under `mutex_` is one step where nothing else is read.

Nodes, groups and children are numbered as they come. A group's flag is kept as the executor
that has set it: `rclcpp` sets it when an executor takes the group in, throws when it is set,
and clears it when that executor is destroyed. Which kind of executor a child is makes no
difference here, and there is one call of `spin` at a time.
-/

namespace Agnocast

/-! ## The state -/

/-- Whose `exchange(true)` has set the flag `get_associated_with_executor_atomic()`. -/
inductive GroupHolder
  | child (c : Nat)
  /-- An executor that is none of ours. -/
  | elsewhere
  deriving DecidableEq, Repr

/-- A callback group; `node` is the node that has created it. -/
structure IsolatedGroup where
  automaticallyAddToExecutorWithNode : Bool
  node : Option Nat
  alive : Bool
  associated : Option GroupHolder
  deriving DecidableEq, Repr

/-- Where the thread of a child stands. -/
inductive ChildStage
  /-- It publishes its thread id, and has not entered `spin` yet. -/
  | started
  /-- In the loop of `spin`. -/
  | looping
  /-- `spin` has returned, and with the thread its executor is gone. -/
  | finished
  deriving DecidableEq, Repr

/-- A child executor with its thread; `cancels` counts the calls of `cancel()` on it. -/
structure ChildExecutor where
  group : Nat
  stage : ChildStage
  spinning : Bool
  cancels : Nat
  deriving DecidableEq, Repr

/-- `cancel()` on the executor, which is gone when its thread has ended. -/
def ChildExecutor.cancel (x : ChildExecutor) : ChildExecutor :=
  if x.stage = .finished then x else { x with spinning := false, cancels := x.cancels + 1 }

namespace ChildExecutor

variable (x : ChildExecutor)

@[simp] theorem cancel_group : x.cancel.group = x.group := by
  unfold cancel
  split <;> rfl

@[simp] theorem cancel_stage : x.cancel.stage = x.stage := by
  unfold cancel
  split <;> rfl

theorem cancel_spinning (h : x.stage ≠ .finished) : x.cancel.spinning = false := by
  unfold cancel
  rw [if_neg h]

theorem cancels_cancel (h : x.stage ≠ .finished) : x.cancel.cancels = x.cancels + 1 := by
  unfold cancel
  rw [if_neg h]

end ChildExecutor

/-- What a collection looks at next. -/
inductive Look
  /-- An entry of `weak_groups_to_nodes_`. -/
  | manual (group node : Nat)
  /-- An entry of `weak_nodes_`. -/
  | node (node : Nat)
  /-- A group of such a node. -/
  | group (group : Nat)
  deriving DecidableEq, Repr

/-- Where the thread in `spin` stands; `monitor` tells the loop from the part before it. -/
inductive SpinPos
  | idle
  /-- `spinning` is set. -/
  | entered
  /-- It holds `mutex_` and collects. -/
  | collecting (monitor : Bool) (looks : List Look) (found : List Nat)
  /-- It has released `mutex_` and wants `child_resources_mutex_`. -/
  | collected (monitor : Bool) (found : List Nat)
  /-- It holds `child_resources_mutex_`. -/
  | spawning (monitor : Bool) (left : List Nat)
  /-- `spawn_child_executor` is called for the group. -/
  | spawn (monitor : Bool) (group : Nat) (left : List Nat)
  /-- At the head of the monitoring loop. -/
  | loop
  /-- It has slept. -/
  | slept
  /-- After the loop; it wants `child_resources_mutex_`. -/
  | broken
  /-- It holds `child_resources_mutex_` and cancels the children that are left. -/
  | cancelling (left : List Nat)
  /-- It has released the mutex and joins the threads. -/
  | joining (left : List Nat)
  deriving DecidableEq, Repr

/-- The groups that were collected and are not spawned yet. -/
def SpinPos.groups : SpinPos → List Nat
  | .collecting _ _ found => found
  | .collected _ found => found
  | .spawning _ left => left
  | .spawn _ g left => g :: left
  | _ => []

/-- The threads that `spin` has yet to join. -/
def SpinPos.threads : SpinPos → List Nat
  | .joining left => left
  | _ => []

/-- A thread that calls the executor: any other one, or the thread of a child in a callback. -/
inductive Caller
  | thread (id : Nat)
  | child (c : Nat)
  deriving DecidableEq, Repr

/-- Where a call stands that takes more than one step. -/
inductive ApiCall
  /-- `cancel()` has cleared `spinning` and wants `child_resources_mutex_`. -/
  | cancel
  /-- It holds the mutex and cancels the children that are left. -/
  | cancelling (left : List Nat)
  /-- `stop_callback_group(group)` joins the thread it has taken out. -/
  | joining (group child : Nat)
  deriving DecidableEq, Repr

/-- Who holds `child_resources_mutex_` from one step to the next. -/
inductive ChildLock
  | spin
  | caller (t : Caller)
  deriving DecidableEq, Repr

/-- The executor and the groups and nodes of the process. The last three fields are what the
past leaves: the threads that `stop_callback_group` has taken out, those that `spin` has
joined, and the number of children there were when `spin` was called. -/
structure IsolatedExecutor where
  nodes : Nat
  nodeAlive : Nat → Bool
  groups : Nat
  group : Nat → IsolatedGroup
  weakNodes : List Nat
  weakGroupsToNodes : List (Nat × Nat)
  children : Nat
  child : Nat → ChildExecutor
  childCallbackGroups : List Nat
  weakChildExecutors : List Nat
  childThreads : List Nat
  childResourcesMutex : Option ChildLock
  spinning : Bool
  ok : Bool
  spin : SpinPos
  call : Caller → Option ApiCall
  exited : Bool
  takenOut : List Nat
  joined : List Nat
  firstChild : Nat

/-- What happens next. -/
inductive IsolatedInput
  | createNode
  | createCallbackGroup (node : Option Nat) (automaticallyAdd : Bool)
  /-- The last `shared_ptr` to it is gone. -/
  | expireNode (n : Nat)
  | expireGroup (g : Nat)
  /-- An executor that is none of ours takes the group in, or is destroyed. -/
  | associateElsewhere (g : Nat)
  | dissociateElsewhere (g : Nat)
  | addNode (t : Caller) (n : Nat)
  | removeNode (t : Caller) (n : Nat)
  | addCallbackGroup (t : Caller) (g n : Nat)
  | removeCallbackGroup (t : Caller) (g : Nat)
  | stopCallbackGroup (t : Caller) (g : Nat)
  | cancel (t : Caller)
  /-- The caller goes on with its call. -/
  | advance (t : Caller)
  | callSpin
  /-- The thread in `spin` goes on. -/
  | spinStep
  /-- The thread of a child goes on. -/
  | childStep (c : Nat)
  /-- `rclcpp::ok()` turns false. -/
  | shutdown
  deriving DecidableEq, Repr

/-- What a step shows. -/
inductive IsolatedReply
  | removed (g : Nat)
  /-- `stop_callback_group(g)` returns to the caller. -/
  | stopped (t : Caller) (g : Nat)
  | canceled (t : Caller)
  | spinReturned
  /-- An exception leaves `spin`. -/
  | spinThrew
  deriving DecidableEq, Repr

/-! ## The children -/

namespace IsolatedExecutor

variable (s : IsolatedExecutor)

/-- The thread of the child has not ended, and its executor is there. -/
def Running (c : Nat) : Prop := c < s.children ∧ (s.child c).stage ≠ .finished

instance (c : Nat) : Decidable (s.Running c) := inferInstanceAs (Decidable (_ ∧ _))

def setChild (c : Nat) (x : ChildExecutor) : IsolatedExecutor :=
  { s with child := Function.update s.child c x }

def setGroup (g : Nat) (x : IsolatedGroup) : IsolatedExecutor :=
  { s with group := Function.update s.group g x }

@[simp] theorem setChild_self (c : Nat) (x : ChildExecutor) : (s.setChild c x).child c = x :=
  Function.update_self _ _ _

/-- `close(agnocast_fd); exit(EXIT_FAILURE)`. -/
def exit : IsolatedExecutor := { s with exited := true }

/-- `weak_child_executor.lock()` and `cancel()`. -/
def cancelChild (c : Nat) : IsolatedExecutor := s.setChild c (s.child c).cancel

@[simp] theorem cancelChild_group (c c' : Nat) :
    ((s.cancelChild c).child c').group = (s.child c').group := by
  show (Function.update s.child c (s.child c).cancel c').group = _
  by_cases h : c' = c
  · subst h
    rw [Function.update_self, ChildExecutor.cancel_group]
  · rw [Function.update_of_ne h]

@[simp] theorem cancelChild_stage (c c' : Nat) :
    ((s.cancelChild c).child c').stage = (s.child c').stage := by
  show (Function.update s.child c (s.child c).cancel c').stage = _
  by_cases h : c' = c
  · subst h
    rw [Function.update_self, ChildExecutor.cancel_stage]
  · rw [Function.update_of_ne h]

/-- The next step of a child's thread: `spinning.exchange(true)`, and then the test of the
loop. At the end of the thread its executor is destroyed. -/
def childStep (c : Nat) : IsolatedExecutor :=
  match (s.child c).stage with
  | .started =>
    if (s.child c).spinning then s.exit
    else s.setChild c { s.child c with stage := .looping, spinning := true }
  | .looping =>
    if s.call (.child c) ≠ none ∨ (s.ok ∧ (s.child c).spinning) then s
    else
      let g := (s.child c).group
      (s.setChild c { s.child c with stage := .finished, spinning := false }).setGroup g
        { s.group g with associated := none }
  | .finished => s

/-! ## The registry -/

/-- No collection holds `mutex_`. -/
def mutexFree : Bool :=
  match s.spin with
  | .collecting _ _ _ => false
  | _ => true

/-- A thread that can make a call: it is in none, and a child's thread is in a callback. -/
def canCall : Caller → Bool
  | .thread id => (s.call (.thread id)).isNone
  | .child c =>
    decide (c < s.children) && decide ((s.child c).stage = .looping) && (s.call (.child c)).isNone

/-- `callback_group_in_node`. -/
def callbackGroupInNode (n g : Nat) : Bool := decide ((s.group g).node = some n)

/-- The groups of a node that are there. -/
def groupsOfNode (n : Nat) : List Nat :=
  (List.range s.groups).filter fun g => s.callbackGroupInNode n g && (s.group g).alive

def addNode (n : Nat) : IsolatedExecutor :=
  if s.weakGroupsToNodes.any fun e =>
      (s.group e.1).alive && (s.group e.1).automaticallyAddToExecutorWithNode &&
        s.callbackGroupInNode n e.1 then s.exit
  else if n ∈ s.weakNodes then s.exit
  else { s with weakNodes := s.weakNodes ++ [n] }

def removeNode (n : Nat) : IsolatedExecutor :=
  if n ∈ s.weakNodes then { s with weakNodes := s.weakNodes.filter (· ≠ n) } else s.exit

def addCallbackGroup (g n : Nat) : IsolatedExecutor :=
  if (s.group g).automaticallyAddToExecutorWithNode &&
      s.weakNodes.any fun m => s.nodeAlive m && s.callbackGroupInNode m g then s.exit
  else if s.weakGroupsToNodes.any fun e => e.1 = g then s.exit
  else { s with weakGroupsToNodes := s.weakGroupsToNodes ++ [(g, n)] }

def removeCallbackGroup (g : Nat) : Option IsolatedReply × IsolatedExecutor :=
  if s.weakGroupsToNodes.any fun e => e.1 = g then
    (some (.removed g), { s with weakGroupsToNodes := s.weakGroupsToNodes.filter (·.1 ≠ g) })
  else (none, s.exit)

/-! ## The calls that reach children -/

/-- The critical section of `stop_callback_group`, and its return where nothing is joined. -/
def stopCallbackGroup (t : Caller) (g : Nat) : Option IsolatedReply × IsolatedExecutor :=
  if s.childCallbackGroups.length ≠ s.weakChildExecutors.length ∨
      s.childCallbackGroups.length ≠ s.childThreads.length then (some (.stopped t g), s)
  else
    match s.childCallbackGroups.findIdx? (fun x => (s.group x).alive && x == g) with
    | none => (some (.stopped t g), s)
    | some i =>
      match s.weakChildExecutors[i]?, s.childThreads[i]? with
      | some executor, some thread =>
        let s' := { s.cancelChild executor with
          childCallbackGroups := s.childCallbackGroups.eraseIdx i
          weakChildExecutors := s.weakChildExecutors.eraseIdx i
          childThreads := s.childThreads.eraseIdx i
          takenOut := thread :: s.takenOut }
        -- called from the child's own thread, which is detached
        if t = .child thread then (some (.stopped t g), s')
        else (none, { s' with call := Function.update s.call t (some (.joining g thread)) })
      | _, _ => (some (.stopped t g), s)

/-- `cancel()` up to its mutex. -/
def cancel (t : Caller) : IsolatedExecutor :=
  { s with spinning := false, call := Function.update s.call t (some .cancel) }

/-- The next step of a call. -/
def advance (t : Caller) : Option IsolatedReply × IsolatedExecutor :=
  match s.call t with
  | none => (none, s)
  | some .cancel =>
    (none,
      if s.childResourcesMutex = none then
        { s with
          childResourcesMutex := some (.caller t)
          call := Function.update s.call t (some (.cancelling s.weakChildExecutors)) }
      else s)
  | some (.cancelling (c :: left)) =>
    (none,
      { s.cancelChild c with call := Function.update s.call t (some (.cancelling left)) })
  | some (.cancelling []) =>
    (some (.canceled t),
      { s with childResourcesMutex := none, call := Function.update s.call t none })
  | some (.joining g c) =>
    -- `join` returns when the thread of the child has ended
    if (s.child c).stage = .finished then
      (some (.stopped t g), { s with call := Function.update s.call t none })
    else (none, s)

/-! ## The thread in `spin` -/

/-- The beginning of a collection, under `mutex_`. -/
def startCollecting (monitor : Bool) : IsolatedExecutor :=
  { s with
    spin := .collecting monitor
      (s.weakGroupsToNodes.map (fun e => .manual e.1 e.2) ++ s.weakNodes.map .node) [] }

/-- What one look of a collection finds, and what it has to look at besides. -/
def look (monitor : Bool) : Look → List Look × List Nat
  | .manual g n =>
    ([],
      if (s.group g).alive && !(monitor && (s.group g).associated.isSome) && s.nodeAlive n then [g]
      else [])
  | .node n => (if s.nodeAlive n then (s.groupsOfNode n).map .group else [], [])
  | .group g =>
    ([],
      if (s.group g).alive && (s.group g).automaticallyAddToExecutorWithNode &&
          !(monitor && (s.group g).associated.isSome) then [g]
      else [])

/-- `spawn_child_executor`; the child's executor throws when the group has one already. -/
def spawnChildExecutor (monitor : Bool) (g : Nat) (left : List Nat) :
    Option IsolatedReply × IsolatedExecutor :=
  match (s.group g).associated with
  | some _ =>
    (some .spinThrew, { s with spin := .idle, spinning := false, childResourcesMutex := none })
  | none =>
    (none,
      { (s.setGroup g { s.group g with associated := some (.child s.children) }).setChild
          s.children ⟨g, .started, false, 0⟩ with
        children := s.children + 1
        childCallbackGroups := s.childCallbackGroups ++ [g]
        weakChildExecutors := s.weakChildExecutors ++ [s.children]
        childThreads := s.childThreads ++ [s.children]
        spin := .spawning monitor left })

/-- The next step of the thread in `spin`. -/
def spinStep : Option IsolatedReply × IsolatedExecutor :=
  match s.spin with
  | .idle => (none, s)
  | .entered => (none, s.startCollecting false)
  | .collecting monitor (l :: looks) found =>
    (none,
      { s with
        spin := .collecting monitor ((s.look monitor l).1 ++ looks)
          (found ++ (s.look monitor l).2) })
  | .collecting monitor [] found =>
    -- the monitor does not take the second mutex for nothing
    (none, { s with spin := if monitor && found.isEmpty then .loop else .collected monitor found })
  | .collected monitor found =>
    if s.childResourcesMutex ≠ none then (none, s)
    else if s.spinning && (!monitor || s.ok) then
      (none, { s with childResourcesMutex := some .spin, spin := .spawning monitor found })
    else if monitor then (none, { s with spin := .broken })
    else (some .spinReturned, { s with spin := .idle, spinning := false })
  | .spawning monitor (g :: left) =>
    (none,
      { s with
        spin := if monitor && (s.group g).associated.isSome then .spawning monitor left
          else .spawn monitor g left })
  | .spawning _ [] => (none, { s with childResourcesMutex := none, spin := .loop })
  | .spawn monitor g left => s.spawnChildExecutor monitor g left
  | .loop => (none, { s with spin := if s.spinning && s.ok then .slept else .broken })
  | .slept => (none, if s.spinning && s.ok then s.startCollecting true else { s with spin := .broken })
  | .broken =>
    (none,
      if s.childResourcesMutex ≠ none then s
      else
        { s with
          childResourcesMutex := some .spin
          spin := .cancelling s.weakChildExecutors })
  | .cancelling (c :: left) => (none, { s.cancelChild c with spin := .cancelling left })
  | .cancelling [] =>
    (none,
      { s with
        childResourcesMutex := none
        spin := .joining s.childThreads
        childThreads := []
        weakChildExecutors := []
        childCallbackGroups := [] })
  | .joining (c :: left) =>
    (none,
      if (s.child c).stage = .finished then
        { s with joined := c :: s.joined, spin := .joining left }
      else s)
  | .joining [] => (some .spinReturned, { s with spin := .idle, spinning := false })

/-- The spinning thread has the group on its list: it was collected and not spawned since. -/
def Collected (g : Nat) : Prop := g ∈ s.spin.groups

instance (g : Nat) : Decidable (s.Collected g) := inferInstanceAs (Decidable (_ ∈ _))

/-! ## The transition system -/

/-- One step; one that is not possible, and a call that has to wait, changes nothing. -/
def step : IsolatedInput → Option IsolatedReply × IsolatedExecutor
  | .createNode =>
    (none, { s with nodes := s.nodes + 1, nodeAlive := Function.update s.nodeAlive s.nodes true })
  | .createCallbackGroup node automaticallyAdd =>
    (none,
      if node.all s.nodeAlive then
        { s.setGroup s.groups ⟨automaticallyAdd, node, true, none⟩ with groups := s.groups + 1 }
      else s)
  | .expireNode n => (none, { s with nodeAlive := Function.update s.nodeAlive n false })
  | .expireGroup g =>
    (none, if s.Collected g then s else s.setGroup g { s.group g with alive := false })
  | .associateElsewhere g =>
    (none,
      if (s.group g).associated = none then
        s.setGroup g { s.group g with associated := some .elsewhere }
      else s)
  | .dissociateElsewhere g =>
    (none,
      if (s.group g).associated = some .elsewhere then
        s.setGroup g { s.group g with associated := none }
      else s)
  | .addNode t n => (none, if s.canCall t && s.mutexFree && s.nodeAlive n then s.addNode n else s)
  | .removeNode t n =>
    (none, if s.canCall t && s.mutexFree && s.nodeAlive n then s.removeNode n else s)
  | .addCallbackGroup t g n =>
    (none,
      if s.canCall t && s.mutexFree && (s.group g).alive && s.nodeAlive n then
        s.addCallbackGroup g n
      else s)
  | .removeCallbackGroup t g =>
    if s.canCall t && s.mutexFree && (s.group g).alive then s.removeCallbackGroup g else (none, s)
  | .stopCallbackGroup t g =>
    if s.canCall t && s.childResourcesMutex.isNone && (s.group g).alive then s.stopCallbackGroup t g
    else (none, s)
  | .cancel t => (none, if s.canCall t then s.cancel t else s)
  | .advance t => s.advance t
  | .callSpin =>
    (none,
      if s.spinning then s.exit
      else if s.spin = .idle then
        { s with spinning := true, spin := .entered, firstChild := s.children }
      else s)
  | .spinStep => s.spinStep
  | .childStep c => (none, if c < s.children then s.childStep c else s)
  | .shutdown => (none, { s with ok := false })

/-- The executor before anything has happened. -/
def fresh : IsolatedExecutor where
  nodes := 0
  nodeAlive := fun _ => false
  groups := 0
  group := fun _ => ⟨false, none, false, none⟩
  weakNodes := []
  weakGroupsToNodes := []
  children := 0
  child := fun _ => ⟨0, .started, false, 0⟩
  childCallbackGroups := []
  weakChildExecutors := []
  childThreads := []
  childResourcesMutex := none
  spinning := false
  ok := true
  spin := .idle
  call := fun _ => none
  exited := false
  takenOut := []
  joined := []
  firstChild := 0

end IsolatedExecutor

/-- The executor of a process; when the process has exited nothing happens. -/
def isolatedExecutor : Transition.System IsolatedExecutor IsolatedInput (Option IsolatedReply) where
  init s := s = IsolatedExecutor.fresh
  step s i := if s.exited then (none, s) else s.step i

end Agnocast
