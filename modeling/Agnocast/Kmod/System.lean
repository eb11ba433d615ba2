import Agnocast.Lib.Transition
import Agnocast.Kmod.Process

/-!
# The kernel module — as a transition system

One input is an ioctl (or one run of the exit worker) with all its arguments,
together with what the surrounding kernel decides during it (`Env`). Arguments
are unconstrained: what an application is expected to pass is never assumed by
the system, only by the theorems that need it.

The read-only queries are left out but for GET_EXIT_PROCESS, whose answer a
commit consumes.
-/

namespace Agnocast

/-- Everything that can happen to the module. -/
inductive Call
  | addProcess (pid : Pid) (ipcNs : IpcNs) (role domainId : Nat)
  | addSubscriber (topicName : Name) (ipcNs : IpcNs) (args : SubscriberArgs) (eventfd : Int)
  | addPublisher (topicName : Name) (ipcNs : IpcNs) (args : PublisherArgs)
  | publishMsg (current : Pid) (topicName : Name) (ipcNs : IpcNs) (publisherId : Int)
      (msgVirtualAddress : Nat)
  | receiveMsg (current : Pid) (topicName : Name) (ipcNs : IpcNs) (subscriberId : Int)
      (pubShmInfosSize : Nat)
  | takeMsg (current : Pid) (topicName : Name) (ipcNs : IpcNs) (subscriberId : Int)
      (allowSameMessage : Bool) (pubShmInfosSize : Nat)
  | releaseMessageEntryReference (current : Pid) (topicName : Name) (ipcNs : IpcNs)
      (pubsubId entryId : Int)
  | removeSubscriber (current : Pid) (topicName : Name) (ipcNs : IpcNs) (subscriberId : Int)
  | removePublisher (current : Pid) (topicName : Name) (ipcNs : IpcNs) (publisherId : Int)
  | addDomainBridge (topicNameFrom topicNameTo : Name) (fromDomain toDomain : Nat) (ipcNs : IpcNs)
  | addDomainBridgePrefix (topicNamePrefix : Name) (fromDomain toDomain : Nat) (ipcNs : IpcNs)
  | setRos2SubscriberNum (current : Pid) (topicName : Name) (ipcNs : IpcNs) (count : Nat)
  | setRos2PublisherNum (current : Pid) (topicName : Name) (ipcNs : IpcNs) (count : Nat)
  | processExitCleanup (pid : Pid)
  | getExitProcess (ipcNs : IpcNs)
  | commitExitProcess (ipcNs : IpcNs) (globalPid callerPid : Pid)
  | addBridge (topicName : Name) (pid : Pid) (isR2a : Bool) (ipcNs : IpcNs)
  | removeBridge (topicName : Name) (pid : Pid) (isR2a : Bool) (ipcNs : IpcNs)
  | notifyBridgeShutdown (pid : Pid)
  | checkAndRequestBridgeShutdown (pid : Pid) (ipcNs : IpcNs)
  | addDiscoveryAgent (pid : Pid) (ipcNs : IpcNs) (domainId : Nat)
  | discoveryAgentShouldExit (pid : Pid) (ipcNs : IpcNs) (domainId : Nat) (commit : Bool)
  deriving DecidableEq, Repr

/-- What a call answers. -/
inductive Reply
  | processAdded (r : Except Errno AddProcessReply)
  | endpointAdded (r : Except Errno Int)
  | published (r : Except Errno PublishReply)
  | received (r : Except Errno (ReceivedEntries × List PublisherShmInfo))
  | taken (r : Except Errno (Option (Int × Nat) × List PublisherShmInfo))
  | done (r : Except Errno Unit)
  | bridgeAdded (r : Except (Errno × Option BridgeReply) BridgeReply)
  | agentAdded (r : Except Errno Bool)
  | exitProcess (r : Option (Pid × Pid))
  | flag (b : Bool)

/-- The call succeeded. -/
def Reply.isOk : Reply → Bool
  | .processAdded r => r.isOk
  | .endpointAdded r => r.isOk
  | .published r => r.isOk
  | .received r => r.isOk
  | .taken r => r.isOk
  | .done r => r.isOk
  | .bridgeAdded r => r.isOk
  | .agentAdded r => r.isOk
  | .exitProcess _ => true
  | .flag _ => true

/-- The input of one step. -/
structure Input where
  env : Env
  call : Call

/-- Wrap what a function of the model returns. -/
def answer {α : Type} (f : α → Reply) (r : α × Kmod) : Reply × Kmod := (f r.1, r.2)

/-- One call, atomically. -/
def step (σ : Kmod) (i : Input) : Reply × Kmod :=
  match i.call with
  | .addProcess pid ipcNs role domainId =>
    answer .processAdded (addProcess σ i.env pid ipcNs role domainId)
  | .addSubscriber topicName ipcNs args eventfd =>
    answer .endpointAdded (addSubscriber σ i.env topicName ipcNs args eventfd)
  | .addPublisher topicName ipcNs args =>
    answer .endpointAdded (addPublisher σ i.env topicName ipcNs args)
  | .publishMsg current topicName ipcNs publisherId addr =>
    answer .published (publishMsg σ i.env current topicName ipcNs publisherId addr)
  | .receiveMsg current topicName ipcNs subscriberId size =>
    answer .received (receiveMsg σ i.env current topicName ipcNs subscriberId size)
  | .takeMsg current topicName ipcNs subscriberId allowSameMessage size =>
    answer .taken (takeMsg σ i.env current topicName ipcNs subscriberId allowSameMessage size)
  | .releaseMessageEntryReference current topicName ipcNs pubsubId entryId =>
    answer .done (releaseMessageEntryReference σ current topicName ipcNs pubsubId entryId)
  | .removeSubscriber current topicName ipcNs subscriberId =>
    answer .done (removeSubscriber σ current topicName ipcNs subscriberId)
  | .removePublisher current topicName ipcNs publisherId =>
    answer .done (removePublisher σ current topicName ipcNs publisherId)
  | .addDomainBridge topicNameFrom topicNameTo fromDomain toDomain ipcNs =>
    answer .done (addDomainBridge σ i.env topicNameFrom topicNameTo fromDomain toDomain ipcNs)
  | .addDomainBridgePrefix topicNamePrefix fromDomain toDomain ipcNs =>
    answer .done (addDomainBridgePrefix σ i.env topicNamePrefix fromDomain toDomain ipcNs)
  | .setRos2SubscriberNum current topicName ipcNs count =>
    answer .done (setRos2SubscriberNum σ current topicName ipcNs count)
  | .setRos2PublisherNum current topicName ipcNs count =>
    answer .done (setRos2PublisherNum σ current topicName ipcNs count)
  | .processExitCleanup pid => (.done (.ok ()), processExitCleanup σ pid)
  | .getExitProcess ipcNs => (.exitProcess (getExitProcess σ ipcNs), σ)
  | .commitExitProcess ipcNs globalPid callerPid =>
    answer .flag (commitExitProcess σ ipcNs globalPid callerPid)
  | .addBridge topicName pid isR2a ipcNs =>
    answer .bridgeAdded (addBridge σ i.env topicName pid isR2a ipcNs)
  | .removeBridge topicName pid isR2a ipcNs =>
    answer .done (removeBridge σ topicName pid isR2a ipcNs)
  | .notifyBridgeShutdown pid => (.done (.ok ()), notifyBridgeShutdown σ pid)
  | .checkAndRequestBridgeShutdown pid ipcNs =>
    answer .flag (checkAndRequestBridgeShutdown σ pid ipcNs)
  | .addDiscoveryAgent pid ipcNs domainId =>
    answer .agentAdded (addDiscoveryAgent σ i.env pid ipcNs domainId)
  | .discoveryAgentShouldExit pid ipcNs domainId commit =>
    answer .flag (discoveryAgentShouldExit σ pid ipcNs domainId commit)

/-- The module right after it is loaded: empty tables over a fresh allocator. -/
def Kmod.loaded (m : MemoryAllocator) : Kmod where
  procInfoHtable := []
  discoveryAgentHtable := []
  topicHashtable := []
  bridgeHtable := []
  domainRuleHtable := []
  topicStructs := fun _ => .blank
  nextTopicPtr := 0
  domainRules := fun _ => newDomainRule [] [] 0 1 (by decide) false 0
  nextRulePtr := 0
  mem := m

/-- Module load succeeded with some parameters. -/
def moduleInit (σ : Kmod) : Prop :=
  ∃ mempoolNum mempoolStartAddr mempoolSizeGb m,
    initMemoryAllocator mempoolNum mempoolStartAddr mempoolSizeGb true = .ok m ∧ σ = .loaded m

/-- The kernel module. -/
def kmod : Transition.System Kmod Input Reply where
  init := moduleInit
  step := step

/-! ## A module in which nothing fails -/

/-- Every allocation succeeds, new nodes come first, and pids and eventfd numbers
stand for themselves. -/
def Env.smooth : Env where
  kmalloc := fun _ => true
  place := fun _ => 0
  convertPidToLocal := some
  eventfdGet := fun fd => .ok fd.toNat

/-- `n` pools of one gigabyte from address zero on. -/
def poolsOf (n : Nat) : MemoryAllocator where
  mempoolNum := n
  mempoolSizeBytes := 1024 ^ 3
  mempoolEntries := fun i => ⟨i * 1024 ^ 3, 0, []⟩

theorem moduleInit_poolsOf {n : Nat} (hpos : 0 < n) (hn : n < 2 ^ 34) :
    moduleInit (.loaded (poolsOf n)) := by
  refine ⟨n, 0, 1, poolsOf n, ?_, rfl⟩
  have hsize : mempoolSizeBytes 1 = 1024 ^ 3 := by decide
  unfold initMemoryAllocator
  simp only [hsize, Int.toNat_natCast, Nat.zero_add]
  rw [if_neg (by omega), if_neg (by decide), if_neg (by omega), if_neg (by omega), if_neg (by decide)]
  rfl

/-- Run calls, oldest first, in a module with `n` pools in which nothing fails. -/
def runOf (n : Nat) (calls : List Call) : List (Transition.Event Kmod Input Reply) × Kmod :=
  kmod.exec (.loaded (poolsOf n)) [] (calls.map fun call => ⟨.smooth, call⟩)

theorem run_runOf {n : Nat} (hpos : 0 < n) (hn : n < 2 ^ 34) {G : Kmod → Input → Prop}
    {calls : List Call}
    (hg : kmod.Guarded G (.loaded (poolsOf n)) (calls.map fun call => ⟨.smooth, call⟩)) :
    Transition.Run kmod G (runOf n calls).1 (runOf n calls).2 :=
  (Transition.Run.init (moduleInit_poolsOf hpos hn)).exec hg

end Agnocast
