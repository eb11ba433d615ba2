import Agnocast.Process.DiscoveryAgent

/-!
# The client library — starting up

`initialize_agnocast` registers the application and forks the daemons that ADD_PROCESS
has not reported: the unlink daemon of its ipc namespace, and the bridge manager and the
discovery agent of its domain. The report is a hint: several applications may start at
once, and each child claims its role from the module again and leaves when it has lost.
A daemon asks the module whether it may stop, and stops when nobody is left.

The system is every process of the machine that links the library, over the module. What
a process does between two ioctls is its own business, so a step is one fork or one
ioctl, the two phases of GET_EXIT_PROCESS apart. The version check, `open` and the
mapping of the pool are left out: a process that fails in them dies.
-/

namespace Agnocast

/-! ## What the environment asks for -/

/-- `enum class BridgeMode`. -/
inductive BridgeMode
  | off | on
  deriving DecidableEq, Repr

/-- `get_bridge_mode`, of the value of `AGNOCAST_BRIDGE_MODE`. -/
def getBridgeMode : Option Name → BridgeMode
  | none => .on
  | some envVal =>
    let val := envVal.map Char.toLower
    if val = "0".toList ∨ val = "off".toList then .off
    else if val = "on".toList then .on
    -- deprecated spellings, and then unknown ones, which only differ in the warning
    else if val = "1".toList ∨ val = "standard".toList then .on
    else if val = "2".toList ∨ val = "performance".toList then .on
    else .on

/-- `discovery_agent_auto_fork_disabled`, of the value of `AGNOCAST_NO_DISCOVERY_AGENT`. -/
def discoveryAgentAutoForkDisabled : Option Name → Bool
  | none => false
  | some v =>
    v = "1".toList ∨ v.map Char.toLower = "true".toList ∨ v.map Char.toLower = "yes".toList

/-- The daemons that an application makes sure of. -/
inductive Daemon
  | unlinkDaemon | bridgeManager | discoveryAgent
  deriving DecidableEq, Repr

/-- What a process hands on to the children it forks. -/
structure Launch where
  ipcNs : IpcNs
  /-- `get_ros_domain_id()` -/
  domainId : Nat
  /-- `getenv("AGNOCAST_BRIDGE_MODE")` -/
  bridgeMode : Option Name
  /-- `getenv("AGNOCAST_NO_DISCOVERY_AGENT")` -/
  noDiscoveryAgent : Option Name
  /-- `resolve_discovery_agent_path()`, empty when there is no agent to execute -/
  agentPath : Name
  deriving DecidableEq, Repr

/-- The children that `initialize_agnocast` forks, in order, once ADD_PROCESS has answered. -/
def daemonsToSpawn (l : Launch) (addProcessArgs : AddProcessReply) : List Daemon :=
  (if !addProcessArgs.unlinkDaemonExist then [.unlinkDaemon] else []) ++
  (if getBridgeMode l.bridgeMode = .on && !addProcessArgs.bridgeDaemonExist then
    [.bridgeManager] else []) ++
  (if !addProcessArgs.discoveryAgentExist && !discoveryAgentAutoForkDisabled l.noDiscoveryAgent then
    if l.agentPath.isEmpty then [] else [.discoveryAgent]
  else [])

/-- What the application wants to run next to it. -/
def Launch.wants (l : Launch) : Daemon → Bool
  | .unlinkDaemon => true
  | .bridgeManager => getBridgeMode l.bridgeMode = .on
  | .discoveryAgent => !discoveryAgentAutoForkDisabled l.noDiscoveryAgent && !l.agentPath.isEmpty

/-! ## What a child does -/

/-- `enum class claim_result`. -/
inductive ClaimResult
  | won | lost | failed
  deriving DecidableEq, Repr

/-- The ioctl by which a forked child claims its role: `poll_for_unlink` leaves the domain
id zero, `acquire_agnocast_resources_for_bridge` and `claim_discovery_agent` pass their own. -/
def joinCall (pid : Pid) (l : Launch) : Daemon → Call
  | .unlinkDaemon => .addProcess pid l.ipcNs 2 0
  | .bridgeManager => .addProcess pid l.ipcNs 1 l.domainId
  | .discoveryAgent => .addDiscoveryAgent pid l.ipcNs l.domainId

/-- What the child reads off the answer. -/
def claimResult : Daemon → Reply → ClaimResult
  | .unlinkDaemon, .processAdded (.ok args) => if args.unlinkDaemonExist then .lost else .won
  | .bridgeManager, .processAdded (.ok args) => if args.bridgeDaemonExist then .lost else .won
  | .discoveryAgent, .agentAdded (.ok ownedByCaller) => if ownedByCaller then .won else .lost
  | _, _ => .failed

/-- Where a process stands. -/
inductive ProcessPhase
  | starting
  /-- inside `initialize_agnocast`, with these children still to be forked -/
  | forking (todo : List Daemon)
  | initialized
  /-- forked by `parent`, with the claim still to be made -/
  | joining (d : Daemon) (parent : Pid)
  /-- the child has claimed the agent's slot and executes the agent -/
  | execed
  | serving (d : Daemon)
  deriving DecidableEq, Repr

/-- The phase of a child that has won its claim. -/
def ProcessPhase.won : Daemon → ProcessPhase
  | .discoveryAgent => .execed
  | d => .serving d

/-- The daemon that the process is. -/
def ProcessPhase.servesAs : ProcessPhase → Option Daemon
  | .execed => some .discoveryAgent
  | .serving d => some d
  | _ => none

/-- The process is an application of its own, not a daemon or about to be one. -/
def ProcessPhase.isApplication : ProcessPhase → Bool
  | .starting | .forking _ | .initialized => true
  | _ => false

/-- A process that is running. -/
structure ProcessTask where
  launch : Launch
  phase : ProcessPhase
  deriving DecidableEq, Repr

/-! ## The machine -/

/-- The running processes, over the module and the calls between its phases. -/
structure Startup where
  drain : DrainState
  tasks : Pid → Option ProcessTask

/-- The module. -/
abbrev Startup.kmod (s : Startup) : Kmod := s.drain.kmod

def Startup.setTask (s : Startup) (pid : Pid) (t : Option ProcessTask) : Startup :=
  { s with tasks := Function.update s.tasks pid t }

def Startup.setDrain (s : Startup) (drain : DrainState) : Startup := { s with drain := drain }

/-- A call of the module. -/
def Startup.call (s : Startup) (i : Input) : Reply × Startup :=
  ((step s.kmod i).1, s.setDrain (drainStep s.drain (.call i)).2)

/-! ## What the processes do

A process for which a step does not fit does nothing. -/

/-- `initialize_agnocast` up to the answer of ADD_PROCESS. -/
def Startup.initializeAgnocast (s : Startup) (env : Env) (pid : Pid) : Option Reply × Startup :=
  match s.tasks pid with
  | some ⟨l, .starting⟩ =>
    if l.domainId = agnocastDomainIdNone then (none, s.setTask pid none)
    else
      let r := s.call ⟨env, .addProcess pid l.ipcNs 0 l.domainId⟩
      match r.1 with
      | .processAdded (.ok args) =>
        (some r.1, r.2.setTask pid (some ⟨l, .forking (daemonsToSpawn l args)⟩))
      | _ => (some r.1, r.2.setTask pid none)
  | _ => (none, s)

/-- `spawn_daemon_process` of the next child. -/
def Startup.spawnDaemonProcess (s : Startup) (pid child : Pid) : Startup :=
  match s.tasks pid with
  | some ⟨l, .forking (d :: todo)⟩ =>
    (s.setTask child (some ⟨l, .joining d pid⟩)).setTask pid (some ⟨l, .forking todo⟩)
  | _ => s

/-- `initialize_agnocast` returns. -/
def Startup.initialized (s : Startup) (pid : Pid) : Startup :=
  match s.tasks pid with
  | some ⟨l, .forking []⟩ => s.setTask pid (some ⟨l, .initialized⟩)
  | _ => s

/-- A forked child claims its role, at the head of `poll_for_unlink`,
`poll_for_bridge_manager` and the agent's child. -/
def Startup.claim (s : Startup) (env : Env) (pid : Pid) : Option Reply × Startup :=
  match s.tasks pid with
  | some ⟨l, .joining d _⟩ =>
    let r := s.call ⟨env, joinCall pid l d⟩
    match claimResult d r.1 with
    | .won => (some r.1, r.2.setTask pid (some ⟨l, .won d⟩))
    | _ => (some r.1, r.2.setTask pid none)
  | _ => (none, s)

/-- The agent, once executed, claims the slot again in its `main`. -/
def Startup.registerAgent (s : Startup) (env : Env) (pid : Pid) : Option Reply × Startup :=
  match s.tasks pid with
  | some ⟨l, .execed⟩ =>
    let r := s.call ⟨env, joinCall pid l .discoveryAgent⟩
    match claimResult .discoveryAgent r.1 with
    | .won => (some r.1, r.2.setTask pid (some ⟨l, .serving .discoveryAgent⟩))
    | _ => (some r.1, r.2.setTask pid none)
  | _ => (none, s)

/-- The first phase of a GET_EXIT_PROCESS of `poll_for_unlink`. -/
def Startup.getExitProcess (s : Startup) (pid : Pid) : Option Reply × Startup :=
  match s.tasks pid, s.drain.handler pid with
  | some ⟨l, .serving .unlinkDaemon⟩, none =>
    let r := drainStep s.drain (.getExitProcess pid l.ipcNs)
    (r.1, s.setDrain r.2)
  | _, _ => (none, s)

/-- `ret_pid` of a GET_EXIT_PROCESS whose first phase has run. -/
def ExitHandler.retPid (h : ExitHandler) : Pid := (h.found.map Prod.fst).getD (-1)

/-- Its second phase, and what `poll_for_unlink` does then. -/
def Startup.commitExitProcess (s : Startup) (pid : Pid) : Option Reply × Startup :=
  match s.tasks pid, s.drain.handler pid with
  | some ⟨_, .serving .unlinkDaemon⟩, some h =>
    let r := drainStep s.drain (.commitExitProcess pid)
    -- after a pid it asks for the next; without one it stops if it is told to
    if h.retPid > 0 then (r.1, s.setDrain r.2)
    else
      match r.1 with
      | some (.flag true) => (r.1, (s.setDrain r.2).setTask pid none)
      | _ => (r.1, s.setDrain r.2)
  | _, _ => (none, s)

/-- `check_and_request_shutdown` of a bridge manager. -/
def Startup.checkAndRequestShutdown (s : Startup) (env : Env) (pid : Pid) :
    Option Reply × Startup :=
  match s.tasks pid with
  | some ⟨l, .serving .bridgeManager⟩ =>
    let r := s.call ⟨env, .checkAndRequestBridgeShutdown pid l.ipcNs⟩
    match r.1 with
    | .flag true => (some r.1, r.2.setTask pid none)
    | _ => (some r.1, r.2)
  | _ => (none, s)

/-- `_maybe_exit_when_idle` of an agent; the poll before the commit only saves this call. -/
def Startup.maybeExitWhenIdle (s : Startup) (env : Env) (pid : Pid) : Option Reply × Startup :=
  match s.tasks pid with
  | some ⟨l, .serving .discoveryAgent⟩ =>
    let r := s.call ⟨env, .discoveryAgentShouldExit pid l.ipcNs l.domainId true⟩
    match r.1 with
    | .flag true => (some r.1, r.2.setTask pid none)
    | _ => (some r.1, r.2)
  | _ => (none, s)

/-- One step of one process. -/
inductive StartupInput
  /-- a process that links the library begins -/
  | exec (pid : Pid) (l : Launch)
  | initializeAgnocast (env : Env) (pid : Pid)
  | spawnDaemonProcess (pid child : Pid)
  | initialized (pid : Pid)
  | claim (env : Env) (pid : Pid)
  | registerAgent (env : Env) (pid : Pid)
  | getExitProcess (pid : Pid)
  | commitExitProcess (pid : Pid)
  | checkAndRequestShutdown (env : Env) (pid : Pid)
  | maybeExitWhenIdle (env : Env) (pid : Pid)
  /-- a process ends of its own accord -/
  | die (pid : Pid)
  /-- the exit worker comes to a process that has ended -/
  | processExitCleanup (env : Env) (pid : Pid)
  /-- any call on topics and bridges -/
  | ioctl (i : Input)

/-- One step. -/
def startupStep (s : Startup) : StartupInput → Option Reply × Startup
  | .exec pid l => (none, s.setTask pid (some ⟨l, .starting⟩))
  | .initializeAgnocast env pid => s.initializeAgnocast env pid
  | .spawnDaemonProcess pid child => (none, s.spawnDaemonProcess pid child)
  | .initialized pid => (none, s.initialized pid)
  | .claim env pid => s.claim env pid
  | .registerAgent env pid => s.registerAgent env pid
  | .getExitProcess pid => s.getExitProcess pid
  | .commitExitProcess pid => s.commitExitProcess pid
  | .checkAndRequestShutdown env pid => s.checkAndRequestShutdown env pid
  | .maybeExitWhenIdle env pid => s.maybeExitWhenIdle env pid
  | .die pid => (none, s.setTask pid none)
  | .processExitCleanup env pid =>
    (some (s.call ⟨env, .processExitCleanup pid⟩).1, (s.call ⟨env, .processExitCleanup pid⟩).2)
  | .ioctl i => (some (s.call i).1, (s.call i).2)

/-- The processes of a machine, which starts with the module loaded and nobody running. -/
def startup : Transition.System Startup StartupInput (Option Reply) where
  init s := daemons.init s.drain ∧ ∀ pid, s.tasks pid = none
  step := startupStep

/-- The calls that a step of its own stands for. -/
def Call.ofProcesses : Call → Bool
  | .addProcess .. | .processExitCleanup .. | .getExitProcess .. | .commitExitProcess ..
  | .notifyBridgeShutdown .. | .checkAndRequestBridgeShutdown .. | .addDiscoveryAgent ..
  | .discoveryAgentShouldExit .. => true
  | _ => false

/-- A pid that the kernel may give to a new process: nobody uses it, and the module has
forgotten its last owner. -/
structure FreePid (s : Startup) (pid : Pid) : Prop where
  pos : 0 < pid
  task : s.tasks pid = none
  process : findProcessInfo s.kmod pid = none
  agent : ∀ a ∈ s.kmod.discoveryAgentHtable, a.pid ≠ pid

/-- The caller has a pid in its own pid namespace. -/
def SeesItself (env : Env) (pid : Pid) : Prop := ∃ q, env.convertPidToLocal pid = some q ∧ 0 < q

/-- Pids are the kernel's, a daemon is neither killed nor refused for want of memory, and
the exit worker comes to the dead. An application may end at any time. -/
def DaemonsLive (s : Startup) : StartupInput → Prop
  | .exec pid _ => FreePid s pid
  | .initializeAgnocast env pid => SeesItself env pid
  | .spawnDaemonProcess _ child => FreePid s child
  | .claim env pid => SeesItself env pid ∧ ∀ l d parent, s.tasks pid = some ⟨l, .joining d parent⟩ →
      claimResult d (step s.kmod ⟨env, joinCall pid l d⟩).1 ≠ .failed
  | .die pid => ∃ t, s.tasks pid = some t ∧ t.phase.isApplication = true
  | .processExitCleanup _ pid => s.tasks pid = none
  | .ioctl i => i.call.ofProcesses = false
  | _ => True

end Agnocast
