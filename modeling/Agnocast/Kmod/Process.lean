import Agnocast.Kmod.Ioctl

/-!
# The kernel module — processes

Registration, exit cleanup (`agnocast_process_exit_cleanup`, run by the exit
worker) and the draining of exited registrations by the unlink daemon; the
bridges and discovery agents, which are tracked by pid next to the process table.
-/

namespace Agnocast

variable (σ : Kmod)

/-! ## Registration -/

/-- The role a raw `uint32_t` stands for, if any. -/
def decodeRole : Nat → Option ProcessRole
  | 0 => some .application
  | 1 => some .bridgeManager
  | 2 => some .unlinkDaemon
  | _ => none

/-- `has_alive_bridge_manager`. -/
def hasAliveBridgeManager (ipcNs : IpcNs) (domainId : Nat) : Bool :=
  σ.procInfoHtable.any fun p =>
    p.ipcNs = ipcNs ∧ p.domainId = domainId ∧ p.role = .bridgeManager ∧ !p.exited

/-- `has_alive_unlink_daemon`. -/
def hasAliveUnlinkDaemon (ipcNs : IpcNs) : Bool :=
  σ.procInfoHtable.any fun p => p.ipcNs = ipcNs ∧ p.role = .unlinkDaemon

/-- `agnocast_find_discovery_agent`. -/
def findDiscoveryAgent (ipcNs : IpcNs) (domainId : Nat) : Option DiscoveryAgentInfo :=
  σ.discoveryAgentHtable.find? fun a => a.ipcNs = ipcNs ∧ a.domainId = domainId

/-- What ADD_PROCESS answers; `pool` is the address and size of the caller's pool
when the call registered it. -/
structure AddProcessReply where
  pool : Option (Nat × Nat)
  unlinkDaemonExist : Bool
  bridgeDaemonExist : Bool
  discoveryAgentExist : Bool
  deriving DecidableEq, Repr

/-- `agnocast_ioctl_add_process`. -/
def addProcess (env : Env) (pid : Pid) (ipcNs : IpcNs) (role : Nat) (domainId : Nat) :
    Except Errno AddProcessReply × Kmod :=
  match decodeRole role with
  | none => (.error .EINVAL, σ)
  | some role =>
    if role ≠ .unlinkDaemon ∧ domainId = agnocastDomainIdNone then (.error .EINVAL, σ)
    else if (findProcessInfo σ pid).isSome then (.error .EINVAL, σ)
    else
      let reply : AddProcessReply :=
        { pool := none
          unlinkDaemonExist := hasAliveUnlinkDaemon σ ipcNs
          bridgeDaemonExist := hasAliveBridgeManager σ ipcNs domainId
          discoveryAgentExist := (findDiscoveryAgent σ ipcNs domainId).isSome }
      -- a second manager or daemon is told of the first, and is not registered
      if role = .bridgeManager ∧ reply.bridgeDaemonExist then (.ok reply, σ)
      else if role = .unlinkDaemon ∧ reply.unlinkDaemonExist then (.ok reply, σ)
      else if !env.kmalloc .processInfo then (.error .ENOMEM, σ)
      else
        match assignMemory (env.kmalloc .mappedPid) pid σ.mem with
        | (none, m) => (.error .ENOMEM, σ.setMem m)
        | (some i, m) =>
          let newProcInfo : ProcessInfo :=
            { exited := false
              role := role
              globalPid := pid
              localPid := (env.convertPidToLocal pid).getD (-1)
              mempoolEntry := i
              ipcNs := ipcNs
              domainId := if role = .unlinkDaemon then agnocastDomainIdNone else domainId }
          (.ok { reply with pool := some ((m.mempoolEntries i).addr, m.mempoolSizeBytes) },
            { σ.setMem m with
              procInfoHtable := HTable.hashAdd (env.place .procInfo) σ.procInfoHtable newProcInfo })

/-! ## Exit -/

/-- `agnocast_remove_discovery_agent_by_pid`. -/
def removeDiscoveryAgentByPid (pid : Pid) : Kmod :=
  { σ with
    discoveryAgentHtable := σ.discoveryAgentHtable.eraseP fun a => a.pid = pid }

/-- Unlink a process from `proc_info_htable`. -/
def Kmod.dropProcess (pid : Pid) : Kmod :=
  { σ with procInfoHtable := HTable.hashDel ProcessInfo.globalPid pid σ.procInfoHtable }

/-- What `process_exit_cleanup` does to the process table: a dead daemon leaves
it, any other process is kept for the daemon to drain. -/
def markExited (procInfo : ProcessInfo) : Kmod :=
  if procInfo.role = .unlinkDaemon then σ.dropProcess procInfo.globalPid
  else
    { σ with
      procInfoHtable :=
        HTable.modify ProcessInfo.globalPid procInfo.globalPid
          (fun p => { p with exited := true }) σ.procInfoHtable }

/-- One round of the loop of `process_exit_cleanup` over `topic_hashtable`. -/
def cleanupTopic (pid : Pid) (σ : Kmod) (wrapper : TopicWrapper) : Kmod :=
  let t := preHandlerPublisherExit (σ.topicStructs wrapper.topic) pid
  let t := preHandlerSubscriberExit σ t pid
  releaseIfEmpty (σ.setTopic wrapper.topic t) wrapper

/-- `agnocast_process_exit_cleanup`. -/
def processExitCleanup (pid : Pid) : Kmod :=
  let σ := removeDiscoveryAgentByPid σ pid
  match findProcessInfo σ pid with
  | none => σ
  | some procInfo =>
    let σ := markExited σ procInfo
    let σ := σ.setMem (freeMemory pid σ.mem)
    let σ := σ.topicHashtable.foldl (cleanupTopic pid) σ
    { σ with bridgeHtable := σ.bridgeHtable.filter fun b => b.pid ≠ pid }

/-- `agnocast_ioctl_get_exit_process`: the local and the global pid of some exited
process of the namespace. -/
def getExitProcess (ipcNs : IpcNs) : Option (Pid × Pid) :=
  (σ.procInfoHtable.find? fun p => p.ipcNs = ipcNs ∧ p.exited).map fun p => (p.localPid, p.globalPid)

/-- `get_process_num_except_unlink_daemon`. -/
def getProcessNumExceptUnlinkDaemon (ipcNs : IpcNs) : Nat :=
  σ.procInfoHtable.countP fun p => p.ipcNs = ipcNs ∧ p.role ≠ .unlinkDaemon

/-- The idle poll of a daemon whose namespace is done takes the daemon out. -/
def deregisterDaemon (callerPid : Pid) : Kmod :=
  match findProcessInfo σ callerPid with
  | none => σ
  | some callerInfo =>
    if callerInfo.role = .unlinkDaemon then
      let σ := σ.dropProcess callerPid
      σ.setMem (freeMemory callerPid σ.mem)
    else σ

/-- `agnocast_commit_exit_process`. `globalPid` is what the caller read under
another lock, so it is arbitrary here. -/
def commitExitProcess (ipcNs : IpcNs) (globalPid callerPid : Pid) : Bool × Kmod :=
  let σ := if globalPid ≥ 0 then σ.dropProcess globalPid else σ
  let daemonShouldExit : Bool := getProcessNumExceptUnlinkDaemon σ ipcNs = 0
  if daemonShouldExit ∧ globalPid < 0 ∧ callerPid ≥ 0 then
    (daemonShouldExit, deregisterDaemon σ callerPid)
  else (daemonShouldExit, σ)

/-! ## Bridges -/

/-- Change the role of a registered process to an application's. -/
def demoteToApplication (pid : Pid) : Kmod :=
  { σ with
    procInfoHtable :=
      HTable.modify ProcessInfo.globalPid pid (fun p => { p with role := .application })
        σ.procInfoHtable }

/-- `agnocast_ioctl_notify_bridge_shutdown`. -/
def notifyBridgeShutdown (pid : Pid) : Kmod := demoteToApplication σ pid

/-- `get_process_num_in_domain_except_unlink_daemon`. -/
def getProcessNumInDomainExceptUnlinkDaemon (ipcNs : IpcNs) (domainId : Nat) : Nat :=
  σ.procInfoHtable.countP fun p =>
    p.ipcNs = ipcNs ∧ p.domainId = domainId ∧ p.role ≠ .unlinkDaemon

/-- `agnocast_ioctl_check_and_request_bridge_shutdown`. -/
def checkAndRequestBridgeShutdown (pid : Pid) (ipcNs : IpcNs) : Bool × Kmod :=
  if getProcessNumInDomainExceptUnlinkDaemon σ ipcNs (getProcessDomainId σ pid) ≤ 1 then
    (true, demoteToApplication σ pid)
  else (false, σ)

/-- `find_bridge_info`. -/
def findBridgeInfo (topicName : Name) (ipcNs : IpcNs) : Option BridgeInfo :=
  HTable.lookup (fun b => (b.topicName, b.ipcNs)) (topicName, ipcNs) σ.bridgeHtable

/-- What ADD_BRIDGE answers about the bridge of the topic. -/
structure BridgeReply where
  pid : Pid
  hasR2a : Bool
  hasA2r : Bool
  deriving DecidableEq, Repr

/-- `agnocast_ioctl_add_bridge`; a call that fails because another process has the
bridge answers who it is. -/
def addBridge (env : Env) (topicName : Name) (pid : Pid) (isR2a : Bool) (ipcNs : IpcNs) :
    Except (Errno × Option BridgeReply) BridgeReply × Kmod :=
  match findBridgeInfo σ topicName ipcNs with
  | some existing =>
    -- a bridge belongs to one process
    if existing.pid ≠ pid then
      (.error (.EEXIST, some ⟨existing.pid, existing.hasR2a, existing.hasA2r⟩), σ)
    else
      let existing' :=
        if isR2a then { existing with hasR2a := true } else { existing with hasA2r := true }
      (.ok ⟨existing'.pid, existing'.hasR2a, existing'.hasA2r⟩,
        { σ with
          bridgeHtable :=
            HTable.modify (fun b => (b.topicName, b.ipcNs)) (topicName, ipcNs) (fun _ => existing')
              σ.bridgeHtable })
  | none =>
    if !env.kmalloc .bridgeInfo then (.error (.ENOMEM, none), σ)
    else if !env.kmalloc .bridgeName then (.error (.ENOMEM, none), σ)
    else
      let brInfo : BridgeInfo := ⟨topicName, pid, isR2a, !isR2a, ipcNs⟩
      (.ok ⟨pid, isR2a, !isR2a⟩,
        { σ with bridgeHtable := HTable.hashAdd (env.place .bridge) σ.bridgeHtable brInfo })

/-- `agnocast_ioctl_remove_bridge`. -/
def removeBridge (topicName : Name) (pid : Pid) (isR2a : Bool) (ipcNs : IpcNs) :
    Except Errno Unit × Kmod :=
  match findBridgeInfo σ topicName ipcNs with
  | none => (.error .ENOENT, σ)
  | some brInfo =>
    if brInfo.pid ≠ pid then (.error .EPERM, σ)
    else
      let brInfo :=
        if isR2a then { brInfo with hasR2a := false } else { brInfo with hasA2r := false }
      (.ok (),
        { σ with
          bridgeHtable :=
            -- the last direction takes the bridge with it
            if !brInfo.hasR2a && !brInfo.hasA2r then
              HTable.hashDel (fun b => (b.topicName, b.ipcNs)) (topicName, ipcNs) σ.bridgeHtable
            else
              HTable.modify (fun b => (b.topicName, b.ipcNs)) (topicName, ipcNs) (fun _ => brInfo)
                σ.bridgeHtable })

/-! ## Discovery agents -/

/-- `get_alive_process_num_in_domain_except_unlink_daemon`. -/
def getAliveProcessNumInDomainExceptUnlinkDaemon (ipcNs : IpcNs) (domainId : Nat) : Nat :=
  σ.procInfoHtable.countP fun p =>
    p.ipcNs = ipcNs ∧ p.domainId = domainId ∧ !p.exited ∧ p.role ≠ .unlinkDaemon

/-- `agnocast_ioctl_discovery_agent_should_exit`. -/
def discoveryAgentShouldExit (pid : Pid) (ipcNs : IpcNs) (domainId : Nat) (commit : Bool) :
    Bool × Kmod :=
  let shouldExit : Bool := getAliveProcessNumInDomainExceptUnlinkDaemon σ ipcNs domainId = 0
  if commit && shouldExit then (true, removeDiscoveryAgentByPid σ pid) else (shouldExit, σ)

/-- `agnocast_ioctl_add_discovery_agent`: whether the caller owns the slot. -/
def addDiscoveryAgent (env : Env) (pid : Pid) (ipcNs : IpcNs) (domainId : Nat) :
    Except Errno Bool × Kmod :=
  match findDiscoveryAgent σ ipcNs domainId with
  | some existing => (.ok (existing.pid = pid), σ)
  | none =>
    if !env.kmalloc .discoveryAgentInfo then (.error .ENOMEM, σ)
    else
      (.ok true,
        { σ with
          discoveryAgentHtable :=
            HTable.hashAdd (env.place .discoveryAgent) σ.discoveryAgentHtable
              ⟨pid, ipcNs, domainId⟩ })

end Agnocast
