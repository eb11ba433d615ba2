import Agnocast.Memory.Report

/-!
# The processes — what a call changes

Most calls work on the topics and leave the tables around them alone
(`SameWorld`). What the others do to the process table and to the pools is said
once, by `step_procs`: every step is one `ProcChange`. The invariants of the
registrations and of the pools are case splits on it.

* `addProcess_cases`   — how a registration ends.
* `commitExitProcess_cases` — what the second phase of a drain takes out.
* `step_procs`         — every call, with what it answered.
-/

namespace Agnocast

variable {σ σ' σ'' : Kmod}

/-! ## Calls that work on the topics -/

/-- The two states agree on everything but the topics and the rules. -/
structure SameWorld (σ σ' : Kmod) : Prop where
  procs : σ'.procInfoHtable = σ.procInfoHtable
  mem : σ'.mem = σ.mem
  agents : σ'.discoveryAgentHtable = σ.discoveryAgentHtable
  bridges : σ'.bridgeHtable = σ.bridgeHtable

theorem SameWorld.refl (σ : Kmod) : SameWorld σ σ := ⟨rfl, rfl, rfl, rfl⟩

theorem SameWorld.trans (h : SameWorld σ σ') (h' : SameWorld σ' σ'') : SameWorld σ σ'' :=
  ⟨h'.procs.trans h.procs, h'.mem.trans h.mem, h'.agents.trans h.agents, h'.bridges.trans h.bridges⟩

theorem SameWorld.findProcessInfo (h : SameWorld σ σ') (pid : Pid) :
    findProcessInfo σ' pid = findProcessInfo σ pid := by
  unfold Agnocast.findProcessInfo
  rw [h.procs]

theorem sameWorld_setTopic (σ : Kmod) (tp : Nat) (t : TopicStruct) :
    SameWorld σ (σ.setTopic tp t) := ⟨rfl, rfl, rfl, rfl⟩

theorem RuleChange.sameWorld (h : RuleChange σ σ') : SameWorld σ σ' := by
  cases h <;> exact ⟨rfl, rfl, rfl, rfl⟩

private theorem addTopic_sameWorld (env : Env) (c : Cell) : SameWorld σ (addTopic σ env c).2 := by
  rcases addTopic_cases (σ := σ) env c with ⟨e, _, heq⟩ | ⟨w, _, heq⟩ | ⟨tp, _, _, heq⟩ |
    ⟨_, _, heq⟩ <;> rw [heq] <;> exact ⟨rfl, rfl, rfl, rfl⟩

theorem releaseIfEmpty_sameWorld (w : TopicWrapper) : SameWorld σ (releaseIfEmpty σ w) := by
  unfold releaseIfEmpty
  split <;> exact ⟨rfl, rfl, rfl, rfl⟩

private theorem addSubscriber_sameWorld (env : Env) (topicName : Name) (ipcNs : IpcNs)
    (args : SubscriberArgs) (eventfd : Int) :
    SameWorld σ (addSubscriber σ env topicName ipcNs args eventfd).2 := by
  rcases addSubscriber_cases (σ := σ) env topicName ipcNs args eventfd with
    ⟨⟨e, heq⟩, _⟩ | ⟨ctx, w, σ₁, _, _, hadd, heq⟩
  · rw [heq]
    exact .refl σ
  · have h := addTopic_sameWorld (σ := σ) env ⟨topicName, ipcNs, getProcessDomainId σ args.pid⟩
    rw [hadd] at h
    rw [heq]
    exact h.trans (sameWorld_setTopic ..)

private theorem addPublisher_sameWorld (env : Env) (topicName : Name) (ipcNs : IpcNs)
    (args : PublisherArgs) : SameWorld σ (addPublisher σ env topicName ipcNs args).2 := by
  have h := addTopic_sameWorld (σ := σ) env ⟨topicName, ipcNs, getProcessDomainId σ args.pid⟩
  unfold addPublisher
  generalize addTopic σ env ⟨topicName, ipcNs, getProcessDomainId σ args.pid⟩ = r at h ⊢
  obtain ⟨ret, σ₁⟩ := r
  cases ret with
  | error e => exact h
  | ok w =>
    simp only
    generalize insertPublisherInfo σ₁ env (σ₁.topicStructs w.topic) w.domainId args = ins
    obtain ⟨_ | id, t⟩ := ins <;> exact h.trans (sameWorld_setTopic ..)

private theorem publishMsg_sameWorld (env : Env) (current : Pid) (topicName : Name) (ipcNs : IpcNs)
    (publisherId : Int) (addr : Nat) :
    SameWorld σ (publishMsg σ env current topicName ipcNs publisherId addr).2 := by
  unfold publishMsg
  split
  · exact .refl σ
  simp only
  split
  · exact .refl σ
  split
  · exact .refl σ
  split
  · exact .refl σ
  · exact sameWorld_setTopic ..

private theorem releaseMessageEntryReference_sameWorld (current : Pid) (topicName : Name)
    (ipcNs : IpcNs) (pubsubId entryId : Int) :
    SameWorld σ (releaseMessageEntryReference σ current topicName ipcNs pubsubId entryId).2 := by
  unfold releaseMessageEntryReference
  split
  · exact .refl σ
  simp only
  split
  · exact .refl σ
  split
  · exact .refl σ
  split
  · exact .refl σ
  · exact sameWorld_setTopic ..

private theorem removeSubscriber_sameWorld (current : Pid) (topicName : Name) (ipcNs : IpcNs)
    (subscriberId : Int) : SameWorld σ (removeSubscriber σ current topicName ipcNs subscriberId).2 := by
  unfold removeSubscriber
  split
  · exact .refl σ
  simp only
  split
  · exact .refl σ
  split
  · exact sameWorld_setTopic ..
  · exact (sameWorld_setTopic ..).trans (releaseIfEmpty_sameWorld _)

private theorem removePublisher_sameWorld (current : Pid) (topicName : Name) (ipcNs : IpcNs)
    (publisherId : Int) : SameWorld σ (removePublisher σ current topicName ipcNs publisherId).2 := by
  unfold removePublisher
  split
  · exact .refl σ
  simp only
  split
  · exact .refl σ
  · exact (sameWorld_setTopic ..).trans (releaseIfEmpty_sameWorld _)

private theorem setRos2Num_sameWorld (current : Pid) (topicName : Name) (ipcNs : IpcNs)
    (set : TopicStruct → TopicStruct) :
    SameWorld σ (setRos2Num σ current topicName ipcNs set).2 := by
  unfold setRos2Num
  split
  · exact .refl σ
  · exact sameWorld_setTopic ..

theorem cleanupTopic_sameWorld (pid : Pid) (w : TopicWrapper) :
    SameWorld σ (cleanupTopic pid σ w) :=
  (sameWorld_setTopic ..).trans (releaseIfEmpty_sameWorld _)

theorem cleanupTopics_sameWorld (pid : Pid) (l : List TopicWrapper) :
    SameWorld σ (l.foldl (cleanupTopic pid) σ) := by
  induction l generalizing σ with
  | nil => exact .refl σ
  | cons w l ih => exact (cleanupTopic_sameWorld pid w).trans ih

/-- The calls that only read or only work on the topics and the rules. -/
def Call.onTopics : Call → Bool
  | .addSubscriber .. | .addPublisher .. | .publishMsg .. | .releaseMessageEntryReference ..
  | .removeSubscriber .. | .removePublisher .. | .addDomainBridge .. | .addDomainBridgePrefix ..
  | .setRos2SubscriberNum .. | .setRos2PublisherNum .. | .getExitProcess .. => true
  | _ => false

theorem step_sameWorld {i : Input} (h : i.call.onTopics = true) : SameWorld σ (step σ i).2 := by
  obtain ⟨env, call⟩ := i
  cases call with
  | addSubscriber topicName ipcNs args eventfd =>
    exact addSubscriber_sameWorld env topicName ipcNs args eventfd
  | addPublisher topicName ipcNs args => exact addPublisher_sameWorld env topicName ipcNs args
  | publishMsg current topicName ipcNs publisherId addr =>
    exact publishMsg_sameWorld env current topicName ipcNs publisherId addr
  | releaseMessageEntryReference current topicName ipcNs pubsubId entryId =>
    exact releaseMessageEntryReference_sameWorld current topicName ipcNs pubsubId entryId
  | removeSubscriber current topicName ipcNs subscriberId =>
    exact removeSubscriber_sameWorld current topicName ipcNs subscriberId
  | removePublisher current topicName ipcNs publisherId =>
    exact removePublisher_sameWorld current topicName ipcNs publisherId
  | addDomainBridge nameFrom nameTo fromDomain toDomain ipcNs =>
    exact (addDomainBridge_change env nameFrom nameTo fromDomain toDomain ipcNs).sameWorld
  | addDomainBridgePrefix pre fromDomain toDomain ipcNs =>
    exact (addDomainBridgePrefix_change env pre fromDomain toDomain ipcNs).sameWorld
  | setRos2SubscriberNum current topicName ipcNs count =>
    exact setRos2Num_sameWorld current topicName ipcNs _
  | setRos2PublisherNum current topicName ipcNs count =>
    exact setRos2Num_sameWorld current topicName ipcNs _
  | getExitProcess ipcNs => exact .refl σ
  | _ => cases h

/-! ## Registration -/

/-- The registration that ADD_PROCESS makes. -/
def newProcess (env : Env) (pid : Pid) (ipcNs : IpcNs) (role : ProcessRole) (domainId : Nat)
    (pool : Nat) : ProcessInfo where
  exited := false
  role := role
  globalPid := pid
  localPid := (env.convertPidToLocal pid).getD (-1)
  mempoolEntry := pool
  ipcNs := ipcNs
  domainId := if role = .unlinkDaemon then agnocastDomainIdNone else domainId

/-- A pool that `assign_memory` may hand out. -/
def MemoryAllocator.Unassigned (m : MemoryAllocator) (pool : Nat) : Prop :=
  pool < m.mempoolNum ∧ (m.mempoolEntries pool).mappedNum = 0

theorem assignMemory_cases (kmalloc : Bool) (pid : Pid) (m : MemoryAllocator) :
    assignMemory kmalloc pid m = (none, m) ∨
      ∃ pool, m.Unassigned pool ∧ assignMemory kmalloc pid m = (some pool, m.mapPools pid [pool]) := by
  unfold assignMemory
  split
  · exact .inl rfl
  split
  · exact .inl rfl
  · next pool hfind =>
    have hzero : (m.mempoolEntries pool).mappedNum = 0 := by simpa using List.find?_some hfind
    refine .inr ⟨pool, ⟨List.mem_range.mp (List.mem_of_find?_eq_some hfind), hzero⟩, ?_⟩
    simp only
    rw [← m.setEntry_eq_mapPools pid pool, hzero]

/-- What ADD_PROCESS tells a process about the daemons, before it registers it. -/
def daemonsAlive (σ : Kmod) (ipcNs : IpcNs) (domainId : Nat) : AddProcessReply where
  pool := none
  unlinkDaemonExist := hasAliveUnlinkDaemon σ ipcNs
  bridgeDaemonExist := hasAliveBridgeManager σ ipcNs domainId
  discoveryAgentExist := (findDiscoveryAgent σ ipcNs domainId).isSome

/-- A process may register in the role it asks for. -/
structure Admits (σ : Kmod) (pid : Pid) (ipcNs : IpcNs) (role : ProcessRole) (domainId : Nat) :
    Prop where
  domain : role ≠ .unlinkDaemon → domainId ≠ agnocastDomainIdNone
  fresh : findProcessInfo σ pid = none
  manager : role = .bridgeManager → hasAliveBridgeManager σ ipcNs domainId = false
  daemon : role = .unlinkDaemon → hasAliveUnlinkDaemon σ ipcNs = false

/-- **How ADD_PROCESS ends**: refused, told that the daemon it wants to be exists
already, or registered with a pool of its own. -/
theorem addProcess_cases (env : Env) (pid : Pid) (ipcNs : IpcNs) (raw domainId : Nat) :
    (∃ e, addProcess σ env pid ipcNs raw domainId = (.error e, σ)) ∨
    (addProcess σ env pid ipcNs raw domainId = (.ok (daemonsAlive σ ipcNs domainId), σ)) ∨
    (∃ role pool, decodeRole raw = some role ∧ Admits σ pid ipcNs role domainId ∧
      σ.mem.Unassigned pool ∧
      addProcess σ env pid ipcNs raw domainId =
        (.ok { daemonsAlive σ ipcNs domainId with
            pool := some ((σ.mem.mempoolEntries pool).addr, σ.mem.mempoolSizeBytes) },
          { σ.setMem (σ.mem.mapPools pid [pool]) with
            procInfoHtable := HTable.hashAdd (env.place .procInfo) σ.procInfoHtable
              (newProcess env pid ipcNs role domainId pool) })) := by
  unfold addProcess
  split
  · exact .inl ⟨_, rfl⟩
  next role hrole =>
  split
  · exact .inl ⟨_, rfl⟩
  next hdomain =>
  split
  · exact .inl ⟨_, rfl⟩
  next hfresh =>
  simp only
  -- there is a manager, or a daemon, of the namespace already
  split
  · exact .inr (.inl rfl)
  next hmanager =>
  split
  · exact .inr (.inl rfl)
  next hdaemon =>
  split
  · exact .inl ⟨_, rfl⟩
  -- all checks have passed; the pool decides
  rcases assignMemory_cases (env.kmalloc .mappedPid) pid σ.mem with heq | ⟨pool, hfree, heq⟩
  · rw [heq]
    exact .inl ⟨_, rfl⟩
  · rw [heq]
    refine .inr (.inr ⟨role, pool, hrole, ⟨?_, by simpa using hfresh, ?_, ?_⟩, hfree, ?_⟩)
    · exact fun hne hnone => hdomain ⟨hne, hnone⟩
    · exact fun h => Bool.eq_false_iff.mpr fun h' => hmanager ⟨h, h'⟩
    · exact fun h => Bool.eq_false_iff.mpr fun h' => hdaemon ⟨h, h'⟩
    · simp only [MemoryAllocator.mapPools_addr, MemoryAllocator.mapPools_sizeBytes]
      rfl

/-- A successful ADD_PROCESS reports the daemons it found. -/
theorem addProcess_reply {env : Env} {pid : Pid} {ipcNs : IpcNs} {raw domainId : Nat}
    {r : AddProcessReply} (h : (addProcess σ env pid ipcNs raw domainId).1 = .ok r) :
    r.unlinkDaemonExist = hasAliveUnlinkDaemon σ ipcNs ∧
      r.bridgeDaemonExist = hasAliveBridgeManager σ ipcNs domainId := by
  rcases addProcess_cases (σ := σ) env pid ipcNs raw domainId with ⟨e, heq⟩ | heq |
    ⟨role, pool, _, _, _, heq⟩ <;> rw [heq] at h <;> cases h <;> exact ⟨rfl, rfl⟩

/-! ## Exit and drain -/

/-- The process table after the exit cleanup of a registered process. -/
def exitedProcs (σ : Kmod) (p : ProcessInfo) : List ProcessInfo := (markExited σ p).procInfoHtable

theorem processExitCleanup_world {pid : Pid} {p : ProcessInfo} (hp : findProcessInfo σ pid = some p) :
    (processExitCleanup σ pid).procInfoHtable = exitedProcs σ p ∧
      (processExitCleanup σ pid).mem = freeMemory pid σ.mem ∧
      (processExitCleanup σ pid).discoveryAgentHtable =
        (removeDiscoveryAgentByPid σ pid).discoveryAgentHtable ∧
      (processExitCleanup σ pid).bridgeHtable = σ.bridgeHtable.filter fun b => b.pid ≠ pid := by
  rw [processExitCleanup_eq, hp]
  have h := cleanupTopics_sameWorld (σ := exitProcess σ pid p) pid
    (exitProcess σ pid p).topicHashtable
  refine ⟨h.procs.trans ?_, h.mem.trans ?_, h.agents.trans ?_, ?_⟩
  · unfold exitProcess exitedProcs markExited
    by_cases hrole : p.role = .unlinkDaemon
    · simp [hrole, Kmod.dropProcess, removeDiscoveryAgentByPid]
    · simp [hrole, removeDiscoveryAgentByPid]
  · unfold exitProcess markExited
    by_cases hrole : p.role = .unlinkDaemon
    · simp [hrole, Kmod.dropProcess, removeDiscoveryAgentByPid]
    · simp [hrole, removeDiscoveryAgentByPid]
  · unfold exitProcess markExited
    by_cases hrole : p.role = .unlinkDaemon
    · simp [hrole, Kmod.dropProcess, Kmod.setMem]
    · simp [hrole, Kmod.setMem]
  · simp only
    rw [h.bridges]
    unfold exitProcess markExited
    by_cases hrole : p.role = .unlinkDaemon
    · simp [hrole, Kmod.dropProcess, removeDiscoveryAgentByPid, Kmod.setMem]
    · simp [hrole, removeDiscoveryAgentByPid, Kmod.setMem]

theorem processExitCleanup_unknown {pid : Pid} (hp : findProcessInfo σ pid = none) :
    processExitCleanup σ pid = removeDiscoveryAgentByPid σ pid := by
  rw [processExitCleanup_eq, hp]

/-- **What a commit takes out**: the pid that was read; without one, at most the
registration of the calling daemon, and then nobody else of the namespace is
registered; or nothing. -/
theorem commitExitProcess_cases (ipcNs : IpcNs) (globalPid callerPid : Pid) :
    (0 ≤ globalPid ∧
      (commitExitProcess σ ipcNs globalPid callerPid).2 = σ.dropProcess globalPid) ∨
    (globalPid < 0 ∧ 0 ≤ callerPid ∧ getProcessNumExceptUnlinkDaemon σ ipcNs = 0 ∧
      ∃ p, findProcessInfo σ callerPid = some p ∧ p.role = .unlinkDaemon ∧
        (commitExitProcess σ ipcNs globalPid callerPid).2 =
          (σ.dropProcess callerPid).setMem (freeMemory callerPid σ.mem)) ∨
    (globalPid < 0 ∧ (commitExitProcess σ ipcNs globalPid callerPid).2 = σ) := by
  unfold commitExitProcess
  by_cases hg : 0 ≤ globalPid
  · refine .inl ⟨hg, ?_⟩
    have hneg : ¬ globalPid < 0 := Int.not_lt.mpr hg
    simp [hg, hneg]
  have hg : globalPid < 0 := Int.not_le.mp hg
  have hdrop : (if globalPid ≥ 0 then σ.dropProcess globalPid else σ) = σ :=
    if_neg (Int.not_le.mpr hg)
  refine .inr ?_
  rw [hdrop]
  simp only
  split
  · next hidle =>
    obtain ⟨hlast, _, hcaller⟩ := hidle
    unfold deregisterDaemon
    cases hp : findProcessInfo σ callerPid with
    | none => exact .inr ⟨hg, rfl⟩
    | some p =>
      simp only
      split
      · next hrole =>
        exact .inl ⟨hg, hcaller, by simpa using hlast, p, rfl, hrole, rfl⟩
      · exact .inr ⟨hg, rfl⟩
  · exact .inr ⟨hg, rfl⟩

/-! ## Receive and take -/

/-- `pid` maps some pools on top of those of `m`, each the pool of another, live
process. -/
def MapsMore (σ : Kmod) (pid : Pid) (m m' : MemoryAllocator) : Prop :=
  ∃ pools : List Nat, pools.Nodup ∧ (∀ k ∈ pools, pid ∉ m.mapped k) ∧
    (∀ k ∈ pools, ∃ q p, q ≠ pid ∧ findProcessInfo σ q = some p ∧ p.exited = false ∧
      p.mempoolEntry = k) ∧
    m' = m.mapPools pid pools

theorem MapsMore.refl (pid : Pid) (m : MemoryAllocator) : MapsMore σ pid m m :=
  ⟨[], List.nodup_nil, by simp, by simp, by simp⟩

private theorem reportPublisherShm_mapsMore (env : Env) (w : TopicWrapper) (t : TopicStruct)
    (s : SubscriberInfo) (size : Nat) :
    MapsMore σ s.pid σ.mem (reportPublisherShm σ env w t s size).2.2 := by
  unfold reportPublisherShm
  split
  · exact .refl s.pid σ.mem
  obtain ⟨pools, hspec⟩ := @setPublisherShmInfo_spec σ t s.pid w.domainId size s.isBridge env
    t.pubInfoHtable [] σ.mem
  refine ⟨pools, hspec.nodup, hspec.fresh, fun k hk => ?_, ?_⟩
  · obtain ⟨q, _, hq⟩ := hspec.owned k hk
    obtain ⟨hne, _, p, hp, hlive, hpool⟩ := reportPool_eq_some.mp hq
    exact ⟨q.pid, p, hne.symm, hp, hlive, hpool⟩
  · rw [← hspec.mem]
    split <;> next heq => rw [heq]

private theorem fetchMsg_world {α : Type} {env : Env} {current : Pid} {topicName : Name}
    {ipcNs : IpcNs} {subscriberId : Int} {size : Nat}
    (core : TopicStruct → SubscriberInfo → Except Errno α × TopicStruct)
    (hcore : ∀ w ∈ σ.topicHashtable, ∀ s ∈ (σ.topicStructs w.topic).subInfoHtable,
      s.id = subscriberId → ∃ a t, core (σ.topicStructs w.topic) s = (.ok a, t))
    (hσ' : (fetchMsg σ env current topicName ipcNs subscriberId size core).2 = σ') :
    σ'.procInfoHtable = σ.procInfoHtable ∧ σ'.discoveryAgentHtable = σ.discoveryAgentHtable ∧
    σ'.bridgeHtable = σ.bridgeHtable ∧
    (σ'.mem = σ.mem ∨ ∃ w s, findTopicForCurrent σ current topicName ipcNs = some w ∧
      findSubscriberInfo (σ.topicStructs w.topic) subscriberId = some s ∧
      MapsMore σ s.pid σ.mem σ'.mem) := by
  rcases fetchMsg_cases env current topicName ipcNs subscriberId size core hcore with
    ⟨heq, _⟩ | ⟨w, s, a, t, hw, hs, _, heq⟩ <;> rw [heq] at hσ' <;> subst hσ'
  · exact ⟨rfl, rfl, rfl, .inl rfl⟩
  · exact ⟨rfl, rfl, rfl, .inr ⟨w, s, hw, hs, reportPublisherShm_mapsMore env w t s size⟩⟩

/-- A receive or take keeps the tables and maps some pools for the process of the
subscriber. -/
theorem fetch_world (h : σ.WellFormed) {i : Input} (hcall : i.call.isFetch = true) :
    (step σ i).2.procInfoHtable = σ.procInfoHtable ∧
    (step σ i).2.discoveryAgentHtable = σ.discoveryAgentHtable ∧
    (step σ i).2.bridgeHtable = σ.bridgeHtable ∧
    ((step σ i).2.mem = σ.mem ∨ ∃ w s, fetchTarget σ i.call = some (w, s) ∧
      MapsMore σ s.pid σ.mem (step σ i).2.mem) := by
  obtain ⟨env, call⟩ := i
  cases call with
  | receiveMsg current topicName ipcNs subscriberId size =>
    obtain ⟨hprocs, hagents, hbridges, hmem⟩ := fetchMsg_world (σ := σ)
      (fun t s => receiveMsgCore σ t s subscriberId) (receiveMsgCore_ok h) rfl
    refine ⟨hprocs, hagents, hbridges, hmem.imp_right fun ⟨w, s, hw, hs, hmaps⟩ => ?_⟩
    exact ⟨w, s, fetchTarget_receiveMsg hw hs, hmaps⟩
  | takeMsg current topicName ipcNs subscriberId allow size =>
    obtain ⟨hprocs, hagents, hbridges, hmem⟩ := fetchMsg_world (σ := σ)
      (fun t s => takeMsgCore σ t s subscriberId allow) (takeMsgCore_ok h allow) rfl
    refine ⟨hprocs, hagents, hbridges, hmem.imp_right fun ⟨w, s, hw, hs, hmaps⟩ => ?_⟩
    exact ⟨w, s, fetchTarget_takeMsg hw hs, hmaps⟩
  | _ => cases hcall

/-! ## Every call -/

/-- What one call does to the process table and to the pools. -/
inductive ProcChange (σ : Kmod) (i : Input) : List ProcessInfo → MemoryAllocator → Prop
  | same : ProcChange σ i σ.procInfoHtable σ.mem
  | registered {pid : Pid} {ipcNs : IpcNs} {raw domainId : Nat} {role : ProcessRole} {pool : Nat}
      (hcall : i.call = .addProcess pid ipcNs raw domainId) (hrole : decodeRole raw = some role)
      (hadmits : Admits σ pid ipcNs role domainId) (hfree : σ.mem.Unassigned pool) :
      ProcChange σ i
        (HTable.hashAdd (i.env.place .procInfo) σ.procInfoHtable
          (newProcess i.env pid ipcNs role domainId pool))
        (σ.mem.mapPools pid [pool])
  | exited {pid : Pid} {p : ProcessInfo} (hcall : i.call = .processExitCleanup pid)
      (hp : findProcessInfo σ pid = some p) :
      ProcChange σ i (exitedProcs σ p) (freeMemory pid σ.mem)
  | drained {ipcNs : IpcNs} {globalPid callerPid : Pid}
      (hcall : i.call = .commitExitProcess ipcNs globalPid callerPid) (hg : 0 ≤ globalPid) :
      ProcChange σ i (HTable.hashDel ProcessInfo.globalPid globalPid σ.procInfoHtable) σ.mem
  | deregistered {ipcNs : IpcNs} {globalPid callerPid : Pid} {p : ProcessInfo}
      (hcall : i.call = .commitExitProcess ipcNs globalPid callerPid) (hg : globalPid < 0)
      (hlast : getProcessNumExceptUnlinkDaemon σ ipcNs = 0)
      (hp : findProcessInfo σ callerPid = some p) (hrole : p.role = .unlinkDaemon) :
      ProcChange σ i (HTable.hashDel ProcessInfo.globalPid callerPid σ.procInfoHtable)
        (freeMemory callerPid σ.mem)
  | demoted {pid : Pid}
      (hcall : i.call = .notifyBridgeShutdown pid ∨
        ∃ ipcNs, i.call = .checkAndRequestBridgeShutdown pid ipcNs) :
      ProcChange σ i
        (HTable.modify ProcessInfo.globalPid pid (fun p => { p with role := .application })
          σ.procInfoHtable) σ.mem
  | reported {w : TopicWrapper} {s : SubscriberInfo} {m : MemoryAllocator}
      (htarget : fetchTarget σ i.call = some (w, s)) (hmaps : MapsMore σ s.pid σ.mem m) :
      ProcChange σ i σ.procInfoHtable m

private theorem ProcChange.of_same {i : Input} (hprocs : σ'.procInfoHtable = σ.procInfoHtable)
    (hmem : σ'.mem = σ.mem) : ProcChange σ i σ'.procInfoHtable σ'.mem := by
  rw [hprocs, hmem]
  exact .same

private theorem fetch_procs (h : σ.WellFormed) {i : Input} (hcall : i.call.isFetch = true) :
    ProcChange σ i (step σ i).2.procInfoHtable (step σ i).2.mem := by
  obtain ⟨hprocs, _, _, hmem | ⟨w, s, htarget, hmaps⟩⟩ := fetch_world h hcall
  · exact .of_same hprocs hmem
  · rw [hprocs]
    exact .reported htarget hmaps

/-- A call never registers anybody but the process that asks for it. -/
theorem ProcChange.pids {i : Input} {procs : List ProcessInfo} {m : MemoryAllocator}
    (h : ProcChange σ i procs m) {p : ProcessInfo} (hp : p ∈ procs) :
    (∃ q ∈ σ.procInfoHtable, q.globalPid = p.globalPid) ∨
      ∃ pid ipcNs raw domainId role pool, i.call = .addProcess pid ipcNs raw domainId ∧
        decodeRole raw = some role ∧ Admits σ pid ipcNs role domainId ∧ σ.mem.Unassigned pool ∧
        p = newProcess i.env pid ipcNs role domainId pool := by
  cases h with
  | same => exact .inl ⟨p, hp, rfl⟩
  | registered hcall hrole hadmits hfree =>
    rcases HTable.mem_hashAdd.mp hp with rfl | hp
    · exact .inr ⟨_, _, _, _, _, _, hcall, hrole, hadmits, hfree, rfl⟩
    · exact .inl ⟨p, hp, rfl⟩
  | exited =>
    unfold exitedProcs markExited at hp
    split at hp
    · exact .inl ⟨p, (HTable.mem_hashDel.mp hp).1, rfl⟩
    · obtain ⟨q, hq, rfl⟩ := HTable.mem_modify.mp hp
      exact .inl ⟨q, hq, by split <;> rfl⟩
  | drained => exact .inl ⟨p, (HTable.mem_hashDel.mp hp).1, rfl⟩
  | deregistered => exact .inl ⟨p, (HTable.mem_hashDel.mp hp).1, rfl⟩
  | demoted =>
    obtain ⟨q, hq, rfl⟩ := HTable.mem_modify.mp hp
    exact .inl ⟨q, hq, by split <;> rfl⟩
  | reported => exact .inl ⟨p, hp, rfl⟩

/-- **Every step** changes the process table and the pools in one of these ways. -/
theorem step_procs (h : σ.WellFormed) (i : Input) :
    ProcChange σ i (step σ i).2.procInfoHtable (step σ i).2.mem := by
  -- two families of calls do not touch the table at all
  by_cases htopics : i.call.onTopics = true
  · exact .of_same (step_sameWorld htopics).procs (step_sameWorld htopics).mem
  by_cases hfetch : i.call.isFetch = true
  · exact fetch_procs h hfetch
  obtain ⟨env, call⟩ := i
  -- the others one by one
  cases call with
  | addProcess pid ipcNs raw domainId =>
    show ProcChange σ _ (addProcess σ env pid ipcNs raw domainId).2.procInfoHtable
      (addProcess σ env pid ipcNs raw domainId).2.mem
    rcases addProcess_cases (σ := σ) env pid ipcNs raw domainId with ⟨e, heq⟩ | heq |
      ⟨role, pool, hrole, hadmits, hfree, heq⟩ <;> rw [heq]
    · exact .same
    · exact .same
    · exact .registered rfl hrole hadmits hfree
  | processExitCleanup pid =>
    show ProcChange σ _ (processExitCleanup σ pid).procInfoHtable (processExitCleanup σ pid).mem
    cases hp : findProcessInfo σ pid with
    | none =>
      rw [processExitCleanup_unknown hp]
      exact .same
    | some p =>
      obtain ⟨hprocs, hmem, _⟩ := processExitCleanup_world hp
      rw [hprocs, hmem]
      exact .exited rfl hp
  | commitExitProcess ipcNs globalPid callerPid =>
    show ProcChange σ _ (commitExitProcess σ ipcNs globalPid callerPid).2.procInfoHtable
      (commitExitProcess σ ipcNs globalPid callerPid).2.mem
    rcases commitExitProcess_cases (σ := σ) ipcNs globalPid callerPid with
      ⟨hg, heq⟩ | ⟨hg, _, hlast, p, hp, hrole, heq⟩ | ⟨_, heq⟩ <;> rw [heq]
    · exact .drained rfl hg
    · exact .deregistered rfl hg hlast hp hrole
    · exact .same
  | notifyBridgeShutdown pid => exact .demoted (.inl rfl)
  | checkAndRequestBridgeShutdown pid ipcNs =>
    show ProcChange σ _ (checkAndRequestBridgeShutdown σ pid ipcNs).2.procInfoHtable
      (checkAndRequestBridgeShutdown σ pid ipcNs).2.mem
    unfold checkAndRequestBridgeShutdown
    split
    · exact .demoted (.inr ⟨ipcNs, rfl⟩)
    · exact .same
  | addBridge topicName pid isR2a ipcNs =>
    show ProcChange σ _ (addBridge σ env topicName pid isR2a ipcNs).2.procInfoHtable
      (addBridge σ env topicName pid isR2a ipcNs).2.mem
    unfold addBridge
    split
    · split <;> exact .same
    · split
      · exact .same
      · split <;> exact .same
  | removeBridge topicName pid isR2a ipcNs =>
    show ProcChange σ _ (removeBridge σ topicName pid isR2a ipcNs).2.procInfoHtable
      (removeBridge σ topicName pid isR2a ipcNs).2.mem
    unfold removeBridge
    split
    · exact .same
    · split <;> exact .same
  | addDiscoveryAgent pid ipcNs domainId =>
    show ProcChange σ _ (addDiscoveryAgent σ env pid ipcNs domainId).2.procInfoHtable
      (addDiscoveryAgent σ env pid ipcNs domainId).2.mem
    unfold addDiscoveryAgent
    split
    · exact .same
    · split <;> exact .same
  | discoveryAgentShouldExit pid ipcNs domainId commit =>
    show ProcChange σ _ (discoveryAgentShouldExit σ pid ipcNs domainId commit).2.procInfoHtable
      (discoveryAgentShouldExit σ pid ipcNs domainId commit).2.mem
    unfold discoveryAgentShouldExit
    simp only
    split <;> exact .same
  | receiveMsg => exact absurd rfl hfetch
  | takeMsg => exact absurd rfl hfetch
  | _ => exact absurd rfl htopics

/-! ## New registrations -/

theorem findProcessInfo_mem {pid : Pid} {p : ProcessInfo} (h : findProcessInfo σ pid = some p) :
    p ∈ σ.procInfoHtable ∧ p.globalPid = pid := HTable.mem_of_lookup h

/-- The event makes the registration `p`. -/
def Registers (ev : Event) (p : ProcessInfo) : Prop :=
  p ∈ (step ev.pre ev.input).2.procInfoHtable ∧ findProcessInfo ev.pre p.globalPid = none

theorem Registers.cases {ev : Event} {p : ProcessInfo} (h : Registers ev p)
    (hwf : ev.pre.WellFormed) :
    ∃ pid ipcNs raw domainId role pool, ev.input.call = .addProcess pid ipcNs raw domainId ∧
      decodeRole raw = some role ∧ Admits ev.pre pid ipcNs role domainId ∧
      ev.pre.mem.Unassigned pool ∧ p = newProcess ev.input.env pid ipcNs role domainId pool := by
  obtain ⟨hp, hnew⟩ := h
  rcases (step_procs hwf ev.input).pids hp with ⟨q, hq, hpid⟩ | h
  · exact absurd hpid (HTable.lookup_eq_none_iff.mp hnew q hq)
  · exact h

end Agnocast
