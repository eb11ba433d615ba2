import Agnocast.Bridge.DomainRuleForcing
import Agnocast.Discovery.Snapshot

/-!
# Discovery — the agents of all hosts

Every host has one kernel module, and an agent for each ipc namespace and domain. An agent
reads its topics once a tick, publishes what it has read to the agents of its DDS domain, and
decides on the bridges from what it has read and what the others have told it lately. Between
any two steps of an agent everything else may move.

* `DiscoveryAgent`, `gossip` — the agents and the system. A snapshot may arrive late, twice
  or never.
* `GossipOk`                 — what holds of the modules, of the readings and of what is known
  of others.
* `run_snapshots_told`       — what a published snapshot tells.

The executor of an agent is single-threaded, so nothing arrives within a tick. The clocks of
the hosts are not synchronized, and a clock may jump.
-/

namespace Agnocast

/-- One agent runs for a host, an ipc namespace and a domain. -/
structure AgentId where
  hostUuid : Name
  ipcNsInode : IpcNs
  domainId : Nat
  deriving DecidableEq, Repr

/-- `(host_uuid, ipc_ns_inode)`. -/
def AgentId.key (agent : AgentId) : Name × Nat := (agent.hostUuid, agent.ipcNsInode)

/-- `REMOTE_STATE_STALE_SEC`, in nanoseconds. -/
def remoteStateStaleNs : Int := 30 * 10 ^ 9

/-- A `DiscoveryAgent`. `reading` is there while a tick is at work. -/
structure DiscoveryAgent where
  domainRules : List RuleTuple
  unforcedReasons : UnforcedReasons
  remoteStates : List ((Name × Nat) × AgnocastDaemonState × Int)
  reading : Option ReadTopics

/-- `build_state`, of the topics that have been read. -/
def buildState (agent : AgentId) (topics : List LocalTopic) : AgnocastDaemonState where
  hostUuid := agent.hostUuid
  ipcNsInode := agent.ipcNsInode
  topics := topics.map LocalTopic.toAgnocastTopic

/-- A snapshot that was published, with what it was read from. -/
structure SentSnapshot where
  sender : AgentId
  read : ReadTopics

def SentSnapshot.state (snapshot : SentSnapshot) : AgnocastDaemonState :=
  buildState snapshot.sender snapshot.read.topics

/-- What a tick hands to the bridge manager and to the log. -/
structure TickOutput where
  requests : List BridgeRequest
  serviceRequests : List ServiceBridgeRequest
  log : List ForcingLine
  deriving DecidableEq, Repr

/-- `dict.fromkeys`. -/
def fromKeys (requests : List BridgeRequest) : List BridgeRequest :=
  (Dict.setdefaults [] (requests.map fun request => (request, ()))).map Prod.fst

namespace DiscoveryAgent

/-- `__init__`, with the rules of the configs. -/
def up (domainRules : List RuleTuple) : DiscoveryAgent := ⟨domainRules, [], [], none⟩

variable (a : DiscoveryAgent)

/-- `_prune_stale_remote_states`. -/
def pruneStaleRemoteStates (nowNs : Int) : DiscoveryAgent :=
  { a with
    remoteStates := a.remoteStates.filter fun e => !(nowNs - e.2.2 > remoteStateStaleNs) }

/-- `_on_remote_state`. -/
def onRemoteState (agent : AgentId) (msg : AgnocastDaemonState) (nowNs : Int) : DiscoveryAgent :=
  if msg.hostUuid = agent.hostUuid ∧ msg.ipcNsInode = agent.ipcNsInode then a
  else { a with remoteStates := Dict.set a.remoteStates msg.key (msg, nowNs) }

/-- `_on_tick` up to the first query. `table` is what `rebuild` found. -/
def startTick (agent : AgentId) (σ : Kmod) (table : RegistryTable) (nowNs : Int)
    (kvmalloc : Bool) : DiscoveryAgent :=
  { a.pruneStaleRemoteStates nowNs with
    reading := some (.start σ agent.ipcNsInode agent.domainId table kvmalloc nowNs) }

/-- The next query of the tick. -/
def collect (agent : AgentId) (σ : Kmod) (kvcalloc : Bool) : DiscoveryAgent :=
  { a with reading := a.reading.map fun r => r.collect σ agent.ipcNsInode kvcalloc }

/-- The module has moved on. -/
def observe (σ : Kmod) : DiscoveryAgent := { a with reading := a.reading.map fun r => r.observe σ }

/-- `_dispatch_bridge_requests`, with the state that has been published. -/
def dispatchBridgeRequests (agent : AgentId) (localState : AgnocastDaemonState) :
    TickOutput × DiscoveryAgent :=
  let remoteStates := a.remoteStates.map fun e => (e.1, e.2.1)
  let forced := decideDomainRuleBridges localState a.domainRules agent.domainId a.unforcedReasons
  ({ requests := fromKeys (decideBridges localState remoteStates ++ forced.1)
     serviceRequests := decideServiceBridges localState remoteStates
     log := forced.2.2 },
    { a with unforcedReasons := forced.2.1, reading := none })

end DiscoveryAgent

/-! ## The system -/

/-- The modules by host, the agents, and the snapshots that were published, oldest first. -/
structure GossipNet where
  kmods : Name → Kmod
  agents : AgentId → DiscoveryAgent
  sent : List SentSnapshot

inductive GossipInput
  /-- The module of a host answers a call. -/
  | kmod (hostUuid : Name) (i : Input)
  /-- An agent starts. -/
  | up (agent : AgentId) (domainRules : List RuleTuple)
  | startTick (agent : AgentId) (table : RegistryTable) (nowNs : Int) (kvmalloc : Bool)
  | collect (agent : AgentId) (kvcalloc : Bool)
  /-- All rows are read: the snapshot is published and the requests are dispatched. -/
  | finishTick (agent : AgentId)
  /-- A snapshot of the domain arrives. -/
  | deliver (agent : AgentId) (index : Nat) (nowNs : Int)

namespace GossipNet

variable (s : GossipNet)

def setAgent (agent : AgentId) (a : DiscoveryAgent) : GossipNet :=
  { s with agents := Function.update s.agents agent a }

def callKmod (hostUuid : Name) (i : Input) : GossipNet :=
  let σ := (step (s.kmods hostUuid) i).2
  { s with
    kmods := Function.update s.kmods hostUuid σ
    agents := fun agent =>
      if agent.hostUuid = hostUuid then (s.agents agent).observe σ else s.agents agent }

def startTick (agent : AgentId) (table : RegistryTable) (nowNs : Int) (kvmalloc : Bool) :
    GossipNet :=
  if (s.agents agent).reading.isSome then s
  else
    s.setAgent agent
      ((s.agents agent).startTick agent (s.kmods agent.hostUuid) table nowNs kvmalloc)

def collect (agent : AgentId) (kvcalloc : Bool) : GossipNet :=
  s.setAgent agent ((s.agents agent).collect agent (s.kmods agent.hostUuid) kvcalloc)

def finishTick (agent : AgentId) : Option TickOutput × GossipNet :=
  match (s.agents agent).reading with
  | none => (none, s)
  | some r =>
    if r.rest = [] then
      let dispatched :=
        (s.agents agent).dispatchBridgeRequests agent (buildState agent r.topics)
      (some dispatched.1,
        { s.setAgent agent dispatched.2 with sent := s.sent ++ [⟨agent, r⟩] })
    else (none, s)

def deliver (agent : AgentId) (index : Nat) (nowNs : Int) : GossipNet :=
  match s.sent[index]? with
  | none => s
  | some snapshot =>
    if snapshot.sender.domainId = agent.domainId ∧ (s.agents agent).reading = none then
      s.setAgent agent ((s.agents agent).onRemoteState agent snapshot.state nowNs)
    else s

end GossipNet

/-- One step. -/
def gossipStep (s : GossipNet) : GossipInput → Option TickOutput × GossipNet
  | .kmod hostUuid i => (none, s.callKmod hostUuid i)
  | .up agent domainRules => (none, s.setAgent agent (.up domainRules))
  | .startTick agent table nowNs kvmalloc => (none, s.startTick agent table nowNs kvmalloc)
  | .collect agent kvcalloc => (none, s.collect agent kvcalloc)
  | .finishTick agent => s.finishTick agent
  | .deliver agent index nowNs => (none, s.deliver agent index nowNs)

/-- The hosts and their agents. -/
def gossip : Transition.System GossipNet GossipInput (Option TickOutput) where
  init s := (∀ hostUuid, kmod.init (s.kmods hostUuid)) ∧ s.agents = (fun _ => .up []) ∧ s.sent = []
  step := gossipStep

abbrev GossipEvent := Transition.Event GossipNet GossipInput (Option TickOutput)

/-! ## What holds of an agent -/

namespace ReadTopics

@[simp] theorem start_startedNs (σ : Kmod) (ipcNs : IpcNs) (ownDomainId : Nat)
    (table : RegistryTable) (kvmalloc : Bool) (nowNs : Int) :
    (start σ ipcNs ownDomainId table kvmalloc nowNs).startedNs = nowNs := by
  unfold start
  split <;> rfl

@[simp] theorem start_seen (σ : Kmod) (ipcNs : IpcNs) (ownDomainId : Nat)
    (table : RegistryTable) (kvmalloc : Bool) (nowNs : Int) :
    (start σ ipcNs ownDomainId table kvmalloc nowNs).seen = [σ] := by
  unfold start
  split <;> rfl

@[simp] theorem collect_startedNs (r : ReadTopics) (σ : Kmod) (ipcNs : IpcNs) (kvcalloc : Bool) :
    (r.collect σ ipcNs kvcalloc).startedNs = r.startedNs := by
  unfold collect
  split
  · rfl
  · cases r.publishers <;> rfl

@[simp] theorem collect_seen (r : ReadTopics) (σ : Kmod) (ipcNs : IpcNs) (kvcalloc : Bool) :
    (r.collect σ ipcNs kvcalloc).seen = r.seen := by
  unfold collect
  split
  · rfl
  · cases r.publishers <;> rfl

end ReadTopics

/-- An agent, while the module of its host is in the state `σ`. -/
structure AgentOk (agent : AgentId) (σ : Kmod) (a : DiscoveryAgent) : Prop where
  /-- The reading is sound, and the module is as it was last seen. -/
  reading : ∀ r ∈ a.reading, ReadOk agent.ipcNsInode agent.domainId r ∧ σ ∈ r.seen
  /-- What is known of others had arrived lately when the tick began. -/
  lately : ∀ r ∈ a.reading, ∀ e ∈ a.remoteStates, r.startedNs - e.2.2 ≤ remoteStateStaleNs
  /-- It stands under its own key, and is of others. -/
  others : ∀ e ∈ a.remoteStates, e.1 = e.2.1.key ∧ e.1 ≠ agent.key

namespace AgentOk

variable {agent : AgentId} {σ σ' : Kmod} {a : DiscoveryAgent}

theorem up (agent : AgentId) (σ : Kmod) (domainRules : List RuleTuple) :
    AgentOk agent σ (.up domainRules) := ⟨nofun, nofun, nofun⟩

theorem startTick (h : AgentOk agent σ a) (hσ : Reachable σ) (table : RegistryTable)
    (nowNs : Int) (kvmalloc : Bool) :
    AgentOk agent σ (a.startTick agent σ table nowNs kvmalloc) := by
  refine ⟨?_, ?_, fun e he => h.others e (List.mem_of_mem_filter he)⟩
  · rintro r ⟨⟩
    refine ⟨.start hσ .., ?_⟩
    rw [ReadTopics.start_seen]
    exact List.mem_singleton_self σ
  · rintro r ⟨⟩ e he
    rw [ReadTopics.start_startedNs]
    -- what is older has been pruned
    obtain ⟨-, hlate⟩ := List.mem_filter.mp he
    simpa using hlate

theorem collect (h : AgentOk agent σ a) (kvcalloc : Bool) :
    AgentOk agent σ (a.collect agent σ kvcalloc) := by
  refine ⟨fun r hr => ?_, fun r hr e he => ?_, h.others⟩
  · obtain ⟨r, hr', rfl⟩ := Option.map_eq_some_iff.mp hr
    obtain ⟨hread, hseen⟩ := h.reading r hr'
    rw [ReadTopics.collect_seen]
    exact ⟨hread.collect hseen kvcalloc, hseen⟩
  · obtain ⟨r, hr', rfl⟩ := Option.map_eq_some_iff.mp hr
    rw [ReadTopics.collect_startedNs]
    exact h.lately r hr' e he

theorem observe (h : AgentOk agent σ a) (hσ' : Reachable σ') :
    AgentOk agent σ' (a.observe σ') := by
  refine ⟨fun r hr => ?_, fun r hr e he => ?_, h.others⟩
  · obtain ⟨r, hr', rfl⟩ := Option.map_eq_some_iff.mp hr
    exact ⟨(h.reading r hr').1.observe hσ', List.mem_cons_self⟩
  · obtain ⟨r, hr', rfl⟩ := Option.map_eq_some_iff.mp hr
    exact h.lately r hr' e he

/-- The tick is over. -/
theorem done (h : AgentOk agent σ a) (unforcedReasons : UnforcedReasons) :
    AgentOk agent σ { a with unforcedReasons := unforcedReasons, reading := none } :=
  ⟨nofun, nofun, h.others⟩

/-- A snapshot arrives between two ticks. -/
theorem onRemoteState (h : AgentOk agent σ a) (hidle : a.reading = none)
    (msg : AgnocastDaemonState) (nowNs : Int) :
    AgentOk agent σ (a.onRemoteState agent msg nowNs) := by
  unfold DiscoveryAgent.onRemoteState
  split
  · exact h
  · next hother =>
    refine ⟨fun r hr => ?_, fun r hr => ?_, fun e he => ?_⟩
    · rw [show _ = _ from hidle] at hr
      cases hr
    · rw [show _ = _ from hidle] at hr
      cases hr
    · rcases Dict.mem_set he with he | rfl
      · exact h.others e he
      · exact ⟨rfl, fun hkey => hother (Prod.mk.inj hkey)⟩

end AgentOk

/-- What holds of the hosts and their agents. -/
structure GossipOk (s : GossipNet) : Prop where
  kmods : ∀ hostUuid, Reachable (s.kmods hostUuid)
  agents : ∀ agent, AgentOk agent (s.kmods agent.hostUuid) (s.agents agent)
  /-- What was published had been read to its end. -/
  sent : ∀ snapshot ∈ s.sent, ReadOk snapshot.sender.ipcNsInode snapshot.sender.domainId
    snapshot.read ∧ snapshot.read.rest = []

namespace GossipOk

variable {s : GossipNet}

theorem setAgent (h : GossipOk s) {agent : AgentId} {a : DiscoveryAgent}
    (ha : AgentOk agent (s.kmods agent.hostUuid) a) : GossipOk (s.setAgent agent a) := by
  refine ⟨h.kmods, fun agent' => ?_, h.sent⟩
  show AgentOk agent' _ (Function.update s.agents agent a agent')
  by_cases heq : agent' = agent
  · rw [heq, Function.update_self]
    exact ha
  · rw [Function.update_of_ne heq]
    exact h.agents agent'

theorem callKmod (h : GossipOk s) (hostUuid : Name) (i : Input) :
    GossipOk (s.callKmod hostUuid i) := by
  have hreach : Reachable (step (s.kmods hostUuid) i).2 := (h.kmods hostUuid).step i
  unfold GossipNet.callKmod
  refine ⟨fun hostUuid' => ?_, fun agent => ?_, h.sent⟩
  · by_cases heq : hostUuid' = hostUuid
    · simp only [heq, Function.update_self]
      exact hreach
    · simp only [Function.update_of_ne heq]
      exact h.kmods hostUuid'
  · -- the agents of the host see the module move
    by_cases heq : agent.hostUuid = hostUuid
    · simp only [heq, Function.update_self]
      exact (h.agents agent).observe hreach
    · simp only [if_neg heq, Function.update_of_ne heq]
      exact h.agents agent

theorem finishTick (h : GossipOk s) (agent : AgentId) : GossipOk (s.finishTick agent).2 := by
  unfold GossipNet.finishTick
  cases hread : (s.agents agent).reading with
  | none => exact h
  | some r =>
    simp only
    split
    · next hdone =>
      have hset := h.setAgent ((h.agents agent).done (decideDomainRuleBridges
        (buildState agent r.topics) (s.agents agent).domainRules agent.domainId
        (s.agents agent).unforcedReasons).2.1)
      refine ⟨hset.kmods, hset.agents, fun snapshot hmem => ?_⟩
      rcases List.mem_append.mp hmem with hmem | hmem
      · exact h.sent snapshot hmem
      · rw [List.mem_singleton.mp hmem]
        exact ⟨((h.agents agent).reading r hread).1, hdone⟩
    · exact h

theorem deliver (h : GossipOk s) (agent : AgentId) (index : Nat) (nowNs : Int) :
    GossipOk (s.deliver agent index nowNs) := by
  unfold GossipNet.deliver
  split
  · exact h
  · split
    · next hidle => exact h.setAgent ((h.agents agent).onRemoteState hidle.2 _ nowNs)
    · exact h

/-- **One step** of anyone. -/
theorem step (h : GossipOk s) (i : GossipInput) : GossipOk (gossipStep s i).2 := by
  cases i with
  | kmod hostUuid i => exact h.callKmod hostUuid i
  | up agent domainRules => exact h.setAgent (.up agent _ domainRules)
  | startTick agent table nowNs kvmalloc =>
    show GossipOk (s.startTick agent table nowNs kvmalloc)
    unfold GossipNet.startTick
    split
    · exact h
    · exact h.setAgent ((h.agents agent).startTick (h.kmods agent.hostUuid) table nowNs kvmalloc)
  | collect agent kvcalloc => exact h.setAgent ((h.agents agent).collect kvcalloc)
  | finishTick agent => exact h.finishTick agent
  | deliver agent index nowNs => exact h.deliver agent index nowNs

end GossipOk

/-- In every reachable state. -/
theorem gossipOk_of_reachable {s : GossipNet} (h : Transition.Reachable gossip s) : GossipOk s := by
  refine h.invariant (P := GossipOk) ?_ fun s i _ hs => hs.step i
  rintro s ⟨hkmods, hagents, hsent⟩
  refine ⟨fun hostUuid => ⟨[], .init (hkmods hostUuid)⟩, fun agent => ?_, fun snapshot hmem => ?_⟩
  · rw [hagents]
    exact .up agent _ []
  · rw [hsent] at hmem
    cases hmem

/-! ## What was published -/

/-- **Published snapshots tell what was there**: in every reachable state, with the modules
moving between any two queries of any agent, each snapshot lists every topic of its domain
once, each endpoint in it was in its cell at some moment of the tick, and an endpoint that
was in its cell all the time is in it. -/
theorem run_snapshots_told {s : GossipNet} (h : Transition.Reachable gossip s)
    {snapshot : SentSnapshot} (hsent : snapshot ∈ s.sent) :
    SnapshotOf snapshot.sender.ipcNsInode snapshot.sender.domainId snapshot.read := by
  obtain ⟨hread, hdone⟩ := (gossipOk_of_reachable h).sent snapshot hsent
  exact hread.snapshot hdone

/-- Two hosts whose modules have just been loaded. -/
def freshNet : GossipNet := ⟨fun _ => .loaded (poolsOf 2), fun _ => .up [], []⟩

theorem freshNet_init : gossip.init freshNet :=
  ⟨fun _ => moduleInit_poolsOf (by decide) (by decide), rfl, rfl⟩

/-- A subscriber of `/t` on host `h`, and a tick of its agent. -/
def subscriberTick : List GossipInput :=
  [.kmod ['h'] ⟨.smooth, .addProcess 2 7 0 0⟩,
    .kmod ['h'] ⟨.smooth,
      .addSubscriber ['/', 't'] 7 ⟨['n'], 2, 1, false, true, false, false, false⟩ 5⟩,
    .startTick ⟨['h'], 7, 0⟩ [] 0 true, .collect ⟨['h'], 7, 0⟩ true, .collect ⟨['h'], 7, 0⟩ true,
    .finishTick ⟨['h'], 7, 0⟩]

theorem snapshot_told_of_subscriber :
    let s := (gossip.exec freshNet [] subscriberTick).2
    ∃ snapshot ∈ s.sent,
      snapshot.state = ⟨['h'], 7, [⟨['/', 't'], [], 0, [], [⟨1, false, true, false⟩]⟩]⟩ ∧
      SnapshotOf snapshot.sender.ipcNsInode snapshot.sender.domainId snapshot.read :=
  ⟨(gossip.exec freshNet [] subscriberTick).2.sent.get ⟨0, by decide⟩, List.get_mem .., by decide,
    run_snapshots_told (.exec freshNet_init _) (List.get_mem ..)⟩

end Agnocast
