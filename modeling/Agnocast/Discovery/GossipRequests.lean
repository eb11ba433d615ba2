import Agnocast.Bridge.BridgeMatching
import Agnocast.Discovery.Gossip

/-!
# Discovery — why an agent asks for a bridge

What an agent asks for at the end of a tick comes from what it has read of its own module and
from what has arrived of others, or from a domain rule. Followed back through the snapshots,
each request has its endpoints in the modules.

* `HeardOf`                   — what is known of another agent has arrived.
* `gossip_forced_agree`       — two sources of one request agree on it.
* `run_requests_justified`    — no request without its endpoints.
* `run_requests_made`         — endpoints that stay lead to the request.
-/

namespace Agnocast

/-! ## What has arrived -/

/-- The snapshot, which is known since `at`, has arrived at the agent. -/
def HeardOf (tr : List GossipEvent) (agent : AgentId) (msg : AgnocastDaemonState) (atNs : Int)
    (snapshot : SentSnapshot) : Prop :=
  ∃ ev ∈ tr, ∃ index, ev.input = .deliver agent index atNs ∧
    ev.pre.sent[index]? = some snapshot ∧ snapshot.sender.domainId = agent.domainId ∧
    snapshot.state = msg

theorem HeardOf.cons {tr : List GossipEvent} {agent : AgentId} {msg : AgnocastDaemonState}
    {atNs : Int} {snapshot : SentSnapshot} (h : HeardOf tr agent msg atNs snapshot)
    (ev : GossipEvent) : HeardOf (ev :: tr) agent msg atNs snapshot := by
  obtain ⟨ev', hev', h⟩ := h
  exact ⟨ev', List.mem_cons_of_mem _ hev', h⟩

private theorem remoteStates_setAgent {s : GossipNet} {agent agent' : AgentId} {a : DiscoveryAgent}
    {P : (Name × Nat) × AgnocastDaemonState × Int → Prop}
    (hold : ∀ e ∈ (s.agents agent').remoteStates, P e)
    (hnew : agent' = agent → ∀ e ∈ a.remoteStates, P e) :
    ∀ e ∈ ((s.setAgent agent a).agents agent').remoteStates, P e := by
  intro e he
  have he' : e ∈ (Function.update s.agents agent a agent').remoteStates := he
  by_cases heq : agent' = agent
  · rw [heq, Function.update_self] at he'
    exact hnew heq e he'
  · rw [Function.update_of_ne heq] at he'
    exact hold e he'

/-- What one step lets an agent know: what it knew, or what has just arrived. -/
theorem remoteStates_step (s : GossipNet) (i : GossipInput) (agent : AgentId) :
    ∀ e ∈ ((gossipStep s i).2.agents agent).remoteStates, e ∈ (s.agents agent).remoteStates ∨
      ∃ index snapshot, i = .deliver agent index e.2.2 ∧ s.sent[index]? = some snapshot ∧
        snapshot.sender.domainId = agent.domainId ∧ snapshot.state = e.2.1 := by
  cases i with
  | kmod hostUuid i =>
    intro e he
    have he' : e ∈ (if agent.hostUuid = hostUuid then
        (s.agents agent).observe (step (s.kmods hostUuid) i).2
      else s.agents agent).remoteStates := he
    split at he' <;> exact .inl he'
  | up agent' domainRules => exact remoteStates_setAgent (fun e he => .inl he) fun _ => nofun
  | startTick agent' table nowNs kvmalloc =>
    show ∀ e ∈ ((s.startTick agent' table nowNs kvmalloc).agents agent).remoteStates, _
    unfold GossipNet.startTick
    split
    · exact fun e he => .inl he
    · refine remoteStates_setAgent (fun e he => .inl he) ?_
      rintro rfl e he
      exact .inl (List.mem_of_mem_filter he)
  | collect agent' kvcalloc =>
    refine remoteStates_setAgent (fun e he => .inl he) ?_
    rintro rfl e he
    exact .inl he
  | finishTick agent' =>
    show ∀ e ∈ ((s.finishTick agent').2.agents agent).remoteStates, _
    unfold GossipNet.finishTick
    split
    · exact fun e he => .inl he
    split
    · refine remoteStates_setAgent (fun e he => .inl he) ?_
      rintro rfl e he
      exact .inl he
    · exact fun e he => .inl he
  | deliver agent' index nowNs =>
    show ∀ e ∈ ((s.deliver agent' index nowNs).agents agent).remoteStates, _
    unfold GossipNet.deliver
    split
    · exact fun e he => .inl he
    next snapshot hsnapshot =>
    split
    · next hdomain =>
      refine remoteStates_setAgent (fun e he => .inl he) ?_
      rintro rfl e he
      unfold DiscoveryAgent.onRemoteState at he
      split at he
      · exact .inl he
      · rcases Dict.mem_set he with he | rfl
        · exact .inl he
        · exact .inr ⟨index, snapshot, rfl, hsnapshot, hdomain.1, rfl⟩
    · exact fun e he => .inl he

/-- **What is known of others** has arrived, as it was published. -/
theorem run_heard {tr : List GossipEvent} {s : GossipNet}
    (h : Transition.Run gossip Transition.anyStep tr s) (agent : AgentId) :
    ∀ e ∈ (s.agents agent).remoteStates, ∃ snapshot, HeardOf tr agent e.2.1 e.2.2 snapshot := by
  refine h.history (P := fun tr s => ∀ e ∈ (s.agents agent).remoteStates,
    ∃ snapshot, HeardOf tr agent e.2.1 e.2.2 snapshot) ?_ fun tr s i _ ih _ e he => ?_
  · rintro s ⟨-, hagents, -⟩ e he
    rw [hagents] at he
    cases he
  · rcases remoteStates_step s i agent e he with he | ⟨index, snapshot, rfl, hsent, hdomain, hstate⟩
    · obtain ⟨snapshot, hheard⟩ := ih e he
      exact ⟨snapshot, hheard.cons _⟩
    · exact ⟨snapshot, _, List.mem_cons_self, index, rfl, hsent, hdomain, hstate⟩

/-- What has arrived is a snapshot that tells what was there. -/
theorem HeardOf.told {tr : List GossipEvent} {s : GossipNet}
    (h : Transition.Run gossip Transition.anyStep tr s) {agent : AgentId}
    {msg : AgnocastDaemonState} {atNs : Int} {snapshot : SentSnapshot}
    (hheard : HeardOf tr agent msg atNs snapshot) :
    SnapshotOf snapshot.sender.ipcNsInode snapshot.sender.domainId snapshot.read := by
  obtain ⟨ev, hev, index, -, hsent, -⟩ := hheard
  obtain ⟨later, before, rfl⟩ := List.append_of_mem hev
  obtain ⟨hread, hdone⟩ := (gossipOk_of_reachable h.event.1.reachable).sent snapshot
    (List.mem_of_getElem? hsent)
  exact hread.snapshot hdone

/-! ## What a snapshot tells the decisions -/

/-- A publisher, as the decisions see it. -/
def publisherEndpoint (p : PublisherInfo) : AgnocastEndpoint :=
  ⟨p.qosDepth, p.qosIsTransientLocal, false, p.isBridge⟩

/-- A subscriber, as the decisions see it. -/
def subscriberEndpoint (s : SubscriberInfo) : AgnocastEndpoint :=
  ⟨s.qosDepth, s.qosIsTransientLocal, s.qosIsReliable, s.isBridge⟩

namespace SnapshotOf

variable {ipcNs : IpcNs} {domainId : Nat} {r : ReadTopics} {agent : AgentId}

theorem nodup_buildState (h : SnapshotOf ipcNs domainId r) (agent : AgentId) :
    ((buildState agent r.topics).topics.map AgnocastTopic.key).Nodup := by
  unfold buildState
  rw [List.map_map]
  exact h.nodup

theorem publisher_of_mem (h : SnapshotOf ipcNs domainId r) {t : AgnocastTopic}
    (ht : t ∈ (buildState agent r.topics).topics) {e : AgnocastEndpoint} (he : e ∈ t.publishers) :
    t.domainId = domainId ∧ ∃ σ ∈ r.seen, ∃ p ∈ publishersIn σ ⟨t.topicName, ipcNs, domainId⟩,
      publisherEndpoint p = e := by
  obtain ⟨l, hl, rfl⟩ := List.mem_map.mp ht
  obtain ⟨e, hl', rfl⟩ := List.mem_map.mp he
  obtain ⟨σ, hσ, p, hp, rfl⟩ := h.publishers l hl e hl'
  have hdomain := (h.own l hl).1
  exact ⟨hdomain, σ, hσ, p, hdomain ▸ hp, rfl⟩

theorem subscriber_of_mem (h : SnapshotOf ipcNs domainId r) {t : AgnocastTopic}
    (ht : t ∈ (buildState agent r.topics).topics) {e : AgnocastEndpoint} (he : e ∈ t.subscribers) :
    t.domainId = domainId ∧ ∃ σ ∈ r.seen, ∃ s ∈ subscribersIn σ ⟨t.topicName, ipcNs, domainId⟩,
      subscriberEndpoint s = e := by
  obtain ⟨l, hl, rfl⟩ := List.mem_map.mp ht
  obtain ⟨e, hl', rfl⟩ := List.mem_map.mp he
  obtain ⟨σ, hσ, s, hs, rfl⟩ := h.subscribers l hl e hl'
  have hdomain := (h.own l hl).1
  exact ⟨hdomain, σ, hσ, s, hdomain ▸ hs, rfl⟩

end SnapshotOf

theorem mem_notBridges {endpoints : List AgnocastEndpoint} {e : AgnocastEndpoint} :
    e ∈ notBridges endpoints ↔ e ∈ endpoints ∧ e.isBridge = false := by
  unfold notBridges
  simp

/-! ## Two sources of one request -/

variable {x : AgnocastDaemonState} {remoteStates : RemoteStates}

/-- A request comes from a topic of a remote snapshot. -/
theorem exists_of_mem_decideBridges {request : BridgeRequest}
    (h : request ∈ decideBridges x remoteStates) :
    ∃ e ∈ remoteStates, e.1 ≠ x.key ∧ ∃ t ∈ e.2.topics, ∃ k,
      (k, request) ∈ bridgesFor x remoteStates t := by
  unfold decideBridges at h
  rw [bridgeRequests_eq] at h
  obtain ⟨⟨k, request⟩, hitem, rfl⟩ := List.mem_map.mp h
  obtain ⟨e, he, hne, t, ht, hmem⟩ := mem_visits.mp (Dict.mem_of_mem_setdefaults hitem)
  exact ⟨e, he, hne, t, ht, k, hmem⟩

/-- What is forced for a cell: the topic is there with its type and with a publisher that is
no bridge. -/
theorem forcing_eq_ok {c : RuleCell} {request : BridgeRequest} :
    forcing x c = .ok request ↔ ∃ l, Dict.get (localByTopic x) c = some l ∧ l.typeName ≠ [] ∧
      ∃ pub rest, notBridges l.publishers = pub :: rest ∧
        request = ⟨c.1, l.typeName, directionAgnocastToRos2, pub.qosDepth,
          pub.qosIsTransientLocal, pub.qosIsReliable, c.2⟩ := by
  unfold forcing
  cases Dict.get (localByTopic x) c with
  | none => simp
  | some l =>
    simp only [Option.some.injEq, exists_eq_left']
    split
    · next htype => simp [htype]
    · next htype =>
      split
      · next hpubs => simp [hpubs]
      · next pub rest hpubs =>
        rw [and_iff_right htype]
        simp [hpubs, eq_comm]

/-- **What the gossip asks for and what a rule forces agree**: under one key they are one
request, so that the dictionary which removes doubles leaves one a key. -/
theorem gossip_forced_agree (hnd : (x.topics.map AgnocastTopic.key).Nodup) {c : RuleCell}
    {request request' : BridgeRequest} (h : request ∈ decideBridges x remoteStates)
    (h' : forcing x c = .ok request') (hkey : request.key = request'.key) :
    request = request' := by
  obtain ⟨e, -, -, t, -, k, hitem⟩ := exists_of_mem_decideBridges h
  obtain ⟨-, l, hl, hlk, type, -, htype, direction, locals, remotes, hhalf, -, endpoint, rest,
    hlocals, heq⟩ := (mem_bridgesFor hnd).mp hitem
  obtain ⟨-, rfl⟩ := Prod.mk.inj heq
  obtain ⟨l', hget, htype', pub, rest', hpubs, rfl⟩ := forcing_eq_ok.mp h'
  obtain ⟨hname, hrest⟩ := Prod.mk.inj hkey
  obtain ⟨hdomain, hdirection⟩ := Prod.mk.inj hrest
  -- the topic of the snapshot is the topic of the cell
  obtain ⟨hl', hlk'⟩ := (get_localByTopic hnd).mp hget
  have hc : c = l.key := Prod.ext hname.symm hdomain.symm
  obtain rfl : l' = l := List.inj_on_of_nodup_map hnd hl' hl (hlk'.trans hc)
  -- its type is the one that the snapshot itself has
  have htypes : Dict.get (resolveTypes x remoteStates) l'.key = some l'.typeName := by
    rw [get_resolveTypes hnd, Dict.get_append]
    have hnd' : ((typeItems x.topics).map Prod.fst).Nodup := by
      unfold typeItems
      rw [List.map_map]
      exact (List.filter_sublist.map AgnocastTopic.key).nodup hnd
    rw [(Dict.get_eq_some_iff hnd').mpr (mem_typeItems.mpr ⟨l', hl', rfl, rfl, htype'⟩),
      Option.some_or]
  rw [← hlk, htypes] at htype
  obtain rfl := Option.some.inj htype
  cases hhalf with
  | toRos2 =>
    obtain ⟨rfl, -⟩ := List.cons.inj (hlocals.symm.trans hpubs)
    rw [hc]
    rfl
  | toAgnocast => cases hdirection

theorem mem_fromKeys {requests : List BridgeRequest} {request : BridgeRequest} :
    request ∈ fromKeys requests ↔ request ∈ requests := by
  unfold fromKeys
  rw [List.mem_map]
  constructor
  · rintro ⟨item, hitem, rfl⟩
    obtain ⟨request, hrequest, rfl⟩ := List.mem_map.mp (Dict.mem_of_mem_setdefaults hitem)
    exact hrequest
  · intro h
    obtain ⟨u, hu⟩ := Dict.exists_mem_setdefaults.mpr
      ⟨(), List.mem_map_of_mem (f := fun request : BridgeRequest => (request, ())) h⟩
    exact ⟨(request, u), hu, rfl⟩

theorem nodup_fromKeys (requests : List BridgeRequest) : (fromKeys requests).Nodup :=
  Dict.nodup_keys_setdefaults List.nodup_nil

/-! ## No request without its endpoints -/

/-- A cell had this publisher, which is no bridge. -/
def HadPublisher (seen : List Kmod) (c : Cell) (e : AgnocastEndpoint) : Prop :=
  e.isBridge = false ∧ ∃ σ ∈ seen, ∃ p ∈ publishersIn σ c, publisherEndpoint p = e

/-- A cell had this subscriber, which is no bridge. -/
def HadSubscriber (seen : List Kmod) (c : Cell) (e : AgnocastEndpoint) : Prop :=
  e.isBridge = false ∧ ∃ σ ∈ seen, ∃ s ∈ subscribersIn σ c, subscriberEndpoint s = e

/-- The endpoint that a bridge of the direction needs in the namespace that asks for it. -/
def LocalSide (direction : Nat) (seen : List Kmod) (c : Cell) (e : AgnocastEndpoint) : Prop :=
  direction = directionAgnocastToRos2 ∧ HadPublisher seen c e ∨
    direction = directionRos2ToAgnocast ∧ HadSubscriber seen c e

/-- The endpoint that it needs in another namespace. -/
def RemoteSide (direction : Nat) (seen : List Kmod) (c : Cell) (e : AgnocastEndpoint) : Prop :=
  direction = directionAgnocastToRos2 ∧ HadSubscriber seen c e ∨
    direction = directionRos2ToAgnocast ∧ HadPublisher seen c e

/-- The request has the QoS of the endpoint. -/
def BridgeRequest.TakesQosOf (request : BridgeRequest) (e : AgnocastEndpoint) : Prop :=
  request.qosDepth = e.qosDepth ∧ request.qosIsTransientLocal = e.qosIsTransientLocal ∧
    request.qosIsReliable = e.qosIsReliable

/-- Another agent has published the snapshot, and it had arrived lately when the tick began. -/
def HeardLately (tr : List GossipEvent) (agent : AgentId) (r : ReadTopics)
    (snapshot : SentSnapshot) : Prop :=
  ∃ msg atNs, HeardOf tr agent msg atNs snapshot ∧ r.startedNs - atNs ≤ remoteStateStaleNs ∧
    snapshot.sender.key ≠ agent.key ∧ snapshot.sender.domainId = agent.domainId

/-- Why an agent asks for a bridge. -/
structure Justified (tr : List GossipEvent) (agent : AgentId) (domainRules : List RuleTuple)
    (r : ReadTopics) (request : BridgeRequest) : Prop where
  domain : request.domainId = agent.domainId
  type : request.typeName ≠ []
  /-- The endpoint was in its own module during the tick. -/
  here : ∃ e, LocalSide request.direction r.seen
    ⟨request.topicName, agent.ipcNsInode, agent.domainId⟩ e ∧ request.TakesQosOf e
  /-- The opposite one was in another module when its agent told so, or a rule leads from
  the topic. -/
  why : (∃ snapshot, HeardLately tr agent r snapshot ∧ ∃ e, RemoteSide request.direction
      snapshot.read.seen ⟨request.topicName, snapshot.sender.ipcNsInode, agent.domainId⟩ e) ∨
    request.direction = directionAgnocastToRos2 ∧ ∃ rule ∈ domainRules,
      rule.LeadsFrom agent.domainId ∧ rule.fromTopic = request.topicName

/-- Why an agent leases a service. -/
structure JustifiedService (tr : List GossipEvent) (agent : AgentId) (r : ReadTopics)
    (request : ServiceBridgeRequest) : Prop where
  domain : request.domainId = agent.domainId
  here : ∃ e, HadSubscriber r.seen
    ⟨srvRequestPrefix ++ request.serviceName, agent.ipcNsInode, agent.domainId⟩ e
  why : ∃ snapshot, HeardLately tr agent r snapshot ∧ ∃ e, HadPublisher snapshot.read.seen
    ⟨srvRequestPrefix ++ request.serviceName, snapshot.sender.ipcNsInode, agent.domainId⟩ e

/-- Only the end of a tick asks for anything. -/
theorem output_cases {s : GossipNet} {i : GossipInput} {out : TickOutput}
    (h : (gossipStep s i).1 = some out) : ∃ agent r, i = .finishTick agent ∧
      (s.agents agent).reading = some r ∧ r.rest = [] ∧
      out = ((s.agents agent).dispatchBridgeRequests agent (buildState agent r.topics)).1 := by
  cases i with
  | finishTick agent =>
    have h' : (s.finishTick agent).1 = some out := h
    unfold GossipNet.finishTick at h'
    split at h'
    · cases h'
    next r hread =>
    split at h'
    · next hdone => exact ⟨agent, r, rfl, hread, hdone, (Option.some.inj h').symm⟩
    · cases h'
  | _ => cases h

section Tick

variable {tr : List GossipEvent} {s : GossipNet} {agent : AgentId} {r : ReadTopics}

/-- What an agent knows while it decides: snapshots of others that arrived lately. -/
private theorem known (h : Transition.Run gossip Transition.anyStep tr s)
    (hread : (s.agents agent).reading = some r) {k : Name × Nat} {msg : AgnocastDaemonState}
    (hmem : (k, msg) ∈ (s.agents agent).remoteStates.map fun e => (e.1, e.2.1)) :
    ∃ snapshot, HeardLately tr agent r snapshot ∧ snapshot.state = msg ∧ k = snapshot.sender.key ∧
      SnapshotOf snapshot.sender.ipcNsInode agent.domainId snapshot.read := by
  obtain ⟨e, he, heq⟩ := List.mem_map.mp hmem
  obtain ⟨rfl, rfl⟩ := Prod.mk.inj heq
  obtain ⟨snapshot, hheard⟩ := run_heard h agent e he
  have hok := (gossipOk_of_reachable h.reachable).agents agent
  obtain ⟨hkey, hother⟩ := hok.others e he
  have hheard' := hheard
  obtain ⟨-, -, -, -, -, hdomain, hstate⟩ := hheard'
  have hsender : e.1 = snapshot.sender.key := by
    rw [hkey, ← hstate]
    rfl
  have htold := HeardOf.told h hheard
  rw [hdomain] at htold
  exact ⟨snapshot, ⟨e.2.1, e.2.2, hheard, hok.lately r hread e he, hsender ▸ hother, hdomain⟩,
    hstate, hsender, htold⟩

/-- A request of the gossip. -/
private theorem justified_of_gossip (h : Transition.Run gossip Transition.anyStep tr s)
    (hread : (s.agents agent).reading = some r)
    (htold : SnapshotOf agent.ipcNsInode agent.domainId r) {request : BridgeRequest}
    (hrequest : request ∈ decideBridges (buildState agent r.topics)
      ((s.agents agent).remoteStates.map fun e => (e.1, e.2.1))) (rules : List RuleTuple) :
    Justified tr agent rules r request := by
  obtain ⟨⟨k, msg⟩, he, -, t, ht, k', hitem⟩ := exists_of_mem_decideBridges hrequest
  obtain ⟨snapshot, hlately, rfl, -, hremote⟩ := known h hread he
  obtain ⟨-, l, hl, hlk, type, htype, -, direction, locals, remotes, hhalf, hremotes, endpoint,
    rest, hlocals, heq⟩ := (mem_bridgesFor (htold.nodup_buildState agent)).mp hitem
  obtain ⟨-, rfl⟩ := Prod.mk.inj heq
  have hname : t.topicName = l.topicName := (congrArg Prod.fst hlk).symm
  obtain ⟨hmem, hnot⟩ :=
    mem_notBridges.mp (hlocals ▸ List.mem_cons_self (a := endpoint) (l := rest))
  obtain ⟨e, he, hebridge⟩ := notBridges_ne_nil_iff.mp hremotes
  cases hhalf with
  | toRos2 =>
    obtain ⟨hdomain, σ, hσ, p, hp, hpe⟩ := htold.publisher_of_mem hl hmem
    obtain ⟨-, σ', hσ', s', hs', hse⟩ := hremote.subscriber_of_mem ht he
    rw [hname] at hs'
    exact ⟨hdomain, htype, ⟨endpoint, .inl ⟨rfl, hnot, σ, hσ, p, hp, hpe⟩, rfl, rfl, rfl⟩,
      .inl ⟨snapshot, hlately, e, .inl ⟨rfl, hebridge, σ', hσ', s', hs', hse⟩⟩⟩
  | toAgnocast =>
    obtain ⟨hdomain, σ, hσ, s', hs', hse⟩ := htold.subscriber_of_mem hl hmem
    obtain ⟨-, σ', hσ', p, hp, hpe⟩ := hremote.publisher_of_mem ht he
    rw [hname] at hp
    exact ⟨hdomain, htype, ⟨endpoint, .inr ⟨rfl, hnot, σ, hσ, s', hs', hse⟩, rfl, rfl, rfl⟩,
      .inl ⟨snapshot, hlately, e, .inr ⟨rfl, hebridge, σ', hσ', p, hp, hpe⟩⟩⟩

/-- A request of a rule. -/
private theorem justified_of_rule (htold : SnapshotOf agent.ipcNsInode agent.domainId r)
    {rules : List RuleTuple} {c : RuleCell} (hwatched : Watched rules agent.domainId c)
    {request : BridgeRequest} (hforcing : forcing (buildState agent r.topics) c = .ok request) :
    Justified tr agent rules r request := by
  obtain ⟨l, hget, htype, pub, rest, hpubs, rfl⟩ := forcing_eq_ok.mp hforcing
  obtain ⟨hl, rfl⟩ := (get_localByTopic (htold.nodup_buildState agent)).mp hget
  obtain ⟨hmem, hnot⟩ := mem_notBridges.mp (hpubs ▸ List.mem_cons_self (a := pub) (l := rest))
  obtain ⟨hdomain, σ, hσ, p, hp, hpe⟩ := htold.publisher_of_mem hl hmem
  obtain ⟨rule, hrule, hleads, hcell⟩ := hwatched
  exact ⟨hdomain, htype, ⟨pub, .inl ⟨rfl, hnot, σ, hσ, p, hp, hpe⟩, rfl, rfl, rfl⟩,
    .inr ⟨rfl, rule, hrule, hleads, congrArg Prod.fst hcell⟩⟩

private theorem justified_service (h : Transition.Run gossip Transition.anyStep tr s)
    (hread : (s.agents agent).reading = some r)
    (htold : SnapshotOf agent.ipcNsInode agent.domainId r) {request : ServiceBridgeRequest}
    (hrequest : request ∈ decideServiceBridges (buildState agent r.topics)
      ((s.agents agent).remoteStates.map fun e => (e.1, e.2.1))) :
    JustifiedService tr agent r request := by
  unfold decideServiceBridges at hrequest
  rw [serviceBridgeRequests_eq] at hrequest
  obtain ⟨⟨k, request⟩, hitem, rfl⟩ := List.mem_map.mp hrequest
  obtain ⟨⟨k', msg⟩, he, -, t, ht, hmem⟩ := mem_visits.mp (Dict.mem_of_mem_setdefaults hitem)
  obtain ⟨snapshot, hlately, rfl, -, hremote⟩ := known h hread he
  obtain ⟨name, domainId, hkey, -, ⟨l, hl, hlk, e, hle, hebridge⟩, ⟨e', he', hbridge'⟩, heq⟩ :=
    (mem_serviceBridgesFor (htold.nodup_buildState agent)).mp hmem
  obtain ⟨-, rfl⟩ := Prod.mk.inj heq
  have hname : l.topicName = srvRequestPrefix ++ name := congrArg Prod.fst (hlk.trans hkey)
  have hname' : t.topicName = srvRequestPrefix ++ name := congrArg Prod.fst hkey
  obtain ⟨hdomain, σ, hσ, s', hs', hse⟩ := htold.subscriber_of_mem hl hle
  obtain ⟨-, σ', hσ', p, hp, hpe⟩ := hremote.publisher_of_mem ht he'
  have hdomainId : domainId = agent.domainId :=
    (congrArg Prod.snd (hlk.trans hkey)).symm.trans hdomain
  exact ⟨hdomainId, ⟨e, hebridge, σ, hσ, s', hname ▸ hs', hse⟩,
    snapshot, hlately, e', hbridge', σ', hσ', p, hname' ▸ hp, hpe⟩

end Tick

/-- **No request without its endpoints**: whatever the modules and the agents do, and however
the snapshots arrive, an agent asks at most once in a tick for the bridge of a topic in a
direction, only in its own domain, and only with a reason. -/
theorem run_requests_justified {tr : List GossipEvent} {s : GossipNet}
    (h : Transition.Run gossip Transition.anyStep tr s) {later before : List GossipEvent}
    {ev : GossipEvent} (htr : tr = later ++ ev :: before) {out : TickOutput}
    (hout : ev.output = some out) : ∃ agent r, ev.input = .finishTick agent ∧
      (ev.pre.agents agent).reading = some r ∧ (out.requests.map BridgeRequest.key).Nodup ∧
      (∀ request ∈ out.requests,
        Justified before agent (ev.pre.agents agent).domainRules r request) ∧
      ∀ request ∈ out.serviceRequests, JustifiedService before agent r request := by
  subst htr
  obtain ⟨hrun, -, houtput, -⟩ := h.event
  rw [houtput] at hout
  obtain ⟨agent, r, hinput, hread, hdone, rfl⟩ := output_cases hout
  have htold := (((gossipOk_of_reachable hrun.reachable).agents agent).reading r hread).1.snapshot
    hdone
  have houtcome := decideDomainRuleBridges_outcome (buildState agent r.topics)
    (ev.pre.agents agent).domainRules agent.domainId (ev.pre.agents agent).unforcedReasons
  refine ⟨agent, r, hinput, hread, ?_, fun request hrequest => ?_,
    fun request hrequest => justified_service hrun hread htold hrequest⟩
  · -- one key is one request, wherever it comes from
    refine (List.nodup_map_iff_inj_on (nodup_fromKeys _)).mpr ?_
    have hnd := htold.nodup_buildState agent
    intro request hrequest request' hrequest' hkey
    rcases List.mem_append.mp (mem_fromKeys.mp hrequest) with hg | hf <;>
      rcases List.mem_append.mp (mem_fromKeys.mp hrequest') with hg' | hf'
    · exact List.inj_on_of_nodup_map (nodup_decideBridges hnd) hg hg' hkey
    · obtain ⟨c, -, hok⟩ := (houtcome.requests request').mp hf'
      exact gossip_forced_agree hnd hg hok hkey
    · obtain ⟨c, -, hok⟩ := (houtcome.requests request).mp hf
      exact (gossip_forced_agree hnd hg' hok hkey.symm).symm
    · exact List.inj_on_of_nodup_map houtcome.nodup hf hf' hkey
  · rcases List.mem_append.mp (mem_fromKeys.mp hrequest) with hg | hf
    · exact justified_of_gossip hrun hread htold hg _
    · obtain ⟨c, hwatched, hok⟩ := (houtcome.requests request).mp hf
      exact justified_of_rule htold hwatched hok

/-- A publisher on host `g`, whose agent has heard of the subscriber on host `h`. -/
def publisherTick : List GossipInput :=
  subscriberTick ++ [.kmod ['g'] ⟨.smooth, .addProcess 3 8 0 0⟩,
    .kmod ['g'] ⟨.smooth, .addPublisher ['/', 't'] 8 ⟨['m'], 3, 4, false, false⟩⟩,
    .deliver ⟨['g'], 8, 0⟩ 0 5,
    .startTick ⟨['g'], 8, 0⟩ [((['/', 't'], rolePub, ['m']), ⟨3, ['T']⟩)] 9 true,
    .collect ⟨['g'], 8, 0⟩ true, .collect ⟨['g'], 8, 0⟩ true, .finishTick ⟨['g'], 8, 0⟩]

/-- The end of the tick. -/
private def publisherTickEnd : GossipEvent :=
  (gossip.exec freshNet [] publisherTick).1.head (by decide)

private theorem publisherTick_run : Transition.Run gossip Transition.anyStep
    (gossip.exec freshNet [] publisherTick).1 (gossip.exec freshNet [] publisherTick).2 :=
  (Transition.Run.init freshNet_init).exec (Transition.System.guarded_anyStep _ _ _)

private theorem publisherTick_eq : (gossip.exec freshNet [] publisherTick).1 =
    [] ++ publisherTickEnd :: (gossip.exec freshNet [] publisherTick).1.tail :=
  (List.cons_head_tail _).symm

private theorem publisherTickEnd_output : publisherTickEnd.output = some
    ⟨[⟨['/', 't'], ['T'], directionAgnocastToRos2, 4, false, false, 0⟩], [], []⟩ := by decide

theorem request_justified_across_hosts :
    let r := gossip.exec freshNet [] publisherTick
    ∃ later ev before out, r.1 = later ++ ev :: before ∧ ev.output = some out ∧
      out.requests = [⟨['/', 't'], ['T'], directionAgnocastToRos2, 4, false, false, 0⟩] ∧
      ∃ agent read, ev.input = .finishTick agent ∧ (ev.pre.agents agent).reading = some read ∧
        (out.requests.map BridgeRequest.key).Nodup ∧
        (∀ request ∈ out.requests,
          Justified before agent (ev.pre.agents agent).domainRules read request) ∧
        ∀ request ∈ out.serviceRequests, JustifiedService before agent read request :=
  ⟨_, _, _, _, publisherTick_eq, publisherTickEnd_output, rfl,
    run_requests_justified publisherTick_run publisherTick_eq publisherTickEnd_output⟩

/-! ## Endpoints that stay lead to the request -/

/-- A cell had the publisher, which is no bridge, all the time. -/
def KeptPublisher (seen : List Kmod) (c : Cell) : Prop :=
  ∃ p, p.isBridge = false ∧ ∀ σ ∈ seen, ∃ p' ∈ publishersIn σ c, SamePublisher p p'

/-- A cell had the subscriber, which is no bridge, all the time. -/
def KeptSubscriber (seen : List Kmod) (c : Cell) : Prop :=
  ∃ s, s.isBridge = false ∧ ∀ σ ∈ seen, ∃ s' ∈ subscribersIn σ c, SameSubscriber s s'

/-- What the namespace has of its own for a bridge of the direction. -/
def KeptLocal (direction : Nat) (seen : List Kmod) (c : Cell) : Prop :=
  direction = directionAgnocastToRos2 ∧ KeptPublisher seen c ∨
    direction = directionRos2ToAgnocast ∧ KeptSubscriber seen c

/-- What another namespace has for it. -/
def KeptRemote (direction : Nat) (seen : List Kmod) (c : Cell) : Prop :=
  direction = directionAgnocastToRos2 ∧ KeptSubscriber seen c ∨
    direction = directionRos2ToAgnocast ∧ KeptPublisher seen c

/-- The agent still has the snapshot of another one. -/
def Knows (s : GossipNet) (agent : AgentId) (snapshot : SentSnapshot) : Prop :=
  ∃ atNs, (snapshot.sender.key, snapshot.state, atNs) ∈ (s.agents agent).remoteStates

theorem Plain.notResponse {name : Name} (h : Plain name) : isServiceResponseTopic name = false :=
  h.2

namespace SnapshotOf

variable {ipcNs : IpcNs} {domainId : Nat} {r : ReadTopics} {name : Name}

theorem hasPublisher (h : SnapshotOf ipcNs domainId r) (hcomplete : r.complete = true)
    (hname : isServiceResponseTopic name = false)
    (hkept : KeptPublisher r.seen ⟨name, ipcNs, domainId⟩) (agent : AgentId) :
    HasPublisher (buildState agent r.topics) (name, domainId) := by
  obtain ⟨p, hbridge, hkept⟩ := hkept
  obtain ⟨t, ht, hkey, hp⟩ := h.keptPublishers hcomplete name hname p hkept
  exact ⟨t.toAgnocastTopic, List.mem_map_of_mem ht, hkey, publisherEndpoint p,
    List.mem_map_of_mem (f := LocalEndpoint.toAgnocastEndpoint) hp, hbridge⟩

theorem hasSubscriber (h : SnapshotOf ipcNs domainId r) (hcomplete : r.complete = true)
    (hname : isServiceResponseTopic name = false)
    (hkept : KeptSubscriber r.seen ⟨name, ipcNs, domainId⟩) (agent : AgentId) :
    HasSubscriber (buildState agent r.topics) (name, domainId) := by
  obtain ⟨s, hbridge, hkept⟩ := hkept
  obtain ⟨t, ht, hkey, hs⟩ := h.keptSubscribers hcomplete name hname s hkept
  exact ⟨t.toAgnocastTopic, List.mem_map_of_mem ht, hkey, subscriberEndpoint s,
    List.mem_map_of_mem (f := LocalEndpoint.toAgnocastEndpoint) hs, hbridge⟩

end SnapshotOf

/-- The roles of two namespaces lead to a request, when a snapshot has the type. -/
theorem requests_of_roles (hnd : (x.topics.map AgnocastTopic.key).Nodup) {k : Name × Nat}
    {direction : Nat} {z : AgnocastDaemonState} {zkey : Name × Nat} (hz : (zkey, z) ∈ remoteStates)
    (hne : zkey ≠ x.key) (hplain : Plain k.1)
    (htype : ∃ s, (s = x ∨ s ∈ remoteStates.map Prod.snd) ∧ HasType s k)
    (hlocal : LocalRole x k direction) (hremote : RemoteRole z k direction) :
    Requests x remoteStates k direction := by
  obtain ⟨s, hs, t, ht, rfl, htype⟩ := htype
  obtain ⟨type, hget, htype'⟩ := exists_type hnd hs ht htype
  have hitem : ∀ l ∈ x.topics, ∀ r ∈ z.topics, l.key = t.key → r.key = t.key →
      ∀ locals remotes, Half l r direction locals remotes → (∃ p ∈ locals, p.isBridge = false) →
        (∃ p ∈ remotes, p.isBridge = false) → Reason x remoteStates z t.key direction := by
    intro l hl r hr hlk hrk locals remotes hhalf hlocals hremotes
    have hname : r.topicName = t.key.1 := congrArg Prod.fst hrk
    obtain ⟨endpoint, rest, hlocals⟩ : ∃ endpoint rest, notBridges locals = endpoint :: rest :=
      List.exists_cons_of_ne_nil (notBridges_ne_nil_iff.mpr hlocals)
    refine ⟨(zkey, z), hz, rfl, hne, r, hr, bridgeRequest l type direction endpoint,
      (mem_bridgesFor hnd).mpr ⟨hname ▸ hplain, l, hl, hlk.trans hrk.symm, type, htype',
        hrk ▸ hget, direction, locals, remotes, hhalf, notBridges_ne_nil_iff.mpr hremotes,
        endpoint, rest, hlocals, ?_⟩⟩
    rw [← hlk]
    rfl
  refine (requests_iff_reason hnd).mpr ⟨z, ?_⟩
  rcases hlocal with ⟨rfl, l, hl, hlk, hlocal⟩ | ⟨rfl, l, hl, hlk, hlocal⟩
  · rcases hremote with ⟨-, r, hr, hrk, hremote⟩ | ⟨hdirection, -⟩
    · exact hitem l hl r hr hlk hrk _ _ .toRos2 hlocal hremote
    · cases hdirection
  · rcases hremote with ⟨hdirection, -⟩ | ⟨-, r, hr, hrk, hremote⟩
    · cases hdirection
    · exact hitem l hl r hr hlk hrk _ _ .toAgnocast hlocal hremote

/-- **Endpoints that stay lead to the request**: when an endpoint is there during the whole
tick and the agent knows of another namespace that had the opposite one during its own, no
query of either failed, and a snapshot has the type, the agent asks for the bridge. -/
theorem run_requests_made {tr : List GossipEvent} {s : GossipNet}
    (h : Transition.Run gossip Transition.anyStep tr s) {later before : List GossipEvent}
    {ev : GossipEvent} (htr : tr = later ++ ev :: before) {out : TickOutput}
    (hout : ev.output = some out) {agent : AgentId} (hinput : ev.input = .finishTick agent)
    {r : ReadTopics} (hread : (ev.pre.agents agent).reading = some r)
    (hcomplete : r.complete = true) {name : Name} (hplain : Plain name) {direction : Nat}
    (hkept : KeptLocal direction r.seen ⟨name, agent.ipcNsInode, agent.domainId⟩)
    {snapshot : SentSnapshot} (hsent : snapshot ∈ ev.pre.sent)
    (hknows : Knows ev.pre agent snapshot) (hdomain : snapshot.sender.domainId = agent.domainId)
    (hcomplete' : snapshot.read.complete = true)
    (hkept' : KeptRemote direction snapshot.read.seen
      ⟨name, snapshot.sender.ipcNsInode, agent.domainId⟩)
    (htype : HasType (buildState agent r.topics) (name, agent.domainId) ∨
      ∃ e ∈ (ev.pre.agents agent).remoteStates, HasType e.2.1 (name, agent.domainId)) :
    ∃ request ∈ out.requests, request.key = (name, agent.domainId, direction) := by
  subst htr
  obtain ⟨hrun, -, houtput, -⟩ := h.event
  rw [houtput] at hout
  obtain ⟨agent', r', hinput', hread', hdone, rfl⟩ := output_cases hout
  cases hinput.symm.trans hinput'
  cases hread.symm.trans hread'
  have hok := gossipOk_of_reachable hrun.reachable
  have htold := ((hok.agents agent).reading r hread).1.snapshot hdone
  obtain ⟨hread'', hdone''⟩ := hok.sent snapshot hsent
  have htold' := hread''.snapshot hdone''
  rw [hdomain] at htold'
  obtain ⟨atNs, hmem⟩ := hknows
  have hmem' := List.mem_map_of_mem (f := fun e : (Name × Nat) × AgnocastDaemonState × Int =>
    (e.1, e.2.1)) hmem
  have hlocal : LocalRole (buildState agent r.topics) (name, agent.domainId) direction :=
    hkept.imp (And.imp_right fun hk => htold.hasPublisher hcomplete hplain.notResponse hk agent)
      (And.imp_right fun hk => htold.hasSubscriber hcomplete hplain.notResponse hk agent)
  have hremote : RemoteRole snapshot.state (name, agent.domainId) direction :=
    hkept'.imp
      (And.imp_right fun hk => htold'.hasSubscriber hcomplete' hplain.notResponse hk _)
      (And.imp_right fun hk => htold'.hasPublisher hcomplete' hplain.notResponse hk _)
  have htypes : ∃ x, (x = buildState agent r.topics ∨ x ∈ ((ev.pre.agents agent).remoteStates.map
      fun e => (e.1, e.2.1)).map Prod.snd) ∧ HasType x (name, agent.domainId) := by
    rcases htype with htype | ⟨e, he, htype⟩
    · exact ⟨_, .inl rfl, htype⟩
    · rw [List.map_map]
      exact ⟨e.2.1, .inr (List.mem_map_of_mem
        (f := fun e : (Name × Nat) × AgnocastDaemonState × Int => e.2.1) he), htype⟩
  obtain ⟨request, hrequest, hkey⟩ := requests_of_roles (htold.nodup_buildState agent) hmem'
    ((hok.agents agent).others _ hmem).2 hplain htypes hlocal hremote
  exact ⟨request, mem_fromKeys.mpr (List.mem_append_left _ hrequest), hkey⟩

/-- The same publisher and subscriber: the request is made. -/
theorem request_made_across_hosts :
    let r := gossip.exec freshNet [] publisherTick
    ∃ later ev before out, r.1 = later ++ ev :: before ∧ ev.output = some out ∧
      ∃ request ∈ out.requests, request.key = (['/', 't'], 0, directionAgnocastToRos2) := by
  have hinput : publisherTickEnd.input = .finishTick ⟨['g'], 8, 0⟩ := rfl
  have hkept : KeptLocal directionAgnocastToRos2 [publisherTickEnd.pre.kmods ['g']]
      ⟨['/', 't'], 8, 0⟩ := by
    refine .inl ⟨rfl, (publishersIn (publisherTickEnd.pre.kmods ['g']) ⟨['/', 't'], 8, 0⟩).get
      ⟨0, by decide⟩, rfl, fun σ hσ => ?_⟩
    rw [List.mem_singleton.mp hσ]
    exact ⟨_, List.get_mem _ _, .refl _⟩
  have hkept' : KeptRemote directionAgnocastToRos2 [publisherTickEnd.pre.kmods ['h']]
      ⟨['/', 't'], 7, 0⟩ := by
    refine .inl ⟨rfl, (subscribersIn (publisherTickEnd.pre.kmods ['h']) ⟨['/', 't'], 7, 0⟩).get
      ⟨0, by decide⟩, rfl, fun σ hσ => ?_⟩
    rw [List.mem_singleton.mp hσ]
    exact ⟨_, List.get_mem _ _, .refl _⟩
  have hsent : publisherTickEnd.pre.sent.get ⟨0, by decide⟩ ∈ publisherTickEnd.pre.sent :=
    List.get_mem _ _
  refine ⟨_, _, _, _, publisherTick_eq, publisherTickEnd_output,
    run_requests_made publisherTick_run publisherTick_eq publisherTickEnd_output
      hinput rfl rfl ⟨rfl, rfl⟩ hkept hsent ⟨5, ?_⟩ rfl rfl hkept' (.inl ?_)⟩
  · decide
  · refine ⟨_, List.mem_cons_self, rfl, ?_⟩
    decide

end Agnocast
