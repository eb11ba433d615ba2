import Agnocast.Kmod.Basic
import Agnocast.Lib.Dict

/-!
# The bridges — what a discovery agent decides

An agent compares the snapshot of its own namespace with those of the others that gossip
has brought, and asks the bridge manager of its namespace for the bridges that are needed
there: from Agnocast to ROS 2 for a topic it publishes and another namespace subscribes to,
from ROS 2 to Agnocast the other way. Services are decided on their request topics.

* `AgnocastDaemonState` — a snapshot, with what the decision reads of it.
* `decideBridges`, `decideServiceBridges` — the requests, in dictionaries that keep the
  order in which the keys came.

The maps of remote snapshots are lists of keys and snapshots in the order of iteration.
-/

namespace Agnocast

structure AgnocastEndpoint where
  qosDepth : Nat
  qosIsTransientLocal : Bool
  qosIsReliable : Bool
  isBridge : Bool
  deriving DecidableEq, Repr

/-- A topic of a snapshot; the type is empty when the agent could not resolve it. -/
structure AgnocastTopic where
  topicName : Name
  typeName : Name
  domainId : Nat
  publishers : List AgnocastEndpoint
  subscribers : List AgnocastEndpoint
  deriving DecidableEq, Repr

/-- The snapshot of a namespace. -/
structure AgnocastDaemonState where
  hostUuid : Name
  ipcNsInode : Nat
  topics : List AgnocastTopic
  deriving DecidableEq, Repr

/-- `(topic_name, domain_id)`. -/
def AgnocastTopic.key (t : AgnocastTopic) : Name × Nat := (t.topicName, t.domainId)

/-- `(host_uuid, ipc_ns_inode)`. -/
def AgnocastDaemonState.key (s : AgnocastDaemonState) : Name × Nat := (s.hostUuid, s.ipcNsInode)

abbrev RemoteStates := List ((Name × Nat) × AgnocastDaemonState)

def directionRos2ToAgnocast : Nat := 0

def directionAgnocastToRos2 : Nat := 1

structure ServiceBridgeRequest where
  serviceName : Name
  domainId : Nat
  deriving DecidableEq, Repr

structure BridgeRequest where
  topicName : Name
  typeName : Name
  direction : Nat
  qosDepth : Nat
  qosIsTransientLocal : Bool
  qosIsReliable : Bool
  domainId : Nat
  deriving DecidableEq, Repr

/-- `(topic, domain, direction)`, under which requests are collapsed. -/
def BridgeRequest.key (r : BridgeRequest) : Name × Nat × Nat :=
  (r.topicName, r.domainId, r.direction)

def srvRequestPrefix : Name := "/AGNOCAST_SRV_REQUEST".toList

def srvResponsePrefix : Name := "/AGNOCAST_SRV_RESPONSE".toList

/-- `_service_name_of`. -/
def serviceNameOf (topicName : Name) : Option Name :=
  if srvRequestPrefix.isPrefixOf topicName then
    let serviceName := topicName.drop srvRequestPrefix.length
    if ['/'].isPrefixOf serviceName then some serviceName else none
  else none

/-- The items of a snapshot's topics that have a type. -/
def typeItems (topics : List AgnocastTopic) : List ((Name × Nat) × Name) :=
  (topics.filter fun t => t.typeName ≠ []).map fun t => (t.key, t.typeName)

/-- `_resolve_types`. -/
def resolveTypes (localState : AgnocastDaemonState) (remoteStates : RemoteStates) :
    List ((Name × Nat) × Name) :=
  remoteStates.foldl (fun types e => Dict.setdefaults types (typeItems e.2.topics))
    (Dict.ofList (typeItems localState.topics))

/-- `local_by_topic`. -/
def localByTopic (localState : AgnocastDaemonState) : List ((Name × Nat) × AgnocastTopic) :=
  Dict.ofList (localState.topics.map fun t => (t.key, t))

/-- `[e for e in endpoints if not e.is_bridge]`. -/
def notBridges (endpoints : List AgnocastEndpoint) : List AgnocastEndpoint :=
  endpoints.filter fun e => !e.isBridge

/-- The request for a local topic of this type, with the QoS of the first local endpoint. -/
def bridgeRequest (localTopic : AgnocastTopic) (typeName : Name) (direction : Nat)
    (endpoint : AgnocastEndpoint) : BridgeRequest where
  topicName := localTopic.topicName
  typeName := typeName
  direction := direction
  qosDepth := endpoint.qosDepth
  qosIsTransientLocal := endpoint.qosIsTransientLocal
  qosIsReliable := endpoint.qosIsReliable
  domainId := localTopic.domainId

/-- `if local_endpoints and remote_endpoints: requests.setdefault(key, ...)`. -/
def requestIf (localTopic : AgnocastTopic) (typeName : Name) (direction : Nat)
    (localEndpoints remoteEndpoints : List AgnocastEndpoint) :
    List ((Name × Nat × Nat) × BridgeRequest) :=
  match localEndpoints, remoteEndpoints with
  | endpoint :: _, _ :: _ =>
    [((localTopic.topicName, localTopic.domainId, direction),
      bridgeRequest localTopic typeName direction endpoint)]
  | _, _ => []

/-- What `decide_bridges` asks for on account of a topic of a remote snapshot: the items
that it hands to `requests.setdefault`. -/
def bridgesFor (localState : AgnocastDaemonState) (remoteStates : RemoteStates)
    (remoteTopic : AgnocastTopic) : List ((Name × Nat × Nat) × BridgeRequest) :=
  -- topics of services have bridges of their own
  if srvRequestPrefix.isPrefixOf remoteTopic.topicName ||
      srvResponsePrefix.isPrefixOf remoteTopic.topicName then []
  else
    match Dict.get (localByTopic localState) remoteTopic.key with
    | none => []
    | some localTopic =>
      match Dict.get (resolveTypes localState remoteStates) localTopic.key with
      -- no type is known for the topic
      | none | some [] => []
      | some typeName =>
        requestIf localTopic typeName directionAgnocastToRos2 (notBridges localTopic.publishers)
            (notBridges remoteTopic.subscribers) ++
          requestIf localTopic typeName directionRos2ToAgnocast
            (notBridges localTopic.subscribers) (notBridges remoteTopic.publishers)

/-- The requests under their keys. -/
def bridgeRequests (localState : AgnocastDaemonState) (remoteStates : RemoteStates) :
    List ((Name × Nat × Nat) × BridgeRequest) :=
  remoteStates.foldl (fun requests e =>
    if e.1 = localState.key then requests
    else e.2.topics.foldl (fun requests remoteTopic =>
      Dict.setdefaults requests (bridgesFor localState remoteStates remoteTopic)) requests) []

def decideBridges (localState : AgnocastDaemonState) (remoteStates : RemoteStates) :
    List BridgeRequest :=
  (bridgeRequests localState remoteStates).map Prod.snd

/-- The same for `decide_service_bridges`. -/
def serviceBridgesFor (localState : AgnocastDaemonState) (remoteTopic : AgnocastTopic) :
    List ((Name × Nat) × ServiceBridgeRequest) :=
  match serviceNameOf remoteTopic.topicName with
  | none => []
  | some serviceName =>
    match Dict.get (localByTopic localState) remoteTopic.key with
    | none => []
    | some localTopic =>
      if notBridges localTopic.subscribers ≠ [] ∧ notBridges remoteTopic.publishers ≠ [] then
        [((serviceName, localTopic.domainId), ⟨serviceName, localTopic.domainId⟩)]
      else []

def serviceBridgeRequests (localState : AgnocastDaemonState) (remoteStates : RemoteStates) :
    List ((Name × Nat) × ServiceBridgeRequest) :=
  remoteStates.foldl (fun requests e =>
    if e.1 = localState.key then requests
    else e.2.topics.foldl (fun requests remoteTopic =>
      Dict.setdefaults requests (serviceBridgesFor localState remoteTopic)) requests) []

def decideServiceBridges (localState : AgnocastDaemonState) (remoteStates : RemoteStates) :
    List ServiceBridgeRequest :=
  (serviceBridgeRequests localState remoteStates).map Prod.snd

end Agnocast
