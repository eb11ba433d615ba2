import Agnocast.Bridge.ServiceBridge
import Agnocast.Lib.Transition

/-!
# The bridge manager — the pub/sub bridges

The worker thread of a bridge manager takes messages and sweeps through what it has: it creates
the bridges that were asked for and are wanted, also those that the daemon has leased, removes
those that are not wanted any more, and looks after the requests and the service bridges.

* `PubsubBridges`  — the active bridges of both directions, and the executor.
* `BridgeWorker`   — everything that the worker thread has.
* `TopicAnswers`   — what the probes, the loader and the clock answer for a topic.
* `createPubsubBridgeIfNeeded`, `checkAndRemovePubsubBridges` — where bridges come and go.

A function is `none` when the process ends: the executor exits it, or an exception of a probe is
caught by nobody. A map is the list of its items in the order of iteration. The log is left out,
and so are the counts that the manager passes on to the kernel.
-/

namespace Agnocast

/-! ## Answers -/

/-- What the loader made; what is not there is `nullptr`. -/
structure PubsubBridgeResult where
  entityHandle : Option Nat
  callbackGroup : Option Nat
  deriving DecidableEq, Repr

inductive PubsubBridgeReply
  | result (result : PubsubBridgeResult)
  | threw (what : Option String)
  deriving DecidableEq, Repr

/-- What `AGNOCAST_GET_SUBSCRIBER_NUM_CMD` gives. -/
structure SubscriberNumReply where
  otherProcessSubscriberNum : UInt32
  sameProcessSubscriberNum : UInt32
  a2rBridgeExist : Bool
  deriving DecidableEq, Repr

/-- A node that has an endpoint. -/
structure EndpointInfo where
  nodeName : Bytes
  nodeNamespace : Bytes
  deriving DecidableEq, Repr

/-- What becomes of `update_ros2_publisher_num` or `update_ros2_subscriber_num`. -/
inductive UpdateReply
  | updated
  | failed
  | threw (what : Option String)
  deriving DecidableEq, Repr

/-- The answers for a topic and a direction; a failed count has no reply, and a QoS of an endpoint
that is gone neither. The loader gets the topic, the message type and a QoS. -/
structure TopicAnswers where
  subscriberNum : Option SubscriberNumReply
  publisherNum : Option PublisherNumReply
  publishersInfo : Except (Option String) (List EndpointInfo)
  subscriptionsInfo : Except (Option String) (List EndpointInfo)
  subscriberQos : Option Qos
  publisherQos : Option Qos
  createR2aPubsubBridge : Bytes → Bytes → Qos → PubsubBridgeReply
  createA2rPubsubBridge : Bytes → Bytes → Qos → PubsubBridgeReply
  updateRos2Num : UpdateReply
  now : ℕ

/-- The answers of a pass, for each direction and topic. -/
abbrev PassAnswers := Bool → Bytes → TopicAnswers

/-- The count of `get_agnocast_subscriber_count`. -/
def getAgnocastSubscriberCount : Option SubscriberNumReply → Int
  | none => -1
  | some reply =>
    let totalSubs :=
      (reply.otherProcessSubscriberNum + reply.sameProcessSubscriberNum).toInt32.toInt
    if reply.a2rBridgeExist && 0 < totalSubs then totalSubs - 1 else totalSubs

/-- An endpoint of another node than the manager's. -/
def hasExternalEndpoint (self : EndpointInfo) (infos : List EndpointInfo) : Bool :=
  infos.any fun info => info.nodeName ≠ self.nodeName || info.nodeNamespace ≠ self.nodeNamespace

namespace TopicAnswers

variable (a : TopicAnswers)

def hasExternalRos2Publisher (self : EndpointInfo) : Except (Option String) Bool :=
  a.publishersInfo.map (hasExternalEndpoint self)

def hasExternalRos2Subscriber (self : EndpointInfo) : Except (Option String) Bool :=
  a.subscriptionsInfo.map (hasExternalEndpoint self)

/-- The count that a bridge of the direction depends on. -/
def agnocastCount (isR2a : Bool) : Int :=
  if isR2a then getAgnocastSubscriberCount a.subscriberNum
  else getAgnocastPublisherCount a.publisherNum

/-- The demand that it answers. -/
def hasExternal (isR2a : Bool) (self : EndpointInfo) : Except (Option String) Bool :=
  if isR2a then a.hasExternalRos2Publisher self else a.hasExternalRos2Subscriber self

/-- The QoS of the endpoint that asked for it. -/
def endpointQos (isR2a : Bool) : Option Qos := if isR2a then a.subscriberQos else a.publisherQos

def create (isR2a : Bool) : Bytes → Bytes → Qos → PubsubBridgeReply :=
  if isR2a then a.createR2aPubsubBridge else a.createA2rPubsubBridge

end TopicAnswers

/-! ## Creating a bridge -/

/-- `RequestMap`. -/
abbrev RequestMap := List (Int32 × CachedRequest)

/-- `active_pubsub_r2a_bridges_` and `active_pubsub_a2r_bridges_`, and the executor. -/
structure PubsubBridges where
  r2a : List (Bytes × PubsubBridgeResult)
  a2r : List (Bytes × PubsubBridgeResult)
  executor : GroupRegistry

def isR2aDirection (direction : Direction) : Bool :=
  direction = UInt32.ofNat directionRos2ToAgnocast

/-- What becomes of a request to create a bridge. -/
inductive CreationOutcome
  | skipped
  | created
  /-- It threw, and the request of this id is dropped. -/
  | threw (id : Int32)
  deriving DecidableEq, Repr

namespace PubsubBridges

variable (b : PubsubBridges)

/-- The active bridges of a direction. -/
def active (isR2a : Bool) : List (Bytes × PubsubBridgeResult) := if isR2a then b.r2a else b.a2r

def setActive (isR2a : Bool) (active : List (Bytes × PubsubBridgeResult)) : PubsubBridges :=
  if isR2a then { b with r2a := active } else { b with a2r := active }

def isActive (isR2a : Bool) (topicName : Bytes) : Bool :=
  (Dict.get (b.active isR2a) topicName).isSome

/-- The part after the loader that `create_pubsub_bridge_if_needed` and
`activate_daemon_forced_bridge` have in common. -/
def activate (isR2a : Bool) (topicName : Bytes) (result : PubsubBridgeResult)
    (update : UpdateReply) : Option (Except (Option String) PubsubBridges) :=
  if result.entityHandle.isNone then some (.ok b)
  else
    match update with
    | .threw what => some (.error what)
    | .updated | .failed =>
      (b.executor.addIfPresent result.callbackGroup).map fun executor =>
        .ok (({ b with executor := executor } : PubsubBridges).setActive isR2a
          (Dict.set (b.active isR2a) topicName result))

def shouldCreatePubsubBridge (self : EndpointInfo) (topicName : Bytes) (isR2a : Bool)
    (a : TopicAnswers) : Option Bool :=
  if b.isActive isR2a topicName then some false
  else if a.agnocastCount isR2a ≤ 0 then some false
  else
    match a.hasExternal isR2a self with
    | .ok wanted => some wanted
    | .error _ => none

/-- The request whose endpoint the bridge is for: the first one of the direction. -/
def qosSourceId (requests : RequestMap) (direction : Direction) : Int32 :=
  match requests.find? fun e => e.2.direction = direction with
  | some e => e.1
  | none => -1

def createPubsubBridgeIfNeeded (self : EndpointInfo) (topicName : Bytes) (requests : RequestMap)
    (messageType : Bytes) (direction : Direction) (a : TopicAnswers) :
    Option (CreationOutcome × RequestMap × PubsubBridges) :=
  let isR2a := isR2aDirection direction
  match b.shouldCreatePubsubBridge self topicName isR2a a with
  | none => none
  | some false => some (.skipped, requests, b)
  | some true =>
    let id := qosSourceId requests direction
    -- no request of this direction is left
    if id = -1 then some (.skipped, requests, b)
    else
      match a.endpointQos isR2a with
      -- the endpoint that the QoS is read from is gone
      | none => some (.threw id, Dict.erase requests id, b)
      | some qos =>
        match a.create isR2a topicName messageType qos with
        | .threw _ => some (.threw id, Dict.erase requests id, b)
        | .result result =>
          (b.activate isR2a topicName result a.updateRos2Num).map fun
            | .ok b => (.created, requests, b)
            | .error _ => (.threw id, Dict.erase requests id, b)

def activateDaemonForcedBridge (topicName messageType : Bytes) (qos : Qos) (isR2a : Bool)
    (a : TopicAnswers) : Option PubsubBridges :=
  match a.create isR2a topicName messageType qos with
  | .threw _ => some b
  | .result result =>
    (b.activate isR2a topicName result a.updateRos2Num).map fun
      | .ok b => b
      | .error _ => b

/-! ## Removing bridges -/

/-- What is left of the bridges of a direction, and whether a count has failed. -/
def removeLoop (self : EndpointInfo) (isR2a : Bool) (forced : Bytes → ℕ → Bool)
    (a : Bytes → TopicAnswers) : List (Bytes × PubsubBridgeResult) → GroupRegistry →
    Option (List (Bytes × PubsubBridgeResult) × GroupRegistry × Bool)
  | [], executor => some ([], executor, false)
  | (topicName, bridge) :: rest, executor =>
    match (a topicName).hasExternal isR2a self with
    | .error _ => none
    | .ok isDemandedByRos2 =>
      let count := (a topicName).agnocastCount isR2a
      -- the count cannot be had: the loop ends here
      if count = -1 then some ((topicName, bridge) :: rest, executor, true)
      else if count ≤ 0 ∨ (!isDemandedByRos2 && !forced topicName (a topicName).now) then
        (executor.removeAndStop bridge.callbackGroup).bind
          (removeLoop self isR2a forced a rest)
      else
        match (a topicName).updateRos2Num with
        | .threw _ => none
        | .updated | .failed =>
          (removeLoop self isR2a forced a rest executor).map fun r =>
            ((topicName, bridge) :: r.1, r.2)

end PubsubBridges

/-! ## The worker -/

/-- What the worker thread has. The node of the manager is `self`. -/
structure BridgeWorker where
  self : EndpointInfo
  requestCache : List (Bytes × RequestMap)
  daemonForcedR2a : List (Bytes × DaemonForcedRequest)
  daemonForcedA2r : List (Bytes × DaemonForcedRequest)
  pubsub : PubsubBridges
  activeServiceBridges : List (Bytes × ServiceBridge)
  shadowNodes : WeakCache (Bytes × Bytes)
  shutdownRequested : Bool
  exited : Bool

/-- The requests that a step has dropped because their bridges could not be created. -/
abbrev Thrown := List (Bytes × Int32)

def CreationOutcome.thrown (topicName : Bytes) : CreationOutcome → Thrown
  | .threw id => [(topicName, id)]
  | _ => []

namespace BridgeWorker

variable (s : BridgeWorker)

def world : BridgeWorld := ⟨s.pubsub.executor, s.shadowNodes⟩

/-- `daemon_forced_r2a_` or `daemon_forced_a2r_`. -/
def daemonForced (isR2a : Bool) : List (Bytes × DaemonForcedRequest) :=
  if isR2a then s.daemonForcedR2a else s.daemonForcedA2r

def setDaemonForced (isR2a : Bool) (forced : List (Bytes × DaemonForcedRequest)) : BridgeWorker :=
  if isR2a then { s with daemonForcedR2a := forced } else { s with daemonForcedA2r := forced }

def isDaemonForced (isR2a : Bool) (topicName : Bytes) (now : ℕ) : Bool :=
  (Dict.get (s.daemonForced isR2a) topicName).any fun e => isDaemonForceActive e.forcedUntil now

/-! ### Messages -/

def dispatchPubsub (topicName : Bytes) (targetId : Int32) (request : CachedRequest)
    (a : PassAnswers) : Option (Thrown × BridgeWorker) :=
  let requests := Dict.set ((Dict.get s.requestCache topicName).getD []) targetId request
  (s.pubsub.createPubsubBridgeIfNeeded s.self topicName requests request.messageType
      request.direction (a (isR2aDirection request.direction) topicName)).map fun r =>
    (r.1.thrown topicName,
      { s with requestCache := Dict.set s.requestCache topicName r.2.1, pubsub := r.2.2 })

def dispatchService (serviceName : Bytes) (msg : BridgeMsg) : BridgeWorker :=
  let item := (Dict.get s.activeServiceBridges serviceName).getD .new
  match item.handleRequest msg with
  | none => s
  | some item =>
    { s with activeServiceBridges := Dict.set s.activeServiceBridges serviceName item }

def registerDaemonPubsubRequest (topicName : Bytes) (direction : Direction)
    (request : DaemonForcedRequest) : BridgeWorker :=
  s.setDaemonForced (isR2aDirection direction)
    (Dict.set (s.daemonForced (isR2aDirection direction)) topicName request)

def registerDaemonServiceRequest (serviceName : Bytes) (now : ℕ) : BridgeWorker :=
  match Dict.get s.activeServiceBridges serviceName with
  | none => s
  | some item =>
    { s with
      activeServiceBridges :=
        Dict.set s.activeServiceBridges serviceName (item.handleDaemonRequest now) }

/-- `dispatch_bridge_message`; a text that runs past the message is not looked at. -/
def dispatchBridgeMessage (msg : BridgeMsg) (now : ℕ) (a : PassAnswers) :
    Option (Thrown × BridgeWorker) :=
  match BridgeMsgType.ofTag (msg.word 0).toNat with
  | some .service =>
    some ([], ((msg.text ServicePayload.serviceNameAt).map fun serviceName =>
      s.dispatchService serviceName msg).getD s)
  | some .pubSub =>
    match msg.text PubSubPayload.topicNameAt, msg.text PubSubPayload.messageTypeAt with
    | some topicName, some messageType =>
      s.dispatchPubsub topicName (msg.word PubSubPayload.targetIdAt).toInt32
        ⟨messageType, msg.word PubSubPayload.directionAt⟩ a
    | _, _ => some ([], s)
  | some .daemonPubSub =>
    match msg.text DaemonPubSubPayload.topicNameAt, msg.text DaemonPubSubPayload.typeNameAt with
    | some topicName, some messageType =>
      some ([], s.registerDaemonPubsubRequest topicName (msg.word DaemonPubSubPayload.directionAt)
        ⟨messageType,
          ⟨msg.word DaemonPubSubPayload.qosDepthAt,
            msg.bool DaemonPubSubPayload.qosIsTransientLocalAt,
            msg.bool DaemonPubSubPayload.qosIsReliableAt⟩,
          daemonForceDeadline now⟩)
    | _, _ => some ([], s)
  | some .daemonService =>
    some ([], ((msg.text DaemonServicePayload.serviceNameAt).map fun serviceName =>
      s.registerDaemonServiceRequest serviceName now).getD s)
  | none => some ([], s)

/-! ### The passes of a sweep -/

/-- The loop of `check_and_create_pubsub_bridges`. -/
def createLoop (self : EndpointInfo) (a : PassAnswers) :
    List (Bytes × RequestMap) → PubsubBridges →
    Option (Thrown × List (Bytes × RequestMap) × PubsubBridges)
  | [], b => some ([], [], b)
  -- a topic without requests is erased
  | (_, []) :: rest, b => createLoop self a rest b
  | (topicName, first :: requests) :: rest, b =>
    (b.createPubsubBridgeIfNeeded self topicName (first :: requests) first.2.messageType
      (UInt32.ofNat directionRos2ToAgnocast) (a true topicName)).bind fun r2a =>
    (r2a.2.2.createPubsubBridgeIfNeeded self topicName r2a.2.1 first.2.messageType
      (UInt32.ofNat directionAgnocastToRos2) (a false topicName)).bind fun a2r =>
    (createLoop self a rest a2r.2.2).map fun r =>
      (r2a.1.thrown topicName ++ (a2r.1.thrown topicName ++ r.1),
        if a2r.2.1 = [] then r.2.1 else (topicName, a2r.2.1) :: r.2.1, r.2.2)

def checkAndCreatePubsubBridges (a : PassAnswers) : Option (Thrown × BridgeWorker) :=
  (createLoop s.self a s.requestCache s.pubsub).map fun r =>
    (r.1, { s with requestCache := r.2.1, pubsub := r.2.2 })

/-- The loop of `create_daemon_forced_bridges` over one of the two maps. -/
def forceLoop (isR2a : Bool) (a : Bytes → TopicAnswers) :
    List (Bytes × DaemonForcedRequest) → PubsubBridges →
    Option (List (Bytes × DaemonForcedRequest) × PubsubBridges)
  | [], b => some ([], b)
  | (topicName, request) :: rest, b =>
    -- the lease is over, and the request is erased
    if request.forcedUntil ≤ (a topicName).now then forceLoop isR2a a rest b
    else
      let activated :=
        if !b.isActive isR2a topicName && 0 < (a topicName).agnocastCount isR2a then
          b.activateDaemonForcedBridge topicName request.messageType request.qos isR2a
            (a topicName)
        else some b
      activated.bind fun b =>
        (forceLoop isR2a a rest b).map fun r => ((topicName, request) :: r.1, r.2)

def createDaemonForcedBridges (a : PassAnswers) : Option BridgeWorker :=
  (forceLoop true (a true) s.daemonForcedR2a s.pubsub).bind fun r2a =>
    (forceLoop false (a false) s.daemonForcedA2r r2a.2).map fun a2r =>
      { s with daemonForcedR2a := r2a.1, daemonForcedA2r := a2r.1, pubsub := a2r.2 }

def checkAndRemovePubsubBridges (a : PassAnswers) : Option BridgeWorker :=
  (PubsubBridges.removeLoop s.self true (s.isDaemonForced true) (a true) s.pubsub.r2a
    s.pubsub.executor).bind fun r2a =>
  if r2a.2.2 then
    some { s with
      pubsub := { s.pubsub with r2a := r2a.1, executor := r2a.2.1 }, shutdownRequested := true }
  else
    (PubsubBridges.removeLoop s.self false (s.isDaemonForced false) (a false) s.pubsub.a2r
      r2a.2.1).map fun a2r =>
    { s with
      pubsub := ⟨r2a.1, a2r.1, a2r.2.1⟩, shutdownRequested := s.shutdownRequested || a2r.2.2 }

/-- The loop of `check_and_update_service_bridges`. -/
def serviceLoop (a : Bytes → TickAnswers) : List (Bytes × ServiceBridge) → BridgeWorld →
    Option (List (Bytes × ServiceBridge) × BridgeWorld)
  | [], w => some ([], w)
  | (serviceName, item) :: rest, w =>
    (item.checkAndUpdate w (a serviceName)).bind fun r =>
      (serviceLoop a rest r.2.2).map fun rest =>
        (if r.2.1.state ≠ .none then (serviceName, r.2.1) :: rest.1 else rest.1, rest.2)

def checkAndUpdateServiceBridges (a : Bytes → TickAnswers) : Option BridgeWorker :=
  (serviceLoop a s.activeServiceBridges s.world).map fun r =>
    { s with
      activeServiceBridges := r.1
      pubsub := { s.pubsub with executor := r.2.executor }
      shadowNodes := r.2.shadowNodes }

/-- `remove_invalid_requests`: the requests of endpoints that are gone, subscribers for R2A and
publishers for A2R. -/
def removeInvalidRequests (alive : Bool → Int32 → Bool) (requests : RequestMap) : RequestMap :=
  requests.filter fun e => alive (isR2aDirection e.2.direction) e.1

/-- `check_and_remove_request_cache`. -/
def checkAndRemoveRequestCache (alive : Bytes → Bool → Int32 → Bool) : BridgeWorker :=
  { s with
    requestCache :=
      (s.requestCache.map fun e => (e.1, removeInvalidRequests (alive e.1) e.2)).filter fun e =>
        e.2 ≠ [] }

/-- `check_and_request_shutdown`; a call that fails has no reply. -/
def checkAndRequestShutdown (shouldShutdown : Option Bool) : BridgeWorker :=
  { s with shutdownRequested := s.shutdownRequested || shouldShutdown.getD false }

/-! ### The order of the maps -/

/-- One of the hash tables is iterated in another order from now on. -/
inductive Rehash
  | requestCache (items : List (Bytes × RequestMap))
  | requests (topicName : Bytes) (items : RequestMap)
  | daemonForced (isR2a : Bool) (items : List (Bytes × DaemonForcedRequest))
  | active (isR2a : Bool) (items : List (Bytes × PubsubBridgeResult))
  | activeServiceBridges (items : List (Bytes × ServiceBridge))

def rehash : Rehash → BridgeWorker
  | .requestCache items =>
    if items.Perm s.requestCache then { s with requestCache := items } else s
  | .requests topicName items =>
    match Dict.get s.requestCache topicName with
    | none => s
    | some requests =>
      if items.Perm requests then
        { s with requestCache := Dict.set s.requestCache topicName items }
      else s
  | .daemonForced isR2a items =>
    if items.Perm (s.daemonForced isR2a) then s.setDaemonForced isR2a items else s
  | .active isR2a items =>
    if items.Perm (s.pubsub.active isR2a) then
      { s with pubsub := s.pubsub.setActive isR2a items }
    else s
  | .activeServiceBridges items =>
    if items.Perm s.activeServiceBridges then { s with activeServiceBridges := items } else s

end BridgeWorker

/-- What happens next. The passes of a sweep are inputs of their own, in any order. -/
inductive WorkerInput
  | message (msg : BridgeMsg) (now : ℕ) (a : PassAnswers)
  | checkAndCreatePubsubBridges (a : PassAnswers)
  | createDaemonForcedBridges (a : PassAnswers)
  | checkAndRemovePubsubBridges (a : PassAnswers)
  | checkAndUpdateServiceBridges (a : Bytes → TickAnswers)
  | checkAndRemoveRequestCache (alive : Bytes → Bool → Int32 → Bool)
  | checkAndRequestShutdown (shouldShutdown : Option Bool)
  /-- A signal, or another thread that requests the shutdown. -/
  | requestShutdown
  | rehash (r : BridgeWorker.Rehash)
  /-- The process ends. -/
  | terminate

namespace BridgeWorker

variable (s : BridgeWorker)

/-- What an input does; `none` when the process ends. -/
def act : WorkerInput → Option (Thrown × BridgeWorker)
  | .message msg now a => s.dispatchBridgeMessage msg now a
  | .checkAndCreatePubsubBridges a => s.checkAndCreatePubsubBridges a
  | .createDaemonForcedBridges a => (s.createDaemonForcedBridges a).map fun s => ([], s)
  | .checkAndRemovePubsubBridges a => (s.checkAndRemovePubsubBridges a).map fun s => ([], s)
  | .checkAndUpdateServiceBridges a => (s.checkAndUpdateServiceBridges a).map fun s => ([], s)
  | .checkAndRemoveRequestCache alive => some ([], s.checkAndRemoveRequestCache alive)
  | .checkAndRequestShutdown r => some ([], s.checkAndRequestShutdown r)
  | .requestShutdown => some ([], { s with shutdownRequested := true })
  | .rehash r => some ([], s.rehash r)
  | .terminate => none

def step (input : WorkerInput) : Thrown × BridgeWorker :=
  if s.exited then ([], s)
  else
    match s.act input with
    | none => ([], { s with exited := true })
    | some r => r

end BridgeWorker

/-- A worker that has just started: no request, no bridge, and an executor without a group that
was added by hand. -/
def bridgeWorker : Transition.System BridgeWorker WorkerInput Thrown where
  init s := ∃ self addedWithNode, s =
    ⟨self, [], [], [], ⟨[], [], ⟨addedWithNode, [], []⟩⟩, [], .empty, false, false⟩
  step := BridgeWorker.step

abbrev WorkerEvent := Transition.Event BridgeWorker WorkerInput Thrown

end Agnocast
