import Agnocast.Lib.Wire
import Agnocast.Bridge.BridgeDecider

/-!
# The messages to a bridge manager

A bridge manager is asked for bridges with datagrams: a tag and one of four payloads. The
processes of its namespace build theirs with the C++ builder, the discovery agent packs its
own in Python; the manager copies what arrives into a `BridgeMsg` and reads the fields of the
payload that the tag names.

* `sendPubsubBridgeRegistration`, `sendServiceBridgeRegistration` — the datagrams of the
  C++ senders; `none` when the sender gives up.
* `serializeRequest`, `serializeServiceRequest` — those of the agent; `none` when
  `struct.pack` raises.
* `BridgeManager.parseAndEnqueue`, `BridgeManager.dispatchBridgeMessage` — the receiver. A
  dispatch lists the fields whose text it read and is `none` when a text runs past the
  message.

Names are the bytes of the strings. Words are little-endian; the padding of a payload is
zero and nothing reads it. Of the manager there is what the four requests act on, and the
calls of `create_pubsub_bridge_if_needed` are listed with their arguments.
-/

namespace Agnocast

open Wire (littleEndian value upToNul cString padded)

abbrev Bytes := List UInt8

/-! ## Buffers -/

def textBufferSize : ℕ := 256

/-- `char[n]`. -/
structure CharArray (n : ℕ) where
  bytes : Bytes
  size_eq : bytes.length = n

/-- `char buffer[n]{}`. -/
def CharArray.zero (n : ℕ) : CharArray n := ⟨List.replicate n 0, List.length_replicate⟩

theorem length_written {n : ℕ} (buffer : CharArray n) (text : Bytes) :
    ((text.take (n - 1) ++ [0]).take n ++
      buffer.bytes.drop ((text.take (n - 1) ++ [0]).take n).length).length = n := by
  rw [List.length_append, List.length_drop, buffer.size_eq]
  have hle : ((text.take (n - 1) ++ [0]).take n).length ≤ n := List.length_take_le _ _
  omega

/-- `vsnprintf(buffer, n, "%s", text)`: what it returns and the buffer afterwards. A text
whose length does not fit an `int` is an error. -/
def vsnprintf {n : ℕ} (buffer : CharArray n) (text : Bytes) : ℤ × CharArray n :=
  let text := upToNul text
  (if text.length < 2 ^ 31 then text.length else -1, ⟨_, length_written buffer text⟩)

/-! ## The payloads -/

/-- `BridgeDirection`, any value of its underlying type. -/
abbrev Direction := UInt32

structure PubSubPayload where
  messageType : CharArray textBufferSize
  topicName : CharArray textBufferSize
  targetId : Int32
  direction : Direction

structure ServicePayload where
  serviceType : CharArray textBufferSize
  serviceName : CharArray textBufferSize
  createShadowNode : Bool
  direction : Direction
  shadowNodeNamespace : CharArray textBufferSize
  shadowNodeName : CharArray textBufferSize

def PubSubPayload.zero : PubSubPayload := ⟨.zero _, .zero _, 0, 0⟩

def ServicePayload.zero : ServicePayload := ⟨.zero _, .zero _, false, 0, .zero _, .zero _⟩

def boolByte (b : Bool) : UInt8 := if b then 1 else 0

def PubSubPayload.bytes (p : PubSubPayload) : Bytes :=
  p.messageType.bytes ++ (p.topicName.bytes ++ (littleEndian 4 p.targetId.toUInt32.toNat ++
    littleEndian 4 p.direction.toNat))

def ServicePayload.bytes (p : ServicePayload) : Bytes :=
  p.serviceType.bytes ++ (p.serviceName.bytes ++ ([boolByte p.createShadowNode, 0, 0, 0] ++
    (littleEndian 4 p.direction.toNat ++
      (p.shadowNodeNamespace.bytes ++ p.shadowNodeName.bytes))))

inductive BridgeMsgType
  | pubSub
  | service
  | daemonPubSub
  | daemonService
  deriving DecidableEq, Repr

def BridgeMsgType.tag : BridgeMsgType → ℕ
  | .pubSub => 0
  | .service => 1
  | .daemonPubSub => 2
  | .daemonService => 3

/-- The cases of the switches over the tag. -/
def BridgeMsgType.ofTag : ℕ → Option BridgeMsgType
  | 0 => some .pubSub
  | 1 => some .service
  | 2 => some .daemonPubSub
  | 3 => some .daemonService
  | _ => none

/-- `offsetof(BridgeMsg, payload)`. -/
def payloadOffset : ℕ := 4

/-- `bridge_msg_wire_size` of the payload. -/
def BridgeMsgType.wireSize : BridgeMsgType → ℕ
  | .pubSub => payloadOffset + 520
  | .service => payloadOffset + 1032
  | .daemonPubSub => payloadOffset + 524
  | .daemonService => payloadOffset + 256

/-- `BRIDGE_MSG_MAX_SIZE`: the service payload is the largest. -/
def bridgeMsgMaxSize : ℕ := payloadOffset + 1032

/-- The bytes of a `BridgeMsg`. -/
abbrev BridgeMsg := Bytes

/-! ## The C++ builder -/

structure BridgeRegistrationMsgBuilder where
  pubsub : PubSubPayload
  service : ServicePayload
  direction : Direction
  isService : Bool
  failed : Bool
  reason : String

def BridgeRegistrationMsgBuilder.new : BridgeRegistrationMsgBuilder where
  pubsub := .zero
  service := .zero
  direction := UInt32.ofNat directionRos2ToAgnocast
  isService := false
  failed := false
  reason := ""

namespace BridgeRegistrationMsgBuilder

variable (b : BridgeRegistrationMsgBuilder)

def fail (reason : String) : BridgeRegistrationMsgBuilder :=
  { b with failed := true, reason := reason }

/-- The builder and the buffer afterwards. -/
def checkedSnprintf {n : ℕ} (member : String) (buffer : CharArray n) (text : Bytes) :
    BridgeRegistrationMsgBuilder × CharArray n :=
  if b.failed then (b, buffer)
  else
    let (length, buffer) := vsnprintf buffer text
    if length < 0 then
      (b.fail ("snprintf() for '" ++ member ++ "' returned a negative value"), buffer)
    else if n ≤ length then
      (b.fail ("snprintf() for '" ++ member ++ "' failed; length must be " ++
        toString (n - 1) ++ " characters or fewer"), buffer)
    else (b, buffer)

def setDirection (direction : Direction) : BridgeRegistrationMsgBuilder :=
  { b with direction := direction }

def setIsService (isService : Bool) : BridgeRegistrationMsgBuilder :=
  { b with isService := isService }

/-- `checked_snprintf` into a member of a payload, which `assign` stores. -/
def setText (member : String) (buffer : CharArray textBufferSize)
    (assign : BridgeRegistrationMsgBuilder → CharArray textBufferSize →
      BridgeRegistrationMsgBuilder) (text : Bytes) : BridgeRegistrationMsgBuilder :=
  let (b, buffer) := b.checkedSnprintf member buffer text
  assign b buffer

def setMessageType (messageType : Bytes) : BridgeRegistrationMsgBuilder :=
  b.setText "message_type" b.pubsub.messageType
    (fun b buffer => { b with pubsub := { b.pubsub with messageType := buffer } }) messageType

def setTopicName (topicName : Bytes) : BridgeRegistrationMsgBuilder :=
  b.setText "topic_name" b.pubsub.topicName
    (fun b buffer => { b with pubsub := { b.pubsub with topicName := buffer } }) topicName

def setPubsubTargetId (targetId : Int32) : BridgeRegistrationMsgBuilder :=
  { b with pubsub := { b.pubsub with targetId := targetId } }

def setServiceType (serviceType : Bytes) : BridgeRegistrationMsgBuilder :=
  b.setText "service_type" b.service.serviceType
    (fun b buffer => { b with service := { b.service with serviceType := buffer } }) serviceType

def setServiceName (serviceName : Bytes) : BridgeRegistrationMsgBuilder :=
  b.setText "service_name" b.service.serviceName
    (fun b buffer => { b with service := { b.service with serviceName := buffer } }) serviceName

def setShadowNodeNamespace (ns : Bytes) : BridgeRegistrationMsgBuilder :=
  b.setText "shadow_node_namespace" b.service.shadowNodeNamespace
    (fun b buffer => { b with service := { b.service with shadowNodeNamespace := buffer } }) ns

def setShadowNodeName (name : Bytes) : BridgeRegistrationMsgBuilder :=
  b.setText "shadow_node_name" b.service.shadowNodeName
    (fun b buffer => { b with service := { b.service with shadowNodeName := buffer } }) name

/-- Without an identity both texts are empty. -/
def setShadowNodeIdentity (identity : Option (Bytes × Bytes)) : BridgeRegistrationMsgBuilder :=
  let b := { b with service := { b.service with createShadowNode := identity.isSome } }
  (b.setShadowNodeNamespace ((identity.map Prod.fst).getD [])).setShadowNodeName
    ((identity.map Prod.snd).getD [])

/-- The message and why it is not to be sent. -/
def buildMessage : BridgeMsg × String :=
  let msg :=
    if b.isService then
      littleEndian 4 BridgeMsgType.service.tag ++ { b.service with direction := b.direction }.bytes
    else
      littleEndian 4 BridgeMsgType.pubSub.tag ++ { b.pubsub with direction := b.direction }.bytes
  (padded bridgeMsgMaxSize msg, if b.failed then b.reason else "")

end BridgeRegistrationMsgBuilder

/-- `send_pubsub_bridge_registration_by_type_name`: the datagram, or `exit(EXIT_FAILURE)`. -/
def sendPubsubBridgeRegistration (topicName : Bytes) (id : Int32) (messageType : Bytes)
    (direction : Direction) : Option Bytes :=
  let (msg, reason) := (((((BridgeRegistrationMsgBuilder.new.setDirection direction).setIsService
    false).setMessageType messageType).setTopicName topicName).setPubsubTargetId id).buildMessage
  if reason ≠ "" then none else some (msg.take BridgeMsgType.pubSub.wireSize)

/-- `send_service_bridge_registration_by_type_name`. -/
def sendServiceBridgeRegistration (serviceType serviceName : Bytes) (direction : Direction)
    (shadowNodeIdentity : Option (Bytes × Bytes)) : Option Bytes :=
  let (msg, reason) := (((((BridgeRegistrationMsgBuilder.new.setDirection direction).setIsService
    true).setServiceType serviceType).setServiceName serviceName).setShadowNodeIdentity
      shadowNodeIdentity).buildMessage
  if reason ≠ "" then none else some (msg.take BridgeMsgType.service.wireSize)

/-! ## The agent's serializers -/

/-- `encode('utf-8')`. -/
def utf8 (name : Name) : Bytes := name.flatMap String.utf8EncodeChar

/-- `encode('utf-8')[: SIZE - 1]`. -/
def cutName (name : Name) : Bytes := (utf8 name).take (textBufferSize - 1)

/-- The conversion `256s` of `struct.pack`, which cuts what is too long. -/
def packText (s : Bytes) : Bytes := (padded textBufferSize s).take textBufferSize

/-- The conversion `I`, which raises when the value does not fit. -/
def packWord (v : ℕ) : Option Bytes := if v < 2 ^ 32 then some (littleEndian 4 v) else none

def serializeRequest (req : BridgeRequest) : Option Bytes := do
  let tag ← packWord BridgeMsgType.daemonPubSub.tag
  let direction ← packWord req.direction
  let qosDepth ← packWord req.qosDepth
  return tag ++ (packText (cutName req.topicName) ++ (packText (cutName req.typeName) ++
    (direction ++ (qosDepth ++ [boolByte req.qosIsTransientLocal,
      boolByte req.qosIsReliable, 0, 0]))))

def serializeServiceRequest (req : ServiceBridgeRequest) : Option Bytes := do
  let tag ← packWord BridgeMsgType.daemonService.tag
  return tag ++ packText (cutName req.serviceName)

/-! ## The receiver -/

/-- The offsets of the fields in a message. -/
def PubSubPayload.messageTypeAt : ℕ := payloadOffset
def PubSubPayload.topicNameAt : ℕ := payloadOffset + 256
def PubSubPayload.targetIdAt : ℕ := payloadOffset + 512
def PubSubPayload.directionAt : ℕ := payloadOffset + 516
def ServicePayload.serviceTypeAt : ℕ := payloadOffset
def ServicePayload.serviceNameAt : ℕ := payloadOffset + 256
def ServicePayload.createShadowNodeAt : ℕ := payloadOffset + 512
def ServicePayload.directionAt : ℕ := payloadOffset + 516
def ServicePayload.shadowNodeNamespaceAt : ℕ := payloadOffset + 520
def ServicePayload.shadowNodeNameAt : ℕ := payloadOffset + 776
def DaemonPubSubPayload.topicNameAt : ℕ := payloadOffset
def DaemonPubSubPayload.typeNameAt : ℕ := payloadOffset + 256
def DaemonPubSubPayload.directionAt : ℕ := payloadOffset + 512
def DaemonPubSubPayload.qosDepthAt : ℕ := payloadOffset + 516
def DaemonPubSubPayload.qosIsTransientLocalAt : ℕ := payloadOffset + 520
def DaemonPubSubPayload.qosIsReliableAt : ℕ := payloadOffset + 521
def DaemonServicePayload.serviceNameAt : ℕ := payloadOffset

namespace BridgeMsg

variable (msg : BridgeMsg)

def word (i : ℕ) : UInt32 := UInt32.ofNat (value ((msg.drop i).take 4))

def bool (i : ℕ) : Bool := (msg.drop i).head?.getD 0 ≠ 0

/-- `std::string(static_cast<const char *>(field))`. -/
def text (i : ℕ) : Option Bytes := cString (msg.drop i)

end BridgeMsg

structure Qos where
  depth : UInt32
  transientLocal : Bool
  reliable : Bool
  deriving DecidableEq, Repr

structure DaemonForcedRequest where
  messageType : Bytes
  qos : Qos
  forcedUntil : ℕ
  deriving DecidableEq, Repr

/-- `DAEMON_FORCE_TTL`, in seconds. -/
def daemonForceTtl : ℕ := 5

def daemonForceDeadline (now : ℕ) : ℕ := now + daemonForceTtl

inductive ServiceBridgeState
  | none
  | pending
  | a2r
  | r2a
  deriving DecidableEq, Repr

structure ServiceBridgeItem where
  state : ServiceBridgeState
  r2aForcedUntil : Option ℕ
  serviceName : Bytes
  serviceType : Option Bytes
  shadowNodeIdentity : Option (Bytes × Bytes)
  mayStartR2aBridge : Bool
  mayStartA2rBridge : Bool
  deriving DecidableEq, Repr

def ServiceBridgeItem.new : ServiceBridgeItem := ⟨.none, none, [], none, none, false, false⟩

/-- What is read of a cached `BridgeMsgPubSubPayload`. -/
structure CachedRequest where
  messageType : Bytes
  direction : Direction
  deriving DecidableEq, Repr

/-- The arguments of `create_pubsub_bridge_if_needed`, with the requests of the topic. -/
structure CreationCall where
  topicName : Bytes
  requests : List (Int32 × CachedRequest)
  messageType : Bytes
  direction : Direction
  deriving DecidableEq, Repr

structure BridgeManager where
  shutdownRequested : Bool
  pendingMsgs : List BridgeMsg
  requestCache : List (Bytes × List (Int32 × CachedRequest))
  daemonForcedR2a : List (Bytes × DaemonForcedRequest)
  daemonForcedA2r : List (Bytes × DaemonForcedRequest)
  activeServiceBridges : List (Bytes × ServiceBridgeItem)
  creations : List CreationCall
  deriving DecidableEq, Repr

/-- The message that `parse_and_enqueue` makes of a datagram, unless it rejects it. -/
def parseBridgeMsg (data : Bytes) : Option BridgeMsg :=
  if data.length < payloadOffset then none
  else
    -- `BridgeMsg msg{}` and the copy into it
    let msg : BridgeMsg := padded bridgeMsgMaxSize (data.take bridgeMsgMaxSize)
    match BridgeMsgType.ofTag (msg.word 0).toNat with
    | none => none
    | some type => if data.length < type.wireSize then none else some msg

/-- A dispatch: the manager afterwards and the fields whose texts were read. -/
abbrev Dispatched := Option (BridgeManager × List ℕ)

def BridgeManager.parseAndEnqueue (m : BridgeManager) (data : Bytes) : BridgeManager :=
  if m.shutdownRequested then m
  else
    match parseBridgeMsg data with
    | none => m
    | some msg => { m with pendingMsgs := m.pendingMsgs ++ [msg] }

namespace ServiceBridgeItem

variable (item : ServiceBridgeItem) (msg : BridgeMsg)

/-- `service_name_` when it is still empty. -/
def readServiceName : Option (ServiceBridgeItem × List ℕ) := do
  if item.serviceName ≠ [] then return (item, [])
  let name ← msg.text ServicePayload.serviceNameAt
  return ({ item with serviceName := name }, [ServicePayload.serviceNameAt])

def readServiceType : Option (ServiceBridgeItem × List ℕ) := do
  if item.serviceType.isSome then return (item, [])
  let type ← msg.text ServicePayload.serviceTypeAt
  return ({ item with serviceType := some type }, [ServicePayload.serviceTypeAt])

def readShadowNodeIdentity : Option (ServiceBridgeItem × List ℕ) := do
  if item.shadowNodeIdentity.isSome || !msg.bool ServicePayload.createShadowNodeAt then
    return (item, [])
  let ns ← msg.text ServicePayload.shadowNodeNamespaceAt
  let name ← msg.text ServicePayload.shadowNodeNameAt
  return ({ item with shadowNodeIdentity := some (ns, name) },
    [ServicePayload.shadowNodeNamespaceAt, ServicePayload.shadowNodeNameAt])

def mayStart (direction : Direction) : ServiceBridgeItem :=
  if direction = UInt32.ofNat directionRos2ToAgnocast then
    { item with mayStartR2aBridge := true }
  else { item with mayStartA2rBridge := true }

def updateConfiguration : Option (ServiceBridgeItem × List ℕ) := do
  let (item, nameRead) ← item.readServiceName msg
  let (item, typeRead) ← item.readServiceType msg
  let (item, shadowRead) ← item.readShadowNodeIdentity msg
  return (item.mayStart (msg.word ServicePayload.directionAt), nameRead ++ typeRead ++ shadowRead)

def toPending : ServiceBridgeItem :=
  if item.state = .none then { item with state := .pending } else item

def handleRequest : Option (ServiceBridgeItem × List ℕ) := do
  let (item, read) ← item.updateConfiguration msg
  return (item.toPending, read)

def handleDaemonRequest (now : ℕ) : ServiceBridgeItem :=
  { item with r2aForcedUntil := some (daemonForceDeadline now) }

end ServiceBridgeItem

namespace BridgeManager

variable (m : BridgeManager) (now : ℕ) (msg : BridgeMsg)

def dispatchService : Dispatched := do
  let serviceName ← msg.text ServicePayload.serviceNameAt
  let item := (Dict.get m.activeServiceBridges serviceName).getD .new
  let (item, read) ← item.handleRequest msg
  return ({ m with activeServiceBridges := Dict.set m.activeServiceBridges serviceName item },
    ServicePayload.serviceNameAt :: read)

/-- `request_cache_[topic_name][target_id] = payload`, and the call. -/
def registerPubsub (topicName : Bytes) (targetId : Int32) (messageType : Bytes)
    (direction : Direction) : BridgeManager :=
  let requests := Dict.set ((Dict.get m.requestCache topicName).getD []) targetId
    ⟨messageType, direction⟩
  { m with
    requestCache := Dict.set m.requestCache topicName requests
    creations := m.creations ++ [⟨topicName, requests, messageType, direction⟩] }

def dispatchPubsub : Dispatched := do
  let topicName ← msg.text PubSubPayload.topicNameAt
  let messageType ← msg.text PubSubPayload.messageTypeAt
  return (m.registerPubsub topicName (msg.word PubSubPayload.targetIdAt).toInt32 messageType
    (msg.word PubSubPayload.directionAt),
    [PubSubPayload.topicNameAt, PubSubPayload.messageTypeAt])

/-- The request under its topic, in the map of its direction. -/
def forceDaemonPubsub (topicName messageType : Bytes) (direction : Direction) (qos : Qos) :
    BridgeManager :=
  let request := ⟨messageType, qos, daemonForceDeadline now⟩
  if direction = UInt32.ofNat directionRos2ToAgnocast then
    { m with daemonForcedR2a := Dict.set m.daemonForcedR2a topicName request }
  else { m with daemonForcedA2r := Dict.set m.daemonForcedA2r topicName request }

def registerDaemonPubsubRequest : Dispatched := do
  let topicName ← msg.text DaemonPubSubPayload.topicNameAt
  let messageType ← msg.text DaemonPubSubPayload.typeNameAt
  return (m.forceDaemonPubsub now topicName messageType (msg.word DaemonPubSubPayload.directionAt)
      ⟨msg.word DaemonPubSubPayload.qosDepthAt,
        msg.bool DaemonPubSubPayload.qosIsTransientLocalAt,
        msg.bool DaemonPubSubPayload.qosIsReliableAt⟩,
    [DaemonPubSubPayload.topicNameAt, DaemonPubSubPayload.typeNameAt])

def leaseService (serviceName : Bytes) : BridgeManager :=
  match Dict.get m.activeServiceBridges serviceName with
  | none => m
  | some item =>
    { m with
      activeServiceBridges :=
        Dict.set m.activeServiceBridges serviceName (item.handleDaemonRequest now) }

def registerDaemonServiceRequest : Dispatched := do
  let serviceName ← msg.text DaemonServicePayload.serviceNameAt
  return (m.leaseService now serviceName, [DaemonServicePayload.serviceNameAt])

def dispatchBridgeMessage : Dispatched :=
  match BridgeMsgType.ofTag (msg.word 0).toNat with
  | some .service => m.dispatchService msg
  | some .pubSub => m.dispatchPubsub msg
  | some .daemonPubSub => m.registerDaemonPubsubRequest now msg
  | some .daemonService => m.registerDaemonServiceRequest now msg
  | none => some (m, [])

end BridgeManager

end Agnocast
