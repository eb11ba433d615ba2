import Agnocast.Bridge.BridgeMsg
import Agnocast.Bridge.GroupRegistry
import Agnocast.Lib.WeakCache

/-!
# The bridge manager — a service bridge

The bridge manager has a `ServiceBridgeItem` for every service that one of its processes serves or
calls. Requests set what the item may do; once in a while it looks for the service and for clients
on both sides and starts or removes its bridge.

* `ServiceBridge`  — the item with its bridge, its shadow node and its error string.
* `TickAnswers`    — what the probes, the loader and the clock answer during a tick.
* `ServiceBridge.checkAndUpdate` — the tick.
* `Probe.Only`     — a probe changes nothing but the error string.

The bridge's entities, its callback groups and the shadow nodes are numbers. A function is `none`
when the executor exits the process. The log is left out.
-/

namespace Agnocast

/-! ## The item -/

/-- What the loader made; what is not there is `nullptr`. -/
structure ServiceBridgeEntity where
  entityHandle : Option Nat
  srvCbGroup : Option Nat
  clientCbGroup : Option Nat
  deriving DecidableEq, Repr

def ServiceBridgeEntity.null : ServiceBridgeEntity := ⟨none, none, none⟩

/-- The groups that are there. -/
def ServiceBridgeEntity.groups (entity : ServiceBridgeEntity) : List Nat :=
  entity.srvCbGroup.toList ++ entity.clientCbGroup.toList

/-- `ServiceBridgeItem` with all its members. -/
structure ServiceBridge extends ServiceBridgeItem where
  errorString : String
  entity : ServiceBridgeEntity
  shadowNode : Option Nat
  deriving DecidableEq, Repr

def ServiceBridge.new : ServiceBridge := ⟨.new, "", .null, none⟩

/-- What the items share: the executor of the manager, and `g_shadow_nodes`. -/
structure BridgeWorld where
  executor : GroupRegistry
  shadowNodes : WeakCache (Bytes × Bytes)

/-! ## Answers -/

/-- What a query of the ROS graph gives. A `std::exception` has a text. -/
abbrev GraphQuery := Except (Option String) Bool

/-- What `AGNOCAST_GET_TOPIC_SUBSCRIBER_INFO_CMD` gives with room for one entry: its depth and
whether it is reliable. -/
inductive TopicInfoReply
  | failed (enobufs : Bool)
  | infos (first : Option (UInt32 × Bool))
  deriving DecidableEq, Repr

/-- What `AGNOCAST_GET_PUBLISHER_NUM_CMD` gives. -/
structure PublisherNumReply where
  publisherNum : UInt32
  r2aBridgeExist : Bool
  deriving DecidableEq, Repr

/-- What becomes of a shadow node that is to be created. -/
inductive ShadowNodeReply
  | created
  | parseFailed
  | initFailed
  deriving DecidableEq, Repr

/-- What becomes of a bridge that is to be created. -/
inductive ServiceBridgeReply
  | entity (entity : ServiceBridgeEntity)
  | threw (what : Option String)
  deriving DecidableEq, Repr

/-- The loader, which gets the name and the type of the service and a QoS. -/
structure ServiceBridgeLoader where
  createR2aServiceBridge : Bytes → Bytes → Qos → ServiceBridgeReply
  createA2rServiceBridge : Bytes → Bytes → Qos → ServiceBridgeReply

/-- The answers of one tick, each for one call; a failed count has no reply. -/
structure TickAnswers where
  agnoService : TopicInfoReply
  /-- In `start_r2a_bridge`. -/
  agnoServiceQos : TopicInfoReply
  ros2Service : GraphQuery
  ros2Client : GraphQuery
  agnoClient : Option PublisherNumReply
  /-- The second call of a tick in pending. -/
  agnoClientAgain : Option PublisherNumReply
  shadowNode : ShadowNodeReply
  now : ℕ
  bridgeLoader : Option ServiceBridgeLoader

def isDaemonForceActive (deadline now : ℕ) : Bool := now < deadline

/-- The count of `get_agnocast_publisher_count`. -/
def getAgnocastPublisherCount : Option PublisherNumReply → Int
  | none => -1
  | some reply =>
    let totalPubs := reply.publisherNum.toInt32.toInt
    if reply.r2aBridgeExist && 0 < totalPubs then totalPubs - 1 else totalPubs

/-- `rclcpp::ServicesQoS()`. -/
def servicesQos : Qos := ⟨10, false, true⟩

/-! ## Probes -/

namespace ServiceBridge

def setErrorString (x : ServiceBridge) (errorString : String) : ServiceBridge :=
  { x with errorString := errorString }

end ServiceBridge

/-- A test that may set the error string. -/
abbrev Probe := ServiceBridge → Bool × ServiceBridge

namespace Probe

/-- `p() && q()`. -/
def and (p q : Probe) : Probe := fun x => if (p x).1 then q (p x).2 else (false, (p x).2)

/-- `p() || q()`. -/
def or (p q : Probe) : Probe := fun x => if (p x).1 then (true, (p x).2) else q (p x).2

/-- A test that sets nothing. -/
def test (b : ServiceBridge → Bool) : Probe := fun x => (b x, x)

end Probe

namespace ServiceBridge

/-- A query of the graph, and the error string when nothing is found. -/
def graphProbe (missing : String) (answer : GraphQuery) : Probe := fun x =>
  match answer with
  | .ok true => (true, x)
  | .ok false => (false, x.setErrorString missing)
  | .error (some what) => (false, x.setErrorString what)
  | .error none => (false, x.setErrorString "Unknown error")

def ros2ServiceExists (answer : GraphQuery) : Probe :=
  graphProbe "No target ROS 2 service found" answer

def ros2ClientExists (answer : GraphQuery) : Probe :=
  graphProbe "No external ROS 2 client found" answer

def getAgnoServiceQos (x : ServiceBridge) : TopicInfoReply → Option Qos × ServiceBridge
  | .failed true => (none, x.setErrorString "Multiple target agnocast services found")
  | .failed false =>
    (none, x.setErrorString
      "Failed to fetch target service information from agnocast kernel module")
  | .infos none => (none, x.setErrorString "No target agnocast service found")
  | .infos (some (depth, reliable)) => (some ⟨depth, false, reliable⟩, x)

def agnoServiceExists (answer : TopicInfoReply) : Probe := fun x =>
  ((x.getAgnoServiceQos answer).1.isSome, (x.getAgnoServiceQos answer).2)

def agnoClientExists (answer : Option PublisherNumReply) : Probe := fun x =>
  let count := getAgnocastPublisherCount answer
  if count = -1 then
    (false, x.setErrorString "Failed to fetch publisher count from agnocast kernel module")
  else if count = 0 then (false, x.setErrorString "No target Agnocast client found")
  else (true, x)

def r2aForced (now : ℕ) : Probe :=
  Probe.test fun x => x.r2aForcedUntil.any fun deadline => isDaemonForceActive deadline now

/-! ## Shadow nodes -/

def findOrCreateShadowNode (x : ServiceBridge) (shadowNodes : WeakCache (Bytes × Bytes))
    (identity : Bytes × Bytes) (answer : ShadowNodeReply) :
    Option Nat × ServiceBridge × WeakCache (Bytes × Bytes) :=
  match shadowNodes.find identity with
  | some (node, shadowNodes) => (some node, x, shadowNodes)
  | none =>
    match answer with
    | .parseFailed =>
      (none, x.setErrorString "Failed to parse arguments while creating shadow node", shadowNodes)
    | .initFailed => (none, x.setErrorString "Failed to initialize shadow node", shadowNodes)
    | .created => (some (shadowNodes.create identity).1, x, (shadowNodes.create identity).2)

/-- It answers whether the item has its node, or wants none. -/
def acquireShadowNode (x : ServiceBridge) (w : BridgeWorld) (answer : ShadowNodeReply) :
    Bool × ServiceBridge × BridgeWorld :=
  match x.shadowNodeIdentity, x.shadowNode with
  | some identity, none =>
    let (node, x, shadowNodes) := x.findOrCreateShadowNode w.shadowNodes identity answer
    (node.isSome, { x with shadowNode := node }, { w with shadowNodes := shadowNodes })
  | _, _ => (true, x, w)

def releaseShadowNode (x : ServiceBridge) (w : BridgeWorld) : ServiceBridge × BridgeWorld :=
  match x.shadowNode, x.shadowNodeIdentity with
  | some node, some identity =>
    ({ x with shadowNode := none },
      { w with shadowNodes := (w.shadowNodes.drop node).eraseExpired identity })
  | some node, none =>
    ({ x with shadowNode := none }, { w with shadowNodes := w.shadowNodes.drop node })
  | none, _ => (x, w)

/-! ## Starting and removing a bridge -/

/-- What `start_r2a_bridge` and `start_a2r_bridge` have in common: the call of the loader, and
the return code. -/
def startBridge (x : ServiceBridge) (w : BridgeWorld) (state : ServiceBridgeState)
    (create : Option (Bytes → ServiceBridgeReply)) : Option (Int × ServiceBridge × BridgeWorld) :=
  match x.serviceType, create with
  | some serviceType, some create =>
    match create serviceType with
    | .threw what => some (-1, x.setErrorString (what.getD "Unknown error"), w)
    | .entity entity =>
      if entity.entityHandle.isNone then
        some (-1, x.setErrorString "Bridge loader returned nullptr", w)
      else
        (w.executor.addIfPresent entity.srvCbGroup).bind fun executor =>
          (executor.addIfPresent entity.clientCbGroup).map fun executor =>
            (0, { x with state := state, entity := entity }, { w with executor := executor })
  | _, _ => some (-1, x.setErrorString "missing configuration members or bridge loader", w)

def startR2aBridge (x : ServiceBridge) (w : BridgeWorld) (a : TickAnswers) :
    Option (Int × ServiceBridge × BridgeWorld) :=
  -- only for a warning
  let x := (ros2ServiceExists a.ros2Service x).2
  match x.getAgnoServiceQos a.agnoServiceQos with
  | (none, x) => some (-1, x, w)
  | (some qos, x) =>
    x.startBridge w .r2a (a.bridgeLoader.map fun loader serviceType =>
      loader.createR2aServiceBridge x.serviceName serviceType qos)

def startA2rBridge (x : ServiceBridge) (w : BridgeWorld) (a : TickAnswers) :
    Option (Int × ServiceBridge × BridgeWorld) :=
  x.startBridge w .a2r (a.bridgeLoader.map fun loader serviceType =>
    loader.createA2rServiceBridge x.serviceName serviceType servicesQos)

/-- The end of `check_and_update_r2a` and of `check_and_update_a2r`. -/
def removeBridge (x : ServiceBridge) (w : BridgeWorld) : Option (ServiceBridge × BridgeWorld) :=
  (w.executor.removeAndStop x.entity.srvCbGroup).bind fun executor =>
    (executor.removeAndStop x.entity.clientCbGroup).map fun executor =>
      ({ x with state := .pending, entity := .null }, { w with executor := executor })

/-! ## The tick -/

/-- What a tick shows: the return code, if it has tried to start a bridge. -/
inductive TickReply
  | quiet
  | started (code : Int)
  deriving DecidableEq, Repr

def checkAndUpdateR2a (x : ServiceBridge) (w : BridgeWorld) (a : TickAnswers) :
    Option (TickReply × ServiceBridge × BridgeWorld) :=
  let (stays, x) := ((agnoServiceExists a.agnoService).and
    ((ros2ClientExists a.ros2Client).or (r2aForced a.now))) x
  if stays then some (.quiet, x, w) else (x.removeBridge w).map fun r => (.quiet, r)

def checkAndUpdateA2r (x : ServiceBridge) (w : BridgeWorld) (a : TickAnswers) :
    Option (TickReply × ServiceBridge × BridgeWorld) :=
  let (owned, x) := ((Probe.test (·.mayStartR2aBridge)).and (agnoServiceExists a.agnoService)) x
  if owned then
    ((x.setErrorString "An Agnocast service now owns this name").removeBridge w).map fun r =>
      (.quiet, r)
  else
    let (stays, x) := ((ros2ServiceExists a.ros2Service).and (agnoClientExists a.agnoClient)) x
    if stays then some (.quiet, x, w) else (x.removeBridge w).map fun r => (.quiet, r)

def checkAndUpdatePending (x : ServiceBridge) (w : BridgeWorld) (a : TickAnswers) :
    Option (TickReply × ServiceBridge × BridgeWorld) :=
  let (served, x) := ((Probe.test (·.mayStartR2aBridge)).and (agnoServiceExists a.agnoService)) x
  if served then
    let (acquired, x, w) := x.acquireShadowNode w a.shadowNode
    if acquired then
      let (wanted, x) := ((ros2ClientExists a.ros2Client).or (r2aForced a.now)) x
      if wanted then (x.startR2aBridge w a).map fun r => (.started r.1, r.2)
      else some (.quiet, x, w)
    else some (.quiet, x, w)
  else
    -- without the service there is no shadow node
    let (x, w) := x.releaseShadowNode w
    let (wanted, x) := ((Probe.test (·.mayStartA2rBridge)).and
      ((ros2ServiceExists a.ros2Service).and (agnoClientExists a.agnoClient))) x
    if wanted then (x.startA2rBridge w a).map fun r => (.started r.1, r.2)
    else
      -- without a client nobody wants the bridge any more
      let (client, x) := agnoClientExists a.agnoClientAgain x
      some (.quiet, if client then x else { x with state := .none }, w)

def checkAndUpdate (x : ServiceBridge) (w : BridgeWorld) (a : TickAnswers) :
    Option (TickReply × ServiceBridge × BridgeWorld) :=
  match x.state with
  | .pending => x.checkAndUpdatePending w a
  | .r2a => x.checkAndUpdateR2a w a
  | .a2r => x.checkAndUpdateA2r w a
  | .none => some (.quiet, x, w)

/-- `handle_request`, unless a text of the payload runs past the message. -/
def handleRequest (x : ServiceBridge) (msg : BridgeMsg) : Option ServiceBridge :=
  (x.toServiceBridgeItem.handleRequest msg).map fun r => { x with toServiceBridgeItem := r.1 }

def handleDaemonRequest (x : ServiceBridge) (now : ℕ) : ServiceBridge :=
  { x with toServiceBridgeItem := x.toServiceBridgeItem.handleDaemonRequest now }

end ServiceBridge

/-! ## What a probe does -/

/-- What the answers say. -/
def GraphQuery.found : GraphQuery → Bool
  | .ok found => found
  | .error _ => false

def TopicInfoReply.found : TopicInfoReply → Bool
  | .infos (some _) => true
  | _ => false

def clientFound (answer : Option PublisherNumReply) : Bool :=
  getAgnocastPublisherCount answer ≠ -1 && getAgnocastPublisherCount answer ≠ 0

/-- A probe that changes nothing but the error string. -/
def Probe.Only (p : Probe) (b : ServiceBridge → Bool) : Prop :=
  ∀ x, ∃ e, p x = (b x, x.setErrorString e)

/-- A condition that does not depend on the error string. -/
def Steady (b : ServiceBridge → Bool) : Prop := ∀ x e, b (x.setErrorString e) = b x

section

variable {p q : Probe} {b c : ServiceBridge → Bool}

theorem Probe.Only.and (hp : p.Only b) (hq : q.Only c) (hc : Steady c) :
    (p.and q).Only fun x => b x && c x := by
  intro x
  obtain ⟨e, he⟩ := hp x
  obtain ⟨e', he'⟩ := hq (x.setErrorString e)
  unfold Probe.and
  rw [he]
  dsimp only
  cases hb : b x with
  | true =>
    rw [if_pos rfl, he', hc]
    exact ⟨e', rfl⟩
  | false =>
    rw [if_neg Bool.false_ne_true]
    exact ⟨e, rfl⟩

theorem Probe.Only.or (hp : p.Only b) (hq : q.Only c) (hc : Steady c) :
    (p.or q).Only fun x => b x || c x := by
  intro x
  obtain ⟨e, he⟩ := hp x
  obtain ⟨e', he'⟩ := hq (x.setErrorString e)
  unfold Probe.or
  rw [he]
  dsimp only
  cases hb : b x with
  | true =>
    rw [if_pos rfl]
    exact ⟨e, rfl⟩
  | false =>
    rw [if_neg Bool.false_ne_true, he', hc]
    exact ⟨e', rfl⟩

theorem Probe.only_test : (Probe.test b).Only b := fun x => ⟨x.errorString, rfl⟩

end

namespace ServiceBridge

theorem only_graphProbe (missing : String) (answer : GraphQuery) :
    (graphProbe missing answer).Only fun _ => answer.found := by
  intro x
  cases answer with
  | ok found =>
    cases found with
    | true => exact ⟨x.errorString, rfl⟩
    | false => exact ⟨missing, rfl⟩
  | error what =>
    cases what with
    | some what => exact ⟨what, rfl⟩
    | none => exact ⟨_, rfl⟩

theorem getAgnoServiceQos_eq (x : ServiceBridge) (answer : TopicInfoReply) :
    ∃ e, (x.getAgnoServiceQos answer).2 = x.setErrorString e ∧
      (x.getAgnoServiceQos answer).1.isSome = answer.found := by
  cases answer with
  | failed enobufs => cases enobufs <;> exact ⟨_, rfl, rfl⟩
  | infos first =>
    cases first with
    | none => exact ⟨_, rfl, rfl⟩
    | some info => exact ⟨x.errorString, rfl, rfl⟩

theorem only_agnoServiceExists (answer : TopicInfoReply) :
    (agnoServiceExists answer).Only fun _ => answer.found := by
  intro x
  obtain ⟨e, he, hfound⟩ := x.getAgnoServiceQos_eq answer
  exact ⟨e, Prod.ext hfound he⟩

theorem only_agnoClientExists (answer : Option PublisherNumReply) :
    (agnoClientExists answer).Only fun _ => clientFound answer := by
  intro x
  unfold agnoClientExists clientFound
  by_cases hfailed : getAgnocastPublisherCount answer = -1
  · exact ⟨_, by simp [hfailed]; rfl⟩
  · by_cases hzero : getAgnocastPublisherCount answer = 0
    · exact ⟨_, by simp [hzero]; rfl⟩
    · exact ⟨x.errorString, by simp [hfailed, hzero]; rfl⟩

/-- The daemon's lease on the R2A bridge. -/
def forced (x : ServiceBridge) (now : ℕ) : Bool :=
  x.r2aForcedUntil.any fun deadline => isDaemonForceActive deadline now

/-- `may_start_r2a_bridge_ && agno_service_exists()`. -/
def served (x : ServiceBridge) (a : TickAnswers) : Bool :=
  x.mayStartR2aBridge && a.agnoService.found

/-- `ros2_client_exists() || r2a_forced()`. -/
def r2aWanted (x : ServiceBridge) (a : TickAnswers) : Bool := a.ros2Client.found || x.forced a.now

/-- `may_start_a2r_bridge_ && ros2_service_exists() && agno_client_exists()`. -/
def a2rWanted (x : ServiceBridge) (a : TickAnswers) : Bool :=
  x.mayStartA2rBridge && (a.ros2Service.found && clientFound a.agnoClient)

theorem only_served (a : TickAnswers) :
    ((Probe.test (·.mayStartR2aBridge)).and (agnoServiceExists a.agnoService)).Only (served · a) :=
  Probe.only_test.and (only_agnoServiceExists _) fun _ _ => rfl

theorem only_r2aWanted (a : TickAnswers) :
    ((ros2ClientExists a.ros2Client).or (r2aForced a.now)).Only (r2aWanted · a) :=
  (only_graphProbe _ _).or Probe.only_test fun _ _ => rfl

theorem only_a2rWanted (a : TickAnswers) :
    ((Probe.test (·.mayStartA2rBridge)).and
      ((ros2ServiceExists a.ros2Service).and (agnoClientExists a.agnoClient))).Only
        (a2rWanted · a) :=
  Probe.only_test.and ((only_graphProbe _ _).and (only_agnoClientExists _) fun _ _ => rfl)
    fun _ _ => rfl

end ServiceBridge

end Agnocast
