import Agnocast.Bridge.BridgeMsg

/-!
# The bridges — what is sent is what is acted on

The three writers and the reader of bridge messages agree on the four layouts: a datagram
that a sender builds is taken as the request it was built from. The C++ senders give up when
a text does not fit its buffer; the agent's serializers cut its UTF-8 encoding to what fits.

* `takenAs_pubsub`, `takenAs_service`, `takenAs_daemonPubsub`, `takenAs_daemonService` —
  the round trip of each kind of request.
* `rejects_iff`                — the datagrams that are rejected.
* `endsInside_iff`             — when the reading of a text stays inside its field.
* `bridge_messages_act_as_sent` — the four kinds of request, and every datagram.
-/

namespace Agnocast

open Wire (littleEndian value upToNul cString padded)

/-! ## Requests -/

/-- What a process or the agent asks a bridge manager for. -/
inductive BridgeRegistration
  | pubsub (topicName : Bytes) (targetId : Int32) (messageType : Bytes) (direction : Direction)
  | service (serviceType serviceName : Bytes) (direction : Direction)
      (shadowNodeIdentity : Option (Bytes × Bytes))
  | daemonPubsub (topicName typeName : Bytes) (direction : Direction) (qos : Qos)
  | daemonService (serviceName : Bytes)
  deriving DecidableEq, Repr

/-- What a service item makes of a request: name, type and identity are set once. -/
def ServiceBridgeItem.register (item : ServiceBridgeItem) (serviceType serviceName : Bytes)
    (direction : Direction) (shadowNodeIdentity : Option (Bytes × Bytes)) : ServiceBridgeItem :=
  ({ item with
      serviceName := if item.serviceName = [] then serviceName else item.serviceName
      serviceType := item.serviceType.or (some serviceType)
      shadowNodeIdentity := item.shadowNodeIdentity.or shadowNodeIdentity }.mayStart
    direction).toPending

/-- What a manager is to do on a request. -/
def BridgeManager.act (m : BridgeManager) (now : ℕ) : BridgeRegistration → BridgeManager
  | .pubsub topicName targetId messageType direction =>
    m.registerPubsub topicName targetId messageType direction
  | .service serviceType serviceName direction shadowNodeIdentity =>
    { m with
      activeServiceBridges :=
        Dict.set m.activeServiceBridges serviceName
          (((Dict.get m.activeServiceBridges serviceName).getD .new).register serviceType
            serviceName direction shadowNodeIdentity) }
  | .daemonPubsub topicName typeName direction qos =>
    m.forceDaemonPubsub now topicName typeName direction qos
  | .daemonService serviceName => m.leaseService now serviceName

/-- The reading of the text at `i` stays inside its field. -/
def EndsInside (msg : BridgeMsg) (i : ℕ) : Prop :=
  ∃ text, msg.text i = some text ∧ text.length < textBufferSize

/-- A manager that is not shutting down queues `msg` for this datagram. -/
def Accepts (data : Bytes) (msg : BridgeMsg) : Prop :=
  ∀ m : BridgeManager, m.parseAndEnqueue data =
    if m.shutdownRequested then m else { m with pendingMsgs := m.pendingMsgs ++ [msg] }

def Rejects (data : Bytes) : Prop := ∀ m : BridgeManager, m.parseAndEnqueue data = m

/-- The dispatch does what the request says, and no text is read beyond its field. -/
def ActsAs (msg : BridgeMsg) (r : BridgeRegistration) : Prop :=
  ∀ (m : BridgeManager) (now : ℕ), ∃ read,
    m.dispatchBridgeMessage now msg = some (m.act now r, read) ∧ ∀ i ∈ read, EndsInside msg i

/-- The datagram is queued, and its dispatch acts as the request. -/
def TakenAs (data : Bytes) (r : BridgeRegistration) : Prop :=
  ∃ msg, Accepts data msg ∧ ActsAs msg r

/-- The text fields of a payload. -/
def BridgeMsgType.texts : BridgeMsgType → List ℕ
  | .pubSub => [PubSubPayload.topicNameAt, PubSubPayload.messageTypeAt]
  | .service => [ServicePayload.serviceNameAt, ServicePayload.serviceTypeAt,
      ServicePayload.shadowNodeNamespaceAt, ServicePayload.shadowNodeNameAt]
  | .daemonPubSub => [DaemonPubSubPayload.topicNameAt, DaemonPubSubPayload.typeNameAt]
  | .daemonService => [DaemonServicePayload.serviceNameAt]

/-- The tag of a datagram. -/
def tagOf (data : Bytes) : ℕ := value (data.take payloadOffset)

/-- A datagram with the tag and at least the size of this kind. -/
def IsDatagramOf (data : Bytes) (type : BridgeMsgType) : Prop :=
  tagOf data = type.tag ∧ type.wireSize ≤ data.length

/-! ## Datagrams -/

theorem accepts_of_parse {data : Bytes} {msg : BridgeMsg} (h : parseBridgeMsg data = some msg) :
    Accepts data msg := fun m => by
  rw [BridgeManager.parseAndEnqueue, h]

theorem rejects_of_parse {data : Bytes} (h : parseBridgeMsg data = none) : Rejects data :=
  fun m => by
    rw [BridgeManager.parseAndEnqueue, h]
    exact ite_self m

theorem BridgeMsgType.ofTag_tag (type : BridgeMsgType) : ofTag type.tag = some type := by
  cases type <;> rfl

theorem BridgeMsgType.tag_of_ofTag {type : BridgeMsgType} {n : ℕ} (h : ofTag n = some type) :
    n = type.tag := by
  unfold ofTag at h
  split at h <;> cases h <;> rfl

theorem BridgeMsgType.wireSize_le (type : BridgeMsgType) : type.wireSize ≤ bridgeMsgMaxSize := by
  cases type <;> decide

theorem BridgeMsgType.payloadOffset_le (type : BridgeMsgType) : payloadOffset ≤ type.wireSize := by
  cases type <;> decide

/-- The tag selects the case of the dispatch. -/
theorem ofTag_word (type : BridgeMsgType) (b : Bytes) :
    BridgeMsgType.ofTag (BridgeMsg.word (littleEndian 4 type.tag ++ b) 0).toNat = some type := by
  rw [BridgeMsg.word, List.drop_zero, List.take_left' Wire.length_littleEndian,
    Wire.value_littleEndian (by cases type <;> decide), ← BridgeMsgType.ofTag_tag type]
  cases type <;> rfl

private theorem value_lt (l : Bytes) : value l < 256 ^ l.length := by
  induction l with
  | nil => exact Nat.one_pos
  | cons b l ih =>
    rw [value, List.length_cons, Nat.pow_succ]
    have hb := b.toNat_lt
    omega

/-- A datagram of the size of its kind is queued as it is, with zeros behind it. -/
theorem parse_datagram {type : BridgeMsgType} {payload : Bytes}
    (h : payloadOffset + payload.length = type.wireSize) :
    parseBridgeMsg (littleEndian 4 type.tag ++ payload) = some (littleEndian 4 type.tag ++
      (payload ++ List.replicate (bridgeMsgMaxSize - type.wireSize) 0)) := by
  have hlength : (littleEndian 4 type.tag ++ payload).length = type.wireSize := by
    rw [List.length_append, Wire.length_littleEndian]
    exact h
  have htake : (littleEndian 4 type.tag ++ payload).take bridgeMsgMaxSize =
      littleEndian 4 type.tag ++ payload :=
    List.take_of_length_le (hlength ▸ type.wireSize_le)
  rw [parseBridgeMsg, if_neg (by rw [hlength]; exact Nat.not_lt.mpr type.payloadOffset_le), htake,
    padded, hlength, List.append_assoc]
  simp only [ofTag_word, Nat.lt_irrefl, if_false]

/-! ## The layouts -/

section Layouts

variable {chunks : List Bytes} {k i : ℕ}

theorem word_chunk (v : UInt32) (hk : chunks[k]? = some (littleEndian 4 v.toNat))
    (hi : Wire.start chunks k = i) : BridgeMsg.word chunks.flatten i = v := by
  obtain ⟨rest, hrest⟩ := Wire.drop_flatten hk hi
  rw [BridgeMsg.word, hrest, List.take_left' Wire.length_littleEndian,
    Wire.value_littleEndian v.toNat_lt, UInt32.ofNat_toNat]

theorem bool_chunk {v : Bool} {after : Bytes} (hk : chunks[k]? = some (boolByte v :: after))
    (hi : Wire.start chunks k = i) : BridgeMsg.bool chunks.flatten i = v := by
  obtain ⟨rest, hrest⟩ := Wire.drop_flatten hk hi
  rw [BridgeMsg.bool, hrest]
  cases v <;> rfl

theorem text_chunk {s : Bytes} (hs : s.length < textBufferSize)
    (hk : chunks[k]? = some (padded textBufferSize s))
    (hi : Wire.start chunks k = i) :
    BridgeMsg.text chunks.flatten i = some (upToNul s) := by
  obtain ⟨rest, hrest⟩ := Wire.drop_flatten hk hi
  rw [BridgeMsg.text, hrest, Wire.cString_field hs]

theorem endsInside_of_text {msg : BridgeMsg} {s : Bytes} (hs : s.length < textBufferSize)
    (h : msg.text i = some (upToNul s)) : EndsInside msg i :=
  ⟨_, h, Nat.lt_of_le_of_lt Wire.length_upToNul_le hs⟩

theorem length_padded_textBuffer {s : Bytes} (hs : s.length < textBufferSize) :
    (padded textBufferSize s).length = textBufferSize := Wire.length_padded hs.le

theorem actsAs_pubsub {messageType topicName : Bytes} (targetId : Int32) (direction : Direction)
    (rest : Bytes) (htype : messageType.length < textBufferSize)
    (htopic : topicName.length < textBufferSize) :
    ActsAs [littleEndian 4 BridgeMsgType.pubSub.tag, padded textBufferSize messageType,
        padded textBufferSize topicName, littleEndian 4 targetId.toUInt32.toNat,
        littleEndian 4 direction.toNat, rest].flatten
      (.pubsub (upToNul topicName) targetId (upToNul messageType) direction) := by
  intro m now
  set chunks := [littleEndian 4 BridgeMsgType.pubSub.tag, padded textBufferSize messageType,
    padded textBufferSize topicName, littleEndian 4 targetId.toUInt32.toNat,
    littleEndian 4 direction.toNat, rest] with hchunks
  have htag : BridgeMsgType.ofTag (BridgeMsg.word chunks.flatten 0).toNat = some .pubSub :=
    ofTag_word .pubSub _
  have hlt := length_padded_textBuffer htype
  have hlo := length_padded_textBuffer htopic
  have htypeAt : BridgeMsg.text chunks.flatten PubSubPayload.messageTypeAt = _ :=
    text_chunk (k := 1) htype rfl rfl
  have htopicAt : BridgeMsg.text chunks.flatten PubSubPayload.topicNameAt = _ :=
    text_chunk (k := 2) htopic rfl (by
      simp only [hchunks, Wire.start, Wire.length_littleEndian, hlt]; rfl)
  have hidAt : BridgeMsg.word chunks.flatten PubSubPayload.targetIdAt = _ :=
    word_chunk (k := 3) targetId.toUInt32 rfl (by
      simp only [hchunks, Wire.start, Wire.length_littleEndian, hlt, hlo]; rfl)
  have hdirectionAt : BridgeMsg.word chunks.flatten PubSubPayload.directionAt = _ :=
    word_chunk (k := 4) direction rfl (by
      simp only [hchunks, Wire.start, Wire.length_littleEndian, hlt, hlo]; rfl)
  refine ⟨[PubSubPayload.topicNameAt, PubSubPayload.messageTypeAt], ?_, ?_⟩
  · simp only [BridgeManager.dispatchBridgeMessage, htag, BridgeManager.dispatchPubsub, htypeAt,
      htopicAt, hidAt, hdirectionAt, Int32.toInt32_toUInt32, Option.pure_def, Option.bind_eq_bind,
      Option.bind_some, BridgeManager.act]
  · intro i hi
    rcases List.mem_pair.mp hi with rfl | rfl
    · exact endsInside_of_text htopic htopicAt
    · exact endsInside_of_text htype htypeAt

section Item

variable {msg : BridgeMsg} {item : ServiceBridgeItem} {serviceType serviceName ns name : Bytes}

theorem readServiceName_eq (item : ServiceBridgeItem)
    (h : msg.text ServicePayload.serviceNameAt = some serviceName) :
    ∃ read, item.readServiceName msg = some ({ item with
        serviceName := if item.serviceName = [] then serviceName else item.serviceName }, read) ∧
      read ⊆ [ServicePayload.serviceNameAt] := by
  unfold ServiceBridgeItem.readServiceName
  by_cases hempty : item.serviceName = []
  · exact ⟨_, by simp [hempty, h], List.Subset.refl _⟩
  · exact ⟨[], by simp [hempty], List.nil_subset _⟩

theorem readServiceType_eq (item : ServiceBridgeItem)
    (h : msg.text ServicePayload.serviceTypeAt = some serviceType) :
    ∃ read, item.readServiceType msg = some ({ item with
        serviceType := item.serviceType.or (some serviceType) }, read) ∧
      read ⊆ [ServicePayload.serviceTypeAt] := by
  unfold ServiceBridgeItem.readServiceType
  obtain ⟨state, forcedUntil, service, _ | type, identity, r2a, a2r⟩ := item
  · exact ⟨_, by simp [h], List.Subset.refl _⟩
  · exact ⟨[], by simp, List.nil_subset _⟩

theorem readShadowNodeIdentity_eq (item : ServiceBridgeItem) {createShadowNode : Bool}
    (hcreate : msg.bool ServicePayload.createShadowNodeAt = createShadowNode)
    (hns : msg.text ServicePayload.shadowNodeNamespaceAt = some ns)
    (hname : msg.text ServicePayload.shadowNodeNameAt = some name) :
    ∃ read, item.readShadowNodeIdentity msg = some ({ item with
        shadowNodeIdentity := item.shadowNodeIdentity.or
          (if createShadowNode then some (ns, name) else none) }, read) ∧
      read ⊆ [ServicePayload.shadowNodeNamespaceAt, ServicePayload.shadowNodeNameAt] := by
  unfold ServiceBridgeItem.readShadowNodeIdentity
  rw [hcreate]
  obtain ⟨state, forcedUntil, service, type, _ | identity, r2a, a2r⟩ := item
  · cases createShadowNode with
    | true => exact ⟨_, by simp [hns, hname], List.Subset.refl _⟩
    | false => exact ⟨[], by simp, List.nil_subset _⟩
  · exact ⟨[], by simp, List.nil_subset _⟩

/-- The item registers what the texts and fields of the message say. -/
theorem handleRequest_eq (item : ServiceBridgeItem) {direction : Direction}
    {createShadowNode : Bool}
    (htype : msg.text ServicePayload.serviceTypeAt = some serviceType)
    (hservice : msg.text ServicePayload.serviceNameAt = some serviceName)
    (hcreate : msg.bool ServicePayload.createShadowNodeAt = createShadowNode)
    (hdirection : msg.word ServicePayload.directionAt = direction)
    (hns : msg.text ServicePayload.shadowNodeNamespaceAt = some ns)
    (hname : msg.text ServicePayload.shadowNodeNameAt = some name) :
    ∃ read, item.handleRequest msg = some (item.register serviceType serviceName direction
        (if createShadowNode then some (ns, name) else none), read) ∧
      read ⊆ [ServicePayload.serviceNameAt, ServicePayload.serviceTypeAt,
        ServicePayload.shadowNodeNamespaceAt, ServicePayload.shadowNodeNameAt] := by
  obtain ⟨nameRead, hitem1, hread1⟩ := readServiceName_eq item hservice
  obtain ⟨typeRead, hitem2, hread2⟩ := readServiceType_eq { item with
    serviceName := if item.serviceName = [] then serviceName else item.serviceName } htype
  obtain ⟨shadowRead, hitem3, hread3⟩ := readShadowNodeIdentity_eq { item with
    serviceName := if item.serviceName = [] then serviceName else item.serviceName
    serviceType := item.serviceType.or (some serviceType) } hcreate hns hname
  refine ⟨nameRead ++ typeRead ++ shadowRead, ?_, ?_⟩
  · simp only [ServiceBridgeItem.handleRequest, ServiceBridgeItem.updateConfiguration, hitem1,
      hitem2, hitem3, hdirection, Option.pure_def, Option.bind_eq_bind, Option.bind_some,
      ServiceBridgeItem.register]
  · refine List.append_subset.mpr ⟨List.append_subset.mpr
      ⟨List.Subset.trans hread1 ?_, List.Subset.trans hread2 ?_⟩,
      List.Subset.trans hread3 ?_⟩ <;> simp

end Item

theorem actsAs_service {serviceType serviceName ns name : Bytes} (direction : Direction)
    (createShadowNode : Bool) (rest : Bytes) (htype : serviceType.length < textBufferSize)
    (hservice : serviceName.length < textBufferSize) (hns : ns.length < textBufferSize)
    (hname : name.length < textBufferSize) :
    ActsAs [littleEndian 4 BridgeMsgType.service.tag, padded textBufferSize serviceType,
        padded textBufferSize serviceName, [boolByte createShadowNode, 0, 0, 0],
        littleEndian 4 direction.toNat, padded textBufferSize ns, padded textBufferSize name,
        rest].flatten
      (.service (upToNul serviceType) (upToNul serviceName) direction
        (if createShadowNode then some (upToNul ns, upToNul name) else none)) := by
  intro m now
  set chunks := [littleEndian 4 BridgeMsgType.service.tag, padded textBufferSize serviceType,
    padded textBufferSize serviceName, [boolByte createShadowNode, 0, 0, 0],
    littleEndian 4 direction.toNat, padded textBufferSize ns, padded textBufferSize name,
    rest] with hchunks
  have htag : BridgeMsgType.ofTag (BridgeMsg.word chunks.flatten 0).toNat = some .service :=
    ofTag_word .service _
  have hlt := length_padded_textBuffer htype
  have hls := length_padded_textBuffer hservice
  have hln := length_padded_textBuffer hns
  have hlf (b : Bool) : [boolByte b, 0, 0, 0].length = 4 := rfl
  -- each field is a chunk, at the offset where the ones before it end
  have htypeAt : BridgeMsg.text chunks.flatten ServicePayload.serviceTypeAt = _ :=
    text_chunk (k := 1) htype rfl rfl
  have hserviceAt : BridgeMsg.text chunks.flatten ServicePayload.serviceNameAt = _ :=
    text_chunk (k := 2) hservice rfl (by
      simp only [hchunks, Wire.start, Wire.length_littleEndian, hlt]; rfl)
  have hcreateAt : BridgeMsg.bool chunks.flatten ServicePayload.createShadowNodeAt = _ :=
    bool_chunk (k := 3) rfl (by
      simp only [hchunks, Wire.start, Wire.length_littleEndian, hlt, hls]; rfl)
  have hdirectionAt : BridgeMsg.word chunks.flatten ServicePayload.directionAt = _ :=
    word_chunk (k := 4) direction rfl (by
      simp only [hchunks, Wire.start, Wire.length_littleEndian, hlt, hls, hlf]; rfl)
  have hnsAt : BridgeMsg.text chunks.flatten ServicePayload.shadowNodeNamespaceAt = _ :=
    text_chunk (k := 5) hns rfl (by
      simp only [hchunks, Wire.start, Wire.length_littleEndian, hlt, hls, hlf]; rfl)
  have hnameAt : BridgeMsg.text chunks.flatten ServicePayload.shadowNodeNameAt = _ :=
    text_chunk (k := 6) hname rfl (by
      simp only [hchunks, Wire.start, Wire.length_littleEndian, hlt, hls, hlf, hln]; rfl)
  obtain ⟨read, hitem, hread⟩ := handleRequest_eq
    ((Dict.get m.activeServiceBridges (upToNul serviceName)).getD .new) htypeAt hserviceAt
    hcreateAt hdirectionAt hnsAt hnameAt
  refine ⟨ServicePayload.serviceNameAt :: read, ?_, ?_⟩
  · simp only [BridgeManager.dispatchBridgeMessage, htag, BridgeManager.dispatchService, hserviceAt,
      hitem, Option.pure_def, Option.bind_eq_bind, Option.bind_some, BridgeManager.act]
  -- every text that is read ends inside its buffer
  · intro i hi
    have hfield : i ∈ [ServicePayload.serviceNameAt, ServicePayload.serviceTypeAt,
        ServicePayload.shadowNodeNamespaceAt, ServicePayload.shadowNodeNameAt] := by
      rcases List.mem_cons.mp hi with rfl | hi
      · exact List.mem_cons_self
      · exact hread hi
    simp only [List.mem_cons, List.not_mem_nil, or_false] at hfield
    rcases hfield with rfl | rfl | rfl | rfl
    · exact endsInside_of_text hservice hserviceAt
    · exact endsInside_of_text htype htypeAt
    · exact endsInside_of_text hns hnsAt
    · exact endsInside_of_text hname hnameAt

theorem actsAs_daemonPubsub {topicName typeName : Bytes} (direction : Direction) (qos : Qos)
    (rest : Bytes) (htopic : topicName.length < textBufferSize)
    (htype : typeName.length < textBufferSize) :
    ActsAs [littleEndian 4 BridgeMsgType.daemonPubSub.tag, padded textBufferSize topicName,
        padded textBufferSize typeName, littleEndian 4 direction.toNat,
        littleEndian 4 qos.depth.toNat, [boolByte qos.transientLocal],
        [boolByte qos.reliable, 0, 0], rest].flatten
      (.daemonPubsub (upToNul topicName) (upToNul typeName) direction qos) := by
  intro m now
  set chunks := [littleEndian 4 BridgeMsgType.daemonPubSub.tag, padded textBufferSize topicName,
    padded textBufferSize typeName, littleEndian 4 direction.toNat,
    littleEndian 4 qos.depth.toNat, [boolByte qos.transientLocal],
    [boolByte qos.reliable, 0, 0], rest] with hchunks
  have htag : BridgeMsgType.ofTag (BridgeMsg.word chunks.flatten 0).toNat = some .daemonPubSub :=
    ofTag_word .daemonPubSub _
  have hlo := length_padded_textBuffer htopic
  have hlt := length_padded_textBuffer htype
  have hl1 (b : Bool) : [boolByte b].length = 1 := rfl
  -- each field is the chunk at its offset
  have htopicAt : BridgeMsg.text chunks.flatten DaemonPubSubPayload.topicNameAt = _ :=
    text_chunk (k := 1) htopic rfl rfl
  have htypeAt : BridgeMsg.text chunks.flatten DaemonPubSubPayload.typeNameAt = _ :=
    text_chunk (k := 2) htype rfl (by
      simp only [hchunks, Wire.start, Wire.length_littleEndian, hlo]; rfl)
  have hdirectionAt : BridgeMsg.word chunks.flatten DaemonPubSubPayload.directionAt = _ :=
    word_chunk (k := 3) direction rfl (by
      simp only [hchunks, Wire.start, Wire.length_littleEndian, hlo, hlt]; rfl)
  have hdepthAt : BridgeMsg.word chunks.flatten DaemonPubSubPayload.qosDepthAt = _ :=
    word_chunk (k := 4) qos.depth rfl (by
      simp only [hchunks, Wire.start, Wire.length_littleEndian, hlo, hlt]; rfl)
  have hlocalAt : BridgeMsg.bool chunks.flatten DaemonPubSubPayload.qosIsTransientLocalAt = _ :=
    bool_chunk (k := 5) rfl (by
      simp only [hchunks, Wire.start, Wire.length_littleEndian, hlo, hlt]; rfl)
  have hreliableAt : BridgeMsg.bool chunks.flatten DaemonPubSubPayload.qosIsReliableAt = _ :=
    bool_chunk (k := 6) rfl (by
      simp only [hchunks, Wire.start, Wire.length_littleEndian, hlo, hlt, hl1]; rfl)
  refine ⟨[DaemonPubSubPayload.topicNameAt, DaemonPubSubPayload.typeNameAt], ?_, ?_⟩
  · simp only [BridgeManager.dispatchBridgeMessage, htag,
      BridgeManager.registerDaemonPubsubRequest, htopicAt, htypeAt, hdirectionAt, hdepthAt,
      hlocalAt, hreliableAt, Option.pure_def, Option.bind_eq_bind, Option.bind_some,
      BridgeManager.act]
  · intro i hi
    -- both texts end inside their fields
    rcases List.mem_pair.mp hi with rfl | rfl
    · exact endsInside_of_text htopic htopicAt
    · exact endsInside_of_text htype htypeAt

theorem actsAs_daemonService {serviceName : Bytes} (rest : Bytes)
    (hservice : serviceName.length < textBufferSize) :
    ActsAs [littleEndian 4 BridgeMsgType.daemonService.tag, padded textBufferSize serviceName,
        rest].flatten (.daemonService (upToNul serviceName)) := by
  intro m now
  set chunks := [littleEndian 4 BridgeMsgType.daemonService.tag, padded textBufferSize serviceName,
    rest] with hchunks
  have htag : BridgeMsgType.ofTag (BridgeMsg.word chunks.flatten 0).toNat = some .daemonService :=
    ofTag_word .daemonService _
  have hserviceAt : BridgeMsg.text chunks.flatten DaemonServicePayload.serviceNameAt = _ :=
    text_chunk (k := 1) hservice rfl rfl
  refine ⟨[DaemonServicePayload.serviceNameAt], ?_, ?_⟩
  · simp only [BridgeManager.dispatchBridgeMessage, htag,
      BridgeManager.registerDaemonServiceRequest, hserviceAt, Option.pure_def,
      Option.bind_eq_bind, Option.bind_some, BridgeManager.act]
  · intro i hi
    obtain rfl := List.mem_singleton.mp hi
    exact endsInside_of_text hservice hserviceAt

end Layouts

/-! ## What the senders build -/

/-- The text fits its buffer with the NUL. -/
def Fits (text : Bytes) : Prop := (upToNul text).length < textBufferSize

instance (text : Bytes) : Decidable (Fits text) := inferInstanceAs (Decidable (_ < _))

namespace BridgeRegistrationMsgBuilder

variable {b : BridgeRegistrationMsgBuilder} {text : Bytes} {member : String}

/-- The builder has failed and says why. -/
def Refused (b : BridgeRegistrationMsgBuilder) : Prop := b.failed = true ∧ b.reason ≠ ""

theorem vsnprintf_zero (h : Fits text) :
    (vsnprintf (.zero textBufferSize) text).1 = (upToNul text).length ∧
      (vsnprintf (.zero textBufferSize) text).2.bytes = padded textBufferSize (upToNul text) := by
  have hlt : (upToNul text).length < 256 := h
  refine ⟨if_pos (by omega), ?_⟩
  have htake : (upToNul text).take (textBufferSize - 1) = upToNul text :=
    List.take_of_length_le (by rw [textBufferSize]; omega)
  have htake' : (upToNul text ++ [0]).take textBufferSize = upToNul text ++ [0] :=
    List.take_of_length_le (by
      rw [textBufferSize, List.length_append, List.length_singleton]
      omega)
  obtain ⟨k, hk⟩ : ∃ k, textBufferSize - (upToNul text).length = k + 1 :=
    ⟨textBufferSize - (upToNul text).length - 1, by rw [textBufferSize]; omega⟩
  simp only [vsnprintf, htake, htake', CharArray.zero, List.drop_replicate, List.length_append,
    List.length_singleton, padded]
  rw [← Nat.sub_sub, hk, List.replicate_succ, Nat.add_sub_cancel, List.append_assoc]
  rfl

theorem checkedSnprintf_of_fits (member : String) (hb : b.failed = false) (h : Fits text) :
    ∃ buffer, b.checkedSnprintf member (.zero textBufferSize) text = (b, buffer) ∧
      buffer.bytes = padded textBufferSize (upToNul text) := by
  obtain ⟨hlength, hbytes⟩ := vsnprintf_zero h
  refine ⟨_, ?_, hbytes⟩
  have hlt : (upToNul text).length < textBufferSize := h
  rw [checkedSnprintf, if_neg (by rw [hb]; exact Bool.false_ne_true)]
  simp only [hlength]
  rw [if_neg (by omega), if_neg (by omega)]

private theorem append_ne_empty (a c : String) (h : a ≠ "") : a ++ c ≠ "" := fun hempty =>
  h (String.append_eq_empty_iff.mp hempty).1

theorem checkedSnprintf_of_long {n : ℕ} (buffer : CharArray n) (hb : b.failed = false)
    (h : n ≤ (upToNul text).length) : Refused (b.checkedSnprintf member buffer text).1 := by
  rw [checkedSnprintf, if_neg (by rw [hb]; exact Bool.false_ne_true)]
  dsimp only [vsnprintf]
  by_cases hint : (upToNul text).length < 2 ^ 31
  · rw [if_pos hint, if_neg (by omega), if_pos (by omega)]
    exact ⟨rfl, append_ne_empty _ _ (append_ne_empty _ _ (append_ne_empty _ _
      (append_ne_empty _ _ (by decide))))⟩
  · rw [if_neg hint, if_pos (by decide)]
    exact ⟨rfl, append_ne_empty _ _ (append_ne_empty _ _ (by decide))⟩

theorem checkedSnprintf_of_refused {n : ℕ} (buffer : CharArray n) (hb : Refused b) :
    b.checkedSnprintf member buffer text = (b, buffer) := if_pos hb.1

section SetText

variable {buffer : CharArray textBufferSize} {assign : BridgeRegistrationMsgBuilder →
  CharArray textBufferSize → BridgeRegistrationMsgBuilder}

theorem refused_setText (hassign : ∀ b buffer, Refused b → Refused (assign b buffer))
    (h : Refused b ∨ b.failed = false ∧ ¬ Fits text) :
    Refused (b.setText member buffer assign text) := by
  have hset : Refused (b.checkedSnprintf member buffer text).1 := by
    rcases h with hb | ⟨hb, hlong⟩
    · rw [checkedSnprintf_of_refused _ hb]
      exact hb
    · exact checkedSnprintf_of_long _ hb (Nat.le_of_not_lt hlong)
  exact hassign _ _ hset

theorem setText_of_fits (hb : b.failed = false) (hbuffer : buffer = .zero textBufferSize)
    (h : Fits text) : ∃ c, b.setText member buffer assign text = assign b c ∧
      c.bytes = padded textBufferSize (upToNul text) := by
  obtain ⟨c, hset, hbytes⟩ := checkedSnprintf_of_fits member hb h
  exact ⟨c, by rw [setText, hbuffer, hset], hbytes⟩

end SetText

/-- Both texts of the identity, or a reason. -/
theorem setShadowNodeIdentity_cases (identity : Option (Bytes × Bytes)) (hb : b.failed = false)
    (hns : b.service.shadowNodeNamespace = .zero textBufferSize)
    (hname : b.service.shadowNodeName = .zero textBufferSize) :
    (Fits ((identity.map Prod.fst).getD []) ∧ Fits ((identity.map Prod.snd).getD []) ∧
      ∃ ns name : CharArray textBufferSize,
        b.setShadowNodeIdentity identity = { b with service := { b.service with
          createShadowNode := identity.isSome
          shadowNodeNamespace := ns
          shadowNodeName := name } } ∧
        ns.bytes = padded textBufferSize (upToNul ((identity.map Prod.fst).getD [])) ∧
        name.bytes = padded textBufferSize (upToNul ((identity.map Prod.snd).getD []))) ∨
    ¬ (Fits ((identity.map Prod.fst).getD []) ∧ Fits ((identity.map Prod.snd).getD [])) ∧
      Refused (b.setShadowNodeIdentity identity) := by
  set ns := (identity.map Prod.fst).getD []
  set name := (identity.map Prod.snd).getD []
  set b₁ : BridgeRegistrationMsgBuilder :=
    { b with service := { b.service with createShadowNode := identity.isSome } } with hb₁
  have hidentity : b.setShadowNodeIdentity identity =
      (b₁.setShadowNodeNamespace ns).setShadowNodeName name := rfl
  rw [hidentity]
  by_cases hnsFits : Fits ns
  · obtain ⟨nsBuffer, hsetNs, hnsBytes⟩ : ∃ c, b₁.setShadowNodeNamespace ns =
        { b₁ with service := { b₁.service with shadowNodeNamespace := c } } ∧ c.bytes = _ :=
      setText_of_fits hb hns hnsFits
    rw [hsetNs]
    by_cases hnameFits : Fits name
    · obtain ⟨nameBuffer, hsetName, hnameBytes⟩ : ∃ c, setShadowNodeName { b₁ with service :=
          { b₁.service with shadowNodeNamespace := nsBuffer } } name = { b₁ with service :=
            { b₁.service with shadowNodeNamespace := nsBuffer, shadowNodeName := c } } ∧
          c.bytes = _ := setText_of_fits hb hname hnameFits
      exact .inl ⟨hnsFits, hnameFits, nsBuffer, nameBuffer, hsetName, hnsBytes, hnameBytes⟩
    · exact .inr ⟨fun h => hnameFits h.2,
        refused_setText (fun _ _ h => h) (.inr ⟨hb, hnameFits⟩)⟩
  · have hnsRefused : Refused (b₁.setShadowNodeNamespace ns) :=
      refused_setText (fun _ _ h => h) (.inr ⟨hb, hnsFits⟩)
    exact .inr ⟨fun h => hnsFits h.1, refused_setText (fun _ _ h => h) (.inl hnsRefused)⟩

theorem Refused.setShadowNodeIdentity {identity : Option (Bytes × Bytes)} (h : Refused b) :
    Refused (b.setShadowNodeIdentity identity) :=
  refused_setText (fun _ _ h => h) (.inl (refused_setText (fun _ _ h => h) (.inl h)))

theorem Refused.buildMessage (h : Refused b) : b.buildMessage.2 ≠ "" := by
  rw [BridgeRegistrationMsgBuilder.buildMessage]
  simp only [h.1, if_true]
  exact h.2

end BridgeRegistrationMsgBuilder

open BridgeRegistrationMsgBuilder

theorem take_padded {n k : ℕ} {s : Bytes} (h : s.length = k) : (padded n s).take k = s :=
  List.take_left' h

theorem PubSubPayload.length_bytes (p : PubSubPayload) : p.bytes.length = 520 := by
  simp only [PubSubPayload.bytes, List.length_append, Wire.length_littleEndian,
    CharArray.size_eq, textBufferSize]

theorem ServicePayload.length_bytes (p : ServicePayload) : p.bytes.length = 1032 := by
  simp only [ServicePayload.bytes, List.length_append, Wire.length_littleEndian, List.length_cons,
    List.length_nil, CharArray.size_eq, textBufferSize]

/-- The datagram of a message that did not fail. -/
theorem take_buildMessage {b : BridgeRegistrationMsgBuilder} (hb : b.failed = false) :
    b.buildMessage.2 = "" ∧
    (b.isService = false → b.buildMessage.1.take BridgeMsgType.pubSub.wireSize =
      littleEndian 4 BridgeMsgType.pubSub.tag ++ { b.pubsub with direction := b.direction }.bytes) ∧
    (b.isService = true → b.buildMessage.1.take BridgeMsgType.service.wireSize =
      littleEndian 4 BridgeMsgType.service.tag ++
        { b.service with direction := b.direction }.bytes) := by
  refine ⟨?_, fun hpubsub => ?_, fun hservice => ?_⟩
  · rw [buildMessage, hb]
    rfl
  · rw [buildMessage, hpubsub]
    exact take_padded (by
      rw [if_neg Bool.false_ne_true, List.length_append, Wire.length_littleEndian,
        PubSubPayload.length_bytes]
      rfl)
  · rw [buildMessage, hservice]
    exact take_padded (by
      rw [if_pos rfl, List.length_append, Wire.length_littleEndian, ServicePayload.length_bytes]
      rfl)

/-- **The registration of a publisher or subscription** is sent exactly when both texts fit. -/
theorem sendPubsubBridgeRegistration_eq (topicName messageType : Bytes) (id : Int32)
    (direction : Direction) : sendPubsubBridgeRegistration topicName id messageType direction =
      if Fits messageType ∧ Fits topicName then
        some (littleEndian 4 BridgeMsgType.pubSub.tag ++
          (padded textBufferSize (upToNul messageType) ++
            (padded textBufferSize (upToNul topicName) ++
              (littleEndian 4 id.toUInt32.toNat ++ littleEndian 4 direction.toNat))))
      else none := by
  set b := (BridgeRegistrationMsgBuilder.new.setDirection direction).setIsService false with hb
  have hsend : sendPubsubBridgeRegistration topicName id messageType direction =
      if (((b.setMessageType messageType).setTopicName topicName).setPubsubTargetId
        id).buildMessage.2 ≠ "" then none
      else some ((((b.setMessageType messageType).setTopicName topicName).setPubsubTargetId
        id).buildMessage.1.take BridgeMsgType.pubSub.wireSize) := rfl
  -- a text that does not fit fails the builder for good
  have hrefuse (h : Refused ((b.setMessageType messageType).setTopicName topicName)) :
      sendPubsubBridgeRegistration topicName id messageType direction = none := by
    have hid : Refused (((b.setMessageType messageType).setTopicName topicName).setPubsubTargetId
        id) := h
    rw [hsend, if_pos hid.buildMessage]
  by_cases htype : Fits messageType
  · obtain ⟨typeBuffer, hsetType, htypeBytes⟩ : ∃ c, b.setMessageType messageType =
        { b with pubsub := { b.pubsub with messageType := c } } ∧ c.bytes = _ :=
      setText_of_fits rfl rfl htype
    rw [hsetType] at hsend hrefuse
    by_cases htopic : Fits topicName
    · obtain ⟨topicBuffer, hsetTopic, htopicBytes⟩ : ∃ c,
          setTopicName { b with pubsub := { b.pubsub with messageType := typeBuffer } } topicName =
            { b with pubsub := { b.pubsub with messageType := typeBuffer, topicName := c } } ∧
          c.bytes = _ := setText_of_fits rfl rfl htopic
      rw [hsetTopic] at hsend
      obtain ⟨hreason, hmsg, -⟩ := take_buildMessage (b := setPubsubTargetId { b with pubsub :=
        { b.pubsub with messageType := typeBuffer, topicName := topicBuffer } } id) rfl
      rw [hsend, hreason, hmsg rfl, if_neg (fun h => h rfl), if_pos ⟨htype, htopic⟩, ← htypeBytes,
        ← htopicBytes]
      rfl
    · rw [if_neg (fun h => htopic h.2)]
      exact hrefuse (refused_setText (fun _ _ h => h) (.inr ⟨rfl, htopic⟩))
  · have htypeRefused : Refused (b.setMessageType messageType) :=
      refused_setText (fun _ _ h => h) (.inr ⟨rfl, htype⟩)
    rw [if_neg (fun h => htype h.1)]
    exact hrefuse (refused_setText (fun _ _ h => h) (.inl htypeRefused))

/-- **The registration of a service or client** is sent exactly when its four texts fit. -/
theorem sendServiceBridgeRegistration_eq (serviceType serviceName : Bytes)
    (direction : Direction) (identity : Option (Bytes × Bytes)) :
    sendServiceBridgeRegistration serviceType serviceName direction identity =
      if Fits serviceType ∧ Fits serviceName ∧ Fits ((identity.map Prod.fst).getD []) ∧
          Fits ((identity.map Prod.snd).getD []) then
        some (littleEndian 4 BridgeMsgType.service.tag ++
          (padded textBufferSize (upToNul serviceType) ++
            (padded textBufferSize (upToNul serviceName) ++
              ([boolByte identity.isSome, 0, 0, 0] ++ (littleEndian 4 direction.toNat ++
                (padded textBufferSize (upToNul ((identity.map Prod.fst).getD [])) ++
                  padded textBufferSize (upToNul ((identity.map Prod.snd).getD []))))))))
      else none := by
  set b := (BridgeRegistrationMsgBuilder.new.setDirection direction).setIsService true with hb
  have hsend : sendServiceBridgeRegistration serviceType serviceName direction identity =
      if (((b.setServiceType serviceType).setServiceName serviceName).setShadowNodeIdentity
        identity).buildMessage.2 ≠ "" then none
      else some ((((b.setServiceType serviceType).setServiceName serviceName).setShadowNodeIdentity
        identity).buildMessage.1.take BridgeMsgType.service.wireSize) := rfl
  -- the first text that does not fit refuses for good
  have hrefuse (h : Refused (((b.setServiceType serviceType).setServiceName
      serviceName).setShadowNodeIdentity identity)) :
      sendServiceBridgeRegistration serviceType serviceName direction identity = none := by
    rw [hsend, if_pos h.buildMessage]
  -- the texts one after the other, as the builder takes them
  by_cases htype : Fits serviceType
  · obtain ⟨typeBuffer, hsetType, htypeBytes⟩ : ∃ c, b.setServiceType serviceType =
        { b with service := { b.service with serviceType := c } } ∧ c.bytes = _ :=
      setText_of_fits rfl rfl htype
    rw [hsetType] at hsend hrefuse
    by_cases hservice : Fits serviceName
    · obtain ⟨serviceBuffer, hsetService, hserviceBytes⟩ : ∃ c,
          setServiceName { b with service := { b.service with serviceType := typeBuffer } }
            serviceName =
            { b with service := { b.service with serviceType := typeBuffer, serviceName := c } } ∧
          c.bytes = _ := setText_of_fits rfl rfl hservice
      rw [hsetService] at hsend hrefuse
      rcases setShadowNodeIdentity_cases identity (b := { b with service :=
          { b.service with serviceType := typeBuffer, serviceName := serviceBuffer } }) rfl rfl rfl
        with ⟨hns, hname, nsBuffer, nameBuffer, hset, hnsBytes, hnameBytes⟩ | ⟨hlong, hrefused⟩
      · rw [hset] at hsend
        obtain ⟨hreason, -, hmsg⟩ := take_buildMessage (b := { b with service :=
          { b.service with
            serviceType := typeBuffer
            serviceName := serviceBuffer
            createShadowNode := identity.isSome
            shadowNodeNamespace := nsBuffer
            shadowNodeName := nameBuffer } }) rfl
        rw [hsend, hreason, hmsg rfl, if_neg (fun h => h rfl),
          if_pos ⟨htype, hservice, hns, hname⟩, ← htypeBytes, ← hserviceBytes, ← hnsBytes,
          ← hnameBytes]
        rfl
      · rw [if_neg (fun h => hlong h.2.2)]
        exact hrefuse hrefused
    · rw [if_neg (fun h => hservice h.2.1)]
      exact hrefuse (Refused.setShadowNodeIdentity
        (refused_setText (fun _ _ h => h) (.inr ⟨rfl, hservice⟩)))
  · have htypeRefused : Refused (b.setServiceType serviceType) :=
      refused_setText (fun _ _ h => h) (.inr ⟨rfl, htype⟩)
    rw [if_neg (fun h => htype h.1)]
    exact hrefuse (Refused.setShadowNodeIdentity
      (refused_setText (fun _ _ h => h) (.inl htypeRefused)))

/-! ## Every datagram -/

/-- The message that a datagram is copied into. -/
def received (data : Bytes) : BridgeMsg := padded bridgeMsgMaxSize (data.take bridgeMsgMaxSize)

theorem drop_received {data : Bytes} {i n : ℕ} (hmax : i + n ≤ bridgeMsgMaxSize)
    (h : i + n ≤ data.length) : ((received data).drop i).take n = (data.drop i).take n := by
  have hle : i + n ≤ (data.take bridgeMsgMaxSize).length := by
    rw [List.length_take]
    exact Nat.le_min.mpr ⟨hmax, h⟩
  rw [received, padded, List.take_drop, List.take_drop, List.take_append_of_le_length hle,
    List.take_take, Nat.min_eq_left hmax]

theorem word_received {data : Bytes} (h : payloadOffset ≤ data.length) :
    ((received data).word 0).toNat = tagOf data := by
  have hlt := value_lt (data.take payloadOffset)
  have hle : (data.take payloadOffset).length ≤ payloadOffset := List.length_take_le _ _
  rw [BridgeMsg.word, drop_received (i := 0) (n := 4) (by decide) (by rw [Nat.zero_add]; exact h),
    List.drop_zero, UInt32.toNat_ofNat']
  refine Nat.mod_eq_of_lt (Nat.lt_of_lt_of_le hlt ?_)
  exact Nat.pow_le_pow_right (by decide) hle

/-- **What the receiver queues**: the datagrams of a known tag that are not too short. -/
theorem parseBridgeMsg_eq (data : Bytes) (msg : BridgeMsg) :
    parseBridgeMsg data = some msg ↔ msg = received data ∧ ∃ type, IsDatagramOf data type := by
  rw [parseBridgeMsg]
  by_cases hshort : data.length < payloadOffset
  · rw [if_pos hshort]
    constructor
    · rintro ⟨⟩
    · rintro ⟨_, type, _, hsize⟩
      have := type.payloadOffset_le
      omega
  · rw [if_neg hshort]
    have hword := word_received (Nat.le_of_not_lt hshort)
    unfold received at hword
    dsimp only
    rw [hword]
    cases htag : BridgeMsgType.ofTag (tagOf data) with
    | none =>
      constructor
      · rintro ⟨⟩
      · rintro ⟨_, type, heq, _⟩
        rw [heq, BridgeMsgType.ofTag_tag] at htag
        cases htag
    | some type =>
      dsimp only
      have heq := BridgeMsgType.tag_of_ofTag htag
      by_cases hsize : data.length < type.wireSize
      · rw [if_pos hsize]
        constructor
        · rintro ⟨⟩
        · rintro ⟨_, type', heq', hsize'⟩
          -- the tag is that of one kind only
          rw [heq', BridgeMsgType.ofTag_tag] at htag
          cases htag
          omega
      · rw [if_neg hsize, Option.some_inj]
        exact ⟨fun h => ⟨h.symm, type, heq, Nat.le_of_not_lt hsize⟩, fun h => h.1.symm⟩

theorem accepts_received {data : Bytes} {type : BridgeMsgType} (h : IsDatagramOf data type) :
    Accepts data (received data) :=
  accepts_of_parse ((parseBridgeMsg_eq data _).mpr ⟨rfl, type, h⟩)

theorem rejects_iff (data : Bytes) : Rejects data ↔ ∀ type, ¬ IsDatagramOf data type := by
  constructor
  · intro hrejects type htype
    -- a manager with an empty queue shows it
    have hqueued := accepts_received htype ⟨false, [], [], [], [], [], []⟩
    rw [hrejects] at hqueued
    have hpending := congrArg BridgeManager.pendingMsgs hqueued
    simp at hpending
  · intro hnone
    cases hparse : parseBridgeMsg data with
    | none => exact rejects_of_parse hparse
    | some msg =>
      obtain ⟨-, type, htype⟩ := (parseBridgeMsg_eq data msg).mp hparse
      exact absurd htype (hnone type)

theorem ofTag_received {data : Bytes} {type : BridgeMsgType} (h : IsDatagramOf data type) :
    BridgeMsgType.ofTag ((received data).word 0).toNat = some type := by
  rw [word_received (type.payloadOffset_le.trans h.2), h.1, BridgeMsgType.ofTag_tag]

/-! ## Texts of received messages -/

section Reads

variable {msg : BridgeMsg} {item item' : ServiceBridgeItem} {read : List ℕ}

theorem endsInside_iff (msg : BridgeMsg) (i : ℕ) :
    EndsInside msg i ↔ 0 ∈ (msg.drop i).take textBufferSize := by
  constructor
  · rintro ⟨text, htext, hlt⟩
    exact (Wire.cString_length_lt htext).mp hlt
  · intro hnul
    have htext := Wire.cString_upToNul (List.mem_of_mem_take hnul)
    exact ⟨_, htext, (Wire.cString_length_lt htext).mpr hnul⟩

theorem read_readServiceName (h : item.readServiceName msg = some (item', read)) :
    read ⊆ [ServicePayload.serviceNameAt] := by
  unfold ServiceBridgeItem.readServiceName at h
  split at h
  · obtain ⟨-, rfl⟩ := Prod.mk.inj (Option.some.inj h)
    exact List.nil_subset _
  · obtain ⟨text, htext, h⟩ := Option.bind_eq_some_iff.mp h
    obtain ⟨-, rfl⟩ := Prod.mk.inj (Option.some.inj h)
    exact List.Subset.refl _

theorem read_readServiceType (h : item.readServiceType msg = some (item', read)) :
    read ⊆ [ServicePayload.serviceTypeAt] := by
  unfold ServiceBridgeItem.readServiceType at h
  split at h
  · obtain ⟨-, rfl⟩ := Prod.mk.inj (Option.some.inj h)
    exact List.nil_subset _
  · obtain ⟨text, htext, h⟩ := Option.bind_eq_some_iff.mp h
    obtain ⟨-, rfl⟩ := Prod.mk.inj (Option.some.inj h)
    exact List.Subset.refl _

theorem read_readShadowNodeIdentity (h : item.readShadowNodeIdentity msg = some (item', read)) :
    read ⊆ [ServicePayload.shadowNodeNamespaceAt, ServicePayload.shadowNodeNameAt] := by
  unfold ServiceBridgeItem.readShadowNodeIdentity at h
  split at h
  · obtain ⟨-, rfl⟩ := Prod.mk.inj (Option.some.inj h)
    exact List.nil_subset _
  · obtain ⟨ns, hns, h⟩ := Option.bind_eq_some_iff.mp h
    obtain ⟨name, hname, h⟩ := Option.bind_eq_some_iff.mp h
    obtain ⟨-, rfl⟩ := Prod.mk.inj (Option.some.inj h)
    exact List.Subset.refl _

theorem read_handleRequest (h : item.handleRequest msg = some (item', read)) :
    read ⊆ BridgeMsgType.service.texts := by
  obtain ⟨⟨item₁, read₁⟩, hupdate, h⟩ := Option.bind_eq_some_iff.mp h
  obtain ⟨-, rfl⟩ := Prod.mk.inj (Option.some.inj h)
  obtain ⟨⟨item₂, nameRead⟩, hname, h⟩ := Option.bind_eq_some_iff.mp hupdate
  obtain ⟨⟨item₃, typeRead⟩, htype, h⟩ := Option.bind_eq_some_iff.mp h
  obtain ⟨⟨item₄, shadowRead⟩, hshadow, h⟩ := Option.bind_eq_some_iff.mp h
  obtain ⟨-, rfl⟩ := Prod.mk.inj (Option.some.inj h)
  refine List.append_subset.mpr ⟨List.append_subset.mpr
    ⟨List.Subset.trans (read_readServiceName hname) ?_,
      List.Subset.trans (read_readServiceType htype) ?_⟩,
    List.Subset.trans (read_readShadowNodeIdentity hshadow) ?_⟩ <;> simp [BridgeMsgType.texts]

/-- A dispatch reads the texts of its payload only. -/
theorem read_dispatch {m m' : BridgeManager} {now : ℕ} {type : BridgeMsgType}
    (htag : BridgeMsgType.ofTag (msg.word 0).toNat = some type)
    (h : m.dispatchBridgeMessage now msg = some (m', read)) : read ⊆ type.texts := by
  rw [BridgeManager.dispatchBridgeMessage, htag] at h
  cases type with
  | pubSub =>
    obtain ⟨topicName, htopic, h⟩ := Option.bind_eq_some_iff.mp h
    obtain ⟨messageType, htype, h⟩ := Option.bind_eq_some_iff.mp h
    obtain ⟨-, rfl⟩ := Prod.mk.inj (Option.some.inj h)
    exact List.Subset.refl _
  | service =>
    obtain ⟨serviceName, hservice, h⟩ := Option.bind_eq_some_iff.mp h
    obtain ⟨⟨item, itemRead⟩, hitem, h⟩ := Option.bind_eq_some_iff.mp h
    obtain ⟨-, rfl⟩ := Prod.mk.inj (Option.some.inj h)
    exact List.cons_subset.mpr ⟨List.mem_cons_self, read_handleRequest hitem⟩
  | daemonPubSub =>
    obtain ⟨topicName, htopic, h⟩ := Option.bind_eq_some_iff.mp h
    obtain ⟨messageType, htype, h⟩ := Option.bind_eq_some_iff.mp h
    obtain ⟨-, rfl⟩ := Prod.mk.inj (Option.some.inj h)
    exact List.Subset.refl _
  | daemonService =>
    obtain ⟨serviceName, hservice, h⟩ := Option.bind_eq_some_iff.mp h
    obtain ⟨-, rfl⟩ := Prod.mk.inj (Option.some.inj h)
    exact List.Subset.refl _

/-- When every text of the payload ends somewhere, the dispatch is defined. -/
theorem dispatch_isSome {m : BridgeManager} {now : ℕ} {type : BridgeMsgType}
    (htag : BridgeMsgType.ofTag (msg.word 0).toNat = some type)
    (h : ∀ i ∈ type.texts, EndsInside msg i) :
    ∃ m' read, m.dispatchBridgeMessage now msg = some (m', read) := by
  have htext (i : ℕ) (hi : i ∈ type.texts) : ∃ text, msg.text i = some text :=
    (h i hi).imp fun _ h => h.1
  rw [BridgeManager.dispatchBridgeMessage, htag]
  cases type with
  | pubSub =>
    obtain ⟨topicName, htopic⟩ := htext _ (List.mem_cons_self)
    obtain ⟨messageType, htype⟩ := htext PubSubPayload.messageTypeAt (by decide)
    exact ⟨_, _, by simp only [BridgeManager.dispatchPubsub, htopic, htype]; rfl⟩
  | service =>
    obtain ⟨serviceName, hservice⟩ := htext ServicePayload.serviceNameAt (by decide)
    obtain ⟨serviceType, htype⟩ := htext ServicePayload.serviceTypeAt (by decide)
    obtain ⟨ns, hns⟩ := htext ServicePayload.shadowNodeNamespaceAt (by decide)
    obtain ⟨name, hname⟩ := htext ServicePayload.shadowNodeNameAt (by decide)
    obtain ⟨read, hitem, -⟩ := handleRequest_eq
      ((Dict.get m.activeServiceBridges serviceName).getD .new) htype hservice rfl rfl hns
      hname
    exact ⟨_, _, by
      simp only [BridgeManager.dispatchService, hservice, Option.bind_eq_bind, Option.bind_some,
        hitem]
      rfl⟩
  | daemonPubSub =>
    obtain ⟨topicName, htopic⟩ := htext DaemonPubSubPayload.topicNameAt (by decide)
    obtain ⟨typeName, htype⟩ := htext DaemonPubSubPayload.typeNameAt (by decide)
    exact ⟨_, _, by simp only [BridgeManager.registerDaemonPubsubRequest, htopic, htype]; rfl⟩
  | daemonService =>
    obtain ⟨serviceName, hservice⟩ := htext DaemonServicePayload.serviceNameAt (by decide)
    exact ⟨_, _, by simp only [BridgeManager.registerDaemonServiceRequest, hservice]; rfl⟩

end Reads

/-! ## The round trips -/

theorem takenAs_of_layout {type : BridgeMsgType} {payload : Bytes} {r : BridgeRegistration}
    (hsize : payloadOffset + payload.length = type.wireSize)
    (h : ∀ rest, ActsAs (littleEndian 4 type.tag ++ (payload ++ rest)) r) :
    TakenAs (littleEndian 4 type.tag ++ payload) r :=
  ⟨_, accepts_of_parse (parse_datagram hsize), h _⟩

theorem upToNul_upToNul (s : Bytes) : upToNul (upToNul s) = upToNul s :=
  Wire.upToNul_eq_self Wire.nul_not_mem_upToNul

theorem takenAs_pubsub {topicName messageType data : Bytes} {id : Int32} {direction : Direction}
    (h : sendPubsubBridgeRegistration topicName id messageType direction = some data) :
    TakenAs data (.pubsub (upToNul topicName) id (upToNul messageType) direction) := by
  rw [sendPubsubBridgeRegistration_eq] at h
  split at h
  · next hfits =>
    obtain rfl := Option.some.inj h
    refine takenAs_of_layout ?_ fun rest => ?_
    · simp only [List.length_append, Wire.length_littleEndian,
        length_padded_textBuffer hfits.1, length_padded_textBuffer hfits.2]
      rfl
    · have hacts := actsAs_pubsub id direction rest hfits.1 hfits.2
      rw [upToNul_upToNul, upToNul_upToNul] at hacts
      simpa only [List.flatten_cons, List.flatten_nil, List.append_nil, List.append_assoc]
        using hacts
  · cases h

theorem takenAs_service {serviceType serviceName data : Bytes} {direction : Direction}
    {identity : Option (Bytes × Bytes)}
    (h : sendServiceBridgeRegistration serviceType serviceName direction identity = some data) :
    TakenAs data (.service (upToNul serviceType) (upToNul serviceName) direction
      (identity.map fun i => (upToNul i.1, upToNul i.2))) := by
  rw [sendServiceBridgeRegistration_eq] at h
  split at h
  · next hfits =>
    obtain ⟨htype, hservice, hns, hname⟩ := hfits
    obtain rfl := Option.some.inj h
    refine takenAs_of_layout ?_ fun rest => ?_
    · simp only [List.length_append, Wire.length_littleEndian, List.length_cons, List.length_nil,
        length_padded_textBuffer htype, length_padded_textBuffer hservice,
        length_padded_textBuffer hns, length_padded_textBuffer hname]
      rfl
    · have hacts := actsAs_service direction identity.isSome rest htype hservice hns hname
      simp only [upToNul_upToNul] at hacts
      have hidentity : (if identity.isSome then
          some (upToNul ((identity.map Prod.fst).getD []),
            upToNul ((identity.map Prod.snd).getD []))
          else none) = identity.map fun i => (upToNul i.1, upToNul i.2) := by
        cases identity <;> rfl
      rw [hidentity] at hacts
      simpa only [List.flatten_cons, List.flatten_nil, List.append_nil, List.append_assoc]
        using hacts
  · cases h

theorem length_cutName (name : Name) : (cutName name).length < textBufferSize :=
  Nat.lt_of_le_of_lt (List.length_take_le _ _) (by decide)

/-- What is cut fits its field with a NUL. -/
theorem packText_cutName (name : Name) :
    packText (cutName name) = padded textBufferSize (cutName name) :=
  List.take_of_length_le (length_padded_textBuffer (length_cutName name)).le

theorem packWord_of_lt {v : ℕ} (h : v < 2 ^ 32) : packWord v = some (littleEndian 4 v) := if_pos h

theorem packWord_of_ge {v : ℕ} (h : ¬ v < 2 ^ 32) : packWord v = none := if_neg h

/-- **A request is packed** exactly when its words fit. -/
theorem serializeRequest_eq (req : BridgeRequest) : serializeRequest req =
    if req.direction < 2 ^ 32 ∧ req.qosDepth < 2 ^ 32 then
      some (littleEndian 4 BridgeMsgType.daemonPubSub.tag ++
        (padded textBufferSize (cutName req.topicName) ++
          (padded textBufferSize (cutName req.typeName) ++ (littleEndian 4 req.direction ++
            (littleEndian 4 req.qosDepth ++ [boolByte req.qosIsTransientLocal,
              boolByte req.qosIsReliable, 0, 0])))))
    else none := by
  rw [serializeRequest, packWord_of_lt (v := BridgeMsgType.daemonPubSub.tag) (by decide),
    packText_cutName, packText_cutName]
  by_cases hdirection : req.direction < 2 ^ 32
  · rw [packWord_of_lt hdirection]
    by_cases hdepth : req.qosDepth < 2 ^ 32
    · rw [packWord_of_lt hdepth, if_pos ⟨hdirection, hdepth⟩]
      rfl
    · rw [packWord_of_ge hdepth, if_neg (fun h => hdepth h.2)]
      rfl
  · rw [packWord_of_ge hdirection, if_neg (fun h => hdirection h.1)]
    rfl

theorem serializeServiceRequest_eq (req : ServiceBridgeRequest) : serializeServiceRequest req =
    some (littleEndian 4 BridgeMsgType.daemonService.tag ++
      padded textBufferSize (cutName req.serviceName)) := by
  rw [serializeServiceRequest, packWord_of_lt (v := BridgeMsgType.daemonService.tag) (by decide),
    packText_cutName]
  rfl

theorem takenAs_daemonPubsub {req : BridgeRequest} {data : Bytes}
    (h : serializeRequest req = some data) :
    TakenAs data (.daemonPubsub (upToNul (cutName req.topicName)) (upToNul (cutName req.typeName))
      (UInt32.ofNat req.direction)
      ⟨UInt32.ofNat req.qosDepth, req.qosIsTransientLocal, req.qosIsReliable⟩) := by
  rw [serializeRequest_eq] at h
  obtain ⟨⟨hdirection, hdepth⟩, heq⟩ := Option.ite_none_right_eq_some.mp h
  obtain rfl := Option.some.inj heq
  refine takenAs_of_layout ?_ fun rest => ?_
  · simp only [List.length_append, Wire.length_littleEndian, List.length_cons, List.length_nil,
      length_padded_textBuffer (length_cutName _)]
    rfl
  · have hacts := actsAs_daemonPubsub (UInt32.ofNat req.direction)
      ⟨UInt32.ofNat req.qosDepth, req.qosIsTransientLocal, req.qosIsReliable⟩ rest
      (length_cutName req.topicName) (length_cutName req.typeName)
    rw [UInt32.toNat_ofNat_of_lt' hdirection, UInt32.toNat_ofNat_of_lt' hdepth] at hacts
    simpa only [List.flatten_cons, List.flatten_nil, List.append_nil, List.append_assoc,
      List.cons_append, List.nil_append] using hacts

theorem takenAs_daemonService {req : ServiceBridgeRequest} {data : Bytes}
    (h : serializeServiceRequest req = some data) :
    TakenAs data (.daemonService (upToNul (cutName req.serviceName))) := by
  rw [serializeServiceRequest_eq] at h
  obtain rfl := Option.some.inj h
  refine takenAs_of_layout ?_ fun rest => ?_
  · rw [length_padded_textBuffer (length_cutName _)]
    rfl
  · simpa only [List.flatten_cons, List.flatten_nil, List.append_nil, List.append_assoc]
      using actsAs_daemonService rest (length_cutName req.serviceName)

/-! ## Main results -/

/-- **What is sent is what is acted on.** A C++ sender gives up exactly when a text does not fit
its buffer, and otherwise its datagram is taken as the request it was given (of a string, what
stands before its first NUL). The agent packs a request whose words fit; its names are taken as
the first 255 bytes of their encoding, so exactly when they have no more. Of every datagram the
receiver takes those that have a known tag and at least the size of its payload; a dispatch
reads texts of that payload only, it is defined when each holds a NUL, and a text is read inside
its field exactly when its own field holds one. -/
theorem bridge_messages_act_as_sent :
    (∀ topicName id messageType direction,
      (sendPubsubBridgeRegistration topicName id messageType direction = none ↔
        ¬ (Fits messageType ∧ Fits topicName)) ∧
      ∀ data, sendPubsubBridgeRegistration topicName id messageType direction = some data →
        TakenAs data (.pubsub (upToNul topicName) id (upToNul messageType) direction)) ∧
    (∀ serviceType serviceName direction identity,
      (sendServiceBridgeRegistration serviceType serviceName direction identity = none ↔
        ¬ (Fits serviceType ∧ Fits serviceName ∧ Fits ((identity.map Prod.fst).getD []) ∧
          Fits ((identity.map Prod.snd).getD []))) ∧
      ∀ data, sendServiceBridgeRegistration serviceType serviceName direction identity = some data →
        TakenAs data (.service (upToNul serviceType) (upToNul serviceName) direction
          (identity.map fun i => (upToNul i.1, upToNul i.2)))) ∧
    (∀ req : BridgeRequest,
      (serializeRequest req = none ↔ ¬ (req.direction < 2 ^ 32 ∧ req.qosDepth < 2 ^ 32)) ∧
      ∀ data, serializeRequest req = some data →
        TakenAs data (.daemonPubsub (upToNul ((utf8 req.topicName).take 255))
          (upToNul ((utf8 req.typeName).take 255)) (UInt32.ofNat req.direction)
          ⟨UInt32.ofNat req.qosDepth, req.qosIsTransientLocal, req.qosIsReliable⟩)) ∧
    (∀ req : ServiceBridgeRequest, ∃ data, serializeServiceRequest req = some data ∧
      TakenAs data (.daemonService (upToNul ((utf8 req.serviceName).take 255)))) ∧
    ∀ data, (Rejects data ↔ ∀ type, ¬ IsDatagramOf data type) ∧
      ∀ type, IsDatagramOf data type → ∃ msg, Accepts data msg ∧
        ∀ (m : BridgeManager) (now : ℕ),
          ((∀ i ∈ type.texts, 0 ∈ (data.drop i).take textBufferSize) →
            ∃ m' read, m.dispatchBridgeMessage now msg = some (m', read)) ∧
          ∀ m' read, m.dispatchBridgeMessage now msg = some (m', read) →
            ∀ i ∈ read, i ∈ type.texts ∧
              (EndsInside msg i ↔ 0 ∈ (data.drop i).take textBufferSize) := by
  refine ⟨fun topicName id messageType direction => ⟨?_, fun data => takenAs_pubsub⟩,
    fun serviceType serviceName direction identity => ⟨?_, fun data => takenAs_service⟩,
    fun req => ⟨?_, fun data => takenAs_daemonPubsub⟩, fun req => ?_, fun data => ?_⟩
  · rw [sendPubsubBridgeRegistration_eq]
    simp
  · rw [sendServiceBridgeRegistration_eq]
    simp
  · rw [serializeRequest_eq]
    simp
  · exact ⟨_, serializeServiceRequest_eq req,
      takenAs_daemonService (serializeServiceRequest_eq req)⟩
  · refine ⟨rejects_iff data, fun type htype => ⟨_, accepts_received htype, fun m now => ?_⟩⟩
    have htag := ofTag_received htype
    -- the text fields lie within the datagram
    have hfield (i : ℕ) (hi : i ∈ type.texts) :
        EndsInside (received data) i ↔ 0 ∈ (data.drop i).take textBufferSize := by
      have hwithin : i + textBufferSize ≤ type.wireSize := by
        revert i
        cases type <;> decide
      rw [endsInside_iff, drop_received (hwithin.trans type.wireSize_le) (hwithin.trans htype.2)]
    exact ⟨fun hnul => dispatch_isSome htag fun i hi => (hfield i hi).mpr (hnul i hi),
      fun m' read hdispatch i hi =>
        ⟨read_dispatch htag hdispatch hi, hfield i (read_dispatch htag hdispatch hi)⟩⟩

/-! ## A name that is too long, a field without a NUL -/

def freshManager : BridgeManager := ⟨false, [], [], [], [], [], []⟩

/-- A datagram is taken as one request only. -/
theorem act_eq_of_takenAs {data : Bytes} {r r' : BridgeRegistration} (h : TakenAs data r)
    (h' : TakenAs data r') (m : BridgeManager) (now : ℕ) : m.act now r = m.act now r' := by
  obtain ⟨msg, haccepts, hacts⟩ := h
  obtain ⟨msg', haccepts', hacts'⟩ := h'
  have hqueued := (haccepts freshManager).symm.trans (haccepts' freshManager)
  obtain rfl : msg = msg' := List.singleton_injective (congrArg BridgeManager.pendingMsgs hqueued)
  obtain ⟨read, hdispatch, -⟩ := hacts m now
  obtain ⟨read', hdispatch', -⟩ := hacts' m now
  exact (Prod.mk.inj (Option.some.inj (hdispatch.symm.trans hdispatch'))).1

/-- A request of the agent for a topic whose name has 256 bytes. -/
def longTopicRequest : BridgeRequest where
  topicName := '/' :: List.replicate 255 'a'
  typeName := "std_msgs/msg/Int32".toList
  direction := directionAgnocastToRos2
  qosDepth := 10
  qosIsTransientLocal := false
  qosIsReliable := true
  domainId := 0

/-- A lease for a service whose field holds no NUL. -/
def unterminatedLease : Bytes := littleEndian 4 BridgeMsgType.daemonService.tag ++
  List.replicate textBufferSize 97

/-- The agent sends the request for another topic, and the receiver reads past a field. -/
theorem long_topic_cut_and_lease_read_past :
    (∃ data, serializeRequest longTopicRequest = some data ∧
      ¬ TakenAs data (.daemonPubsub (utf8 longTopicRequest.topicName)
        (utf8 longTopicRequest.typeName) (UInt32.ofNat longTopicRequest.direction)
        ⟨UInt32.ofNat longTopicRequest.qosDepth, longTopicRequest.qosIsTransientLocal,
          longTopicRequest.qosIsReliable⟩)) ∧
    ∃ msg, Accepts unterminatedLease msg ∧ ∃ m' read,
      freshManager.dispatchBridgeMessage 0 msg = some (m', read) ∧ ∃ i ∈ read,
        ¬ EndsInside msg i := by
  constructor
  · have hdata := serializeRequest_eq longTopicRequest
    rw [if_pos (by decide)] at hdata
    refine ⟨_, hdata, fun htaken => ?_⟩
    have hact := act_eq_of_takenAs htaken (takenAs_daemonPubsub hdata) freshManager 0
    -- the request is registered under the topic that was cut
    have hkeys := congrArg (fun m : BridgeManager => m.daemonForcedA2r.map fun e => e.1.length) hact
    have hlengths : (utf8 longTopicRequest.topicName).length =
        (upToNul (cutName longTopicRequest.topicName)).length :=
      List.singleton_injective hkeys
    revert hlengths
    decide +kernel
  · have hkind : IsDatagramOf unterminatedLease .daemonService :=
      ⟨by decide +kernel, by decide +kernel⟩
    refine ⟨_, accepts_received hkind, freshManager,
      [DaemonServicePayload.serviceNameAt], ?_, _, List.mem_singleton_self _, ?_⟩
    · decide +kernel
    · rw [endsInside_iff]
      decide +kernel

end Agnocast
