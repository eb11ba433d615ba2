import Agnocast.Kmod.DomainRule
import Agnocast.Kmod.Entries

/-!
# The kernel module — endpoint and message ioctls

The `agnocast_ioctl_*` functions that create and remove endpoints and move
messages, with the topic wrappers they create and release on the way. `current`
is the calling process, `ipcNs` its ipc namespace.
-/

namespace Agnocast

variable (σ : Kmod)

/-! ## Topics -/

/-- `get_process_domain_id`. -/
def getProcessDomainId (pid : Pid) : Nat :=
  match findProcessInfo σ pid with
  | none => 0
  | some procInfo => procInfo.domainId

/-- `find_topic_for_current`. -/
def findTopicForCurrent (current : Pid) (topicName : Name) (ipcNs : IpcNs) :
    Option TopicWrapper :=
  findTopic σ ⟨topicName, ipcNs, getProcessDomainId σ current⟩

/-- The fresh `topic_struct` of `add_topic`. -/
def TopicStruct.new (rule : Option Nat) : TopicStruct :=
  { TopicStruct.blank with wrapperRefcnt := 1, rule := rule }

/-- Link a wrapper into `topic_hashtable`. -/
def Kmod.linkWrapper (place : Nat) (wrapper : TopicWrapper) : Kmod :=
  { σ with topicHashtable := HTable.hashAdd place σ.topicHashtable wrapper }

/-- Put a topic at the next free pointer. -/
def Kmod.allocTopic (t : TopicStruct) : Kmod :=
  { σ.setTopic σ.nextTopicPtr t with nextTopicPtr := σ.nextTopicPtr + 1 }

/-- `add_topic`. -/
def addTopic (env : Env) (c : Cell) : Except Errno TopicWrapper × Kmod :=
  match findTopic σ c with
  | some wrapper => (.ok wrapper, σ)
  | none =>
    if !env.kmalloc .topicWrapper then (.error .ENOMEM, σ)
    else if !env.kmalloc .topicKey then (.error .ENOMEM, σ)
    else
      match findGroupedTopicStruct σ c with
      | some grouped =>
        -- the cell shares the structure of the cell it is paired with
        let t := σ.topicStructs grouped
        let wrapper : TopicWrapper := ⟨c.ipcNs, c.domainId, c.key, grouped⟩
        (.ok wrapper,
          (σ.setTopic grouped { t with wrapperRefcnt := t.wrapperRefcnt + 1 }).linkWrapper
            (env.place .topic) wrapper)
      | none =>
        if !env.kmalloc .topicStruct then (.error .ENOMEM, σ)
        else
          let wrapper : TopicWrapper := ⟨c.ipcNs, c.domainId, c.key, σ.nextTopicPtr⟩
          (.ok wrapper,
            (σ.allocTopic (.new (findDomainRule σ c))).linkWrapper (env.place .topic) wrapper)

/-- `agnocast_wrapper_has_domain_endpoints`. -/
def wrapperHasDomainEndpoints (wrapper : TopicWrapper) : Bool :=
  let t := σ.topicStructs wrapper.topic
  (t.pubInfoHtable.any fun p => p.domainId = wrapper.domainId) ||
    t.subInfoHtable.any fun s => s.domainId = wrapper.domainId

/-- Erase everything a topic owns. -/
def TopicStruct.tearDown (t : TopicStruct) : TopicStruct :=
  { t with entries := [], pubInfoHtable := [], subInfoHtable := [] }

/-- Give up one of the topic's wrappers; the last one tears it down. -/
def TopicStruct.dropRef (t : TopicStruct) : TopicStruct :=
  let t := { t with wrapperRefcnt := u32Dec t.wrapperRefcnt }
  if t.wrapperRefcnt = 0 then t.tearDown else t

/-- `agnocast_release_topic_wrapper`. -/
def releaseTopicWrapper (wrapper : TopicWrapper) : Kmod :=
  { σ.setTopic wrapper.topic (σ.topicStructs wrapper.topic).dropRef with
    topicHashtable := HTable.hashDel TopicWrapper.cell wrapper.cell σ.topicHashtable }

/-- The re-check that ends every removal path. -/
def releaseIfEmpty (wrapper : TopicWrapper) : Kmod :=
  if wrapperHasDomainEndpoints σ wrapper then σ else releaseTopicWrapper σ wrapper

/-! ## Creating endpoints -/

/-- `agnocast_ioctl_add_subscriber`. -/
def addSubscriber (env : Env) (topicName : Name) (ipcNs : IpcNs) (args : SubscriberArgs)
    (eventfd : Int) : Except Errno Int × Kmod :=
  match (if args.isTakeSub then .ok none else (env.eventfdGet eventfd).map some) with
  | .error e => (.error e, σ)
  | .ok notifyCtx =>
    match addTopic σ env ⟨topicName, ipcNs, getProcessDomainId σ args.pid⟩ with
    | (.error e, σ) => (.error e, σ)
    | (.ok wrapper, σ) =>
      let (ret, t) :=
        insertSubscriberInfo σ env (σ.topicStructs wrapper.topic) wrapper.domainId args notifyCtx
      (ret, σ.setTopic wrapper.topic t)

/-- The loop at the end of ADD_PUBLISHER. -/
def TopicStruct.requestMmapUpdate (t : TopicStruct) : TopicStruct :=
  { t with subInfoHtable := t.subInfoHtable.map fun s => { s with needMmapUpdate := true } }

/-- `agnocast_ioctl_add_publisher`. -/
def addPublisher (env : Env) (topicName : Name) (ipcNs : IpcNs) (args : PublisherArgs) :
    Except Errno Int × Kmod :=
  match addTopic σ env ⟨topicName, ipcNs, getProcessDomainId σ args.pid⟩ with
  | (.error e, σ) => (.error e, σ)
  | (.ok wrapper, σ) =>
    match insertPublisherInfo σ env (σ.topicStructs wrapper.topic) wrapper.domainId args with
    | (.error e, t) => (.error e, σ.setTopic wrapper.topic t)
    | (.ok id, t) => (.ok id, σ.setTopic wrapper.topic t.requestMmapUpdate)

/-! ## Messages -/

/-- What PUBLISH_MSG answers, with the contexts it signals. -/
structure PublishReply where
  entryId : Int
  releasedAddrs : List Nat
  signalled : List EventfdCtx
  deriving DecidableEq, Repr

/-- PUBLISH_MSG on the topic: insert the entry, then trim. `pub_info` is the node
whose `entries_num` the insertion has counted up. -/
def publishMsgCore (env : Env) (t : TopicStruct) (pubInfo : PublisherInfo)
    (msgVirtualAddress : Nat) : Except Errno PublishReply × TopicStruct :=
  match insertMessageEntry env t pubInfo msgVirtualAddress with
  | (.error e, t) => (.error e, t)
  | (.ok entryId, t) =>
    match releaseMsgsToMeetDepth t { pubInfo with entriesNum := pubInfo.entriesNum + 1 } with
    | (.error e, t) => (.error e, t)
    | (.ok releasedAddrs, t) => (.ok ⟨entryId, releasedAddrs, pubInfo.notifyCtxs⟩, t)

/-- `agnocast_ioctl_publish_msg`. -/
def publishMsg (env : Env) (current : Pid) (topicName : Name) (ipcNs : IpcNs) (publisherId : Int)
    (msgVirtualAddress : Nat) : Except Errno PublishReply × Kmod :=
  match findTopicForCurrent σ current topicName ipcNs with
  | none => (.error .EINVAL, σ)
  | some wrapper =>
    let t := σ.topicStructs wrapper.topic
    match findPublisherInfo t publisherId with
    | none => (.error .EINVAL, σ)
    | some pubInfo =>
      match findProcessInfo σ pubInfo.pid with
      | none => (.error .EINVAL, σ)
      | some procInfo =>
        let mempoolStart := (σ.mem.mempoolEntries procInfo.mempoolEntry).addr
        -- the message has to lie in the pool of the publisher's process
        if msgVirtualAddress < mempoolStart ∨
            mempoolStart + σ.mem.mempoolSizeBytes ≤ msgVirtualAddress then (.error .EINVAL, σ)
        else
          let (ret, t) := publishMsgCore env t pubInfo msgVirtualAddress
          (ret, σ.setTopic wrapper.topic t)

/-- The end of RECEIVE_MSG and of TAKE_MSG: report the pools the subscriber's
process still has to map. -/
def reportPublisherShm (env : Env) (wrapper : TopicWrapper) (t : TopicStruct)
    (subInfo : SubscriberInfo) (pubShmInfosSize : Nat) :
    Except Errno (List PublisherShmInfo) × TopicStruct × MemoryAllocator :=
  if !subInfo.needMmapUpdate then (.ok [], t, σ.mem)
  else
    match setPublisherShmInfo σ env t wrapper.domainId subInfo.pid subInfo.isBridge pubShmInfosSize
        t.pubInfoHtable [] σ.mem with
    | (.error e, m) => (.error e, t, m)
    | (.ok infos, m) =>
      (.ok infos, t.modifySubscriber subInfo.id fun s => { s with needMmapUpdate := false }, m)

/-- What RECEIVE_MSG and TAKE_MSG share: find the subscriber, run `core` on its
topic, and report the pools. -/
def fetchMsg {α : Type} (env : Env) (current : Pid) (topicName : Name) (ipcNs : IpcNs)
    (subscriberId : Int) (pubShmInfosSize : Nat)
    (core : TopicStruct → SubscriberInfo → Except Errno α × TopicStruct) :
    Except Errno (α × List PublisherShmInfo) × Kmod :=
  match findTopicForCurrent σ current topicName ipcNs with
  | none => (.error .EINVAL, σ)
  | some wrapper =>
    let t := σ.topicStructs wrapper.topic
    match findSubscriberInfo t subscriberId with
    | none => (.error .EINVAL, σ)
    | some subInfo =>
      match core t subInfo with
      | (.error e, t) => (.error e, σ.setTopic wrapper.topic t)
      | (.ok a, t) =>
        -- what has been handed out stays so when the report fails
        let (ret, t, m) := reportPublisherShm σ env wrapper t subInfo pubShmInfosSize
        (ret.map fun infos => (a, infos), (σ.setTopic wrapper.topic t).setMem m)

/-- `agnocast_ioctl_receive_msg`. -/
def receiveMsg (env : Env) (current : Pid) (topicName : Name) (ipcNs : IpcNs)
    (subscriberId : Int) (pubShmInfosSize : Nat) :
    Except Errno (ReceivedEntries × List PublisherShmInfo) × Kmod :=
  fetchMsg σ env current topicName ipcNs subscriberId pubShmInfosSize fun t subInfo =>
    receiveMsgCore σ t subInfo subscriberId

/-- `agnocast_ioctl_take_msg`. -/
def takeMsg (env : Env) (current : Pid) (topicName : Name) (ipcNs : IpcNs)
    (subscriberId : Int) (allowSameMessage : Bool) (pubShmInfosSize : Nat) :
    Except Errno (Option (Int × Nat) × List PublisherShmInfo) × Kmod :=
  fetchMsg σ env current topicName ipcNs subscriberId pubShmInfosSize fun t subInfo =>
    takeMsgCore σ t subInfo subscriberId allowSameMessage

/-- `agnocast_ioctl_release_message_entry_reference`. -/
def releaseMessageEntryReference (current : Pid) (topicName : Name) (ipcNs : IpcNs)
    (pubsubId entryId : Int) : Except Errno Unit × Kmod :=
  match findTopicForCurrent σ current topicName ipcNs with
  | none => (.error .EINVAL, σ)
  | some wrapper =>
    let t := σ.topicStructs wrapper.topic
    match findMessageEntry t entryId with
    | none => (.error .EINVAL, σ)
    | some en =>
      if ¬ inBitmapRange pubsubId then (.error .EINVAL, σ)
      else if pubsubId ∉ en.referencingSubscribers.bits then (.error .EINVAL, σ)
      else
        (.ok (), σ.setTopic wrapper.topic (t.setEntry (en.clearBit pubsubId)))

/-! ## Removing endpoints -/

/-- `agnocast_ioctl_remove_subscriber`. -/
def removeSubscriber (current : Pid) (topicName : Name) (ipcNs : IpcNs) (subscriberId : Int) :
    Except Errno Unit × Kmod :=
  match findTopicForCurrent σ current topicName ipcNs with
  | none => (.error .EINVAL, σ)
  | some wrapper =>
    let t := σ.topicStructs wrapper.topic
    match findSubscriberInfo t subscriberId with
    | none => (.error .ENODATA, σ)
    | some subInfo =>
      let t := unlinkSubscriberInfo σ t subInfo
      -- an id that has no bit is found out after the unlinking
      if ¬ inBitmapRange subscriberId then (.error .EINVAL, σ.setTopic wrapper.topic t)
      else
        let t := clearSubscriberReferences σ t subscriberId
        (.ok (), releaseIfEmpty (σ.setTopic wrapper.topic t) wrapper)

/-- `agnocast_ioctl_remove_publisher`. -/
def removePublisher (current : Pid) (topicName : Name) (ipcNs : IpcNs) (publisherId : Int) :
    Except Errno Unit × Kmod :=
  match findTopicForCurrent σ current topicName ipcNs with
  | none => (.error .EINVAL, σ)
  | some wrapper =>
    let t := σ.topicStructs wrapper.topic
    match findPublisherInfo t publisherId with
    | none => (.error .ENODATA, σ)
    | some pubInfo =>
      (.ok (), releaseIfEmpty (σ.setTopic wrapper.topic (dropPublisher t pubInfo)) wrapper)

/-! ## ROS 2 endpoint counts -/

/-- SET_ROS2_SUBSCRIBER_NUM and SET_ROS2_PUBLISHER_NUM: write one field of the
caller's topic. -/
def setRos2Num (current : Pid) (topicName : Name) (ipcNs : IpcNs)
    (set : TopicStruct → TopicStruct) : Except Errno Unit × Kmod :=
  match findTopicForCurrent σ current topicName ipcNs with
  | none => (.error .ENOENT, σ)
  | some wrapper => (.ok (), σ.setTopic wrapper.topic (set (σ.topicStructs wrapper.topic)))

/-- `agnocast_ioctl_set_ros2_subscriber_num`. -/
def setRos2SubscriberNum (current : Pid) (topicName : Name) (ipcNs : IpcNs) (count : Nat) :
    Except Errno Unit × Kmod :=
  setRos2Num σ current topicName ipcNs fun t => { t with ros2SubscriberNum := count }

/-- `agnocast_ioctl_set_ros2_publisher_num`. -/
def setRos2PublisherNum (current : Pid) (topicName : Name) (ipcNs : IpcNs) (count : Nat) :
    Except Errno Unit × Kmod :=
  setRos2Num σ current topicName ipcNs fun t => { t with ros2PublisherNum := count }

end Agnocast
