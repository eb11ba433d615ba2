import Agnocast.Kmod.System

/-!
# The kernel module — the topic queries

What `ros2 topic`, `ros2 node` and the discovery agent ask of the module: the topics of a
namespace, the topics of a node, and the endpoints of a topic. They change nothing, so they
are no part of the transition system.

Two arguments stand for the kernel's side: whether the scratch buffer can be allocated,
and the size of the caller's buffer. `copy_to_user` does not fail here. Names are shorter
than their buffers from the start, so `strscpy` copies them whole.
-/

namespace Agnocast

/-- `MAX_TOPIC_NUM`. -/
def maxTopicNum : Nat := 2048

/-- `MAX_TOPIC_INFO_RET_NUM`, the size of the buffer that callers pass. -/
def maxTopicInfoRetNum : Nat := max maxPublisherNum maxSubscriberNum

/-- `is_service_response_topic`. -/
def isServiceResponseTopic (key : Name) : Bool :=
  "/AGNOCAST_SRV_RESPONSE".toList.isPrefixOf key

/-- The loop over `topic_hashtable` that fills a buffer with a row for each listed wrapper. -/
def listTopics {α : Type} (listed : TopicWrapper → Bool) (row : TopicWrapper → α)
    (bufTopicNum : Nat) : List TopicWrapper → List α → Except Errno (List α)
  | [], rows => .ok rows
  | wrapper :: rest, rows =>
    if !listed wrapper then listTopics listed row bufTopicNum rest rows
    else if rows.length ≥ bufTopicNum then .error .ENOBUFS
    else listTopics listed row bufTopicNum rest (rows ++ [row wrapper])

/-- `struct topic_info_ret`. -/
structure TopicInfoRet where
  nodeName : Name
  qosDepth : Nat
  qosIsTransientLocal : Bool
  qosIsReliable : Bool
  isBridge : Bool
  deriving DecidableEq, Repr

/-- The row of a subscriber. -/
def SubscriberInfo.topicInfoRet (subInfo : SubscriberInfo) : TopicInfoRet where
  nodeName := subInfo.nodeName
  qosDepth := subInfo.qosDepth
  qosIsTransientLocal := subInfo.qosIsTransientLocal
  qosIsReliable := subInfo.qosIsReliable
  isBridge := subInfo.isBridge

/-- The row of a publisher; publishers do not have reliability QoS. -/
def PublisherInfo.topicInfoRet (pubInfo : PublisherInfo) : TopicInfoRet where
  nodeName := pubInfo.nodeName
  qosDepth := pubInfo.qosDepth
  qosIsTransientLocal := pubInfo.qosIsTransientLocal
  qosIsReliable := false
  isBridge := pubInfo.isBridge

/-- Copy the rows of the endpoints out, if they fit. -/
def topicInfo (kvcalloc : Bool) (bufferSize : Nat) (infos : List TopicInfoRet) :
    Except Errno (List TopicInfoRet) :=
  if infos.length > bufferSize then .error .ENOBUFS
  else if 0 < infos.length ∧ !kvcalloc then .error .ENOMEM
  else .ok infos

variable (σ : Kmod)

/-- `get_topic_list_cmd`. -/
def getTopicList (kvmalloc : Bool) (ipcNs : IpcNs) (topicNameBufferSize : Nat) :
    Except Errno (List (Name × Nat)) :=
  if !kvmalloc then .error .ENOMEM
  else
    listTopics (fun w => w.ipcNs = ipcNs && !isServiceResponseTopic w.key)
      (fun w => (w.key, w.domainId)) (min topicNameBufferSize maxTopicNum) σ.topicHashtable []

/-- `get_node_subscriber_topics_cmd`. -/
def getNodeSubscriberTopics (kvmalloc : Bool) (ipcNs : IpcNs) (nodeName : Name)
    (topicNameBufferSize : Nat) : Except Errno (List Name) :=
  if !kvmalloc then .error .ENOMEM
  else
    listTopics (fun w => w.ipcNs = ipcNs &&
        (σ.topicStructs w.topic).subInfoHtable.any fun s => s.nodeName = nodeName)
      TopicWrapper.key (min topicNameBufferSize maxTopicNum) σ.topicHashtable []

/-- `get_node_publisher_topics_cmd`. -/
def getNodePublisherTopics (kvmalloc : Bool) (ipcNs : IpcNs) (nodeName : Name)
    (topicNameBufferSize : Nat) : Except Errno (List Name) :=
  if !kvmalloc then .error .ENOMEM
  else
    listTopics (fun w => w.ipcNs = ipcNs &&
        (σ.topicStructs w.topic).pubInfoHtable.any fun p => p.nodeName = nodeName)
      TopicWrapper.key (min topicNameBufferSize maxTopicNum) σ.topicHashtable []

/-- `agnocast_ioctl_get_topic_subscriber_info`. A table may be shared with the domain that a
rule pairs, so only endpoints of the requested domain count. -/
def getTopicSubscriberInfo (kvcalloc : Bool) (topicName : Name) (ipcNs : IpcNs) (domainId : Nat)
    (bufferSize : Nat) : Except Errno (List TopicInfoRet) :=
  match findTopic σ ⟨topicName, ipcNs, domainId⟩ with
  | none => .ok []
  | some wrapper =>
    topicInfo kvcalloc bufferSize
      (((σ.topicStructs wrapper.topic).subInfoHtable.filter fun s =>
        s.domainId = wrapper.domainId).map SubscriberInfo.topicInfoRet)

/-- `agnocast_ioctl_get_topic_publisher_info`. -/
def getTopicPublisherInfo (kvcalloc : Bool) (topicName : Name) (ipcNs : IpcNs) (domainId : Nat)
    (bufferSize : Nat) : Except Errno (List TopicInfoRet) :=
  match findTopic σ ⟨topicName, ipcNs, domainId⟩ with
  | none => .ok []
  | some wrapper =>
    topicInfo kvcalloc bufferSize
      (((σ.topicStructs wrapper.topic).pubInfoHtable.filter fun p =>
        p.domainId = wrapper.domainId).map PublisherInfo.topicInfoRet)

end Agnocast
