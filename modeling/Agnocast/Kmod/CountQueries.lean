import Agnocast.Kmod.System

/-!
# The kernel module — the count queries

GET_SUBSCRIBER_NUM and GET_PUBLISHER_NUM read the topic of the caller's domain. They
change nothing, so they are no part of the transition system.
-/

namespace Agnocast

variable (σ : Kmod)

/-- What GET_SUBSCRIBER_NUM answers. -/
structure SubscriberNum where
  otherProcessSubscriberNum : Nat
  sameProcessSubscriberNum : Nat
  ros2SubscriberNum : Nat
  otherDomainSubscriberNum : Nat
  a2rBridgeExist : Bool
  r2aBridgeExist : Bool
  deriving DecidableEq, Repr

/-- What GET_PUBLISHER_NUM answers. -/
structure PublisherNum where
  publisherNum : Nat
  ros2PublisherNum : Nat
  r2aBridgeExist : Bool
  a2rBridgeExist : Bool
  deriving DecidableEq, Repr

/-- The counts of one topic, asked through one of its wrappers. The loop over the
publishers looks at all domains. -/
def subscriberNumOf (wrapper : TopicWrapper) (pid : Pid) : SubscriberNum :=
  let t := σ.topicStructs wrapper.topic
  { otherProcessSubscriberNum :=
      t.subInfoHtable.countP fun s => s.domainId = wrapper.domainId ∧ s.pid ≠ pid
    sameProcessSubscriberNum :=
      t.subInfoHtable.countP fun s => s.domainId = wrapper.domainId ∧ s.pid = pid
    ros2SubscriberNum := t.ros2SubscriberNum
    otherDomainSubscriberNum :=
      t.subInfoHtable.countP fun s => s.domainId ≠ wrapper.domainId ∧
        domainDeliveryAllowed σ t wrapper.domainId false s.domainId s.isBridge
    a2rBridgeExist := t.subInfoHtable.any fun s => s.domainId = wrapper.domainId ∧ s.isBridge
    r2aBridgeExist := t.pubInfoHtable.any fun p => p.isBridge }

/-- `agnocast_ioctl_get_subscriber_num`. -/
def getSubscriberNum (current : Pid) (topicName : Name) (ipcNs : IpcNs) (pid : Pid) :
    SubscriberNum :=
  match findTopicForCurrent σ current topicName ipcNs with
  | none => ⟨0, 0, 0, 0, false, false⟩
  | some wrapper => subscriberNumOf σ wrapper pid

/-- The counts of one topic, asked through one of its wrappers. Here it is the loop over
the subscribers that looks at all domains. -/
def publisherNumOf (wrapper : TopicWrapper) : PublisherNum :=
  let t := σ.topicStructs wrapper.topic
  { publisherNum := t.pubInfoHtable.countP fun p => p.domainId = wrapper.domainId
    ros2PublisherNum := t.ros2PublisherNum
    r2aBridgeExist := t.pubInfoHtable.any fun p => p.domainId = wrapper.domainId ∧ p.isBridge
    a2rBridgeExist := t.subInfoHtable.any fun s => s.isBridge }

/-- `agnocast_ioctl_get_publisher_num`. -/
def getPublisherNum (current : Pid) (topicName : Name) (ipcNs : IpcNs) : PublisherNum :=
  match findTopicForCurrent σ current topicName ipcNs with
  | none => ⟨0, 0, false, false⟩
  | some wrapper => publisherNumOf σ wrapper

end Agnocast
