import Mathlib.Data.Finset.Basic
import Mathlib.Data.Finset.Insert
import Mathlib.Data.Finset.Erase
import Mathlib.Data.Int.Order.Basic
import Agnocast.Lib.Table

/-!
# The kernel module — data

Constants and structures of `agnocast.h`, `agnocast_internal.h` and
`agnocast_memory_allocator.h`, and the global tables as one record `Kmod`.

Representation:

* **Hash tables** are lists in iteration order (`HTable`); the place a new node
  takes in that order is the hash function's, an input of every call (`Env`).
* **The entry tree** is the list of its nodes in key order, so `rb_next` is the
  tail and `rb_last` the last element.
* **Pointers** that are shared (`topic_struct`, `domain_bridge_rule`,
  `mempool_entry`) are indices into a total store. An index is never given out
  twice; what is left at one whose object was freed is empty and not read again.
* **Counters** are unbounded upwards (`current_entry_id` would need `2^63`
  publications to wrap, `entries_num` `2^32` live entries of more than half a
  kilobyte each), but an unsigned decrement wraps (`u32Dec`).
* Each ioctl is one atomic step: writers of the tables hold
  `global_htables_rwsem`, writers of one topic `topic->rwsem`, and what the two
  read-side paths change (one subscriber's own fields, single bits) does not
  overlap between calls of different subscribers.
-/

namespace Agnocast

/-! ## Constants -/

/-- `MAX_PUBLISHER_NUM`: publishers per topic. -/
def maxPublisherNum : Nat := 1024

/-- `MAX_TOPIC_LOCAL_ID`: size of an entry's reference bitmap. -/
def maxTopicLocalId : Nat := 4096

/-- `MAX_SUBSCRIBER_NUM`: subscribers per topic. -/
def maxSubscriberNum : Nat := maxTopicLocalId - maxPublisherNum

/-- `MAX_RECEIVE_NUM`: entries returned by one receive. -/
def maxReceiveNum : Nat := 10

/-- `MAX_RELEASE_NUM`: entries released by one publish. -/
def maxReleaseNum : Nat := 3

/-- `NOTIFY_CTXS_MIN_CAPACITY`. -/
def notifyCtxsMinCapacity : Nat := 8

/-- `AGNOCAST_DOMAIN_ID_NONE`: the unlink daemon has no domain of its own. -/
def agnocastDomainIdNone : Nat := 0xFFFFFFFF

/-! ## Scalars -/

abbrev Pid := Int
abbrev IpcNs := Nat
abbrev Name := List Char
abbrev EventfdCtx := Nat

/-- The error codes the module answers with. -/
inductive Errno
  | EINVAL | ENOMEM | ENOBUFS | ENOSPC | ENODATA | EALREADY | EEXIST | ESRCH | ECANCELED
  | EBUSY | ENOENT | EPERM | EBADF
  deriving DecidableEq, Repr

/-- `enum process_role`. -/
inductive ProcessRole
  | application | bridgeManager | unlinkDaemon
  deriving DecidableEq, Repr

/-- `--x` on a `uint32_t`: zero wraps. -/
def u32Dec (n : Nat) : Nat := if n = 0 then 0xFFFFFFFF else n - 1

@[simp] theorem u32Dec_succ (n : Nat) : u32Dec (n + 1) = n := by simp [u32Dec]

theorem u32Dec_of_pos {n : Nat} (h : 0 < n) : u32Dec n = n - 1 := by
  rw [u32Dec, if_neg (Nat.ne_of_gt h)]

/-! ## What the environment decides during one call -/

/-- The allocations a call may make; `notifyCtxs` and `mappedPidOf` recur in a
loop over publishers and are told apart by the publisher's id. -/
inductive AllocSite
  | processInfo | mappedPid | mappedPidOf (publisherId : Int)
  | topicWrapper | topicKey | topicStruct
  | subscriberInfo | publisherInfo | nodeName | notifyCtxs (publisherId : Int)
  | entryNode | domainBridgeRule | ruleNameA | ruleNameB
  | bridgeInfo | bridgeName | discoveryAgentInfo
  deriving DecidableEq, Repr

/-- The hash tables a call may link a node into. -/
inductive HashTable
  | procInfo | topic | pubInfo | subInfo | domainRule | bridge | discoveryAgent
  deriving DecidableEq, Repr

/-- What the kernel around the module decides during one call: which
allocations succeed, where the hash functions place new nodes, which pids still
translate to the caller's namespace, and what an eventfd number refers to. -/
structure Env where
  kmalloc : AllocSite → Bool
  place : HashTable → Nat
  convertPidToLocal : Pid → Option Pid
  eventfdGet : Int → Except Errno EventfdCtx

/-! ## Structures -/

/-- `struct process_info`. -/
structure ProcessInfo where
  exited : Bool
  role : ProcessRole
  globalPid : Pid
  localPid : Pid
  mempoolEntry : Nat
  ipcNs : IpcNs
  domainId : Nat
  deriving DecidableEq, Repr

/-- `struct publisher_info`. `notifyCtxs` is the used part
`notify_ctxs[0..notify_num)` of the array, `notifyCapacity` its reserved length. -/
structure PublisherInfo where
  id : Int
  domainId : Nat
  pid : Pid
  nodeName : Name
  qosDepth : Nat
  qosIsTransientLocal : Bool
  entriesNum : Nat
  isBridge : Bool
  notifyCtxs : List EventfdCtx
  notifyCapacity : Nat
  deriving DecidableEq, Repr

/-- `notify_num`. -/
def PublisherInfo.notifyNum (p : PublisherInfo) : Nat := p.notifyCtxs.length

/-- `struct subscriber_info`. -/
structure SubscriberInfo where
  id : Int
  domainId : Nat
  pid : Pid
  qosDepth : Nat
  qosIsTransientLocal : Bool
  qosIsReliable : Bool
  latestReceivedEntryId : Int
  nodeName : Name
  isTakeSub : Bool
  ignoreLocalPublications : Bool
  needMmapUpdate : Bool
  isBridge : Bool
  notifyCtx : Option EventfdCtx
  deriving DecidableEq, Repr

/-- The range test that guards every access to a reference bitmap. -/
def inBitmapRange (id : Int) : Prop := 0 ≤ id ∧ id < maxTopicLocalId

instance (id : Int) : Decidable (inBitmapRange id) := inferInstanceAs (Decidable (_ ∧ _))

/-- `DECLARE_BITMAP(referencing_subscribers, MAX_TOPIC_LOCAL_ID)`: the set of
set bits, all of them in range. -/
structure ReferenceBitmap where
  bits : Finset Int
  inRange : ∀ b ∈ bits, inBitmapRange b
  deriving DecidableEq

namespace ReferenceBitmap

@[ext] theorem ext {m m' : ReferenceBitmap} (h : m.bits = m'.bits) : m = m' := by
  cases m; cases m'; simp_all

/-- `bitmap_zero`. -/
def zero : ReferenceBitmap := ⟨∅, by simp⟩

/-- `clear_bit`. -/
def clear (m : ReferenceBitmap) (b : Int) : ReferenceBitmap :=
  ⟨m.bits.erase b, fun c hc => m.inRange c (Finset.mem_of_mem_erase hc)⟩

/-- `set_bit` on a bit inside the bitmap. -/
def set (m : ReferenceBitmap) (b : Int) (h : inBitmapRange b) : ReferenceBitmap :=
  ⟨insert b m.bits, fun c hc => by
    rcases Finset.mem_insert.mp hc with rfl | hc
    · exact h
    · exact m.inRange c hc⟩

@[simp] theorem bits_zero : zero.bits = ∅ := rfl
@[simp] theorem bits_clear (m : ReferenceBitmap) (b : Int) :
    (m.clear b).bits = m.bits.erase b := rfl
@[simp] theorem bits_set (m : ReferenceBitmap) (b : Int) (h : inBitmapRange b) :
    (m.set b h).bits = insert b m.bits := rfl

end ReferenceBitmap

/-- `struct entry_node`. -/
structure EntryNode where
  entryId : Int
  publisherId : Int
  msgVirtualAddress : Nat
  referencingSubscribers : ReferenceBitmap
  deriving DecidableEq

/-- `agnocast_is_referenced`. -/
def isReferenced (en : EntryNode) : Bool := en.referencingSubscribers.bits ≠ ∅

/-- `struct topic_struct`. -/
structure TopicStruct where
  entries : List EntryNode
  pubInfoHtable : List PublisherInfo
  subInfoHtable : List SubscriberInfo
  currentPubsubId : Int
  currentEntryId : Int
  ros2SubscriberNum : Nat
  ros2PublisherNum : Nat
  wrapperRefcnt : Nat
  rule : Option Nat
  deriving DecidableEq

/-- A `topic_struct` with nothing in it. -/
def TopicStruct.blank : TopicStruct where
  entries := []
  pubInfoHtable := []
  subInfoHtable := []
  currentPubsubId := 0
  currentEntryId := 0
  ros2SubscriberNum := 0
  ros2PublisherNum := 0
  wrapperRefcnt := 0
  rule := none

/-- `struct topic_wrapper`. -/
structure TopicWrapper where
  ipcNs : IpcNs
  domainId : Nat
  key : Name
  topic : Nat
  deriving DecidableEq, Repr

/-- `struct domain_bridge_rule`; the canonical order of the pair is part of the
structure. -/
structure DomainBridgeRule where
  topicNameA : Name
  topicNameB : Name
  ipcNs : IpcNs
  domainA : Nat
  domainB : Nat
  aToB : Bool
  bToA : Bool
  isPrefix : Bool
  canonical : domainA < domainB
  deriving DecidableEq

/-- `struct bridge_info`. -/
structure BridgeInfo where
  topicName : Name
  pid : Pid
  hasR2a : Bool
  hasA2r : Bool
  ipcNs : IpcNs
  deriving DecidableEq, Repr

/-- `struct discovery_agent_info`. -/
structure DiscoveryAgentInfo where
  pid : Pid
  ipcNs : IpcNs
  domainId : Nat
  deriving DecidableEq, Repr

/-- `struct mempool_entry`; `mappedPids` is the list at `mapped_pid_head`. -/
structure MempoolEntry where
  addr : Nat
  mappedNum : Nat
  mappedPids : List Pid
  deriving DecidableEq, Repr

/-- The allocator's globals. -/
structure MemoryAllocator where
  mempoolNum : Nat
  mempoolSizeBytes : Nat
  mempoolEntries : Nat → MempoolEntry

/-- The module's global state. -/
structure Kmod where
  procInfoHtable : List ProcessInfo
  discoveryAgentHtable : List DiscoveryAgentInfo
  topicHashtable : List TopicWrapper
  bridgeHtable : List BridgeInfo
  domainRuleHtable : List Nat
  topicStructs : Nat → TopicStruct
  nextTopicPtr : Nat
  domainRules : Nat → DomainBridgeRule
  nextRulePtr : Nat
  mem : MemoryAllocator

namespace Kmod

/-- Overwrite one `topic_struct`. -/
def setTopic (σ : Kmod) (tp : Nat) (t : TopicStruct) : Kmod :=
  { σ with topicStructs := Function.update σ.topicStructs tp t }

/-- Overwrite the allocator. -/
def setMem (σ : Kmod) (m : MemoryAllocator) : Kmod := { σ with mem := m }

variable (σ : Kmod) (tp : Nat) (t : TopicStruct) (m : MemoryAllocator)

@[simp] theorem setTopic_procInfoHtable :
    (σ.setTopic tp t).procInfoHtable = σ.procInfoHtable := rfl
@[simp] theorem setTopic_topicHashtable :
    (σ.setTopic tp t).topicHashtable = σ.topicHashtable := rfl
@[simp] theorem setTopic_domainRuleHtable :
    (σ.setTopic tp t).domainRuleHtable = σ.domainRuleHtable := rfl
@[simp] theorem setTopic_domainRules : (σ.setTopic tp t).domainRules = σ.domainRules := rfl
@[simp] theorem setTopic_nextTopicPtr : (σ.setTopic tp t).nextTopicPtr = σ.nextTopicPtr := rfl
@[simp] theorem setTopic_nextRulePtr : (σ.setTopic tp t).nextRulePtr = σ.nextRulePtr := rfl
@[simp] theorem setTopic_mem : (σ.setTopic tp t).mem = σ.mem := rfl
@[simp] theorem setTopic_self : (σ.setTopic tp t).topicStructs tp = t := by simp [setTopic]
theorem setTopic_of_ne {tp' : Nat} (h : tp' ≠ tp) :
    (σ.setTopic tp t).topicStructs tp' = σ.topicStructs tp' := by simp [setTopic, h]
@[simp] theorem setMem_procInfoHtable : (σ.setMem m).procInfoHtable = σ.procInfoHtable := rfl
@[simp] theorem setMem_topicHashtable : (σ.setMem m).topicHashtable = σ.topicHashtable := rfl
@[simp] theorem setMem_topicStructs : (σ.setMem m).topicStructs = σ.topicStructs := rfl
@[simp] theorem setMem_domainRuleHtable : (σ.setMem m).domainRuleHtable = σ.domainRuleHtable := rfl
@[simp] theorem setMem_domainRules : (σ.setMem m).domainRules = σ.domainRules := rfl
@[simp] theorem setMem_nextTopicPtr : (σ.setMem m).nextTopicPtr = σ.nextTopicPtr := rfl
@[simp] theorem setMem_nextRulePtr : (σ.setMem m).nextRulePtr = σ.nextRulePtr := rfl
@[simp] theorem setMem_mem : (σ.setMem m).mem = m := rfl

end Kmod

end Agnocast
