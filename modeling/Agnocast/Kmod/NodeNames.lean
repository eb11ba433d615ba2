import Agnocast.Kmod.System

/-!
# The kernel module — the names of the nodes

GET_NODE_NAMES collects the nodes that own an endpoint of the caller's domain. It changes
nothing, so it is no part of the transition system.

The probe loop of `add_unique_node` has no bound. Here it looks at every slot once; if it has not
ended by then it never does, and the answer is `none`. The hash function is a parameter.
-/

namespace Agnocast

/-- `MAX_NODE_NUM`: names returned by one GET_NODE_NAMES. -/
def maxNodeNum : Nat := 1024

/-- `NODE_NAME_SLOT_NUM`. -/
def nodeNameSlotNum : Nat := 2 ^ 11

/-- `struct collected_node`. -/
structure CollectedNode where
  nameIndex : Nat
  pid : Pid
  deriving DecidableEq, Repr

/-- `struct node_name_collector`. `buf` is the part of the buffer that has been written, so `num`
is its length. -/
structure NodeNameCollector where
  slots : Nat → CollectedNode
  buf : List Name
  capacity : Nat

section

variable (fullNameHash : Name → Nat)

namespace NodeNameCollector

variable (col : NodeNameCollector)

def num : Nat := col.buf.length

/-- `node_name_at`; the rest of the buffer is zero. -/
def nodeNameAt (index : Nat) : Name := col.buf.getD index []

/-- The loop of `add_unique_node`: `none` if the node is there, else the slot for it. -/
def probe (name : Name) (pid : Pid) : Nat → Nat → Option (Option Nat)
  | 0, _ => none
  | fuel + 1, idx =>
    if (col.slots idx).pid = 0 then some (some idx)
    else if (col.slots idx).pid = pid ∧ col.nodeNameAt (col.slots idx).nameIndex = name then
      some none
    else probe name pid fuel ((idx + 1) % nodeNameSlotNum)

/-- `add_unique_node`. -/
def addUniqueNode (name : Name) (pid : Pid) : Option (Except Errno NodeNameCollector) :=
  match col.probe name pid nodeNameSlotNum (fullNameHash name % nodeNameSlotNum) with
  | none => none
  | some none => some (.ok col)
  | some (some idx) =>
    if col.num ≥ col.capacity then some (.error .ENOBUFS)
    else
      some (.ok
        { col with
          slots := Function.update col.slots idx ⟨col.num, pid⟩
          buf := col.buf ++ [name] })

end NodeNameCollector

/-- A loop over endpoints, some of which belong to a node that is collected. -/
def collectNodes {α : Type} (node : α → Option (Pid × Name)) :
    List α → NodeNameCollector → Option (Except Errno NodeNameCollector)
  | [], col => some (.ok col)
  | info :: rest, col =>
    match node info with
    | none => collectNodes node rest col
    | some (pid, name) =>
      match col.addUniqueNode fullNameHash name pid with
      | some (.ok col) => collectNodes node rest col
      | ret => ret

variable (σ : Kmod)

/-- `owner_is_alive`. -/
def ownerIsAlive (pid : Pid) : Bool := !processGone σ pid

/-- The node of a publisher, unless the loop skips it. -/
def publisherNode (domainId : Nat) (pubInfo : PublisherInfo) : Option (Pid × Name) :=
  if pubInfo.domainId ≠ domainId ∨ pubInfo.isBridge then none
  else if !ownerIsAlive σ pubInfo.pid then none
  else some (pubInfo.pid, pubInfo.nodeName)

/-- The node of a subscriber, unless the loop skips it. -/
def subscriberNode (domainId : Nat) (subInfo : SubscriberInfo) : Option (Pid × Name) :=
  if subInfo.domainId ≠ domainId ∨ subInfo.isBridge then none
  else if !ownerIsAlive σ subInfo.pid then none
  else some (subInfo.pid, subInfo.nodeName)

/-- `collect_node_names_of_topic`. -/
def collectNodeNamesOfTopic (wrapper : TopicWrapper) (domainId : Nat) (col : NodeNameCollector) :
    Option (Except Errno NodeNameCollector) :=
  let t := σ.topicStructs wrapper.topic
  match collectNodes fullNameHash (publisherNode σ domainId) t.pubInfoHtable col with
  | some (.ok col) => collectNodes fullNameHash (subscriberNode σ domainId) t.subInfoHtable col
  | ret => ret

/-- The loop of GET_NODE_NAMES over the topics. -/
def collectNodeNames (ipcNs : IpcNs) (domainId : Nat) :
    List TopicWrapper → NodeNameCollector → Option (Except Errno NodeNameCollector)
  | [], col => some (.ok col)
  | wrapper :: rest, col =>
    if ipcNs ≠ wrapper.ipcNs ∨ wrapper.domainId ≠ domainId then
      collectNodeNames ipcNs domainId rest col
    else
      match collectNodeNamesOfTopic fullNameHash σ wrapper domainId col with
      | some (.ok col) => collectNodeNames ipcNs domainId rest col
      | ret => ret

/-- `agnocast_ioctl_get_node_names`, when `kvcalloc` tells whether there is memory for the slots. -/
def getNodeNames (kvcalloc : Bool) (ipcNs : IpcNs) (pid : Pid) (bufNodeNum : Nat) :
    Option (Except Errno (List Name)) :=
  if bufNodeNum > maxNodeNum then some (.error .EINVAL)
  else if !kvcalloc then some (.error .ENOMEM)
  else
    match collectNodeNames fullNameHash σ ipcNs (getProcessDomainId σ pid) σ.topicHashtable
      ⟨fun _ => ⟨0, 0⟩, [], bufNodeNum⟩ with
    | none => none
    | some (.error e) => some (.error e)
    | some (.ok col) => some (.ok col.buf)

end

end Agnocast
