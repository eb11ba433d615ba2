import Agnocast.Kmod.Topic

/-!
# The kernel module — the entry tree of one topic

Publish, receive, take and release as far as they work on one `topic_struct`,
and the loops that delete entries when an endpoint leaves.

A loop over the tree that may delete the current node is a recursion over the
list of entries that rebuilds it; a cursor into the tree is the list of entries
from the cursor on.
-/

namespace Agnocast

variable (σ : Kmod)

/-- `clear_bit` on one entry. -/
def EntryNode.clearBit (en : EntryNode) (b : Int) : EntryNode :=
  { en with referencingSubscribers := en.referencingSubscribers.clear b }

section

variable (en : EntryNode) (b : Int)

@[simp] theorem EntryNode.clearBit_entryId : (en.clearBit b).entryId = en.entryId := rfl
@[simp] theorem EntryNode.clearBit_publisherId : (en.clearBit b).publisherId = en.publisherId := rfl
@[simp] theorem EntryNode.clearBit_msgVirtualAddress :
    (en.clearBit b).msgVirtualAddress = en.msgVirtualAddress := rfl
@[simp] theorem EntryNode.clearBit_bits :
    (en.clearBit b).referencingSubscribers.bits = en.referencingSubscribers.bits.erase b := rfl

end

/-- Overwrite the entry with `en`'s id. -/
def TopicStruct.setEntry (t : TopicStruct) (en : EntryNode) : TopicStruct :=
  { t with entries := HTable.modify EntryNode.entryId en.entryId (fun _ => en) t.entries }

/-- Change one publisher in place. -/
def TopicStruct.modifyPublisher (t : TopicStruct) (id : Int)
    (f : PublisherInfo → PublisherInfo) : TopicStruct :=
  { t with pubInfoHtable := HTable.modify PublisherInfo.id id f t.pubInfoHtable }

/-- Change one subscriber in place. -/
def TopicStruct.modifySubscriber (t : TopicStruct) (id : Int)
    (f : SubscriberInfo → SubscriberInfo) : TopicStruct :=
  { t with subInfoHtable := HTable.modify SubscriberInfo.id id f t.subInfoHtable }

/-! ## Publish -/

/-- `insert_message_entry`. The tree walk goes right at every node and fails at
one whose id is not smaller, so it succeeds iff the greatest id is smaller. -/
def insertMessageEntry (env : Env) (t : TopicStruct) (pubInfo : PublisherInfo)
    (msgVirtualAddress : Nat) : Except Errno Int × TopicStruct :=
  if !env.kmalloc .entryNode then (.error .ENOMEM, t)
  else
    let newNode : EntryNode :=
      { entryId := t.currentEntryId
        publisherId := pubInfo.id
        msgVirtualAddress := msgVirtualAddress
        referencingSubscribers := .zero }
    -- the id is used up even if the insertion fails
    let t := { t with currentEntryId := t.currentEntryId + 1 }
    if (t.entries.getLast?.all fun last => last.entryId < newNode.entryId) then
      (.ok newNode.entryId,
        { t with entries := t.entries ++ [newNode] }.modifyPublisher pubInfo.id fun p =>
          { p with entriesNum := p.entriesNum + 1 })
    else (.error .ECANCELED, t)

/-- What is left after the loop of `release_msgs_to_meet_depth`. -/
structure ReleaseLoop where
  ret : Except Errno Unit
  entries : List EntryNode
  entriesNum : Nat
  releasedAddrs : List Nat

/-- The loop of `release_msgs_to_meet_depth`, on the entries from the cursor on.
The next node is fetched, and found missing, before the current one is looked at. -/
def releaseLoop (publisherId : Int) :
    List EntryNode → (numSearchEntries entriesNum : Nat) → List Nat → ReleaseLoop
  | [], _, entriesNum, released => ⟨.ok (), [], entriesNum, released⟩
  | en :: next, numSearchEntries, entriesNum, released =>
    if numSearchEntries = 0 ∨ maxReleaseNum ≤ released.length then
      ⟨.ok (), en :: next, entriesNum, released⟩
    -- the loop runs out of entries, which the caller takes for an error
    else if next = [] then ⟨.error .ENODATA, en :: next, entriesNum, released⟩
    else if en.publisherId ≠ publisherId then
      let r := releaseLoop publisherId next numSearchEntries entriesNum released
      { r with entries := en :: r.entries }
    -- a referenced entry counts as searched, and stays
    else if isReferenced en then
      let r := releaseLoop publisherId next (numSearchEntries - 1) entriesNum released
      { r with entries := en :: r.entries }
    else
      releaseLoop publisherId next (numSearchEntries - 1) (u32Dec entriesNum)
        (released ++ [en.msgVirtualAddress])

/-- `release_msgs_to_meet_depth`. -/
def releaseMsgsToMeetDepth (t : TopicStruct) (pubInfo : PublisherInfo) :
    Except Errno (List Nat) × TopicStruct :=
  if pubInfo.entriesNum ≤ pubInfo.qosDepth then (.ok [], t)
  else if t.entries = [] then (.error .ENODATA, t)
  else
    let r := releaseLoop pubInfo.id t.entries (pubInfo.entriesNum - pubInfo.qosDepth)
      pubInfo.entriesNum []
    (r.ret.map fun _ => r.releasedAddrs,
      { t with entries := r.entries }.modifyPublisher pubInfo.id fun p =>
        { p with entriesNum := r.entriesNum })

/-! ## Receive and take -/

/-- `add_subscriber_reference`, on the entry itself. -/
def addSubscriberReference (en : EntryNode) (id : Int) : Except Errno EntryNode :=
  if h : inBitmapRange id then
    if id ∈ en.referencingSubscribers.bits then .error .EALREADY
    else .ok { en with referencingSubscribers := en.referencingSubscribers.set id h }
  else .error .EINVAL

/-- The backward pass of `receive_msg_core`: over the entries before the cursor,
newest first, with `after` the entries from the cursor's successor on. `node` is
the cursor found so far and `deliverableNum` how many deliverable entries were
counted. -/
def receiveWindow (t : TopicStruct) (subInfo : SubscriberInfo) (oldestWantedEntryId : Int) :
    (backwards after node : List EntryNode) → Nat → Except Errno (List EntryNode × Nat)
  | [], _, node, deliverableNum => .ok (node, deliverableNum)
  | en :: back, after, node, deliverableNum =>
    if en.entryId < oldestWantedEntryId then .ok (node, deliverableNum)
    else
      match isEntryDeliverable σ t subInfo en with
      | .error e => .error e
      | .ok false =>
        receiveWindow t subInfo oldestWantedEntryId back (en :: after) node deliverableNum
      | .ok true =>
        -- the depth is reached at this entry
        if deliverableNum + 1 ≥ subInfo.qosDepth then .ok (en :: after, deliverableNum + 1)
        else
          receiveWindow t subInfo oldestWantedEntryId back (en :: after) (en :: after)
            (deliverableNum + 1)

/-- What RECEIVE_MSG hands out: the entries' ids and addresses, and whether more
are waiting. -/
structure ReceivedEntries where
  entries : List (Int × Nat)
  callAgain : Bool
  deriving DecidableEq, Repr

/-- The forward pass of `receive_msg_core`, from the cursor on. -/
def receiveLoop (subInfo : SubscriberInfo) (subscriberId : Int) (deliverableNum : Nat) :
    List EntryNode → ReceivedEntries → TopicStruct →
      Except Errno Unit × ReceivedEntries × TopicStruct
  | [], reply, t => (.ok (), reply, t)
  | en :: next, reply, t =>
    -- the reply is full: what is left is for the next call
    if reply.entries.length = maxReceiveNum then
      (.ok (), { reply with callAgain := decide (reply.entries.length < deliverableNum) }, t)
    else
      match isEntryDeliverable σ t subInfo en with
      | .error e => (.error e, reply, t)
      | .ok false => receiveLoop subInfo subscriberId deliverableNum next reply t
      | .ok true =>
        match addSubscriberReference en subscriberId with
        | .error e => (.error e, reply, t)
        | .ok en' =>
          receiveLoop subInfo subscriberId deliverableNum next
            { reply with entries := reply.entries ++ [(en.entryId, en.msgVirtualAddress)] }
            (t.setEntry en')

/-- `receive_msg_core`. -/
def receiveMsgCore (t : TopicStruct) (subInfo : SubscriberInfo) (subscriberId : Int) :
    Except Errno ReceivedEntries × TopicStruct :=
  if t.entries = [] then (.ok ⟨[], false⟩, t)
  else if subInfo.qosDepth = 0 then (.ok ⟨[], false⟩, t)
  else
    match receiveWindow σ t subInfo (subInfo.latestReceivedEntryId + 1) t.entries.reverse [] []
        0 with
    | .error e => (.error e, t)
    | .ok (node, deliverableNum) =>
      match receiveLoop σ subInfo subscriberId deliverableNum node ⟨[], false⟩ t with
      | (.error e, _, t) => (.error e, t)
      | (.ok (), reply, t) =>
        -- `latest_received_entry_id` follows the last entry of the reply
        match reply.entries.getLast? with
        | none => (.ok reply, t)
        | some (lastId, _) =>
          (.ok reply, t.modifySubscriber subInfo.id fun s =>
            { s with latestReceivedEntryId := lastId })

/-- The search loop of TAKE_MSG: over the entries newest first, with the
candidate found so far. -/
def takeCandidate (t : TopicStruct) (subInfo : SubscriberInfo) (allowSameMessage : Bool) :
    List EntryNode → (searchedCount : Nat) → Option EntryNode → Except Errno (Option EntryNode)
  | [], _, candidate => .ok candidate
  | en :: back, searchedCount, candidate =>
    if ¬ searchedCount < subInfo.qosDepth then .ok candidate
    else if !allowSameMessage ∧ en.entryId = subInfo.latestReceivedEntryId then .ok candidate
    else if en.entryId < subInfo.latestReceivedEntryId then .ok candidate
    else
      match isEntryDeliverable σ t subInfo en with
      | .error e => .error e
      | .ok false => takeCandidate t subInfo allowSameMessage back searchedCount candidate
      | .ok true => takeCandidate t subInfo allowSameMessage back (searchedCount + 1) (some en)

/-- The part of TAKE_MSG before the mapping: find the candidate and claim it.
A reference that the subscriber already holds is reused when
`allow_same_message` is set. -/
def takeMsgCore (t : TopicStruct) (subInfo : SubscriberInfo) (subscriberId : Int)
    (allowSameMessage : Bool) : Except Errno (Option (Int × Nat)) × TopicStruct :=
  match takeCandidate σ t subInfo allowSameMessage t.entries.reverse 0 none with
  | .error e => (.error e, t)
  | .ok none => (.ok none, t)
  | .ok (some en) =>
    match addSubscriberReference en subscriberId with
    | .error e =>
      -- the subscriber holds the entry already
      if allowSameMessage ∧ e = .EALREADY then
        (.ok (some (en.entryId, en.msgVirtualAddress)), t.modifySubscriber subInfo.id fun s =>
          { s with latestReceivedEntryId := en.entryId })
      else (.error e, t)
    | .ok en' =>
      (.ok (some (en.entryId, en.msgVirtualAddress)),
        (t.setEntry en').modifySubscriber subInfo.id fun s =>
          { s with latestReceivedEntryId := en.entryId })

/-! ## Telling the subscriber what to map -/

/-- `struct publisher_shm_info`. -/
structure PublisherShmInfo where
  pid : Pid
  shmAddr : Nat
  shmSize : Nat
  deriving DecidableEq, Repr

/-- `set_publisher_shm_info`: the loop over the publisher table. `wrapperDomain`
is the domain of the calling process's wrapper. -/
def setPublisherShmInfo (env : Env) (t : TopicStruct) (wrapperDomain : Nat)
    (subscriberPid : Pid) (subIsBridge : Bool) (pubShmInfosSize : Nat) :
    List PublisherInfo → List PublisherShmInfo → MemoryAllocator →
      Except Errno (List PublisherShmInfo) × MemoryAllocator
  | [], infos, m => (.ok infos, m)
  | p :: rest, infos, m =>
    -- the pool of the process itself
    if subscriberPid = p.pid then
      setPublisherShmInfo env t wrapperDomain subscriberPid subIsBridge pubShmInfosSize rest infos m
    else if !domainDeliveryAllowed σ t p.domainId p.isBridge wrapperDomain subIsBridge then
      setPublisherShmInfo env t wrapperDomain subscriberPid subIsBridge pubShmInfosSize rest infos m
    else
      match findProcessInfo σ p.pid with
      -- the publisher's process is not registered any more
      | none =>
        setPublisherShmInfo env t wrapperDomain subscriberPid subIsBridge pubShmInfosSize rest
          infos m
      | some procInfo =>
        if procInfo.exited then
          setPublisherShmInfo env t wrapperDomain subscriberPid subIsBridge pubShmInfosSize rest
            infos m
        else
          match referenceMemory (env.kmalloc (.mappedPidOf p.id)) m procInfo.mempoolEntry
              subscriberPid with
          -- mapped before: nothing to tell
          | .error .EEXIST =>
            setPublisherShmInfo env t wrapperDomain subscriberPid subIsBridge pubShmInfosSize rest
              infos m
          | .error e => (.error e, m)
          | .ok m =>
            -- the pool stays mapped although it is not told
            if infos.length = pubShmInfosSize then (.error .ENOBUFS, m)
            else
              match env.convertPidToLocal p.pid with
              | none => (.error .ESRCH, m)
              | some localPid =>
                setPublisherShmInfo env t wrapperDomain subscriberPid subIsBridge pubShmInfosSize
                  rest
                  (infos ++ [⟨localPid, (m.mempoolEntries procInfo.mempoolEntry).addr,
                    m.mempoolSizeBytes⟩]) m

/-! ## Removing endpoints -/

/-- `agnocast_unlink_subscriber_info`. -/
def unlinkSubscriberInfo (t : TopicStruct) (subInfo : SubscriberInfo) : TopicStruct :=
  let t' :=
    { t with subInfoHtable := HTable.hashDel SubscriberInfo.id subInfo.id t.subInfoHtable }
  if subInfo.notifyCtx.isSome then rebuildAllNotifyLists σ t' else t'

/-- `entries_num--` of one publisher, which leaves the table at zero. -/
def dropPublisherEntry (publisherId : Int) (pubs : List PublisherInfo) :
    List PublisherInfo :=
  match HTable.lookup PublisherInfo.id publisherId pubs with
  | none => pubs
  | some p =>
    if u32Dec p.entriesNum = 0 then HTable.hashDel PublisherInfo.id publisherId pubs
    else
      HTable.modify PublisherInfo.id publisherId
        (fun p => { p with entriesNum := u32Dec p.entriesNum }) pubs

/-- Whether `publisher_exited` ends up set for an entry of this publisher. -/
def publisherExited (pubs : List PublisherInfo) (publisherId : Int) : Bool :=
  match HTable.lookup PublisherInfo.id publisherId pubs with
  | none => false
  | some p => processGone σ p.pid

/-- The loop over the tree shared by `agnocast_ioctl_remove_subscriber` and
`pre_handler_subscriber_exit`: clear the leaving subscriber's bit everywhere and
delete what is left unreferenced of exited publishers. -/
def clearReferences (subscriberId : Int) :
    List EntryNode → List PublisherInfo → List EntryNode × List PublisherInfo
  | [], pubs => ([], pubs)
  | en :: next, pubs =>
    let en := en.clearBit subscriberId
    if isReferenced en then
      let (entries, pubs) := clearReferences subscriberId next pubs
      (en :: entries, pubs)
    -- a live publisher keeps its entries for later subscribers
    else if !publisherExited σ pubs en.publisherId then
      let (entries, pubs) := clearReferences subscriberId next pubs
      (en :: entries, pubs)
    -- the entry goes, and the publisher with the last of its entries
    else clearReferences subscriberId next (dropPublisherEntry en.publisherId pubs)

/-- `clearReferences` on a topic. -/
def clearSubscriberReferences (t : TopicStruct) (subscriberId : Int) : TopicStruct :=
  let (entries, pubs) := clearReferences σ subscriberId t.entries t.pubInfoHtable
  { t with entries := entries, pubInfoHtable := pubs }

/-- The loop over the tree shared by `agnocast_ioctl_remove_publisher` and
`pre_handler_publisher_exit`: delete the publisher's unreferenced entries. -/
def dropUnreferenced (publisherId : Int) :
    List EntryNode → Nat → List EntryNode × Nat
  | [], entriesNum => ([], entriesNum)
  | en :: next, entriesNum =>
    if en.publisherId ≠ publisherId then
      let (entries, n) := dropUnreferenced publisherId next entriesNum
      (en :: entries, n)
    else if !isReferenced en then dropUnreferenced publisherId next (u32Dec entriesNum)
    else
      let (entries, n) := dropUnreferenced publisherId next entriesNum
      (en :: entries, n)

/-- `dropUnreferenced` on a topic; a publisher without entries leaves the table. -/
def dropPublisher (t : TopicStruct) (pubInfo : PublisherInfo) : TopicStruct :=
  let (entries, entriesNum) := dropUnreferenced pubInfo.id t.entries pubInfo.entriesNum
  { t with
    entries := entries
    pubInfoHtable :=
      if entriesNum = 0 then HTable.hashDel PublisherInfo.id pubInfo.id t.pubInfoHtable
      else
        HTable.modify PublisherInfo.id pubInfo.id (fun p => { p with entriesNum := entriesNum })
          t.pubInfoHtable }

/-- `pre_handler_publisher_exit`. -/
def preHandlerPublisherExit (t : TopicStruct) (pid : Pid) : TopicStruct :=
  (t.pubInfoHtable.filter fun p => p.pid = pid).foldl dropPublisher t

/-- `pre_handler_subscriber_exit`: unlink every subscriber of the process, rebuild
the notify lists once, then clear the references of each. -/
def preHandlerSubscriberExit (t : TopicStruct) (pid : Pid) : TopicStruct :=
  let leaving := t.subInfoHtable.filter fun s => s.pid = pid
  if leaving = [] then t
  else
    let t := { t with subInfoHtable := t.subInfoHtable.filter fun s => s.pid ≠ pid }
    leaving.foldl (fun t s => clearSubscriberReferences σ t s.id) (rebuildAllNotifyLists σ t)

end Agnocast
