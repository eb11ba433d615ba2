import Agnocast.Kmod.MemoryAllocator

/-!
# The kernel module — one topic

The static helpers of `agnocast_ioctl.c` and `agnocast_internal.c` that work on
one `topic_struct` and do not touch its entries: the delivery filter, the cached
notify lists and the insertion of endpoints.

A function that can fail after it has changed something returns the changed
value next to its `Except`.
-/

namespace Agnocast

variable (σ : Kmod)

/-! ## Look-ups -/

/-- `agnocast_find_process_info`. -/
def findProcessInfo (pid : Pid) : Option ProcessInfo :=
  HTable.lookup ProcessInfo.globalPid pid σ.procInfoHtable

/-- `!proc_info || proc_info->exited`, the module's test for a dead process. -/
def processGone (pid : Pid) : Bool :=
  match findProcessInfo σ pid with
  | none => true
  | some procInfo => procInfo.exited

/-- `find_publisher_info`. -/
def findPublisherInfo (t : TopicStruct) (publisherId : Int) : Option PublisherInfo :=
  HTable.lookup PublisherInfo.id publisherId t.pubInfoHtable

/-- `find_subscriber_info`. -/
def findSubscriberInfo (t : TopicStruct) (subscriberId : Int) : Option SubscriberInfo :=
  HTable.lookup SubscriberInfo.id subscriberId t.subInfoHtable

/-- `find_message_entry`. -/
def findMessageEntry (t : TopicStruct) (entryId : Int) : Option EntryNode :=
  HTable.lookup EntryNode.entryId entryId t.entries

/-! ## The delivery filter -/

/-- `domain_delivery_allowed`. -/
def domainDeliveryAllowed (t : TopicStruct) (pubDomain : Nat) (pubIsBridge : Bool)
    (subDomain : Nat) (subIsBridge : Bool) : Bool :=
  if pubDomain = subDomain then true
  -- bridges do not cross domains
  else if pubIsBridge || subIsBridge then false
  else
    match t.rule with
    | none => false
    | some r =>
      let rule := σ.domainRules r
      if pubDomain = rule.domainA ∧ subDomain = rule.domainB then rule.aToB
      else if pubDomain = rule.domainB ∧ subDomain = rule.domainA then rule.bToA
      else false

/-- `is_entry_deliverable`. -/
def isEntryDeliverable (t : TopicStruct) (subInfo : SubscriberInfo) (en : EntryNode) :
    Except Errno Bool :=
  match findPublisherInfo t en.publisherId with
  | none => .error .ENODATA
  | some pubInfo =>
    if processGone σ pubInfo.pid then .ok false
    else if subInfo.ignoreLocalPublications ∧ subInfo.pid = pubInfo.pid then .ok false
    else .ok (domainDeliveryAllowed σ t pubInfo.domainId pubInfo.isBridge subInfo.domainId
      subInfo.isBridge)

/-! ## Notify lists -/

/-- `notifiable_subscriber_num`. -/
def notifiableSubscriberNum (t : TopicStruct) : Nat :=
  t.subInfoHtable.countP fun s => s.notifyCtx.isSome

/-- The new capacity `reserve_notify_ctxs` asks for. -/
def grownNotifyCapacity (capacity needed : Nat) : Nat :=
  let doubled := if capacity ≠ 0 then capacity * 2 else notifyCtxsMinCapacity
  let capped := if doubled > maxSubscriberNum then maxSubscriberNum else doubled
  if capped < needed then needed else capped

/-- `reserve_notify_ctxs`: grow the array, carrying the current list across. -/
def reserveNotifyCtxs (env : Env) (pubInfo : PublisherInfo) (needed : Nat) :
    Except Errno PublisherInfo :=
  if needed ≤ pubInfo.notifyCapacity then .ok pubInfo
  else if !env.kmalloc (.notifyCtxs pubInfo.id) then .error .ENOMEM
  else .ok { pubInfo with notifyCapacity := grownNotifyCapacity pubInfo.notifyCapacity needed }

/-- `reserve_all_notify_ctxs`: the publishers before a failing one keep their
grown arrays. -/
def reserveAllNotifyCtxs (env : Env) (needed : Nat) :
    List PublisherInfo → Except Errno Unit × List PublisherInfo
  | [] => (.ok (), [])
  | p :: rest =>
    match reserveNotifyCtxs env p needed with
    | .error e => (.error e, p :: rest)
    | .ok p' =>
      let (ret, rest') := reserveAllNotifyCtxs env needed rest
      (ret, p' :: rest')

/-- The filter of `rebuild_notify_list`: the context that a publication of
`pubInfo` signals for `subInfo`, if any. -/
def notifies (t : TopicStruct) (pubInfo : PublisherInfo) (subInfo : SubscriberInfo) :
    Option EventfdCtx :=
  match subInfo.notifyCtx with
  | none => none
  | some ctx =>
    if !domainDeliveryAllowed σ t pubInfo.domainId pubInfo.isBridge subInfo.domainId
        subInfo.isBridge then none
    else if subInfo.ignoreLocalPublications ∧ subInfo.pid = pubInfo.pid then none
    else some ctx

/-- The loop of `rebuild_notify_list`, which stops at a full array. -/
def fillNotifyCtxs (t : TopicStruct) (pubInfo : PublisherInfo) :
    List SubscriberInfo → Nat → List EventfdCtx
  | [], _ => []
  | s :: rest, notifyNum =>
    match notifies σ t pubInfo s with
    | none => fillNotifyCtxs t pubInfo rest notifyNum
    | some ctx =>
      if notifyNum = pubInfo.notifyCapacity then []
      else ctx :: fillNotifyCtxs t pubInfo rest (notifyNum + 1)

/-- `rebuild_notify_list`. -/
def rebuildNotifyList (t : TopicStruct) (pubInfo : PublisherInfo) : PublisherInfo :=
  { pubInfo with notifyCtxs := fillNotifyCtxs σ t pubInfo t.subInfoHtable 0 }

/-- `rebuild_all_notify_lists`. -/
def rebuildAllNotifyLists (t : TopicStruct) : TopicStruct :=
  { t with pubInfoHtable := t.pubInfoHtable.map (rebuildNotifyList σ t) }

/-! ## Inserting endpoints -/

/-- The arguments of ADD_SUBSCRIBER. -/
structure SubscriberArgs where
  nodeName : Name
  pid : Pid
  qosDepth : Nat
  qosIsTransientLocal : Bool
  qosIsReliable : Bool
  isTakeSub : Bool
  ignoreLocalPublications : Bool
  isBridge : Bool
  deriving DecidableEq, Repr

/-- The arguments of ADD_PUBLISHER. -/
structure PublisherArgs where
  nodeName : Name
  pid : Pid
  qosDepth : Nat
  qosIsTransientLocal : Bool
  isBridge : Bool
  deriving DecidableEq, Repr

/-- `insert_subscriber_info`, given the domain of the caller's wrapper. -/
def insertSubscriberInfo (env : Env) (t : TopicStruct) (domainId : Nat)
    (args : SubscriberArgs) (notifyCtx : Option EventfdCtx) :
    Except Errno Int × TopicStruct :=
  if t.subInfoHtable.length = maxSubscriberNum then (.error .ENOBUFS, t)
  else if t.currentPubsubId ≥ maxTopicLocalId then (.error .ENOSPC, t)
  else if !env.kmalloc .subscriberInfo then (.error .ENOMEM, t)
  else if !env.kmalloc .nodeName then (.error .ENOMEM, t)
  else
    let (reserveRet, pubs) :=
      if notifyCtx.isSome then
        reserveAllNotifyCtxs env (notifiableSubscriberNum t + 1) t.pubInfoHtable
      else (.ok (), t.pubInfoHtable)
    let t := { t with pubInfoHtable := pubs }
    match reserveRet with
    | .error e => (.error e, t)
    | .ok () =>
      let newInfo : SubscriberInfo :=
        { id := t.currentPubsubId
          domainId := domainId
          pid := args.pid
          qosDepth := args.qosDepth
          qosIsTransientLocal := args.qosIsTransientLocal
          qosIsReliable := args.qosIsReliable
          latestReceivedEntryId := if args.qosIsTransientLocal then -1 else t.currentEntryId
          nodeName := args.nodeName
          isTakeSub := args.isTakeSub
          ignoreLocalPublications := args.ignoreLocalPublications
          needMmapUpdate := true
          isBridge := args.isBridge
          notifyCtx := notifyCtx }
      let t :=
        { t with
          currentPubsubId := t.currentPubsubId + 1
          -- a volatile subscriber takes an entry id of its own as its watermark
          currentEntryId :=
            if args.qosIsTransientLocal then t.currentEntryId else t.currentEntryId + 1
          subInfoHtable := HTable.hashAdd (env.place .subInfo) t.subInfoHtable newInfo }
      (.ok newInfo.id, if notifyCtx.isSome then rebuildAllNotifyLists σ t else t)

/-- `insert_publisher_info`, given the domain of the caller's wrapper. -/
def insertPublisherInfo (env : Env) (t : TopicStruct) (domainId : Nat)
    (args : PublisherArgs) : Except Errno Int × TopicStruct :=
  if t.pubInfoHtable.length = maxPublisherNum then (.error .ENOBUFS, t)
  else if t.currentPubsubId ≥ maxTopicLocalId then (.error .ENOSPC, t)
  else if !env.kmalloc .publisherInfo then (.error .ENOMEM, t)
  else if !env.kmalloc .nodeName then (.error .ENOMEM, t)
  else
    let newId := t.currentPubsubId
    -- the id is consumed before the last allocation that can fail
    let t := { t with currentPubsubId := t.currentPubsubId + 1 }
    let newInfo : PublisherInfo :=
      { id := newId
        domainId := domainId
        pid := args.pid
        nodeName := args.nodeName
        qosDepth := args.qosDepth
        qosIsTransientLocal := args.qosIsTransientLocal
        entriesNum := 0
        isBridge := args.isBridge
        notifyCtxs := []
        notifyCapacity := 0 }
    match reserveNotifyCtxs env newInfo (notifiableSubscriberNum t) with
    | .error e => (.error e, t)
    | .ok newInfo =>
      (.ok newId,
        { t with
          pubInfoHtable :=
            HTable.hashAdd (env.place .pubInfo) t.pubInfoHtable (rebuildNotifyList σ t newInfo) })

end Agnocast
