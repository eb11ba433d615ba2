import Agnocast.Bridge.BridgeDecider
import Agnocast.Discovery.Introspection
import Agnocast.Discovery.TypeRegistry

/-!
# Discovery — how an agent reads the topics of its namespace

`read_local_topics` asks the module for the list of topics and then, topic by topic, for the
publishers and for the subscribers. Each query is one step, and the module moves on between
them, so a snapshot need not be the state of any moment. `ReadOk` says what it is: every list
of endpoints is that of its cell at some moment of the tick, and the cells are those of the
moment of the first query.

* `ReadTopics.start`, `ReadTopics.collect` — the queries.
* `ReadOk.collect`   — what they keep.
* `SnapshotOf`       — what a finished snapshot tells of the module.
-/

namespace Agnocast

/-- An `AgnocastEndpoint` with the fields that say whose it is. -/
structure LocalEndpoint extends AgnocastEndpoint where
  nodeName : Name
  pid : Pid
  deriving DecidableEq, Repr

/-- An `AgnocastTopic` with these endpoints. -/
structure LocalTopic where
  topicName : Name
  typeName : Name
  domainId : Nat
  publishers : List LocalEndpoint
  subscribers : List LocalEndpoint
  deriving DecidableEq, Repr

def LocalTopic.key (t : LocalTopic) : Name × Nat := (t.topicName, t.domainId)

/-- The part that the decisions read. -/
def LocalTopic.toAgnocastTopic (t : LocalTopic) : AgnocastTopic where
  topicName := t.topicName
  typeName := t.typeName
  domainId := t.domainId
  publishers := t.publishers.map LocalEndpoint.toAgnocastEndpoint
  subscribers := t.subscribers.map LocalEndpoint.toAgnocastEndpoint

/-- `_ioctl_to_endpoint`. -/
def ioctlToEndpoint (table : RegistryTable) (topicName role : Name) (info : TopicInfoRet) :
    LocalEndpoint where
  qosDepth := info.qosDepth
  qosIsTransientLocal := info.qosIsTransientLocal
  qosIsReliable := info.qosIsReliable
  isBridge := info.isBridge
  nodeName := info.nodeName
  pid := ((lookup table topicName role info.nodeName).map RegistryEntry.pid).getD 0

/-- The body of the loops of `_resolve_topic_type`. -/
def endpointType (table : RegistryTable) (topicName role : Name) (ep : LocalEndpoint) :
    Option Name :=
  match lookup table topicName role ep.nodeName with
  | none => none
  | some entry => if entry.typeName ≠ [] then some entry.typeName else none

/-- `_resolve_topic_type`. -/
def resolveTopicType (table : RegistryTable) (topicName : Name)
    (publishers subscribers : List LocalEndpoint) : Name :=
  match publishers.findSome? (endpointType table topicName rolePub) with
  | some typeName => typeName
  | none => (subscribers.findSome? (endpointType table topicName roleSub)).getD []

/-- `_collect_endpoints`, when the ioctl gives this answer; the wrapper turns an error into an
empty result. -/
def collectEndpoints (table : RegistryTable) (topicName role : Name) :
    Except Errno (List TopicInfoRet) → List LocalEndpoint
  | .ok infos => infos.map (ioctlToEndpoint table topicName role)
  | .error _ => []

/-- `read_local_topics` at work: the rows of the list that remain, the publishers of the first
of them once they are read, and the topics so far. What is remembered besides: the clock at
the start, the states of the module since, newest first, and whether all queries were
answered. -/
structure ReadTopics where
  table : RegistryTable
  rest : List (Name × Nat)
  publishers : Option (List LocalEndpoint)
  topics : List LocalTopic
  startedNs : Int
  seen : List Kmod
  complete : Bool

namespace ReadTopics

/-- The first query. Rows of other domains are skipped. -/
def start (σ : Kmod) (ipcNs : IpcNs) (ownDomainId : Nat) (table : RegistryTable) (kvmalloc : Bool)
    (nowNs : Int) : ReadTopics :=
  match getTopicList σ kvmalloc ipcNs maxTopicNum with
  | .ok rows => ⟨table, rows.filter fun row => row.2 = ownDomainId, none, [], nowNs, [σ], true⟩
  | .error _ => ⟨table, [], none, [], nowNs, [σ], false⟩

variable (r : ReadTopics)

/-- The next query, for the publishers or the subscribers of the first row. -/
def collect (σ : Kmod) (ipcNs : IpcNs) (kvcalloc : Bool) : ReadTopics :=
  match r.rest with
  | [] => r
  | (topicName, domainId) :: rest =>
    match r.publishers with
    | none =>
      let infos := getTopicPublisherInfo σ kvcalloc topicName ipcNs domainId maxTopicInfoRetNum
      { r with
        publishers := some (collectEndpoints r.table topicName rolePub infos)
        complete := r.complete && infos.isOk }
    | some publishers =>
      let infos := getTopicSubscriberInfo σ kvcalloc topicName ipcNs domainId maxTopicInfoRetNum
      let subscribers := collectEndpoints r.table topicName roleSub infos
      { r with
        rest := rest
        publishers := none
        topics := r.topics ++ [⟨topicName,
          resolveTopicType r.table topicName publishers subscribers, domainId, publishers,
          subscribers⟩]
        complete := r.complete && infos.isOk }

/-- The module has moved on. -/
def observe (σ : Kmod) : ReadTopics := { r with seen := σ :: r.seen }

end ReadTopics

/-! ## What the endpoints of a topic are -/

variable {σ : Kmod} {ipcNs : IpcNs} {ownDomainId : Nat} {r : ReadTopics}

/-- The endpoints are those that a cell had at a moment of the tick; if not, the query failed
and there are none. -/
def ReadAt {α : Type} (r : ReadTopics) (endpointsIn : Kmod → List α) (row : α → LocalEndpoint)
    (endpoints : List LocalEndpoint) : Prop :=
  (∃ σ ∈ r.seen, endpoints = (endpointsIn σ).map row) ∨ endpoints = [] ∧ r.complete = false

/-- How the agent tells a publisher of a topic. -/
def publisherRow (table : RegistryTable) (topicName : Name) (p : PublisherInfo) : LocalEndpoint :=
  ioctlToEndpoint table topicName rolePub p.topicInfoRet

/-- How the agent tells a subscriber of a topic. -/
def subscriberRow (table : RegistryTable) (topicName : Name) (s : SubscriberInfo) :
    LocalEndpoint :=
  ioctlToEndpoint table topicName roleSub s.topicInfoRet

/-- The publishers of a topic are told as they were. -/
def PublishersRead (r : ReadTopics) (ipcNs : IpcNs) (topicName : Name) (domainId : Nat)
    (endpoints : List LocalEndpoint) : Prop :=
  ReadAt r (fun σ => publishersIn σ ⟨topicName, ipcNs, domainId⟩) (publisherRow r.table topicName)
    endpoints

/-- The subscribers of a topic are told as they were. -/
def SubscribersRead (r : ReadTopics) (ipcNs : IpcNs) (topicName : Name) (domainId : Nat)
    (endpoints : List LocalEndpoint) : Prop :=
  ReadAt r (fun σ => subscribersIn σ ⟨topicName, ipcNs, domainId⟩)
    (subscriberRow r.table topicName) endpoints

theorem ReadAt.mono {α : Type} {r' : ReadTopics} {endpointsIn : Kmod → List α}
    {row : α → LocalEndpoint} {endpoints : List LocalEndpoint}
    (h : ReadAt r endpointsIn row endpoints) (hseen : r.seen ⊆ r'.seen)
    (hcomplete : r.complete = false → r'.complete = false) :
    ReadAt r' endpointsIn row endpoints := by
  rcases h with ⟨σ, hσ, heq⟩ | ⟨hnil, hfailed⟩
  · exact .inl ⟨σ, hseen hσ, heq⟩
  · exact .inr ⟨hnil, hcomplete hfailed⟩

/-- A query fails, or answers what it does when there is memory. -/
private theorem topicInfo_cases (kvcalloc : Bool) (size : Nat) (infos : List TopicInfoRet) :
    topicInfo kvcalloc size infos = topicInfo true size infos ∨
      ∃ e, topicInfo kvcalloc size infos = .error e := by
  cases kvcalloc with
  | true => exact .inl rfl
  | false =>
    unfold topicInfo
    split
    · exact .inl rfl
    split
    · exact .inr ⟨_, rfl⟩
    · exact .inl (if_neg (by simp)).symm

theorem getTopicPublisherInfo_cases (h : Reachable σ) (c : Cell) (kvcalloc : Bool) :
    getTopicPublisherInfo σ kvcalloc c.key c.ipcNs c.domainId maxTopicInfoRetNum =
        .ok ((publishersIn σ c).map PublisherInfo.topicInfoRet) ∨
      ∃ e, getTopicPublisherInfo σ kvcalloc c.key c.ipcNs c.domainId maxTopicInfoRetNum =
        .error e := by
  rw [← getTopicPublisherInfo_eq h c (le_refl maxTopicInfoRetNum)]
  unfold getTopicPublisherInfo
  cases findTopic σ ⟨c.key, c.ipcNs, c.domainId⟩ with
  | none => exact .inl rfl
  | some w => exact topicInfo_cases ..

theorem getTopicSubscriberInfo_cases (h : Reachable σ) (c : Cell) (kvcalloc : Bool) :
    getTopicSubscriberInfo σ kvcalloc c.key c.ipcNs c.domainId maxTopicInfoRetNum =
        .ok ((subscribersIn σ c).map SubscriberInfo.topicInfoRet) ∨
      ∃ e, getTopicSubscriberInfo σ kvcalloc c.key c.ipcNs c.domainId maxTopicInfoRetNum =
        .error e := by
  rw [← getTopicSubscriberInfo_eq h c (le_refl maxTopicInfoRetNum)]
  unfold getTopicSubscriberInfo
  cases findTopic σ ⟨c.key, c.ipcNs, c.domainId⟩ with
  | none => exact .inl rfl
  | some w => exact topicInfo_cases ..

/-- What one query of a tick reads. -/
private theorem readAt_collect {α : Type} {endpointsIn : Kmod → List α}
    {info : α → TopicInfoRet} {answered : Except Errno (List TopicInfoRet)}
    (topicName role : Name) (hσ : σ ∈ r.seen)
    (hanswer : answered = .ok ((endpointsIn σ).map info) ∨ ∃ e, answered = .error e) :
    ReadAt { r with complete := r.complete && answered.isOk } endpointsIn
      (fun a => ioctlToEndpoint r.table topicName role (info a))
      (collectEndpoints r.table topicName role answered) := by
  rcases hanswer with rfl | ⟨e, rfl⟩
  · refine .inl ⟨σ, hσ, ?_⟩
    show List.map _ (List.map _ _) = _
    rw [List.map_map]
    rfl
  · exact .inr ⟨rfl, Bool.and_false _⟩

/-! ## What the queries keep -/

/-- What is read so far. -/
structure ReadOk (ipcNs : IpcNs) (ownDomainId : Nat) (r : ReadTopics) : Prop where
  reachable : ∀ σ ∈ r.seen, Reachable σ
  nodup : (r.topics.map LocalTopic.key ++ r.rest).Nodup
  rows : ∀ row ∈ r.topics.map LocalTopic.key ++ r.rest,
    row.2 = ownDomainId ∧ isServiceResponseTopic row.1 = false
  /-- Without a failure, the rows are those of the first moment. -/
  listed : r.complete = true → ∃ σ ∈ r.seen, ∀ row ∈ topicRows σ ipcNs, row.2 = ownDomainId →
    row ∈ r.topics.map LocalTopic.key ++ r.rest
  topics : ∀ t ∈ r.topics, PublishersRead r ipcNs t.topicName t.domainId t.publishers ∧
    SubscribersRead r ipcNs t.topicName t.domainId t.subscribers ∧
    t.typeName = resolveTopicType r.table t.topicName t.publishers t.subscribers
  publishers : ∀ publishers, r.publishers = some publishers → ∀ row rest, r.rest = row :: rest →
    PublishersRead r ipcNs row.1 row.2 publishers

theorem ReadOk.start (h : Reachable σ) (ipcNs : IpcNs) (ownDomainId : Nat) (table : RegistryTable)
    (kvmalloc : Bool) (nowNs : Int) :
    ReadOk ipcNs ownDomainId (.start σ ipcNs ownDomainId table kvmalloc nowNs) := by
  have hreach : ∀ σ' ∈ [σ], Reachable σ' := fun σ' hσ' => List.mem_singleton.mp hσ' ▸ h
  unfold ReadTopics.start
  cases hlist : getTopicList σ kvmalloc ipcNs maxTopicNum with
  | error e => exact ⟨hreach, List.nodup_nil, nofun, nofun, nofun, nofun⟩
  | ok rows =>
    obtain rfl : rows = topicRows σ ipcNs := by
      cases kvmalloc with
      | false => cases hlist
      | true =>
        rw [getTopicList_eq] at hlist
        split at hlist
        · exact (Except.ok.inj hlist).symm
        · cases hlist
    have hmem : ∀ row, row ∈ (topicRows σ ipcNs).filter (fun row => row.2 = ownDomainId) ↔
        row ∈ topicRows σ ipcNs ∧ row.2 = ownDomainId := by
      intro row
      rw [List.mem_filter, decide_eq_true_iff]
    refine ⟨hreach, (nodup_topicRows h ipcNs).filter _, fun row hrow => ?_, fun _ => ?_, nofun,
      nofun⟩
    · obtain ⟨hrow, hdomain⟩ := (hmem row).mp hrow
      exact ⟨hdomain, ((mem_topicRows h).mp hrow).1⟩
    · exact ⟨σ, List.mem_singleton_self σ, fun row hrow hdomain => (hmem row).mpr ⟨hrow, hdomain⟩⟩

/-- What is read stays true of what the module was. -/
theorem ReadOk.observe (h : ReadOk ipcNs ownDomainId r) (hσ : Reachable σ) :
    ReadOk ipcNs ownDomainId (r.observe σ) := by
  have hseen : r.seen ⊆ (r.observe σ).seen := List.subset_cons_self σ r.seen
  refine ⟨?_, h.nodup, h.rows, fun hcomplete => ?_, fun t ht => ?_, fun publishers hp row rest hr =>
    (h.publishers publishers hp row rest hr).mono hseen id⟩
  · rintro σ' hσ'
    rcases List.mem_cons.mp hσ' with rfl | hσ'
    · exact hσ
    · exact h.reachable σ' hσ'
  · obtain ⟨σ', hσ', hrows⟩ := h.listed hcomplete
    exact ⟨σ', hseen hσ', hrows⟩
  · obtain ⟨hpubs, hsubs, htype⟩ := h.topics t ht
    exact ⟨hpubs.mono hseen id, hsubs.mono hseen id, htype⟩

/-- **One query**: what it answers is what the cell has at the moment. -/
theorem ReadOk.collect (h : ReadOk ipcNs ownDomainId r) (hσ : σ ∈ r.seen) (kvcalloc : Bool) :
    ReadOk ipcNs ownDomainId (r.collect σ ipcNs kvcalloc) := by
  have hreach := h.reachable σ hσ
  -- what was read before is read after the query
  have hbefore (ok : Bool) {α : Type} {endpointsIn : Kmod → List α} {row : α → LocalEndpoint}
      {endpoints : List LocalEndpoint} (hread : ReadAt r endpointsIn row endpoints) :
      ReadAt { r with complete := r.complete && ok } endpointsIn row endpoints :=
    hread.mono (List.Subset.refl _) fun hfailed => by rw [hfailed, Bool.false_and]
  unfold ReadTopics.collect
  split
  · exact h
  next topicName domainId rest hrest =>
  cases hpubs : r.publishers with
  | none =>
    have hanswer := getTopicPublisherInfo_cases hreach ⟨topicName, ipcNs, domainId⟩ kvcalloc
    simp only at hanswer ⊢
    generalize getTopicPublisherInfo σ kvcalloc topicName ipcNs domainId maxTopicInfoRetNum =
      answered at hanswer ⊢
    refine ⟨h.reachable, h.nodup, h.rows, fun hc => h.listed (Bool.and_eq_true_iff.mp hc).1,
      fun t ht => ?_, ?_⟩
    · obtain ⟨hp, hs, htype⟩ := h.topics t ht
      exact ⟨hbefore _ hp, hbefore _ hs, htype⟩
    · rintro publishers ⟨⟩ row rest' hrow
      obtain ⟨rfl, rfl⟩ := List.cons.inj (hrest.symm.trans hrow)
      exact readAt_collect topicName rolePub hσ hanswer
  | some publishers =>
    have hanswer := getTopicSubscriberInfo_cases hreach ⟨topicName, ipcNs, domainId⟩ kvcalloc
    simp only at hanswer ⊢
    generalize getTopicSubscriberInfo σ kvcalloc topicName ipcNs domainId maxTopicInfoRetNum =
      answered at hanswer ⊢
    -- the row moves from the front of the rest to the end of the topics
    have hrows : ∀ typeName subscribers,
        (r.topics ++ [LocalTopic.mk topicName typeName domainId publishers subscribers]).map
          LocalTopic.key ++ rest = r.topics.map LocalTopic.key ++ r.rest := by
      intro typeName subscribers
      rw [hrest, List.map_append, List.append_assoc]
      rfl
    refine ⟨h.reachable, ?_, ?_, fun hc => ?_, fun t ht => ?_, nofun⟩
    · simp only [hrows]
      exact h.nodup
    · simp only [hrows]
      exact h.rows
    · simp only [hrows]
      exact h.listed (Bool.and_eq_true_iff.mp hc).1
    · rcases List.mem_append.mp ht with ht | ht
      · obtain ⟨hp, hs, htype⟩ := h.topics t ht
        exact ⟨hbefore _ hp, hbefore _ hs, htype⟩
      · rw [List.mem_singleton.mp ht]
        exact ⟨hbefore _ (h.publishers publishers hpubs _ rest hrest),
          readAt_collect topicName roleSub hσ hanswer, rfl⟩

/-! ## The finished snapshot -/

/-- **What a snapshot tells of the module** as it was while the snapshot was taken. -/
structure SnapshotOf (ipcNs : IpcNs) (ownDomainId : Nat) (r : ReadTopics) : Prop where
  /-- Each topic of the own domain is told once. -/
  nodup : (r.topics.map LocalTopic.key).Nodup
  own : ∀ t ∈ r.topics, t.domainId = ownDomainId ∧ isServiceResponseTopic t.topicName = false
  /-- Nothing is told that was not there at some moment. -/
  publishers : ∀ t ∈ r.topics, ∀ e ∈ t.publishers, ∃ σ ∈ r.seen,
    ∃ p ∈ publishersIn σ ⟨t.topicName, ipcNs, t.domainId⟩, e = publisherRow r.table t.topicName p
  subscribers : ∀ t ∈ r.topics, ∀ e ∈ t.subscribers, ∃ σ ∈ r.seen,
    ∃ s ∈ subscribersIn σ ⟨t.topicName, ipcNs, t.domainId⟩,
      e = subscriberRow r.table t.topicName s
  /-- What was there all the time is told, if no query failed. -/
  keptPublishers : r.complete = true → ∀ name, isServiceResponseTopic name = false → ∀ p,
    (∀ σ ∈ r.seen, ∃ p' ∈ publishersIn σ ⟨name, ipcNs, ownDomainId⟩, SamePublisher p p') →
      ∃ t ∈ r.topics, t.key = (name, ownDomainId) ∧ publisherRow r.table name p ∈ t.publishers
  keptSubscribers : r.complete = true → ∀ name, isServiceResponseTopic name = false → ∀ s,
    (∀ σ ∈ r.seen, ∃ s' ∈ subscribersIn σ ⟨name, ipcNs, ownDomainId⟩, SameSubscriber s s') →
      ∃ t ∈ r.topics, t.key = (name, ownDomainId) ∧ subscriberRow r.table name s ∈ t.subscribers

theorem publisherRow_same {p p' : PublisherInfo} (h : SamePublisher p p') (table : RegistryTable)
    (topicName : Name) : publisherRow table topicName p' = publisherRow table topicName p := by
  rw [h]
  rfl

theorem subscriberRow_same {s s' : SubscriberInfo} (h : SameSubscriber s s')
    (table : RegistryTable) (topicName : Name) :
    subscriberRow table topicName s' = subscriberRow table topicName s := by
  rw [h]
  rfl

/-- Endpoints are told as they were at a moment, and no query failed. -/
private theorem ReadAt.of_mem {α : Type} {endpointsIn : Kmod → List α} {row : α → LocalEndpoint}
    {endpoints : List LocalEndpoint} (h : ReadAt r endpointsIn row endpoints) {e : LocalEndpoint}
    (he : e ∈ endpoints) : ∃ σ ∈ r.seen, ∃ a ∈ endpointsIn σ, e = row a := by
  rcases h with ⟨σ, hσ, rfl⟩ | ⟨rfl, -⟩
  · obtain ⟨a, ha, rfl⟩ := List.mem_map.mp he
    exact ⟨σ, hσ, a, ha, rfl⟩
  · cases he

/-- An endpoint that the cell had all the time is told. -/
private theorem ReadAt.mem_of_kept {α : Type} {endpointsIn : Kmod → List α}
    {row : α → LocalEndpoint} {endpoints : List LocalEndpoint}
    (h : ReadAt r endpointsIn row endpoints) (hcomplete : r.complete = true) {e : LocalEndpoint}
    (hkept : ∀ σ ∈ r.seen, ∃ a ∈ endpointsIn σ, row a = e) : e ∈ endpoints := by
  rcases h with ⟨σ, hσ, rfl⟩ | ⟨-, hfailed⟩
  · obtain ⟨a, ha, rfl⟩ := hkept σ hσ
    exact List.mem_map_of_mem ha
  · rw [hcomplete] at hfailed
    cases hfailed

/-- A cell that was there at the first moment is told. -/
private theorem ReadOk.topic_of_cell (h : ReadOk ipcNs ownDomainId r) (hdone : r.rest = [])
    (hcomplete : r.complete = true) {name : Name} (hname : isServiceResponseTopic name = false)
    (hcell : ∀ σ ∈ r.seen, (findTopic σ ⟨name, ipcNs, ownDomainId⟩).isSome = true) :
    ∃ t ∈ r.topics, t.key = (name, ownDomainId) := by
  obtain ⟨σ, hσ, hrows⟩ := h.listed hcomplete
  have hrow : (name, ownDomainId) ∈ topicRows σ ipcNs :=
    (mem_topicRows (h.reachable σ hσ)).mpr ⟨hname, hcell σ hσ⟩
  have hmem := hrows _ hrow rfl
  rw [hdone, List.append_nil] at hmem
  exact List.mem_map.mp hmem

/-- **A snapshot that is read to its end** tells what `SnapshotOf` says. -/
theorem ReadOk.snapshot (h : ReadOk ipcNs ownDomainId r) (hdone : r.rest = []) :
    SnapshotOf ipcNs ownDomainId r where
  nodup := by
    have hnd := h.nodup
    rwa [hdone, List.append_nil] at hnd
  own := fun t ht => h.rows t.key (List.mem_append_left _ (List.mem_map_of_mem ht))
  publishers := fun t ht e he => (h.topics t ht).1.of_mem he
  subscribers := fun t ht e he => (h.topics t ht).2.1.of_mem he
  keptPublishers := by
    intro hcomplete name hname p hkept
    obtain ⟨t, ht, hkey⟩ := h.topic_of_cell hdone hcomplete hname fun σ hσ => by
      obtain ⟨p', hp', -⟩ := hkept σ hσ
      refine Option.isSome_iff_ne_none.mpr fun hnone => ?_
      simp [publishersIn, hnone] at hp'
    obtain ⟨rfl, hdomain⟩ := Prod.mk.inj hkey
    refine ⟨t, ht, hkey, (h.topics t ht).1.mem_of_kept hcomplete fun σ hσ => ?_⟩
    obtain ⟨p', hp', hsame⟩ := hkept σ hσ
    exact ⟨p', hdomain ▸ hp', publisherRow_same hsame _ _⟩
  keptSubscribers := by
    intro hcomplete name hname s hkept
    obtain ⟨t, ht, hkey⟩ := h.topic_of_cell hdone hcomplete hname fun σ hσ => by
      obtain ⟨s', hs', -⟩ := hkept σ hσ
      refine Option.isSome_iff_ne_none.mpr fun hnone => ?_
      simp [subscribersIn, hnone] at hs'
    obtain ⟨rfl, hdomain⟩ := Prod.mk.inj hkey
    refine ⟨t, ht, hkey, (h.topics t ht).2.1.mem_of_kept hcomplete fun σ hσ => ?_⟩
    obtain ⟨s', hs', hsame⟩ := hkept σ hσ
    exact ⟨s', hdomain ▸ hs', subscriberRow_same hsame _ _⟩

end Agnocast
