import Agnocast.Kmod.TopicQueries
import Agnocast.Rules.Grouping
import Agnocast.Store.History

/-!
# Discovery — what the module tells about its topics

The module answers the topic queries from the tables of the topics, and a table is shared
by the domains that a rule pairs. The list of topics and the endpoints of a topic are
told domain by domain; the topics of a node are not.

* `listTopics_eq`              — the loop over the wrappers.
* `reachable_tablesBounded`    — a table never outgrows the buffer of a query.
* `reachable_queries_answer`   — what each query answers, in every reachable state.
-/

namespace Agnocast

variable {σ : Kmod}

/-! ## The loop over the wrappers -/

/-- **The loop** lists what it is asked for in the order of the table, or says that it
does not fit. -/
theorem listTopics_eq {α : Type} {listed : TopicWrapper → Bool} {row : TopicWrapper → α}
    {buf : Nat} (ws : List TopicWrapper) {rows : List α} (hfit : rows.length ≤ buf) :
    listTopics listed row buf ws rows =
      if rows.length + (ws.filter listed).length ≤ buf then .ok (rows ++ (ws.filter listed).map row)
      else .error .ENOBUFS := by
  induction ws generalizing rows with
  | nil => simp [listTopics, hfit]
  | cons w ws ih =>
    unfold listTopics
    by_cases hlisted : listed w = true
    · rw [if_neg (by simp [hlisted]), List.filter_cons_of_pos hlisted]
      by_cases hfull : rows.length ≥ buf
      · rw [if_pos hfull, if_neg (by rw [List.length_cons]; omega)]
      · have hlen : (rows ++ [row w]).length = rows.length + 1 := by simp
        rw [if_neg hfull, ih (by omega), hlen]
        simp only [List.length_cons, List.map_cons, List.append_assoc, List.singleton_append]
        congr 1
        exact propext ⟨fun h => by omega, fun h => by omega⟩
    · rw [if_pos (by simp [hlisted]), List.filter_cons_of_neg hlisted]
      exact ih hfit

/-! ## The sizes of the tables -/

/-- The tables of a topic are within their limits. -/
structure TablesBounded (t : TopicStruct) : Prop where
  publishers : t.pubInfoHtable.length ≤ maxPublisherNum
  subscribers : t.subInfoHtable.length ≤ maxSubscriberNum

/-- Nodes with distinct keys, each of which was there under its key before, are no more
than before. -/
theorem length_le_of_keys {α : Type} {key : α → Int} {l l' : List α} (hnd : (l'.map key).Nodup)
    (hold : ∀ a' ∈ l', ∃ a ∈ l, key a = key a') : l'.length ≤ l.length := by
  have hsub : (l'.map key).Subperm (l.map key) := by
    refine List.subperm_of_subset hnd fun k hk => ?_
    obtain ⟨a', ha', rfl⟩ := List.mem_map.mp hk
    obtain ⟨a, ha, hkey⟩ := hold a' ha'
    exact hkey ▸ List.mem_map_of_mem ha
  simpa using hsub.length_le

/-- An operation that gives out no id adds no endpoint. -/
theorem TablesBounded.of_sameId {t t' : TopicStruct} {D : Nat → Prop} (h : TablesBounded t)
    (hc : t'.Consistent []) (he : t.Evolves D t') (hid : t'.currentPubsubId = t.currentPubsubId) :
    TablesBounded t' := by
  refine ⟨(length_le_of_keys hc.pubs_nodup fun p' hp' => ?_).trans h.publishers,
    (length_le_of_keys hc.subs_nodup fun s' hs' => ?_).trans h.subscribers⟩
  · rcases he.pub p' hp' with ⟨p, hp, hsame⟩ | ⟨hle, _⟩
    · exact ⟨p, hp, hsame.id_eq.symm⟩
    · have hlt := (hc.pub_id p' hp').2
      omega
  · rcases he.sub s' hs' with ⟨s, hs, hsame, _⟩ | ⟨hle, _⟩
    · exact ⟨s, hs, hsame.id_eq.symm⟩
    · have hlt := (hc.sub_id s' hs').2
      omega

theorem TablesBounded.insertSubscriber {t : TopicStruct} (h : TablesBounded t) (env : Env)
    (domainId : Nat) (args : SubscriberArgs) (ctx : Option EventfdCtx) :
    TablesBounded (insertSubscriberInfo σ env t domainId args ctx).2 := by
  have hpubs {pubs : List PublisherInfo} (hgrown : t.pubInfoHtable.length = pubs.length) :
      pubs.length ≤ maxPublisherNum := hgrown ▸ h.publishers
  rcases insertSubscriberInfo_cases (σ := σ) env t domainId args ctx with
    ⟨e, pubs, hgrown, heq⟩ | ⟨pubs, hgrown, _, _, _, heq⟩
  · rw [heq]
    exact ⟨hpubs hgrown.length_eq, h.subscribers⟩
  · have hroom : t.subInfoHtable.length < maxSubscriberNum := by
      refine Nat.lt_of_le_of_ne h.subscribers fun hfull => ?_
      unfold insertSubscriberInfo at heq
      rw [if_pos hfull] at heq
      cases congrArg Prod.fst heq
    rw [heq]
    simp only
    split
    · refine ⟨?_, (HTable.length_hashAdd ..).trans_le hroom⟩
      exact (List.length_map _).trans_le (hpubs hgrown.length_eq)
    · exact ⟨hpubs hgrown.length_eq, (HTable.length_hashAdd ..).trans_le hroom⟩

theorem TablesBounded.insertPublisher {t : TopicStruct} (h : TablesBounded t) (env : Env)
    (domainId : Nat) (args : PublisherArgs) :
    TablesBounded (match insertPublisherInfo σ env t domainId args with
      | (.error _, t') => t'
      | (.ok _, t') => t'.requestMmapUpdate) := by
  rcases insertPublisherInfo_cases (σ := σ) env t domainId args with
    ⟨e, heq⟩ | ⟨e, _, heq⟩ | ⟨capacity, _, _, heq⟩
  · rw [heq]
    exact h
  · rw [heq]
    exact ⟨h.publishers, h.subscribers⟩
  · have hroom : t.pubInfoHtable.length < maxPublisherNum := by
      refine Nat.lt_of_le_of_ne h.publishers fun hfull => ?_
      unfold insertPublisherInfo at heq
      rw [if_pos hfull] at heq
      cases congrArg Prod.fst heq
    rw [heq]
    exact ⟨(HTable.length_hashAdd ..).trans_le hroom, (List.length_map _).trans_le h.subscribers⟩

private theorem handOut_pubsubId (t : TopicStruct) (b : Int) (ids : List Int) :
    (t.handOut b ids).currentPubsubId = t.currentPubsubId := by
  unfold TopicStruct.handOut
  split <;> rfl

private theorem unlinkSubscriberInfo_pubsubId (t : TopicStruct) (s : SubscriberInfo) :
    (unlinkSubscriberInfo σ t s).currentPubsubId = t.currentPubsubId := by
  unfold unlinkSubscriberInfo
  simp only
  split <;> rfl

private theorem preHandlerSubscriberExit_pubsubId (t : TopicStruct) (pid : Pid) :
    (preHandlerSubscriberExit σ t pid).currentPubsubId = t.currentPubsubId := by
  have hfold : ∀ (l : List SubscriberInfo) (t : TopicStruct),
      (l.foldl (fun t s => clearSubscriberReferences σ t s.id) t).currentPubsubId =
        t.currentPubsubId := by
    intro l
    induction l with
    | nil => exact fun t => rfl
    | cons s l ih => exact fun t => (ih _).trans rfl
  unfold preHandlerSubscriberExit
  simp only
  split
  · rfl
  · exact (hfold _ _).trans rfl

theorem TablesBounded.move {A : Action → Prop} {domainId : Nat} {t t' : TopicStruct}
    (h : TablesBounded t) (hc : t.Consistent []) (hm : TopicMove A σ domainId t t') :
    TablesBounded t' := by
  have hc' := hm.consistent hc
  have he := hm.evolves hc
  cases hm with
  | insertSubscriber env args ctx _ => exact h.insertSubscriber env domainId args ctx
  | insertPublisher env args => exact h.insertPublisher env domainId args
  | publish env hp addr _ =>
    refine h.of_sameId hc' he ?_
    rcases publishMsgCore_cases hc hp env addr with ⟨e, heq⟩ | ⟨r, _, ⟨e, heq⟩ | heq⟩ <;>
      rw [heq] <;> rfl
  | receive hs =>
    refine h.of_sameId hc' he ?_
    rw [receiveMsgCore_eq hc hs]
    exact handOut_pubsubId ..
  | @take s hs allow =>
    refine h.of_sameId hc' he ?_
    rw [takeMsgCore_eq hc hs]
    cases (deliveryWindow σ t s (takeFrom s allow)).head? with
    | none => rfl
    | some en => exact handOut_pubsubId ..
  | @removeSubscriber s hs _ => exact h.of_sameId hc' he (unlinkSubscriberInfo_pubsubId t s)
  | subscriberExit pid _ => exact h.of_sameId hc' he (preHandlerSubscriberExit_pubsubId t pid)
  | _ => exact h.of_sameId hc' he rfl

/-- **No table outgrows its limit.** -/
theorem reachable_tablesBounded (h : Reachable σ) (tp : Nat) :
    TablesBounded (σ.topicStructs tp) := by
  refine Transition.Reachable.invariant (T := kmod)
    (P := fun σ => TablesBounded (σ.topicStructs tp)) ?_ (fun σ i hr hσ => ?_) h
  · rintro _ ⟨_, _, _, _, _, rfl⟩
    exact ⟨Nat.zero_le _, Nat.zero_le _⟩
  · exact Reachable.step_topic hr i tp hσ (fun _ _ _ _ hc h hm => h.move hc hm)
      (fun _ _ h => ⟨h.publishers, h.subscribers⟩) fun _ _ => ⟨Nat.zero_le _, Nat.zero_le _⟩

/-! ## The answers -/

/-- The wrapper of a cell is in the table, and no other is under the cell. -/
theorem findTopic_eq_some_iff (h : Reachable σ) {c : Cell} {w : TopicWrapper} :
    findTopic σ c = some w ↔ w ∈ σ.topicHashtable ∧ w.cell = c :=
  HTable.lookup_eq_some_iff h.wellFormed.cells

/-- The rows of the topic list, when they fit. -/
def topicRows (σ : Kmod) (ipcNs : IpcNs) : List (Name × Nat) :=
  (σ.topicHashtable.filter fun w => w.ipcNs = ipcNs && !isServiceResponseTopic w.key).map
    fun w => (w.key, w.domainId)

theorem getTopicList_eq (ipcNs : IpcNs) (size : Nat) :
    getTopicList σ true ipcNs size =
      if (topicRows σ ipcNs).length ≤ min size maxTopicNum then .ok (topicRows σ ipcNs)
      else .error .ENOBUFS := by
  unfold getTopicList
  rw [if_neg (by simp), listTopics_eq _ (Nat.zero_le _)]
  simp [topicRows]

theorem mem_topicRows (h : Reachable σ) {ipcNs : IpcNs} {row : Name × Nat} :
    row ∈ topicRows σ ipcNs ↔ isServiceResponseTopic row.1 = false ∧
      (findTopic σ ⟨row.1, ipcNs, row.2⟩).isSome = true := by
  obtain ⟨name, domainId⟩ := row
  unfold topicRows
  rw [List.mem_map]
  constructor
  · rintro ⟨w, hw, heq⟩
    obtain ⟨rfl, rfl⟩ := Prod.mk.inj heq
    obtain ⟨hmem, hlisted⟩ := List.mem_filter.mp hw
    obtain ⟨hns, hresp⟩ : w.ipcNs = ipcNs ∧ isServiceResponseTopic w.key = false := by
      simpa using hlisted
    refine ⟨hresp, ?_⟩
    subst hns
    rw [show findTopic σ ⟨w.key, w.ipcNs, w.domainId⟩ = some w from
      (findTopic_eq_some_iff h).mpr ⟨hmem, rfl⟩]
    rfl
  · rintro ⟨hresp, hsome⟩
    obtain ⟨w, hw⟩ := Option.isSome_iff_exists.mp hsome
    obtain ⟨hmem, hcell⟩ := (findTopic_eq_some_iff h).mp hw
    obtain ⟨rfl, rfl, rfl⟩ := Cell.mk.inj hcell
    exact ⟨w, List.mem_filter.mpr ⟨hmem, by simpa using hresp⟩, rfl⟩

theorem nodup_topicRows (h : Reachable σ) (ipcNs : IpcNs) : (topicRows σ ipcNs).Nodup := by
  unfold topicRows
  have hcells := h.wellFormed.cells
  -- in one namespace a name and a domain make a cell
  refine (List.nodup_map_iff_inj_on ?_).mpr fun w hw w' hw' heq => ?_
  · exact hcells.of_map.filter _
  · obtain ⟨hmem, hlisted⟩ := List.mem_filter.mp hw
    obtain ⟨hmem', hlisted'⟩ := List.mem_filter.mp hw'
    obtain ⟨hkey, hdom⟩ := Prod.mk.inj heq
    have hns : w.ipcNs = w'.ipcNs := by
      simp only [Bool.and_eq_true, decide_eq_true_eq] at hlisted hlisted'
      exact hlisted.1.trans hlisted'.1.symm
    refine HTable.eq_of_key_eq hcells hmem hmem' ?_
    show (⟨w.key, w.ipcNs, w.domainId⟩ : Cell) = ⟨w'.key, w'.ipcNs, w'.domainId⟩
    rw [hkey, hns, hdom]

/-- The subscribers that a cell has in its own domain. -/
def subscribersIn (σ : Kmod) (c : Cell) : List SubscriberInfo :=
  match findTopic σ c with
  | none => []
  | some w => (σ.topicStructs w.topic).subInfoHtable.filter fun s => s.domainId = c.domainId

/-- The publishers that a cell has in its own domain. -/
def publishersIn (σ : Kmod) (c : Cell) : List PublisherInfo :=
  match findTopic σ c with
  | none => []
  | some w => (σ.topicStructs w.topic).pubInfoHtable.filter fun p => p.domainId = c.domainId

/-- The rows of a table that is no larger than the buffer. -/
private theorem topicInfo_eq {α : Type} {table : List α} {size : Nat} (h : table.length ≤ size)
    (p : α → Bool) (row : α → TopicInfoRet) :
    topicInfo true size ((table.filter p).map row) = .ok ((table.filter p).map row) := by
  have hlen := (List.length_filter_le p table).trans h
  unfold topicInfo
  rw [List.length_map, if_neg (Nat.not_lt.mpr hlen), if_neg (by simp)]

theorem getTopicSubscriberInfo_eq (h : Reachable σ) (c : Cell) {size : Nat}
    (hsize : maxTopicInfoRetNum ≤ size) :
    getTopicSubscriberInfo σ true c.key c.ipcNs c.domainId size =
      .ok ((subscribersIn σ c).map SubscriberInfo.topicInfoRet) := by
  unfold getTopicSubscriberInfo subscribersIn
  cases hfind : findTopic σ c with
  | none => simp
  | some w =>
    simp only [show w.domainId = c.domainId from congrArg Cell.domainId (findTopic_mem hfind).2]
    exact topicInfo_eq ((reachable_tablesBounded h w.topic).subscribers.trans
      ((Nat.le_max_right ..).trans hsize)) _ _

theorem getTopicPublisherInfo_eq (h : Reachable σ) (c : Cell) {size : Nat}
    (hsize : maxTopicInfoRetNum ≤ size) :
    getTopicPublisherInfo σ true c.key c.ipcNs c.domainId size =
      .ok ((publishersIn σ c).map PublisherInfo.topicInfoRet) := by
  unfold getTopicPublisherInfo publishersIn
  cases hfind : findTopic σ c with
  | none => simp
  | some w =>
    simp only [show w.domainId = c.domainId from congrArg Cell.domainId (findTopic_mem hfind).2]
    exact topicInfo_eq ((reachable_tablesBounded h w.topic).publishers.trans
      ((Nat.le_max_left ..).trans hsize)) _ _

/-- **Endpoints seen through a table** are those of the cell and of the cell that a rule
pairs with it. -/
theorem mem_table_iff {α : Type} (h : Reachable σ) {table : TopicStruct → List α}
    {domainId : α → Nat} (hdomain : ∀ tp, ∀ a ∈ table (σ.topicStructs tp),
      ∃ w ∈ σ.topicHashtable, w.topic = tp ∧ w.domainId = domainId a)
    {w : TopicWrapper} (hw : w ∈ σ.topicHashtable) {a : α} :
    a ∈ table (σ.topicStructs w.topic) ↔ ∃ w', findTopic σ w'.cell = some w' ∧
      a ∈ table (σ.topicStructs w'.topic) ∧ domainId a = w'.domainId ∧
      (w' = w ∨ ∃ r ∈ σ.domainRuleHtable, (σ.domainRules r).Pairs w.cell w'.cell) := by
  constructor
  · intro ha
    obtain ⟨w', hw', htopic, hdom⟩ := hdomain w.topic a ha
    refine ⟨w', (findTopic_eq_some_iff h).mpr ⟨hw', rfl⟩, htopic ▸ ha, hdom.symm, ?_⟩
    exact ((h.grouped.shared w hw w' hw').mp htopic.symm).imp_left Eq.symm
  · rintro ⟨w', hw', ha, _, hshared⟩
    have hmem := ((findTopic_eq_some_iff h).mp hw').1
    rw [(h.grouped.shared w hw w' hmem).mpr (hshared.imp_left Eq.symm)]
    exact ha

/-- An endpoint of the cell, or of the cell that a rule pairs with it. -/
def InCellOrPaired (σ : Kmod) (c : Cell) (endpointIn : Cell → Prop) : Prop :=
  endpointIn c ∨ ∃ r ∈ σ.domainRuleHtable, ∃ c', (σ.domainRules r).Pairs c c' ∧ endpointIn c'

private theorem mem_subscribersIn {w : TopicWrapper} (hw : findTopic σ w.cell = some w)
    {s : SubscriberInfo} : s ∈ subscribersIn σ w.cell ↔
      s ∈ (σ.topicStructs w.topic).subInfoHtable ∧ s.domainId = w.domainId := by
  unfold subscribersIn
  rw [hw]
  exact List.mem_filter.trans (and_congr_right' decide_eq_true_iff)

private theorem mem_publishersIn {w : TopicWrapper} (hw : findTopic σ w.cell = some w)
    {p : PublisherInfo} : p ∈ publishersIn σ w.cell ↔
      p ∈ (σ.topicStructs w.topic).pubInfoHtable ∧ p.domainId = w.domainId := by
  unfold publishersIn
  rw [hw]
  exact List.mem_filter.trans (and_congr_right' decide_eq_true_iff)

/-- The topics whose table has an endpoint of the node. -/
private theorem mem_nodeTopics {α : Type} (h : Reachable σ) {table : TopicStruct → List α}
    {domainId : α → Nat} {endpointsIn : Cell → List α} {named : α → Bool}
    (hdomain : ∀ tp, ∀ a ∈ table (σ.topicStructs tp),
      ∃ w ∈ σ.topicHashtable, w.topic = tp ∧ w.domainId = domainId a)
    (hin : ∀ w : TopicWrapper, findTopic σ w.cell = some w → ∀ a,
      a ∈ endpointsIn w.cell ↔ a ∈ table (σ.topicStructs w.topic) ∧ domainId a = w.domainId)
    (hnone : ∀ c, findTopic σ c = none → endpointsIn c = []) {ipcNs : IpcNs} {name : Name} :
    name ∈ (σ.topicHashtable.filter fun w => w.ipcNs = ipcNs &&
        (table (σ.topicStructs w.topic)).any named).map TopicWrapper.key ↔
      ∃ domainId, (findTopic σ ⟨name, ipcNs, domainId⟩).isSome = true ∧
        InCellOrPaired σ ⟨name, ipcNs, domainId⟩ fun c => ∃ a ∈ endpointsIn c, named a = true := by
  rw [List.mem_map]
  constructor
  · rintro ⟨w, hw, rfl⟩
    obtain ⟨hmem, hlisted⟩ := List.mem_filter.mp hw
    obtain ⟨rfl, hany⟩ : w.ipcNs = ipcNs ∧ (table (σ.topicStructs w.topic)).any named = true := by
      simpa using hlisted
    obtain ⟨a, ha, hnamed⟩ := List.any_eq_true.mp hany
    obtain ⟨w', hw', ha', hdom, hshared⟩ := (mem_table_iff h hdomain hmem).mp ha
    have hin' := (hin w' hw' a).mpr ⟨ha', hdom⟩
    refine ⟨w.domainId, ?_, ?_⟩
    · exact Option.isSome_iff_exists.mpr ⟨w, (findTopic_eq_some_iff h).mpr ⟨hmem, rfl⟩⟩
    · rcases hshared with rfl | ⟨r, hr, hpairs⟩
      · exact .inl ⟨a, hin', hnamed⟩
      · exact .inr ⟨r, hr, w'.cell, hpairs, a, hin', hnamed⟩
  · rintro ⟨domainId, hsome, hcell⟩
    obtain ⟨w, hfind⟩ := Option.isSome_iff_exists.mp hsome
    obtain ⟨hmem, hc⟩ := (findTopic_eq_some_iff h).mp hfind
    rw [← hc] at hcell hfind
    obtain ⟨rfl, rfl, rfl⟩ := Cell.mk.inj hc
    refine ⟨w, List.mem_filter.mpr ⟨hmem, ?_⟩, rfl⟩
    -- an endpoint counts when it is in the table, whichever of the two cells it is from
    suffices hany : ∃ a ∈ table (σ.topicStructs w.topic), named a = true by
      simpa using hany
    rcases hcell with ⟨a, ha, hnamed⟩ | ⟨r, hr, c', hpairs, a, ha, hnamed⟩
    · exact ⟨a, ((hin w hfind a).mp ha).1, hnamed⟩
    · cases hfind' : findTopic σ c' with
      | none =>
        rw [hnone c' hfind'] at ha
        cases ha
      | some w' =>
        obtain ⟨_, rfl⟩ := (findTopic_eq_some_iff h).mp hfind'
        obtain ⟨htable, hdom⟩ := (hin w' hfind' a).mp ha
        exact ⟨a, (mem_table_iff h hdomain hmem).mpr
          ⟨w', hfind', htable, hdom, .inr ⟨r, hr, hpairs⟩⟩, hnamed⟩

/-- What the module answers to the topic queries of a namespace. -/
structure QueriesAnswer (σ : Kmod) (ipcNs : IpcNs) : Prop where
  /-- The list has each cell once, and leaves out the response topics of the services. -/
  rows : (topicRows σ ipcNs).Nodup ∧ ∀ name domainId, (name, domainId) ∈ topicRows σ ipcNs ↔
    isServiceResponseTopic name = false ∧ (findTopic σ ⟨name, ipcNs, domainId⟩).isSome = true
  /-- It is answered whole or not at all. -/
  topicList : ∀ size, getTopicList σ true ipcNs size =
    if (topicRows σ ipcNs).length ≤ min size maxTopicNum then .ok (topicRows σ ipcNs)
    else .error .ENOBUFS
  /-- The endpoints of a topic always fit, and are those of its domain. -/
  subscriberInfo : ∀ name domainId size, maxTopicInfoRetNum ≤ size →
    getTopicSubscriberInfo σ true name ipcNs domainId size =
      .ok ((subscribersIn σ ⟨name, ipcNs, domainId⟩).map SubscriberInfo.topicInfoRet)
  publisherInfo : ∀ name domainId size, maxTopicInfoRetNum ≤ size →
    getTopicPublisherInfo σ true name ipcNs domainId size =
      .ok ((publishersIn σ ⟨name, ipcNs, domainId⟩).map PublisherInfo.topicInfoRet)
  /-- The topics of a node are told across the domains that a rule pairs. -/
  nodeSubscriberTopics : ∀ nodeName size names,
    getNodeSubscriberTopics σ true ipcNs nodeName size = .ok names → ∀ name, name ∈ names ↔
      ∃ domainId, (findTopic σ ⟨name, ipcNs, domainId⟩).isSome = true ∧
        InCellOrPaired σ ⟨name, ipcNs, domainId⟩ fun c =>
          ∃ s ∈ subscribersIn σ c, s.nodeName = nodeName
  nodePublisherTopics : ∀ nodeName size names,
    getNodePublisherTopics σ true ipcNs nodeName size = .ok names → ∀ name, name ∈ names ↔
      ∃ domainId, (findTopic σ ⟨name, ipcNs, domainId⟩).isSome = true ∧
        InCellOrPaired σ ⟨name, ipcNs, domainId⟩ fun c =>
          ∃ p ∈ publishersIn σ c, p.nodeName = nodeName

/-- Names that fit are all the names. -/
private theorem listTopics_names {listed : TopicWrapper → Bool} {buf : Nat}
    {ws : List TopicWrapper} {names : List Name}
    (h : listTopics listed TopicWrapper.key buf ws [] = .ok names) :
    names = (ws.filter listed).map TopicWrapper.key := by
  rw [listTopics_eq ws (Nat.zero_le _)] at h
  split at h
  · exact (Except.ok.inj h).symm
  · cases h

/-- **What the queries answer.** -/
theorem reachable_queries_answer (h : Reachable σ) (ipcNs : IpcNs) : QueriesAnswer σ ipcNs where
  rows := ⟨nodup_topicRows h ipcNs, fun _ _ => mem_topicRows h⟩
  topicList := getTopicList_eq ipcNs
  subscriberInfo := fun name domainId _ hsize =>
    getTopicSubscriberInfo_eq h ⟨name, ipcNs, domainId⟩ hsize
  publisherInfo := fun name domainId _ hsize =>
    getTopicPublisherInfo_eq h ⟨name, ipcNs, domainId⟩ hsize
  nodeSubscriberTopics := by
    intro nodeName size names hok name
    unfold getNodeSubscriberTopics at hok
    rw [if_neg (by simp)] at hok
    rw [listTopics_names hok, mem_nodeTopics h
      h.wellFormed.sub_domain (fun w hw s => mem_subscribersIn hw)
      fun c hc => by unfold subscribersIn; rw [hc]]
    simp only [decide_eq_true_eq]
  nodePublisherTopics := by
    intro nodeName size names hok name
    unfold getNodePublisherTopics at hok
    rw [if_neg (by simp)] at hok
    rw [listTopics_names hok, mem_nodeTopics h
      h.wellFormed.pub_domain (fun w hw p => mem_publishersIn hw)
      fun c hc => by unfold publishersIn; rw [hc]]
    simp only [decide_eq_true_eq]

/-- A publisher of one domain and a subscriber of the other, joined by a rule. -/
theorem queries_answer_across_domains :
    let σ := (runOf 2 [.addDomainBridge ['/', 'a'] ['/', 'b'] 1 2 0, .addProcess 1 0 0 1,
      .addProcess 2 0 0 2, .addPublisher ['/', 'a'] 0 ⟨['m'], 1, 1, false, false⟩,
      .addSubscriber ['/', 'b'] 0 ⟨['n'], 2, 1, false, false, false, false, false⟩ 5]).2
    QueriesAnswer σ 0 ∧ getTopicList σ true 0 2048 = .ok [(['/', 'b'], 2), (['/', 'a'], 1)] ∧
      getNodeSubscriberTopics σ true 0 ['n'] 2048 = .ok [['/', 'b'], ['/', 'a']] :=
  ⟨reachable_queries_answer (reachable_runOf (by decide) (by decide) _) 0, by decide, by decide⟩

end Agnocast
