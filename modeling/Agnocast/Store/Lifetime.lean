import Agnocast.Store.Creation
import Agnocast.Store.History

/-!
# The store — the lifetime of wrappers

A wrapper exists for the endpoints of its own domain. Every path that removes an
endpoint therefore ends in a re-check of the wrapper it came through
(`releaseIfEmpty`), but two wrappers can share a topic, and a removal through one
of them can take the last endpoint of the other: a zombie publisher that is swept
with its last reference, or an endpoint that is named through the wrong wrapper.

* `exit_inhabited`        — the exit cleanup visits every wrapper, and a second
  visit of a shared topic changes nothing more (`Cleaned`).
* `SparesOthers`          — a removal leaves every other wrapper of the topic an
  endpoint.
* `topics_inhabited`      — in runs of successful calls whose removals spare the
  other wrappers, every wrapper has an endpoint of its own domain.
* `swept_zombie_empties_wrapper` — a run in which it has not.
-/

namespace Agnocast

variable {σ σ' : Kmod} {t t' : TopicStruct}

/-! ## Endpoints by domain -/

/-- The domains of the topic's endpoints. -/
def TopicStruct.endpointDomains (t : TopicStruct) : List Nat :=
  t.pubInfoHtable.map PublisherInfo.domainId ++ t.subInfoHtable.map SubscriberInfo.domainId

theorem wrapperHasDomainEndpoints_iff {w : TopicWrapper} :
    wrapperHasDomainEndpoints σ w = true ↔
      w.domainId ∈ (σ.topicStructs w.topic).endpointDomains := by
  simp [wrapperHasDomainEndpoints, TopicStruct.endpointDomains]

theorem TopicStruct.mem_endpointDomains {d : Nat} : d ∈ t.endpointDomains ↔
    (∃ p ∈ t.pubInfoHtable, p.domainId = d) ∨ ∃ s ∈ t.subInfoHtable, s.domainId = d := by
  simp [endpointDomains]

/-- Every wrapper has an endpoint of its own domain. -/
def Kmod.Inhabited (σ : Kmod) : Prop :=
  ∀ w ∈ σ.topicHashtable, wrapperHasDomainEndpoints σ w = true

/-- The same wrappers over the same endpoint domains. -/
structure SameEndpoints (σ σ' : Kmod) : Prop where
  wrappers : σ'.topicHashtable = σ.topicHashtable
  domains : ∀ tp, (σ'.topicStructs tp).endpointDomains = (σ.topicStructs tp).endpointDomains

theorem SameEndpoints.inhabited (h : SameEndpoints σ σ') (hσ : σ.Inhabited) : σ'.Inhabited := by
  intro w hw
  rw [h.wrappers] at hw
  rw [wrapperHasDomainEndpoints_iff, h.domains]
  exact wrapperHasDomainEndpoints_iff.mp (hσ w hw)

theorem SameTopics.sameEndpoints (h : SameTopics σ σ') : SameEndpoints σ σ' :=
  ⟨h.topicHashtable, fun tp => by rw [h.topicStructs]⟩

private theorem sameEndpoints_setTopic {tp : Nat}
    (h : t'.endpointDomains = (σ.topicStructs tp).endpointDomains) :
    SameEndpoints σ (σ.setTopic tp t') := by
  refine ⟨rfl, fun tp' => ?_⟩
  by_cases htp : tp' = tp
  · rw [htp, Kmod.setTopic_self, h]
  · rw [Kmod.setTopic_of_ne _ _ _ htp]

/-! ## Calls that neither add nor remove endpoints -/

private theorem endpointDomains_modifyPublisher (t : TopicStruct) (id : Int)
    (f : PublisherInfo → PublisherInfo) (hf : ∀ p, (f p).domainId = p.domainId) :
    (t.modifyPublisher id f).endpointDomains = t.endpointDomains := by
  unfold TopicStruct.endpointDomains TopicStruct.modifyPublisher
  rw [HTable.map_modify hf]

private theorem endpointDomains_modifySubscriber (t : TopicStruct) (id : Int)
    (f : SubscriberInfo → SubscriberInfo) (hf : ∀ s, (f s).domainId = s.domainId) :
    (t.modifySubscriber id f).endpointDomains = t.endpointDomains := by
  unfold TopicStruct.endpointDomains TopicStruct.modifySubscriber
  rw [HTable.map_modify hf]

private theorem endpointDomains_handOut (t : TopicStruct) (b : Int) (ids : List Int) :
    (t.handOut b ids).endpointDomains = t.endpointDomains := by
  unfold TopicStruct.handOut
  split
  · rfl
  · exact endpointDomains_modifySubscriber (t.grant b ids) b _ fun _ => rfl

private theorem publishMsg_sameEndpoints (h : σ.WellFormed) (env : Env) (current : Pid)
    (topicName : Name) (ipcNs : IpcNs) (publisherId : Int) (addr : Nat) :
    SameEndpoints σ (publishMsg σ env current topicName ipcNs publisherId addr).2 := by
  rcases publishMsg_cases (σ := σ) env current topicName ipcNs publisherId addr with
    ⟨e, heq⟩ | ⟨w, p, procInfo, _, hp, _, _, _, heq⟩ <;> rw [heq]
  · exact ⟨rfl, fun _ => rfl⟩
  · refine sameEndpoints_setTopic ?_
    have hpublished : ∀ r : List EntryNode,
        ((σ.topicStructs w.topic).published p r).endpointDomains =
          (σ.topicStructs w.topic).endpointDomains :=
      fun r => endpointDomains_modifyPublisher { σ.topicStructs w.topic with entries := r } _ _
        fun _ => rfl
    rcases publishMsgCore_cases (h.store w.topic) (HTable.mem_of_lookup hp).1 env addr with
      ⟨e, hcore⟩ | ⟨r, _, ⟨e, hcore⟩ | hcore⟩ <;> rw [hcore]
    · exact hpublished r.entries
    · exact hpublished r.entries

private theorem fetched_sameEndpoints {i : Input} {w : TopicWrapper} {s : SubscriberInfo}
    {batch : List EntryNode} {ret : Except Errno (List PublisherShmInfo)} {m : MemoryAllocator}
    (h : Fetched σ i w s batch ret t' m) : SameEndpoints σ (step σ i).2 := by
  rw [h.after]
  have htopic : t'.endpointDomains = (σ.topicStructs w.topic).endpointDomains := by
    obtain ⟨size, hr⟩ := h.reported
    rcases reportPublisherShm_topic hr with rfl | rfl
    · exact endpointDomains_handOut _ _ _
    · rw [endpointDomains_modifySubscriber]
      · exact endpointDomains_handOut _ _ _
      · exact fun _ => rfl
  have hset := sameEndpoints_setTopic (σ := σ) htopic
  exact ⟨hset.wrappers, hset.domains⟩

private theorem release_sameEndpoints (current : Pid) (topicName : Name) (ipcNs : IpcNs)
    (pubsubId entryId : Int) :
    SameEndpoints σ (releaseMessageEntryReference σ current topicName ipcNs pubsubId entryId).2 := by
  unfold releaseMessageEntryReference
  split
  · exact ⟨rfl, fun _ => rfl⟩
  simp only
  split
  · exact ⟨rfl, fun _ => rfl⟩
  split
  · exact ⟨rfl, fun _ => rfl⟩
  split
  · exact ⟨rfl, fun _ => rfl⟩
  · exact sameEndpoints_setTopic rfl

private theorem setRos2Num_sameEndpoints (current : Pid) (topicName : Name) (ipcNs : IpcNs)
    (set : TopicStruct → TopicStruct) (hset : ∀ t, (set t).endpointDomains = t.endpointDomains) :
    SameEndpoints σ (setRos2Num σ current topicName ipcNs set).2 := by
  unfold setRos2Num
  split
  · exact ⟨rfl, fun _ => rfl⟩
  · exact sameEndpoints_setTopic (hset _)

private theorem ruleChange_sameEndpoints (h : RuleChange σ σ') : SameEndpoints σ σ' := by
  cases h <;> exact ⟨rfl, fun _ => rfl⟩

/-- The call adds or removes endpoints. -/
def Call.movesEndpoints : Call → Bool
  | .addSubscriber .. => true
  | .addPublisher .. => true
  | .removeSubscriber .. => true
  | .removePublisher .. => true
  | .processExitCleanup .. => true
  | _ => false

/-- Any other call leaves wrappers and endpoints alone. -/
theorem step_sameEndpoints (h : σ.WellFormed) (i : Input) (hcall : i.call.movesEndpoints = false) :
    SameEndpoints σ (step σ i).2 := by
  have hfetch : i.call.isFetch = true → SameEndpoints σ (step σ i).2 := by
    intro hfetch
    -- a fetch that finds nobody is refused
    cases ht : fetchTarget σ i.call with
    | none =>
      rw [(fetch_refused h i hfetch ht).1]
      exact ⟨rfl, fun _ => rfl⟩
    | some target =>
      obtain ⟨batch, ret, t', m, hf⟩ := fetch_cases h i ht
      exact fetched_sameEndpoints hf
  obtain ⟨env, call⟩ := i
  cases call with
  | addSubscriber | addPublisher | removeSubscriber | removePublisher | processExitCleanup =>
    cases hcall
  | receiveMsg | takeMsg => exact hfetch rfl
  | addDomainBridge nameFrom nameTo fromDomain toDomain ipcNs =>
    exact ruleChange_sameEndpoints (addDomainBridge_change env nameFrom nameTo fromDomain toDomain
      ipcNs)
  | addDomainBridgePrefix pre fromDomain toDomain ipcNs =>
    exact ruleChange_sameEndpoints (addDomainBridgePrefix_change env pre fromDomain toDomain ipcNs)
  | addProcess pid ipcNs role domainId =>
    exact (addProcess_sameTopics env pid ipcNs role domainId).sameEndpoints
  | publishMsg current topicName ipcNs publisherId addr =>
    exact publishMsg_sameEndpoints h env current topicName ipcNs publisherId addr
  | releaseMessageEntryReference current topicName ipcNs pubsubId entryId =>
    exact release_sameEndpoints current topicName ipcNs pubsubId entryId
  | setRos2SubscriberNum current topicName ipcNs count
  | setRos2PublisherNum current topicName ipcNs count =>
    exact setRos2Num_sameEndpoints current topicName ipcNs _ fun _ => rfl
  | getExitProcess | notifyBridgeShutdown => exact ⟨rfl, fun _ => rfl⟩
  | commitExitProcess ipcNs globalPid callerPid =>
    exact (commitExitProcess_sameTopics ipcNs globalPid callerPid).sameEndpoints
  | addBridge topicName pid isR2a ipcNs =>
    exact (addBridge_sameTopics env topicName pid isR2a ipcNs).sameEndpoints
  | removeBridge topicName pid isR2a ipcNs =>
    exact (removeBridge_sameTopics topicName pid isR2a ipcNs).sameEndpoints
  | checkAndRequestBridgeShutdown pid ipcNs =>
    exact (checkAndRequestBridgeShutdown_sameTopics pid ipcNs).sameEndpoints
  | addDiscoveryAgent pid ipcNs domainId =>
    exact (addDiscoveryAgent_sameTopics env pid ipcNs domainId).sameEndpoints
  | discoveryAgentShouldExit pid ipcNs domainId commit =>
    exact (discoveryAgentShouldExit_sameTopics pid ipcNs domainId commit).sameEndpoints

/-! ## An endpoint joins -/

/-- `add_topic` takes no endpoint from anybody. -/
private theorem addTopic_inhabited (hwf : σ.WellFormed) (h : σ.Inhabited) {env : Env} {c : Cell}
    {w : TopicWrapper} {σ₁ : Kmod} (hadd : addTopic σ env c = (.ok w, σ₁)) :
    ∀ w' ∈ σ₁.topicHashtable, w' ≠ w → wrapperHasDomainEndpoints σ₁ w' = true := by
  -- whoever had a wrapper before has the same endpoints after
  have hold : ∀ σ₂ : Kmod, (∀ w' ∈ σ.topicHashtable,
      (σ₂.topicStructs w'.topic).endpointDomains = (σ.topicStructs w'.topic).endpointDomains) →
      ∀ w' ∈ σ.topicHashtable, wrapperHasDomainEndpoints σ₂ w' = true := by
    intro σ₂ hsame w' hw'
    rw [wrapperHasDomainEndpoints_iff, hsame w' hw']
    exact wrapperHasDomainEndpoints_iff.mp (h w' hw')
  rcases addTopic_cases (σ := σ) env c with ⟨e, _, heq⟩ | ⟨w₀, _, heq⟩ | ⟨tp, _, _, heq⟩ |
    ⟨_, _, heq⟩ <;> rw [heq] at hadd
  · cases (Prod.mk.inj hadd).1
  · obtain ⟨_, rfl⟩ := Prod.mk.inj hadd
    exact fun w' hw' _ => h w' hw'
  · obtain ⟨hw, rfl⟩ := Prod.mk.inj hadd
    cases hw
    intro w' hw' hne
    refine hold _ (fun w₁ _ => ?_) w' ((HTable.mem_hashAdd.mp hw').resolve_left hne)
    by_cases htp : w₁.topic = tp
    · have : (σ.joinTopic (env.place .topic) c tp).topicStructs tp = _ := Kmod.setTopic_self ..
      rw [htp, this]
      rfl
    · exact congrArg _ (Kmod.setTopic_of_ne _ _ _ htp)
  · obtain ⟨hw, rfl⟩ := Prod.mk.inj hadd
    cases hw
    intro w' hw' hne
    refine hold _ (fun w₁ hw₁ => ?_) w' ((HTable.mem_hashAdd.mp hw').resolve_left hne)
    exact congrArg _ (Kmod.setTopic_of_ne _ _ _ (hwf.topic_lt w₁ hw₁).ne)

/-- An insertion keeps the endpoints of the topic and adds one for the wrapper. -/
private theorem inhabited_insert {w : TopicWrapper}
    (hothers : ∀ w' ∈ σ.topicHashtable, w' ≠ w → wrapperHasDomainEndpoints σ w' = true)
    (hgrow : ∀ d ∈ (σ.topicStructs w.topic).endpointDomains, d ∈ t'.endpointDomains)
    (hself : w.domainId ∈ t'.endpointDomains) : (σ.setTopic w.topic t').Inhabited := by
  intro w' hw'
  rw [wrapperHasDomainEndpoints_iff]
  by_cases hne : w' = w
  · rw [hne, Kmod.setTopic_self]
    exact hself
  · have hw' := wrapperHasDomainEndpoints_iff.mp (hothers w' hw' hne)
    by_cases htp : w'.topic = w.topic
    · rw [htp] at hw' ⊢
      rw [Kmod.setTopic_self]
      exact hgrow _ hw'
    · rw [Kmod.setTopic_of_ne _ _ _ htp]
      exact hw'

private theorem endpointDomains_rebuild (t : TopicStruct) :
    (rebuildAllNotifyLists σ t).endpointDomains = t.endpointDomains := by
  unfold TopicStruct.endpointDomains rebuildAllNotifyLists
  rw [List.map_map]
  rfl

private theorem endpointDomains_joinSubscriber {pubs : List PublisherInfo}
    (hpubs : List.Forall₂ GrownNotify t.pubInfoHtable pubs) (place : Nat) (s : SubscriberInfo) :
    (t.joinSubscriber pubs place s).endpointDomains.Perm (s.domainId :: t.endpointDomains) := by
  unfold TopicStruct.endpointDomains TopicStruct.joinSubscriber
  simp only
  rw [map_eq_of_grownNotify (fun _ _ => rfl) hpubs]
  have hsubs := (HTable.hashAdd_perm place t.subInfoHtable s).map SubscriberInfo.domainId
  exact (hsubs.append_left _).trans List.perm_middle

theorem addSubscriber_inhabited (hwf : σ.WellFormed) (h : σ.Inhabited) {env : Env}
    {topicName : Name} {ipcNs : IpcNs} {args : SubscriberArgs} {eventfd id : Int}
    (hok : (addSubscriber σ env topicName ipcNs args eventfd).1 = .ok id) :
    (addSubscriber σ env topicName ipcNs args eventfd).2.Inhabited := by
  rcases addSubscriber_cases (σ := σ) env topicName ipcNs args eventfd with
    ⟨⟨e, heq⟩, _⟩ | ⟨ctx, w, σ₁, _, _, hadd, heq⟩ <;> rw [heq] at hok ⊢
  · cases hok
  rcases insertSubscriberInfo_cases (σ := σ₁) env (σ₁.topicStructs w.topic) w.domainId args ctx with
    ⟨e, pubs, _, hins⟩ | ⟨pubs, hpubs, _, _, _, hins⟩ <;> rw [hins] at hok ⊢
  · cases hok
  have hjoin := endpointDomains_joinSubscriber hpubs (env.place .subInfo)
    (newSubscriberInfo (σ₁.topicStructs w.topic) w.domainId args ctx)
  have hmem : ∀ d, d ∈ w.domainId :: (σ₁.topicStructs w.topic).endpointDomains →
      d ∈ (if ctx.isSome then rebuildAllNotifyLists σ₁ ((σ₁.topicStructs w.topic).joinSubscriber
        pubs (env.place .subInfo) (newSubscriberInfo (σ₁.topicStructs w.topic) w.domainId args ctx))
      else (σ₁.topicStructs w.topic).joinSubscriber pubs (env.place .subInfo)
        (newSubscriberInfo (σ₁.topicStructs w.topic) w.domainId args ctx)).endpointDomains := by
    intro d hd
    split
    · rw [endpointDomains_rebuild]
      exact hjoin.mem_iff.mpr hd
    · exact hjoin.mem_iff.mpr hd
  exact inhabited_insert (addTopic_inhabited hwf h hadd)
    (fun d hd => hmem d (List.mem_cons_of_mem _ hd)) (hmem _ List.mem_cons_self)

theorem addPublisher_inhabited (hwf : σ.WellFormed) (h : σ.Inhabited) {env : Env}
    {topicName : Name} {ipcNs : IpcNs} {args : PublisherArgs} {id : Int}
    (hok : (addPublisher σ env topicName ipcNs args).1 = .ok id) :
    (addPublisher σ env topicName ipcNs args).2.Inhabited := by
  rcases addPublisher_cases (σ := σ) env topicName ipcNs args with
    ⟨e, heq, _⟩ | ⟨w, σ₁, hadd, ⟨e, t, _, heq⟩ | ⟨id', t, hret, heq⟩⟩ <;> rw [heq] at hok ⊢
  · cases hok
  · cases hok
  have hmem : ∀ d, d ∈ w.domainId :: (σ₁.topicStructs w.topic).endpointDomains →
      d ∈ t.requestMmapUpdate.endpointDomains := by
    intro d hd
    rcases insertPublisherInfo_cases (σ := σ₁) env (σ₁.topicStructs w.topic) w.domainId args with
      ⟨e, hins⟩ | ⟨e, _, hins⟩ | ⟨capacity, _, _, hins⟩ <;> rw [hins] at hret
    · cases (Prod.mk.inj hret).1
    · cases (Prod.mk.inj hret).1
    obtain ⟨_, rfl⟩ := Prod.mk.inj hret
    have hadd := fun p => (HTable.hashAdd_perm (env.place .pubInfo)
      (σ₁.topicStructs w.topic).pubInfoHtable p).map PublisherInfo.domainId
    unfold TopicStruct.endpointDomains TopicStruct.requestMmapUpdate
    simp only [List.map_map]
    exact ((hadd _).append_right _).mem_iff.mpr hd
  exact inhabited_insert (addTopic_inhabited hwf h hadd)
    (fun d hd => hmem d (List.mem_cons_of_mem _ hd)) (hmem _ List.mem_cons_self)

/-! ## The re-check -/

/-- The topics hold the same entries and endpoints. -/
structure SameContent (t t' : TopicStruct) : Prop where
  entries : t'.entries = t.entries
  pubs : t'.pubInfoHtable = t.pubInfoHtable
  subs : t'.subInfoHtable = t.subInfoHtable

theorem SameContent.refl (t : TopicStruct) : SameContent t t := ⟨rfl, rfl, rfl⟩

theorem SameContent.endpointDomains (h : SameContent t t') :
    t'.endpointDomains = t.endpointDomains := by
  unfold TopicStruct.endpointDomains
  rw [h.pubs, h.subs]

/-- The re-check may take the wrapper, but nothing out of a topic. -/
theorem releaseIfEmpty_content (hwf : σ.WellFormed) {w : TopicWrapper}
    (hw : w ∈ σ.topicHashtable) (tp : Nat) :
    SameContent (σ.topicStructs tp) ((releaseIfEmpty σ w).topicStructs tp) := by
  unfold releaseIfEmpty
  split
  · exact .refl _
  next hempty =>
  have hempty : wrapperHasDomainEndpoints σ w = false := by simpa using hempty
  by_cases htp : tp = w.topic
  · have hdrop : (releaseTopicWrapper σ w).topicStructs w.topic =
        (σ.topicStructs w.topic).dropRef := Kmod.setTopic_self ..
    rw [htp, hdrop]
    unfold TopicStruct.dropRef
    simp only
    split
    · next hlast =>
      -- what is torn down was empty already
      have htear := hwf.tearDown_eq hw hempty hlast
      have hentries := congrArg TopicStruct.entries htear
      have hpubs := congrArg TopicStruct.pubInfoHtable htear
      have hsubs := congrArg TopicStruct.subInfoHtable htear
      exact ⟨hentries, hpubs, hsubs⟩
    · exact ⟨rfl, rfl, rfl⟩
  · have hsame : (releaseTopicWrapper σ w).topicStructs tp = σ.topicStructs tp :=
      Kmod.setTopic_of_ne _ _ _ htp
    rw [hsame]
    exact .refl _

/-- The wrappers that the re-check leaves: the checked one only with an endpoint. -/
theorem mem_releaseIfEmpty {w w' : TopicWrapper} (hw' : w' ∈ (releaseIfEmpty σ w).topicHashtable) :
    w' ∈ σ.topicHashtable ∧ (w' = w → wrapperHasDomainEndpoints σ w = true) := by
  unfold releaseIfEmpty at hw'
  split at hw'
  · next hsome => exact ⟨hw', fun _ => hsome⟩
  · obtain ⟨hw', hne⟩ := HTable.mem_hashDel.mp hw'
    refine ⟨hw', ?_⟩
    rintro rfl
    exact absurd rfl hne

theorem releaseIfEmpty_inhabited (hwf : σ.WellFormed) {w : TopicWrapper}
    (hw : w ∈ σ.topicHashtable)
    (hothers : ∀ w' ∈ σ.topicHashtable, w' ≠ w → wrapperHasDomainEndpoints σ w' = true) :
    (releaseIfEmpty σ w).Inhabited := by
  intro w' hw'
  obtain ⟨hold, hself⟩ := mem_releaseIfEmpty hw'
  rw [wrapperHasDomainEndpoints_iff, (releaseIfEmpty_content hwf hw w'.topic).endpointDomains,
    ← wrapperHasDomainEndpoints_iff]
  by_cases hne : w' = w
  · rw [hne]
    exact hself hne
  · exact hothers w' hold hne

/-! ## An endpoint is removed -/

/-- The publisher stays in the topic when subscriber `b` leaves: it is alive, it has
no entries to be swept with, or somebody else references one of them. -/
def StaysWithout (σ : Kmod) (t : TopicStruct) (b : Int) (p : PublisherInfo) : Prop :=
  processGone σ p.pid = false ∨ p.entriesNum = 0 ∨
    ∃ en ∈ t.entries, en.publisherId = p.id ∧ ∃ c ∈ en.referencingSubscribers.bits, c ≠ b

instance (σ : Kmod) (t : TopicStruct) (b : Int) (p : PublisherInfo) :
    Decidable (StaysWithout σ t b p) := inferInstanceAs (Decidable (_ ∨ _ ∨ _))

/-- A removal takes from no other wrapper of the topic the last endpoint of its
domain. -/
def SparesOthers (σ : Kmod) : Call → Prop
  | .removeSubscriber current topicName ipcNs id =>
    ∀ w, findTopicForCurrent σ current topicName ipcNs = some w →
      ∀ w' ∈ σ.topicHashtable, w'.topic = w.topic → w' ≠ w →
        (∃ s ∈ (σ.topicStructs w.topic).subInfoHtable, s.domainId = w'.domainId ∧ s.id ≠ id) ∨
        ∃ p ∈ (σ.topicStructs w.topic).pubInfoHtable, p.domainId = w'.domainId ∧
          StaysWithout σ (σ.topicStructs w.topic) id p
  | .removePublisher current topicName ipcNs id =>
    ∀ w, findTopicForCurrent σ current topicName ipcNs = some w →
      ∀ w' ∈ σ.topicHashtable, w'.topic = w.topic → w' ≠ w →
        (∃ s ∈ (σ.topicStructs w.topic).subInfoHtable, s.domainId = w'.domainId) ∨
        ∃ p ∈ (σ.topicStructs w.topic).pubInfoHtable, p.domainId = w'.domainId ∧
          (p.id ≠ id ∨ ∃ en ∈ (σ.topicStructs w.topic).entries, en.publisherId = p.id ∧
            isReferenced en = true)
  | _ => True

theorem isReferenced_iff {en : EntryNode} :
    isReferenced en = true ↔ ∃ c, c ∈ en.referencingSubscribers.bits := by
  unfold isReferenced
  rw [decide_eq_true_eq, Ne, ← Finset.not_nonempty_iff_eq_empty, not_not]
  exact Iff.rfl

/-- What `clearSubscriberReferences` keeps of the entries: what somebody else
references or whose publisher is alive. -/
theorem TopicStruct.Consistent.mem_clearSubscriberReferences {leaving : List Int}
    (h : t.Consistent leaving) {b : Int} {en : EntryNode} :
    en ∈ (Agnocast.clearSubscriberReferences σ t b).entries ↔ ∃ en₀ ∈ t.entries, en = en₀.clearBit b ∧
      (isReferenced en = true ∨ ∀ p ∈ t.pubInfoHtable, p.id = en.publisherId →
        processGone σ p.pid = false) := by
  have hexited : ∀ en₀ ∈ t.entries, (publisherExited σ t.pubInfoHtable en₀.publisherId = false ↔
      ∀ p ∈ t.pubInfoHtable, p.id = en₀.publisherId → processGone σ p.pid = false) := by
    intro en₀ hen₀
    obtain ⟨p, hp, hid⟩ := h.publisher en₀ hen₀
    have hlookup : HTable.lookup PublisherInfo.id en₀.publisherId t.pubInfoHtable = some p :=
      (HTable.lookup_eq_some_iff h.pubs_nodup).mpr ⟨hp, hid⟩
    unfold publisherExited
    rw [hlookup]
    refine ⟨fun hgone p' hp' hid' => ?_, fun hall => hall p hp hid⟩
    rw [HTable.eq_of_key_eq h.pubs_nodup hp' hp (hid'.trans hid.symm)]
    exact hgone
  rw [(h.clearSpec (σ := σ) b).entries]
  unfold entriesWithout
  simp only [List.mem_filter, List.mem_map, Bool.or_eq_true, Bool.not_eq_true']
  constructor
  · rintro ⟨⟨en₀, hen₀, rfl⟩, hkeep⟩
    exact ⟨en₀, hen₀, rfl, hkeep.imp_right (hexited en₀ hen₀).mp⟩
  · rintro ⟨en₀, hen₀, rfl, hkeep⟩
    exact ⟨⟨en₀, hen₀, rfl⟩, hkeep.imp_right (hexited en₀ hen₀).mpr⟩

private theorem clear_keeps_publisher {leaving : List Int} (h : t.Consistent leaving) {b : Int}
    {p : PublisherInfo} (hp : p ∈ t.pubInfoHtable) (hstay : StaysWithout σ t b p) :
    ∃ p' ∈ (clearSubscriberReferences σ t b).pubInfoHtable, p'.domainId = p.domainId := by
  have hspec := h.clearSpec (σ := σ) b
  by_cases hzero : p.entriesNum = 0
  · -- no entry goes, so the loop does not look at the publisher
    refine ⟨p, hspec.untouched p hp ?_, rfl⟩
    have hnone := (h.counted p hp).symm.trans hzero
    have hle := entriesOf_entriesWithout_le (σ := σ) t.pubInfoHtable b p.id t.entries
    rw [← hspec.entries] at hle
    omega
  · have hentry : ∃ en ∈ (clearSubscriberReferences σ t b).entries, en.publisherId = p.id := by
      rcases hstay with halive | hzero' | ⟨en, hen, hid, c, hc, hne⟩
      · obtain ⟨en, hen, hid⟩ := entriesOf_pos.mp
          (Nat.pos_of_ne_zero ((h.counted p hp).symm.trans_ne hzero))
        refine ⟨en.clearBit b, h.mem_clearSubscriberReferences.mpr ⟨en, hen, rfl, .inr ?_⟩, hid⟩
        intro p' hp' hid'
        rw [HTable.eq_of_key_eq h.pubs_nodup hp' hp (hid'.trans hid)]
        exact halive
      · exact absurd hzero' hzero
      · refine ⟨en.clearBit b, h.mem_clearSubscriberReferences.mpr ⟨en, hen, rfl, .inl ?_⟩, hid⟩
        exact isReferenced_iff.mpr ⟨c, Finset.mem_erase.mpr ⟨hne, hc⟩⟩
    obtain ⟨en, hen, hid⟩ := hentry
    have hpos : 0 < entriesOf p.id (clearSubscriberReferences σ t b).entries :=
      entriesOf_pos.mpr ⟨en, hen, hid⟩
    obtain ⟨p', hp', hid'⟩ := hspec.kept p hp (by omega)
    obtain ⟨p₀, hp₀, heq⟩ := hspec.fromPub p' hp'
    refine ⟨p', hp', ?_⟩
    have hp₀id : p₀.id = p.id := by rw [← hid', heq]
    rw [heq, HTable.eq_of_key_eq h.pubs_nodup hp₀ hp hp₀id]

/-- Unlinking takes the subscriber out; publishers and entries stay. -/
theorem unlinkSubscriberInfo_frame (t : TopicStruct) (s : SubscriberInfo) :
    (unlinkSubscriberInfo σ t s).entries = t.entries ∧
      (unlinkSubscriberInfo σ t s).subInfoHtable =
        HTable.hashDel SubscriberInfo.id s.id t.subInfoHtable ∧
      ∀ p ∈ t.pubInfoHtable, ∃ p' ∈ (unlinkSubscriberInfo σ t s).pubInfoHtable,
        SamePublisher p p' ∧ p'.entriesNum = p.entriesNum := by
  unfold unlinkSubscriberInfo
  simp only
  split
  · exact ⟨rfl, rfl, fun p hp => ⟨_, List.mem_map_of_mem hp, rfl, rfl⟩⟩
  · exact ⟨rfl, rfl, fun p hp => ⟨p, hp, .refl p, rfl⟩⟩

/-- A removal through a wrapper, and the re-check: the others keep what they have. -/
private theorem removal_inhabited (h : σ.Inhabited) {w : TopicWrapper}
    (hw : w ∈ σ.topicHashtable) (hset : (σ.setTopic w.topic t').WellFormed)
    (hspare : ∀ w' ∈ σ.topicHashtable, w'.topic = w.topic → w' ≠ w →
      w'.domainId ∈ t'.endpointDomains) :
    (releaseIfEmpty (σ.setTopic w.topic t') w).Inhabited := by
  refine releaseIfEmpty_inhabited hset hw fun w' hw' hne => ?_
  rw [wrapperHasDomainEndpoints_iff]
  by_cases htp : w'.topic = w.topic
  · rw [htp, Kmod.setTopic_self]
    exact hspare w' hw' htp hne
  · rw [Kmod.setTopic_of_ne _ _ _ htp]
    exact wrapperHasDomainEndpoints_iff.mp (h w' hw')

theorem removeSubscriber_inhabited (hwf : σ.WellFormed) (h : σ.Inhabited) {current : Pid}
    {topicName : Name} {ipcNs : IpcNs} {id : Int}
    (hspare : SparesOthers σ (.removeSubscriber current topicName ipcNs id)) :
    (removeSubscriber σ current topicName ipcNs id).2.Inhabited := by
  unfold removeSubscriber
  split
  · exact h
  next w hfind =>
  have hspare := hspare w hfind
  obtain ⟨hw, _⟩ := findTopicForCurrent_mem hfind
  simp only
  split
  · exact h
  next s hs =>
  obtain ⟨hmem, rfl⟩ := HTable.mem_of_lookup hs
  have hc := hwf.store w.topic
  rw [if_neg (not_not.mpr (hc.sub_inRange hmem))]
  have hmove : TopicMove (fun _ => True) σ w.domainId (σ.topicStructs w.topic) _ :=
    .removeSubscriber hmem trivial
  have hset := hwf.setTopic hw (hmove.consistent hc) (hmove.evolves hc) (hmove.sameOwner hc)
  refine removal_inhabited h hw hset fun w' hw' htp hne => ?_
  obtain ⟨hentries, hsubs, hpubs⟩ := unlinkSubscriberInfo_frame (σ := σ)
    (σ.topicStructs w.topic) s
  rw [TopicStruct.mem_endpointDomains]
  rcases hspare w' hw' htp hne with ⟨s', hs', hdom, hid⟩ | ⟨p, hp, hdom, hstay⟩
  · refine .inr ⟨s', ?_, hdom⟩
    show s' ∈ (unlinkSubscriberInfo σ (σ.topicStructs w.topic) s).subInfoHtable
    rw [hsubs]
    exact HTable.mem_hashDel.mpr ⟨hs', hid⟩
  · obtain ⟨p₁, hp₁, hsame, hnum⟩ := hpubs p hp
    have hstay₁ : StaysWithout σ (unlinkSubscriberInfo σ (σ.topicStructs w.topic) s) s.id p₁ := by
      unfold StaysWithout
      rw [hsame.pid_eq, hsame.id_eq, hnum, hentries]
      exact hstay
    obtain ⟨p₂, hp₂, hdom₂⟩ := clear_keeps_publisher (hc.unlinkSubscriberInfo s) hp₁ hstay₁
    exact .inl ⟨p₂, hp₂, hdom₂.trans (hsame.domainId_eq.trans hdom)⟩

theorem removePublisher_inhabited (hwf : σ.WellFormed) (h : σ.Inhabited) {current : Pid}
    {topicName : Name} {ipcNs : IpcNs} {id : Int}
    (hspare : SparesOthers σ (.removePublisher current topicName ipcNs id)) :
    (removePublisher σ current topicName ipcNs id).2.Inhabited := by
  unfold removePublisher
  split
  · exact h
  next w hfind =>
  have hspare := hspare w hfind
  obtain ⟨hw, _⟩ := findTopicForCurrent_mem hfind
  simp only
  split
  · exact h
  next p hp =>
  obtain ⟨hmem, rfl⟩ := HTable.mem_of_lookup hp
  have hc := hwf.store w.topic
  have hmove : TopicMove (fun _ => True) σ w.domainId (σ.topicStructs w.topic) _ :=
    .removePublisher hmem
  have hset := hwf.setTopic hw (hmove.consistent hc) (hmove.evolves hc) (hmove.sameOwner hc)
  refine removal_inhabited h hw hset fun w' hw' htp hne => ?_
  rw [TopicStruct.mem_endpointDomains]
  rcases hspare w' hw' htp hne with ⟨s, hs, hdom⟩ | ⟨q, hq, hdom, hstay⟩
  · exact .inr ⟨s, hs, hdom⟩
  left
  by_cases hid : q.id = p.id
  · -- the publisher itself stays as long as one of its entries is referenced
    obtain ⟨en, hen, hpid, href⟩ := hstay.resolve_left (not_not.mpr hid)
    have hkept : en ∈ (dropPublisher (σ.topicStructs w.topic) p).entries := by
      rw [hc.dropPublisher_entries hmem]
      exact List.mem_filter.mpr ⟨hen, by simp [href]⟩
    rw [HTable.eq_of_key_eq hc.pubs_nodup hq hmem hid] at hpid hdom
    refine ⟨_, (hc.mem_dropPublisher hmem).mpr (.inr ⟨rfl, ?_⟩), hdom⟩
    exact entriesOf_pos.mpr ⟨en, hkept, hpid⟩
  · exact ⟨q, (hc.mem_dropPublisher hmem).mpr (.inl ⟨hq, hid⟩), hdom⟩

/-! ## A process exits -/

/-- The publisher cannot be swept any further: it has entries, all referenced. -/
def Settled (t : TopicStruct) (p : PublisherInfo) : Prop :=
  p.entriesNum ≠ 0 ∧ ∀ en ∈ t.entries, en.publisherId = p.id → isReferenced en = true

/-- The exit cleanup of process `pid` has been through the topic. -/
structure Cleaned (pid : Pid) (t : TopicStruct) : Prop where
  pubs : ∀ p ∈ t.pubInfoHtable, p.pid = pid → Settled t p
  subs : ∀ s ∈ t.subInfoHtable, s.pid ≠ pid

theorem Cleaned.of_content {pid : Pid} (h : Cleaned pid t) (hc : SameContent t t') :
    Cleaned pid t' := by
  refine ⟨?_, ?_⟩
  · unfold Settled
    rw [hc.pubs, hc.entries]
    exact h.pubs
  · rw [hc.subs]
    exact h.subs

private theorem dropPublisher_settled (h : t.Consistent []) {p : PublisherInfo}
    (hp : p ∈ t.pubInfoHtable) (hsettled : Settled t p) : dropPublisher t p = t := by
  have hall : (t.entries.filter fun en => en.publisherId ≠ p.id ∨ isReferenced en) = t.entries := by
    refine List.filter_eq_self.mpr fun en hen => ?_
    by_cases hid : en.publisherId = p.id
    · simp [hsettled.2 en hen hid]
    · simp [hid]
  have hloop := dropUnreferenced_eq p.id t.entries 0
  rw [Nat.zero_add, ← h.counted p hp, hall, Nat.zero_add, ← h.counted p hp] at hloop
  have hpubs : HTable.modify PublisherInfo.id p.id (fun q => { q with entriesNum := p.entriesNum })
      t.pubInfoHtable = t.pubInfoHtable := by
    refine (List.map_congr_left fun q hq => ?_).trans (List.map_id _)
    split
    · next hid => rw [HTable.eq_of_key_eq h.pubs_nodup hq hp hid]; rfl
    · rfl
  unfold dropPublisher
  rw [hloop]
  simp only
  rw [if_neg hsettled.1, hpubs]

/-- A second visit finds nothing to do. -/
theorem Cleaned.revisit (h : t.Consistent []) {pid : Pid} (hcl : Cleaned pid t) :
    preHandlerSubscriberExit σ (preHandlerPublisherExit t pid) pid = t := by
  have hfold : ∀ l : List PublisherInfo, (∀ p ∈ l, p ∈ t.pubInfoHtable ∧ p.pid = pid) →
      l.foldl dropPublisher t = t := by
    intro l
    induction l with
    | nil => exact fun _ => rfl
    | cons p l ih =>
      intro hl
      obtain ⟨hp, hpid⟩ := hl p List.mem_cons_self
      rw [List.foldl_cons, dropPublisher_settled h hp (hcl.pubs p hp hpid)]
      exact ih fun q hq => hl q (List.mem_cons_of_mem _ hq)
  have hpubs : preHandlerPublisherExit t pid = t :=
    hfold _ fun p hp => by simpa using List.mem_filter.mp hp
  have hsubs : (t.subInfoHtable.filter fun s => s.pid = pid) = [] :=
    List.filter_eq_nil_iff.mpr fun s hs => by simpa using hcl.subs s hs
  rw [hpubs]
  unfold preHandlerSubscriberExit
  simp only
  rw [if_pos hsubs]

/-- The publishers of the process leave one after the other; what remains of each
is settled. -/
theorem preHandlerPublisherExit_settled (h : t.Consistent []) (pid : Pid) :
    ∀ p ∈ (preHandlerPublisherExit t pid).pubInfoHtable, p.pid = pid →
      Settled (preHandlerPublisherExit t pid) p := by
  have hfold : ∀ (l : List PublisherInfo) (t : TopicStruct), t.Consistent [] →
      (l.map PublisherInfo.id).Nodup → (∀ p ∈ l, p ∈ t.pubInfoHtable) →
      (∀ p ∈ t.pubInfoHtable, p.pid = pid → p ∈ l ∨ Settled t p) →
      ∀ p ∈ (l.foldl dropPublisher t).pubInfoHtable, p.pid = pid →
        Settled (l.foldl dropPublisher t) p := by
    intro l
    induction l with
    | nil => exact fun t _ _ _ hsettled p hp hpid => (hsettled p hp hpid).resolve_left (by simp)
    | cons q l ih =>
      intro t ht hnd hl hsettled
      obtain ⟨hq, hnd⟩ := List.nodup_cons.mp hnd
      have hqt := hl q List.mem_cons_self
      have hsub : ∀ en ∈ (dropPublisher t q).entries, en ∈ t.entries := by
        intro en hen
        rw [ht.dropPublisher_entries hqt] at hen
        exact (List.mem_filter.mp hen).1
      refine ih _ (ht.dropPublisher hqt) hnd (fun p hp => ?_) fun p hp hpid => ?_
      · refine (ht.mem_dropPublisher hqt).mpr (.inl ⟨hl p (List.mem_cons_of_mem _ hp), fun hid => ?_⟩)
        exact hq (hid ▸ List.mem_map_of_mem hp)
      · rcases (ht.mem_dropPublisher hqt).mp hp with ⟨hp, hne⟩ | ⟨rfl, hpos⟩
        · rcases hsettled p hp hpid with hp | ⟨hnum, href⟩
          · exact .inl ((List.mem_cons.mp hp).resolve_left fun heq => hne (heq ▸ rfl))
          · exact .inr ⟨hnum, fun en hen => href en (hsub en hen)⟩
        · -- the publisher that has just left keeps referenced entries only
          refine .inr ⟨hpos.ne', fun en hen hid => ?_⟩
          rw [ht.dropPublisher_entries hqt] at hen
          have hkeep := (List.mem_filter.mp hen).2
          simpa [hid] using hkeep
  refine hfold _ t h (h.pubs_nodup.sublist (List.filter_sublist.map _))
    (fun p hp => (List.mem_filter.mp hp).1) fun p hp hpid => .inl ?_
  exact List.mem_filter.mpr ⟨hp, by simpa using hpid⟩

/-- Clearing a subscriber's references sweeps every entry that nobody else references
and whose publisher's process is gone. -/
theorem clear_swept {leaving : List Int} (h : t.Consistent leaving) (b : Int) {p : PublisherInfo}
    (hp : p ∈ (clearSubscriberReferences σ t b).pubInfoHtable)
    (hgone : processGone σ p.pid = true) (hnum : p.entriesNum ≠ 0) :
    Settled (clearSubscriberReferences σ t b) p := by
  refine ⟨hnum, fun en hen hid => ?_⟩
  obtain ⟨p₀, hp₀, heq⟩ := (h.clearSpec (σ := σ) b).fromPub p hp
  obtain ⟨en₀, _, rfl, hkeep⟩ := h.mem_clearSubscriberReferences.mp hen
  refine hkeep.resolve_right fun hall => ?_
  have halive := hall p₀ hp₀ ((congrArg PublisherInfo.id heq).symm.trans hid.symm)
  rw [← congrArg PublisherInfo.pid heq, hgone] at halive
  cases halive

/-- So the publishers of an exited process stay settled. -/
private theorem clear_settled {leaving : List Int} (h : t.Consistent leaving) (b : Int) {pid : Pid}
    (hgone : processGone σ pid = true)
    (hsettled : ∀ p ∈ t.pubInfoHtable, p.pid = pid → Settled t p) :
    ∀ p ∈ (clearSubscriberReferences σ t b).pubInfoHtable, p.pid = pid →
      Settled (clearSubscriberReferences σ t b) p := by
  intro p hp hpid
  refine clear_swept h b hp (hpid ▸ hgone) fun hzero => ?_
  exact (hsettled p ((h.clearSpec (σ := σ) b).emptied p hp hzero) hpid).1 hzero

/-- One visit cleans the topic. -/
theorem visit_cleaned (h : t.Consistent []) {pid : Pid} (hgone : processGone σ pid = true) :
    Cleaned pid (preHandlerSubscriberExit σ (preHandlerPublisherExit t pid) pid) := by
  have hsettled := preHandlerPublisherExit_settled h pid
  have hmoves : TopicMoves (fun _ => True) σ 0 t (preHandlerPublisherExit t pid) :=
    preHandlerPublisherExit_moves h pid
  have hc := hmoves.consistent h
  generalize preHandlerPublisherExit t pid = t at hsettled hc
  have hfold : ∀ (l : List SubscriberInfo) (t : TopicStruct),
      t.Consistent (l.map SubscriberInfo.id) →
      (∀ p ∈ t.pubInfoHtable, p.pid = pid → Settled t p) → (∀ s ∈ t.subInfoHtable, s.pid ≠ pid) →
      Cleaned pid (l.foldl (fun t s => clearSubscriberReferences σ t s.id) t) := by
    intro l
    induction l with
    | nil => exact fun t _ hp hs => ⟨hp, hs⟩
    | cons s l ih =>
      intro t ht hp hs
      exact ih _ ht.clearSubscriberReferences (clear_settled ht s.id hgone hp) hs
  unfold preHandlerSubscriberExit
  simp only
  split
  · next hnone =>
    refine ⟨hsettled, fun s hs hpid => ?_⟩
    have hmem : s ∈ t.subInfoHtable.filter fun s => s.pid = pid :=
      List.mem_filter.mpr ⟨hs, by simpa using hpid⟩
    rw [hnone] at hmem
    cases hmem
  · refine hfold _ _ (hc.unlinkByPid pid).rebuildAllNotifyLists (fun p' hp' hpid => ?_)
      fun s hs => by simpa using (List.mem_filter.mp hs).2
    obtain ⟨p, hp, rfl⟩ := List.mem_map.mp hp'
    exact hsettled p hp hpid

/-- The visit of one wrapper: it stays only with an endpoint, and its topic is clean;
whatever was clean stays as it is. -/
private theorem cleanupTopic_cleaned (h : σ.WellFormed) {pid : Pid}
    (hgone : processGone σ pid = true) {w : TopicWrapper} (hw : w ∈ σ.topicHashtable)
    {w' : TopicWrapper} (hw' : w' ∈ (cleanupTopic pid σ w).topicHashtable)
    (hdone : w' ≠ w → Cleaned pid (σ.topicStructs w'.topic) ∧
      wrapperHasDomainEndpoints σ w' = true) :
    Cleaned pid ((cleanupTopic pid σ w).topicStructs w'.topic) ∧
      wrapperHasDomainEndpoints (cleanupTopic pid σ w) w' = true := by
  have hc := h.store w.topic
  have hmoves : TopicMoves (fun _ => True) σ w.domainId (σ.topicStructs w.topic)
      (preHandlerSubscriberExit σ (preHandlerPublisherExit (σ.topicStructs w.topic) pid) pid) :=
    .tail (preHandlerPublisherExit_moves hc pid) (.subscriberExit pid trivial)
  have hclean := visit_cleaned hc hgone
  have hfixed : Cleaned pid (σ.topicStructs w.topic) → preHandlerSubscriberExit σ
      (preHandlerPublisherExit (σ.topicStructs w.topic) pid) pid = σ.topicStructs w.topic :=
    Cleaned.revisit hc
  unfold cleanupTopic at hw' ⊢
  simp only at hw' ⊢
  generalize preHandlerSubscriberExit σ (preHandlerPublisherExit (σ.topicStructs w.topic) pid) pid
    = t' at hmoves hclean hfixed hw' ⊢
  have hset := h.setTopic hw (hmoves.consistent hc) (hmoves.evolves hc) (hmoves.sameOwner hc)
  have hcontent := releaseIfEmpty_content hset hw w'.topic
  obtain ⟨_, hself⟩ := mem_releaseIfEmpty hw'
  rw [wrapperHasDomainEndpoints_iff, hcontent.endpointDomains]
  -- what holds of the topic after the visit holds after the re-check
  suffices hvisit : Cleaned pid ((σ.setTopic w.topic t').topicStructs w'.topic) ∧
      w'.domainId ∈ ((σ.setTopic w.topic t').topicStructs w'.topic).endpointDomains from
    ⟨hvisit.1.of_content hcontent, hvisit.2⟩
  by_cases hne : w' = w
  · have hself := wrapperHasDomainEndpoints_iff.mp (hself hne)
    rw [hne]
    refine ⟨?_, hself⟩
    rw [Kmod.setTopic_self]
    exact hclean
  · obtain ⟨hcl, hhas⟩ := hdone hne
    have hhas := wrapperHasDomainEndpoints_iff.mp hhas
    by_cases htp : w'.topic = w.topic
    · rw [htp] at hcl hhas ⊢
      rw [Kmod.setTopic_self, hfixed hcl]
      exact ⟨hcl, hhas⟩
    · rw [Kmod.setTopic_of_ne _ _ _ htp]
      exact ⟨hcl, hhas⟩

theorem cleanupTopic_procInfoHtable (pid : Pid) (w : TopicWrapper) :
    (cleanupTopic pid σ w).procInfoHtable = σ.procInfoHtable := by
  unfold cleanupTopic releaseIfEmpty
  simp only
  split <;> rfl

/-- The visit of all wrappers: every wrapper that is left was visited. -/
private theorem cleanupTopics_inhabited {pid : Pid} (l : List TopicWrapper) : ∀ σ : Kmod,
    σ.WellFormed → processGone σ pid = true → (l.map TopicWrapper.cell).Nodup →
    (∀ w ∈ l, w ∈ σ.topicHashtable) →
    (∀ w ∈ σ.topicHashtable, w ∈ l ∨ (Cleaned pid (σ.topicStructs w.topic) ∧
      wrapperHasDomainEndpoints σ w = true)) →
    (l.foldl (cleanupTopic pid) σ).Inhabited := by
  induction l with
  | nil => exact fun σ _ _ _ _ hdone w hw => ((hdone w hw).resolve_left (by simp)).2
  | cons w l ih =>
    intro σ h hgone hnd hmem hdone
    obtain ⟨hnot, hnd⟩ := List.nodup_cons.mp hnd
    have hw := hmem w List.mem_cons_self
    have hmove := cleanupTopic_moves (A := fun _ _ => True) h pid hw trivial
    have hgone' : processGone (cleanupTopic pid σ w) pid = true := by
      unfold processGone findProcessInfo
      rw [cleanupTopic_procInfoHtable]
      exact hgone
    refine ih _ (h.moves hmove) hgone' hnd (fun w' hw' => ?_) fun w' hw' => ?_
    · exact mem_cleanupTopic (hmem w' (List.mem_cons_of_mem _ hw'))
        fun hc => hnot (hc ▸ List.mem_map_of_mem hw')
    · by_cases hl : w' ∈ l
      · exact .inl hl
      · refine .inr (cleanupTopic_cleaned h hgone hw hw' fun hne => ?_)
        have hold : w' ∈ σ.topicHashtable := by
          unfold cleanupTopic at hw'
          exact (mem_releaseIfEmpty hw').1
        exact (hdone w' hold).resolve_left fun h => hl ((List.mem_cons.mp h).resolve_left hne)

/-- **The exit cleanup of a registered process** leaves every wrapper that it leaves an
endpoint, whatever it found. -/
theorem exit_inhabited_of_registered (hwf : σ.WellFormed) {pid : Pid} {procInfo : ProcessInfo}
    (hproc : findProcessInfo σ pid = some procInfo) : (processExitCleanup σ pid).Inhabited := by
  rw [processExitCleanup_eq, hproc]
  have hexit : (exitProcess σ pid procInfo).WellFormed :=
    hwf.move (A := fun _ _ => True) (.world (exitProcess_sameTopics pid procInfo))
  exact cleanupTopics_inhabited _ _ hexit (processGone_exitProcess hproc) hexit.cells
    (fun _ hw => hw) fun _ hw => .inl hw

theorem exit_inhabited (hwf : σ.WellFormed) (h : σ.Inhabited) (pid : Pid) :
    (processExitCleanup σ pid).Inhabited := by
  cases hproc : findProcessInfo σ pid with
  | none =>
    rw [processExitCleanup_eq, hproc]
    exact h
  | some procInfo => exact exit_inhabited_of_registered hwf hproc

/-! ## Runs -/

/-- What a topic's lifetime is tied to: every wrapper has an endpoint of its own
domain, a topic counts its wrappers, and every endpoint belongs to the domain of one
of them. -/
structure TopicLifetime (σ : Kmod) : Prop where
  inhabited : σ.Inhabited
  refcnt : ∀ tp, (σ.topicStructs tp).wrapperRefcnt = σ.topicHashtable.countP fun w => w.topic = tp
  pub_domain : ∀ tp, ∀ p ∈ (σ.topicStructs tp).pubInfoHtable,
    ∃ w ∈ σ.topicHashtable, w.topic = tp ∧ w.domainId = p.domainId
  sub_domain : ∀ tp, ∀ s ∈ (σ.topicStructs tp).subInfoHtable,
    ∃ w ∈ σ.topicHashtable, w.topic = tp ∧ w.domainId = s.domainId

/-- The call succeeds. -/
def Succeeds (σ : Kmod) (i : Input) : Prop := (step σ i).1.isOk = true

/-- The call succeeds, and if it is a removal it spares the other wrappers. -/
def SucceedsSparing (σ : Kmod) (i : Input) : Prop := Succeeds σ i ∧ SparesOthers σ i.call

/-- One call: a success that spares the other wrappers keeps every wrapper an
endpoint of its own. -/
theorem step_inhabited (hwf : σ.WellFormed) (h : σ.Inhabited) (i : Input)
    (hg : SucceedsSparing σ i) : (step σ i).2.Inhabited := by
  have hother : i.call.movesEndpoints = false → (step σ i).2.Inhabited := fun hcall =>
    (step_sameEndpoints hwf i hcall).inhabited h
  obtain ⟨env, call⟩ := i
  obtain ⟨hok, hspare⟩ := hg
  cases call with
  | addSubscriber topicName ipcNs args eventfd =>
    cases hret : (addSubscriber σ env topicName ipcNs args eventfd).1 with
    | error e =>
      have hok : (addSubscriber σ env topicName ipcNs args eventfd).1.isOk = true := hok
      rw [hret] at hok
      cases hok
    | ok id => exact addSubscriber_inhabited hwf h hret
  | addPublisher topicName ipcNs args =>
    cases hret : (addPublisher σ env topicName ipcNs args).1 with
    | error e =>
      have hok : (addPublisher σ env topicName ipcNs args).1.isOk = true := hok
      rw [hret] at hok
      cases hok
    | ok id => exact addPublisher_inhabited hwf h hret
  | removeSubscriber current topicName ipcNs id => exact removeSubscriber_inhabited hwf h hspare
  | removePublisher current topicName ipcNs id => exact removePublisher_inhabited hwf h hspare
  | processExitCleanup pid => exact exit_inhabited hwf h pid
  | _ => exact hother rfl

/-- **The lifetime of topics**: in runs of successful calls whose removals spare the
other wrappers of a topic, every wrapper has an endpoint of its own domain. -/
theorem run_topic_lifetime {tr : List Event} (h : Transition.Run kmod SucceedsSparing tr σ) :
    TopicLifetime σ := by
  have hwf := Reachable.wellFormed h.reachable
  refine ⟨?_, hwf.refcnt, hwf.pub_domain, hwf.sub_domain⟩
  refine h.history (P := fun _ σ => σ.Inhabited) ?_ fun tr σ i hr hσ hg => ?_
  · rintro _ ⟨_, _, _, m, _, rfl⟩
    exact fun w hw => by cases hw
  · exact step_inhabited (Reachable.wellFormed hr.reachable) hσ i hg

/-- Two domains join one topic, and the subscriber of one of them leaves again. -/
theorem topic_lifetime_after_leave :
    let σ := (runOf 3 [.addDomainBridge ['/', 't'] ['/', 't'] 2 1 0, .addProcess 1 0 0 1,
      .addProcess 2 0 0 2, .addPublisher ['/', 't'] 0 ⟨[], 2, 1, false, false⟩,
      .addSubscriber ['/', 't'] 0 ⟨[], 1, 1, false, true, false, false, false⟩ 7,
      .removeSubscriber 1 ['/', 't'] 0 1]).2
    σ.topicHashtable.length = 1 ∧ TopicLifetime σ := by
  refine ⟨by decide, run_topic_lifetime (run_runOf (by decide) (by decide)
    ⟨⟨rfl, trivial⟩, ⟨rfl, trivial⟩, ⟨rfl, trivial⟩, ⟨rfl, trivial⟩, ⟨rfl, trivial⟩, ⟨rfl, ?_⟩,
      trivial⟩)⟩
  -- the other wrapper keeps its publisher, which is alive
  intro w hw
  have hown : w = ⟨0, 1, ['/', 't'], 0⟩ := (Option.some.inj hw).symm
  rw [hown]
  decide

/-- **A swept zombie empties a wrapper**: a subscriber of domain 1 holds the last
reference to an entry of an exited publisher of domain 2. Its removal sweeps the
publisher, and only the wrapper of domain 1 is checked. -/
theorem swept_zombie_empties_wrapper :
    ¬ ∀ (tr : List Event) (σ : Kmod), Transition.Run kmod Succeeds tr σ → TopicLifetime σ := by
  intro h
  have hrun : Transition.Run kmod Succeeds _ (runOf 3
      [.addDomainBridge ['/', 't'] ['/', 't'] 2 1 0, .addProcess 1 0 0 1, .addProcess 2 0 0 2,
        .addPublisher ['/', 't'] 0 ⟨[], 2, 1, false, false⟩,
        .addSubscriber ['/', 't'] 0 ⟨[], 1, 1, false, true, false, false, false⟩ 7,
        .publishMsg 2 ['/', 't'] 0 0 1073741840, .receiveMsg 1 ['/', 't'] 0 1 10,
        .processExitCleanup 2, .removeSubscriber 1 ['/', 't'] 0 1]).2 :=
    run_runOf (by decide) (by decide) ⟨rfl, rfl, rfl, rfl, rfl, rfl, rfl, rfl, rfl, trivial⟩
  have hempty := (h _ _ hrun).inhabited ⟨0, 2, ['/', 't'], 0⟩ (by decide)
  exact absurd hempty (by decide)

end Agnocast
