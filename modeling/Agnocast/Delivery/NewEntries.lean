import Agnocast.Delivery.Receive
import Agnocast.Memory.Mapping
import Agnocast.Store.References

/-!
# Delivery — where undelivered entries come from

What a subscriber has not been given yet becomes less with every call, unless the call
publishes: then there is one entry more, and the subscriber's context is among those that
the publication signals.

* `publishing`, `unsignalled` — the two ways in which a PUBLISH_MSG leaves a new entry.
* `undelivered_step`          — an undelivered entry was undelivered before, or is the one
  that is published.
* `receive_leaves_nothing`    — a RECEIVE_MSG that does not ask to be called again leaves
  nothing undelivered.
-/

namespace Agnocast

variable {σ σ' : Kmod} {i : Input} {tp : Nat} {s s' : SubscriberInfo}

/-! ## Publications -/

/-- A PUBLISH_MSG that has released the topic, with the contexts it has still to signal. -/
structure Publishing where
  topic : Nat
  entryId : Int
  notifyCtxs : List EventfdCtx
  deriving DecidableEq, Repr

/-- The signal loop that the call enters. -/
def publishing (σ : Kmod) (i : Input) : Option Publishing :=
  match i.call, (step σ i).1 with
  | .publishMsg current topicName ipcNs _ _, .published (.ok reply) =>
    (findTopicForCurrent σ current topicName ipcNs).map fun w =>
      ⟨w.topic, reply.entryId, reply.signalled⟩
  | _, _ => none

/-- The topic and the id of the entry that the call inserts before it fails: the loop of
`release_msgs_to_meet_depth` ran into the last entry, and nobody is signalled. -/
def unsignalled (σ : Kmod) (i : Input) : Option (Nat × Int) :=
  match i.call, (step σ i).1 with
  | .publishMsg current topicName ipcNs _ _, .published (.error _) =>
    (findTopicForCurrent σ current topicName ipcNs).bind fun w =>
      let entryId := (σ.topicStructs w.topic).currentEntryId
      if ((step σ i).2.topicStructs w.topic).entries.any (·.entryId = entryId) then
        some (w.topic, entryId)
      else none
  | _, _ => none

/-- No pid registers while a publisher of it is listed in the topic. -/
def RegistersUnlisted (σ : Kmod) (call : Call) (tp : Nat) : Prop :=
  ∀ pid ipcNs raw domainId, call = .addProcess pid ipcNs raw domainId →
    ∀ p ∈ (σ.topicStructs tp).pubInfoHtable, p.pid ≠ pid

/-! ## What is undelivered -/

theorem mem_undelivered {t : TopicStruct} {en : EntryNode} : en ∈ undelivered σ t s ↔
    en ∈ t.entries ∧ s.latestReceivedEntryId < en.entryId ∧ isEntryDeliverable σ t s en = .ok true := by
  unfold undelivered
  rw [List.mem_filter]
  simp

/-- An entry that the delivery test accepts has a publisher that lives and that the
subscriber listens to. -/
theorem isEntryDeliverable_iff {t : TopicStruct} {en : EntryNode} :
    isEntryDeliverable σ t s en = .ok true ↔ ∃ p, findPublisherInfo t en.publisherId = some p ∧
      processGone σ p.pid = false ∧ ¬ (s.ignoreLocalPublications = true ∧ s.pid = p.pid) ∧
      domainDeliveryAllowed σ t p.domainId p.isBridge s.domainId s.isBridge = true := by
  unfold isEntryDeliverable
  cases hp : findPublisherInfo t en.publisherId with
  | none => simp
  | some p =>
    cases hgone : processGone σ p.pid with
    | true => simp [hgone]
    | false =>
      by_cases hlocal : s.ignoreLocalPublications = true ∧ s.pid = p.pid
      · simp [hgone, hlocal]
      · simp only [hgone, Bool.false_eq_true, if_false, if_neg hlocal, Except.ok.injEq,
          Option.some.injEq, exists_eq_left']
        exact ⟨fun h => ⟨trivial, hlocal, h⟩, fun h => h.2.2⟩

/-- The watermark of a subscriber that stays has not gone back. -/
theorem watermark_le_step (hr : Reachable σ) (i : Input)
    (hs : s ∈ (σ.topicStructs tp).subInfoHtable)
    (hs' : s' ∈ ((step σ i).2.topicStructs tp).subInfoHtable) (hid : s'.id = s.id) :
    s.latestReceivedEntryId ≤ s'.latestReceivedEntryId := by
  have hc := hr.wellFormed.store tp
  rcases (hr.evolves i tp).sub s' hs' with ⟨s₀, hs₀, hsame, hle⟩ | ⟨hnew, _⟩
  · rwa [HTable.eq_of_key_eq hc.subs_nodup hs₀ hs (hsame.id_eq.symm.trans hid)] at hle
  · -- its id was given out before
    have := (hc.sub_id s hs).2
    rw [hid] at hnew
    exact absurd this (not_lt.mpr hnew)

/-- A publisher whose id was in use before is the one that had it. -/
private theorem publisher_before (hr : Reachable σ) (i : Input) {p p' : PublisherInfo}
    (hp : p ∈ (σ.topicStructs tp).pubInfoHtable)
    (hp' : p' ∈ ((step σ i).2.topicStructs tp).pubInfoHtable) (hid : p'.id = p.id) :
    SamePublisher p p' := by
  have hc := hr.wellFormed.store tp
  rcases (hr.evolves i tp).pub p' hp' with ⟨p₀, hp₀, hsame⟩ | ⟨hnew, _⟩
  · rwa [HTable.eq_of_key_eq hc.pubs_nodup hp₀ hp (hsame.id_eq.symm.trans hid)] at hsame
  · have := (hc.pub_id p hp).2
    rw [hid] at hnew
    exact absurd this (not_lt.mpr hnew)

/-- What the delivery test asks of the publisher, one step earlier. -/
private theorem accepted_before (hr : Reachable σ) (hreg : RegistersUnlisted σ i.call tp)
    {p p' : PublisherInfo} (hp : p ∈ (σ.topicStructs tp).pubInfoHtable) (hpub : SamePublisher p p')
    (hsame : SameSubscriber s s') (hlive : processGone (step σ i).2 p'.pid = false)
    (hlocal : ¬ (s'.ignoreLocalPublications = true ∧ s'.pid = p'.pid))
    (hallowed : domainDeliveryAllowed (step σ i).2 ((step σ i).2.topicStructs tp) p'.domainId
      p'.isBridge s'.domainId s'.isBridge = true) :
    processGone σ p.pid = false ∧ ¬ (s.ignoreLocalPublications = true ∧ s.pid = p.pid) ∧
      domainDeliveryAllowed σ (σ.topicStructs tp) p.domainId p.isBridge s.domainId s.isBridge =
        true := by
  rw [domainDeliveryAllowed_step hr i hp, hpub.domainId_eq, hpub.isBridge_eq, hsame.domainId_eq,
    hsame.isBridge_eq] at hallowed
  rw [hsame.pid_eq, hpub.pid_eq] at hlocal
  rw [hpub.pid_eq] at hlive
  refine ⟨?_, ?_, hallowed⟩
  · -- whoever is gone stays so, for its pid does not register
    refine Bool.eq_false_iff.mpr fun hgone => ?_
    have := processGone_step hr hgone fun ipcNs raw domainId hcall _ =>
      absurd rfl (hreg _ ipcNs raw domainId hcall p hp)
    rw [hlive] at this
    cases this
  · have hflag : s'.ignoreLocalPublications = s.ignoreLocalPublications := by rw [hsame]
    rwa [hflag] at hlocal

/-! ## One step -/

/-- A publication that fails after it has inserted its entry signals nobody. -/
private theorem unsignalled_of_error {env : Env} {current : Pid} {topicName : Name} {ipcNs : IpcNs}
    {publisherId : Int} {addr : Nat} {w : TopicWrapper} {e : Errno}
    (hw : findTopicForCurrent σ current topicName ipcNs = some w)
    (hout : (step σ ⟨env, .publishMsg current topicName ipcNs publisherId addr⟩).1 =
      .published (.error e)) {en' : EntryNode}
    (hen' : en' ∈ ((step σ ⟨env, .publishMsg current topicName ipcNs publisherId addr⟩).2.topicStructs
      w.topic).entries)
    (hid : en'.entryId = (σ.topicStructs w.topic).currentEntryId) :
    unsignalled σ ⟨env, .publishMsg current topicName ipcNs publisherId addr⟩ =
      some (w.topic, en'.entryId) := by
  have hany : ((step σ ⟨env, .publishMsg current topicName ipcNs publisherId addr⟩).2.topicStructs
      w.topic).entries.any
        (fun en => decide (en.entryId = (σ.topicStructs w.topic).currentEntryId)) = true :=
    List.any_eq_true.mpr ⟨en', hen', by simpa using hid⟩
  unfold unsignalled
  rw [hout]
  simp only [hw, Option.bind_some]
  rw [if_pos hany, hid]

/-- The publication of an entry that the subscriber accepts signals the subscriber, unless
the call fails. -/
private theorem published_signals (hr : Reachable σ) {p : PublisherInfo} {addr : Nat}
    (hA : Permits σ i.call tp (.publish p addr)) (hp : p ∈ (σ.topicStructs tp).pubInfoHtable)
    (hs : s ∈ (σ.topicStructs tp).subInfoHtable)
    (hlocal : ¬ (s.ignoreLocalPublications = true ∧ s.pid = p.pid))
    (hallowed : domainDeliveryAllowed σ (σ.topicStructs tp) p.domainId p.isBridge s.domainId
      s.isBridge = true) {en' : EntryNode}
    (hen' : en' ∈ ((step σ i).2.topicStructs tp).entries)
    (hid : en'.entryId = (σ.topicStructs tp).currentEntryId) :
    (∃ r, publishing σ i = some r ∧ r.topic = tp ∧ r.entryId = en'.entryId ∧
      ∀ ctx, s.notifyCtx = some ctx → ctx ∈ r.notifyCtxs) ∨
    unsignalled σ i = some (tp, en'.entryId) := by
  -- who accepts the publisher is on its list
  have hlisted : ∀ ctx, s.notifyCtx = some ctx → ctx ∈ p.notifyCtxs := by
    intro ctx hctx
    refine ((hr.notifyOk tp).listed p hp).symm.subset (List.mem_filterMap.mpr ⟨s, hs, ?_⟩)
    unfold notifies
    rw [hctx, hallowed]
    simp [hlocal]
  obtain ⟨current, topicName, ipcNs, w, procInfo, hcall, hw, rfl, hfind, hproc, _, _⟩ := hA
  obtain ⟨env, call⟩ := i
  obtain rfl : call = _ := hcall
  rcases publishMsg_cases (σ := σ) env current topicName ipcNs p.id addr with
    ⟨e, heq⟩ | ⟨w', p', _, hw', hp', _, _, _, heq⟩
  · -- a refused call changes nothing, so the entry would be an old one
    have hsame : (step σ ⟨env, .publishMsg current topicName ipcNs p.id addr⟩).2 = σ :=
      congrArg Prod.snd heq
    rw [hsame] at hen'
    exact absurd ((hr.wellFormed.store w.topic).entry_lt en' hen') (by rw [hid]; exact lt_irrefl _)
  obtain rfl : w = w' := Option.some.inj (hw.symm.trans hw')
  obtain rfl : p = p' := Option.some.inj (hfind.symm.trans hp')
  have hout : (step σ ⟨env, .publishMsg current topicName ipcNs p.id addr⟩).1 =
      .published (publishMsgCore env (σ.topicStructs w.topic) p addr).1 :=
    congrArg (fun r => (answer Reply.published r).1) heq
  -- a failure behind the insertion leaves the entry unsignalled
  rcases publishMsgCore_cases (hr.wellFormed.store w.topic) hp env addr with
    ⟨e, hcore⟩ | ⟨r, _, ⟨e, hcore⟩ | hcore⟩ <;> rw [hcore] at hout
  · exact .inr (unsignalled_of_error hw hout hen' hid)
  · exact .inr (unsignalled_of_error hw hout hen' hid)
  · refine .inl ⟨⟨w.topic, _, p.notifyCtxs⟩, ?_, rfl, hid.symm, hlisted⟩
    unfold publishing
    rw [hout]
    simp only [hw, Option.map_some]

/-- **Where an undelivered entry comes from**: it was undelivered before, or the call
publishes it and signals the subscriber, or the publication fails. -/
theorem undelivered_step (hr : Reachable σ) (hreg : RegistersUnlisted σ i.call tp)
    (hs : s ∈ (σ.topicStructs tp).subInfoHtable)
    (hs' : s' ∈ ((step σ i).2.topicStructs tp).subInfoHtable) (hsame : SameSubscriber s s')
    {en' : EntryNode} (hen' : en' ∈ undelivered (step σ i).2 ((step σ i).2.topicStructs tp) s') :
    (∃ en ∈ undelivered σ (σ.topicStructs tp) s, en.entryId = en'.entryId) ∨
    (∃ r, publishing σ i = some r ∧ r.topic = tp ∧ r.entryId = en'.entryId ∧
      ∀ ctx, s.notifyCtx = some ctx → ctx ∈ r.notifyCtxs) ∨
    unsignalled σ i = some (tp, en'.entryId) := by
  obtain ⟨hmem, hlater, hdeliver⟩ := mem_undelivered.mp hen'
  obtain ⟨p', hp', hlive, hlocal, hallowed⟩ := isEntryDeliverable_iff.mp hdeliver
  obtain ⟨hp', hid'⟩ := HTable.mem_of_lookup hp'
  have hc := hr.wellFormed.store tp
  rcases entry_origin_step hr hmem with ⟨en, hen, hentry⟩ | ⟨p, hp, addr, hA, hnew, hpub, _⟩
  · -- the publisher is the one that the entry had
    obtain ⟨p, hp, hid⟩ := hc.publisher en hen
    have hpub := publisher_before hr i hp hp' (by rw [hid', hentry.publisherId_eq, hid])
    obtain ⟨hlive, hlocal, hallowed⟩ :=
      accepted_before hr hreg hp hpub hsame hlive hlocal hallowed
    refine .inl ⟨en, mem_undelivered.mpr ⟨hen, ?_, ?_⟩, hentry.entryId_eq.symm⟩
    · rw [← hentry.entryId_eq]
      exact (watermark_le_step hr i hs hs' hsame.id_eq).trans_lt hlater
    · refine isEntryDeliverable_iff.mpr ⟨p, ?_, hlive, hlocal, hallowed⟩
      exact (HTable.lookup_eq_some_iff hc.pubs_nodup).mpr ⟨hp, hid⟩
  · have hpub := publisher_before hr i hp hp' (hid'.trans hpub)
    obtain ⟨_, hlocal, hallowed⟩ := accepted_before hr hreg hp hpub hsame hlive hlocal hallowed
    exact .inr (published_signals hr hA hp hs hlocal hallowed hmem hnew)

/-! ## A new subscriber -/

/-- **A subscriber that is added with an eventfd** is found by its process and has the context;
a volatile one has nothing undelivered. -/
theorem addSubscriber_ok (hr : Reachable σ) {env : Env} {topicName : Name} {ipcNs : IpcNs}
    {args : SubscriberArgs} {fd id : Int} {ctx : EventfdCtx} (htake : args.isTakeSub = false)
    (hfd : env.eventfdGet fd = .ok ctx)
    (hok : addSubscriber σ env topicName ipcNs args fd = (.ok id, σ')) :
    ∃ w s, findTopicForCurrent σ' args.pid topicName ipcNs = some w ∧
      s ∈ (σ'.topicStructs w.topic).subInfoHtable ∧ s.id = id ∧ s.pid = args.pid ∧
      s.domainId = w.domainId ∧ s.notifyCtx = some ctx ∧
      (args.qosIsTransientLocal = false → undelivered σ' (σ'.topicStructs w.topic) s = []) := by
  -- the call registers no process, so the domain of the caller stays
  have hprocs : σ'.procInfoHtable = σ.procInfoHtable := by
    have hstep : (step σ ⟨env, .addSubscriber topicName ipcNs args fd⟩).2 = σ' :=
      congrArg Prod.snd hok
    exact hstep ▸ (step_sameWorld (i := ⟨env, .addSubscriber topicName ipcNs args fd⟩) rfl).procs
  have hmoves := addTopic_moves (σ := σ) (A := fun _ _ => False) env
    ⟨topicName, ipcNs, getProcessDomainId σ args.pid⟩
  unfold addSubscriber at hok
  simp only [htake, Bool.false_eq_true, if_false, hfd, Except.map] at hok
  cases hadd : addTopic σ env ⟨topicName, ipcNs, getProcessDomainId σ args.pid⟩ with
  | mk ret σ₁ =>
    rw [hadd] at hok hmoves
    cases ret with
    | error e => cases (Prod.mk.inj hok).1
    | ok w =>
      obtain ⟨hmoves, hw⟩ := hmoves
      obtain ⟨hw, hcell⟩ := hw w rfl
      have hwf := hr.wellFormed.moves hmoves
      simp only at hok
      rcases insertSubscriberInfo_cases (σ := σ₁) env (σ₁.topicStructs w.topic) w.domainId args
        (some ctx) with ⟨e, pubs, _, hins⟩ | ⟨pubs, _, _, _, _, hins⟩ <;> rw [hins] at hok
      · cases (Prod.mk.inj hok).1
      simp only [Option.isSome_some, if_true] at hok
      obtain ⟨hid, rfl⟩ := Prod.mk.inj hok
      refine ⟨w, newSubscriberInfo (σ₁.topicStructs w.topic) w.domainId args (some ctx), ?_⟩
      rw [Kmod.setTopic_self]
      refine ⟨?_, HTable.mem_hashAdd.mpr (.inl rfl), Except.ok.inj hid, rfl, rfl, rfl,
        fun hvol => ?_⟩
      -- it is found through the wrapper of its cell
      · unfold findTopicForCurrent getProcessDomainId findProcessInfo
        rw [hprocs]
        exact hcell ▸ HTable.lookup_self hwf.cells hw
      · -- its watermark is past every entry
        refine List.eq_nil_iff_forall_not_mem.mpr fun en hen => ?_
        obtain ⟨hmem, hlater, _⟩ := mem_undelivered.mp hen
        have hold := (hwf.store w.topic).entry_lt en hmem
        simp only [newSubscriberInfo, hvol, Bool.false_eq_true, if_false] at hlater
        exact lt_asymm hlater hold

/-! ## One RECEIVE_MSG -/

/-- No undelivered entry is newer than the last one. -/
private theorem undelivered_le_last {t : TopicStruct} (hc : t.Consistent []) {last : EntryNode}
    (hlast : (undelivered σ t s).getLast? = some last) {en : EntryNode}
    (hen : en ∈ undelivered σ t s) : en.entryId ≤ last.entryId := by
  have hsorted : (undelivered σ t s).Pairwise fun a b => a.entryId < b.entryId :=
    hc.sorted.sublist List.filter_sublist
  obtain ⟨init, heq⟩ := List.getLast?_eq_some_iff.mp hlast
  rw [heq] at hsorted hen
  rcases List.mem_append.mp hen with hen | hen
  · exact ((List.pairwise_append.mp hsorted).2.2 en hen last (by simp)).le
  · rw [List.mem_singleton.mp hen]

/-- **A RECEIVE_MSG that does not ask to be called again leaves nothing undelivered** for a
subscriber that can be given anything. -/
theorem receive_leaves_nothing (hr : Reachable σ) {env : Env} {current : Pid} {topicName : Name}
    {ipcNs : IpcNs} {id : Int} {size : Nat} {reply : ReceivedEntries}
    {infos : List PublisherShmInfo} {w : TopicWrapper}
    (hok : receiveMsg σ env current topicName ipcNs id size = (.ok (reply, infos), σ'))
    (hagain : reply.callAgain = false)
    (hw : findTopicForCurrent σ current topicName ipcNs = some w)
    (hs' : s' ∈ (σ'.topicStructs w.topic).subInfoHtable) (hid : s'.id = id)
    (hdepth : 0 < s'.qosDepth) : undelivered σ' (σ'.topicStructs w.topic) s' = [] := by
  obtain ⟨w', s, s₁, batch, hw', hs, hs₁, hbatch, rfl, hsame, hlatest, _⟩ :=
    receiveMsg_ok hr.wellFormed hok
  obtain rfl : w = w' := Option.some.inj (hw.symm.trans hw')
  obtain ⟨hmem, rfl⟩ := HTable.mem_of_lookup hs
  set i : Input := ⟨env, .receiveMsg current topicName ipcNs s.id size⟩ with hi
  obtain rfl : (step σ i).2 = σ' := congrArg Prod.snd hok
  have hc' := (hr.wellFormed.step i).store w.topic
  obtain rfl : s' = s₁ :=
    HTable.eq_of_key_eq hc'.subs_nodup hs' (HTable.mem_of_lookup hs₁).1
      (hid.trans hsame.id_eq.symm)
  rw [List.take_of_length_le (by simpa using hagain)] at hbatch
  refine List.eq_nil_iff_forall_not_mem.mpr fun en' hen' => ?_
  have hbefore := undelivered_step hr (fun _ _ _ _ h => by cases h) hmem hs' hsame hen'
  obtain ⟨en, hen, hentry⟩ := hbefore.resolve_right (by rintro (⟨_, h, _⟩ | h) <;> cases h)
  -- it was undelivered before, so it is not past the last entry of the batch
  have hdepth : 0 < s.qosDepth := by
    have : s'.qosDepth = s.qosDepth := by rw [hsame]
    rwa [this] at hdepth
  obtain ⟨last, hlast⟩ := Option.ne_none_iff_exists'.mp
    (mt List.getLast?_eq_none_iff.mp (List.ne_nil_of_mem hen))
  have hnewest : batch.getLast? = some last := by
    rw [hbatch, pending, List.rtake, List.getLast?_drop, if_neg, hlast]
    have := List.length_pos_of_mem hen
    omega
  have hle := undelivered_le_last (hr.wellFormed.store w.topic) hlast hen
  have hlater := (mem_undelivered.mp hen').2.1
  rw [hlatest, hnewest, ← hentry] at hlater
  exact absurd hlater (not_lt.mpr hle)

end Agnocast
