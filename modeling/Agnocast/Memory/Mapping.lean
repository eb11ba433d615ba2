import Agnocast.Delivery.ExitedPublisher

/-!
# The memory pools — mapping precedes delivery

A subscriber may only be handed an entry whose pool its process has mapped. The flag
`need_mmap_update` is kept per subscriber, the mapping per process and pool, and the
address is told in whichever reply comes first; `set_publisher_shm_info` goes by the domain
of the caller, the delivery filter by that of the subscriber.

* `unflagged_mapped`  — a subscriber without the flag has every pool mapped that it can be
  handed an entry from.
* `told`              — the pools that the replies to a process have named.
* `mapping_precedes_delivery` — in a run in which every process fetches for its own
  subscribers.
* `foreign_fetch_unmapped`    — a process of the other domain of a rule fetches for a
  subscriber, and the pool of its publisher is not mapped.
-/

namespace Agnocast

open Relation

variable {σ : Kmod} {t t' : TopicStruct} {i : Input} {tp : Nat}

/-! ## The domains -/

/-- A move keeps the rule of a topic that exists. -/
private theorem Move.rule_eq {A : Nat → Action → Prop} {σ' : Kmod} (hwf : σ.WellFormed)
    (hm : Move A σ σ') (htp : tp < σ.nextTopicPtr) :
    (σ'.topicStructs tp).rule = (σ.topicStructs tp).rule := by
  refine hm.topicStruct (P := fun t => t.rule = (σ.topicStructs tp).rule) hwf tp rfl ?_ ?_ ?_
  · exact fun w _ _ t' hmoves => (hmoves.sameOwner (hwf.store tp)).2
  · exact fun _ _ _ _ => rfl
  · exact fun _ hnew _ => absurd htp (by rw [hnew]; exact lt_irrefl _)

private theorem Moves.rule_eq {A : Nat → Action → Prop} {σ' : Kmod} (hwf : σ.WellFormed)
    (htp : tp < σ.nextTopicPtr) (hm : Moves A σ σ') :
    (σ'.topicStructs tp).rule = (σ.topicStructs tp).rule := by
  suffices hall : σ'.WellFormed ∧ tp < σ'.nextTopicPtr ∧
      (σ'.topicStructs tp).rule = (σ.topicStructs tp).rule from hall.2.2
  induction hm with
  | refl => exact ⟨hwf, htp, rfl⟩
  | tail _ hm ih =>
    obtain ⟨hwf', htp', hrule⟩ := ih
    exact ⟨hwf'.move hm, htp'.trans_le hm.nextTopicPtr_le, (hm.rule_eq hwf' htp').trans hrule⟩

/-- **What the domains of a topic deliver to each other** is the same after a step, as long
as the topic has a publisher. -/
theorem domainDeliveryAllowed_step (hr : Reachable σ) (i : Input) {p : PublisherInfo}
    (hp : p ∈ (σ.topicStructs tp).pubInfoHtable) :
    domainDeliveryAllowed (step σ i).2 ((step σ i).2.topicStructs tp) =
      domainDeliveryAllowed σ (σ.topicStructs tp) := by
  have hcongr : ∀ σ' : Kmod, (σ'.topicStructs tp).rule = (σ.topicStructs tp).rule →
      (∀ r, (σ.topicStructs tp).rule = some r → σ'.domainRules r = σ.domainRules r) →
      domainDeliveryAllowed σ' (σ'.topicStructs tp) = domainDeliveryAllowed σ (σ.topicStructs tp) := by
    intro σ' hrule hrules
    funext pubDomain pubIsBridge subDomain subIsBridge
    unfold domainDeliveryAllowed
    rw [hrule]
    cases hcached : (σ.topicStructs tp).rule with
    | none => rfl
    | some r => simp only [hrules r hcached]
  rcases step_moves hr.wellFormed i with hchange | hm
  · refine hcongr _ (by rw [hchange.topicStructs]) fun r hrule => ?_
    exact hchange.keeps_cached hr.wellFormed hr.grouped hp hrule
  · have htp : tp < σ.nextTopicPtr := by
      by_contra hge
      rw [hr.fresh tp (not_lt.mp hge)] at hp
      cases hp
    exact hcongr _ (hm.rule_eq hr.wellFormed htp) fun r _ => congrFun hm.sameRules.domainRules r

/-! ## The report of a receive or take -/

/-- What reporting the pools comes to: nothing to do, a failure, or a report that clears the
subscriber's flag. -/
theorem reportPublisherShm_cases {env : Env} {w : TopicWrapper} {s : SubscriberInfo} {size : Nat}
    {ret : Except Errno (List PublisherShmInfo)} {m : MemoryAllocator}
    (h : reportPublisherShm σ env w t s size = (ret, t', m)) :
    (s.needMmapUpdate = false ∧ ret = .ok [] ∧ t' = t ∧ m = σ.mem) ∨
    (s.needMmapUpdate = true ∧ ∃ pools, Reported σ t w.domainId s.pid s.isBridge t.pubInfoHtable []
      σ.mem (ret, m) pools ∧
        ((∃ e, ret = .error e ∧ t' = t) ∨ (∃ infos, ret = .ok infos ∧
          t' = t.modifySubscriber s.id fun s => { s with needMmapUpdate := false }))) := by
  unfold reportPublisherShm at h
  split at h
  next hflag =>
    obtain ⟨rfl, hrest⟩ := Prod.mk.inj h
    obtain ⟨rfl, rfl⟩ := Prod.mk.inj hrest
    exact .inl ⟨by simpa using hflag, rfl, rfl, rfl⟩
  next hflag =>
    obtain ⟨pools, hspec⟩ := @setPublisherShmInfo_spec σ t s.pid w.domainId size s.isBridge env
      t.pubInfoHtable [] σ.mem
    refine .inr ⟨by simpa using hflag, pools, ?_⟩
    generalize setPublisherShmInfo σ env t w.domainId s.pid s.isBridge size t.pubInfoHtable []
      σ.mem = r at h hspec
    obtain ⟨ret', m'⟩ := r
    cases ret' with
    | error e =>
      obtain ⟨rfl, hrest⟩ := Prod.mk.inj h
      obtain ⟨rfl, rfl⟩ := Prod.mk.inj hrest
      exact ⟨hspec, .inl ⟨e, rfl, rfl⟩⟩
    | ok infos =>
      obtain ⟨rfl, hrest⟩ := Prod.mk.inj h
      obtain ⟨rfl, rfl⟩ := Prod.mk.inj hrest
      exact ⟨hspec, .inr ⟨infos, rfl, rfl⟩⟩

/-- Handing out entries leaves the owner, the publishers and the flags alone. -/
theorem TopicStruct.handOut_frame (t : TopicStruct) (b : Int) (ids : List Int) :
    (t.handOut b ids).rule = t.rule ∧ (t.handOut b ids).pubInfoHtable = t.pubInfoHtable ∧
      ∀ s' ∈ (t.handOut b ids).subInfoHtable, ∃ s ∈ t.subInfoHtable, SameSubscriber s s' ∧
        s'.needMmapUpdate = s.needMmapUpdate := by
  unfold TopicStruct.handOut
  split
  · exact ⟨rfl, rfl, fun s hs => ⟨s, hs, .refl s, rfl⟩⟩
  · refine ⟨rfl, rfl, fun s' hs' => ?_⟩
    obtain ⟨s, hs, rfl⟩ := HTable.mem_modify.mp hs'
    refine ⟨s, hs, ?_⟩
    split
    · exact ⟨rfl, rfl⟩
    · exact ⟨.refl s, rfl⟩

namespace Fetched

variable {w : TopicWrapper} {s : SubscriberInfo} {batch : List EntryNode}
  {ret : Except Errno (List PublisherShmInfo)} {m : MemoryAllocator}

/-- **What a receive or take does to the pools**: it maps new ones for the subscriber's
process, and a success names exactly these, and leaves none out if the flag was set. -/
theorem report (hf : Fetched σ i w s batch ret t' m) : ∃ pools : List Nat, pools.Nodup ∧
    (∀ k ∈ pools, s.pid ∉ σ.mem.mapped k) ∧ m = σ.mem.mapPools s.pid pools ∧
    ∀ infos, ret = .ok infos →
      infos.map PublisherShmInfo.shmAddr = (pools.map fun k => (σ.mem.mempoolEntries k).addr) ∧
      (s.needMmapUpdate = true → ∀ p ∈ (σ.topicStructs w.topic).pubInfoHtable, ∀ k,
        reportPool σ (σ.topicStructs w.topic) w.domainId s.pid s.isBridge p = some k →
          s.pid ∈ m.mapped k) := by
  obtain ⟨size, hr⟩ := hf.reported
  obtain ⟨hrule, hpubs, _⟩ := (σ.topicStructs w.topic).handOut_frame s.id
    (batch.map EntryNode.entryId)
  rcases reportPublisherShm_cases hr with ⟨hflag, rfl, _, rfl⟩ | ⟨_, pools, hspec, _⟩
  · refine ⟨[], List.nodup_nil, by simp, by simp, fun infos hinfos => ?_⟩
    cases hinfos
    exact ⟨rfl, fun hset => by rw [hflag] at hset; cases hset⟩
  · refine ⟨pools, hspec.nodup, hspec.fresh, hspec.mem, fun infos hinfos => ?_⟩
    refine ⟨by simpa using hspec.named infos hinfos, fun _ p hp k hk => ?_⟩
    refine hspec.complete infos hinfos p (hpubs ▸ hp) k ?_
    rw [reportPool_congr hrule]
    exact hk

/-- A subscriber without the flag had none before, or it is the one that a successful report
was made to. -/
theorem unflagged (hf : Fetched σ i w s batch ret t' m) (hwf : σ.WellFormed)
    {s' : SubscriberInfo} (hs' : s' ∈ t'.subInfoHtable) (hflag : s'.needMmapUpdate = false) :
    ∃ s₀ ∈ (σ.topicStructs w.topic).subInfoHtable, SameSubscriber s₀ s' ∧
      (s₀.needMmapUpdate = false ∨ (s₀ = s ∧ ∃ infos, ret = .ok infos)) := by
  obtain ⟨size, hr⟩ := hf.reported
  obtain ⟨_, _, hsubs⟩ := (σ.topicStructs w.topic).handOut_frame s.id (batch.map EntryNode.entryId)
  have hquiet : s' ∈ ((σ.topicStructs w.topic).handOut s.id
      (batch.map EntryNode.entryId)).subInfoHtable → ∃ s₀ ∈ (σ.topicStructs w.topic).subInfoHtable,
      SameSubscriber s₀ s' ∧ (s₀.needMmapUpdate = false ∨ (s₀ = s ∧ ∃ infos, ret = .ok infos)) := by
    intro hs'
    obtain ⟨s₀, hs₀, hsame, heq⟩ := hsubs s' hs'
    exact ⟨s₀, hs₀, hsame, .inl (heq ▸ hflag)⟩
  rcases reportPublisherShm_cases hr with ⟨_, _, rfl, _⟩ | ⟨_, _, _, ⟨_, _, rfl⟩ | ⟨infos, hok, rfl⟩⟩
  · exact hquiet hs'
  · exact hquiet hs'
  · obtain ⟨s₁, hs₁, rfl⟩ := HTable.mem_modify.mp hs'
    split at hflag
    next hid =>
      rw [if_pos hid]
      obtain ⟨s₀, hs₀, hsame, _⟩ := hsubs s₁ hs₁
      have hself : s₀ = s := HTable.eq_of_key_eq (hwf.store w.topic).subs_nodup hs₀ hf.subscriber
        (hsame.id_eq.symm.trans hid)
      exact ⟨s₀, hs₀, hsame.trans rfl, .inr ⟨hself, infos, hok⟩⟩
    next hid =>
      rw [if_neg hid] at hs' ⊢
      obtain ⟨s₀, hs₀, hsame, heq⟩ := hsubs s₁ hs₁
      exact ⟨s₀, hs₀, hsame, .inl (heq ▸ hflag)⟩

end Fetched

/-! ## One step of a topic -/

/-- **Where the flag goes**: no call but a receive or take clears it. -/
theorem TopicStep.unflagged (hstep : TopicStep σ i tp t t') (hc : t.Consistent [])
    (hfetch : i.call.isFetch = false) {s' : SubscriberInfo} (hs' : s' ∈ t'.subInfoHtable)
    (hflag : s'.needMmapUpdate = false) : s' ∈ t.subInfoHtable := by
  cases hstep with
  | same => exact hs'
  | @addSubscriber topicName ipcNs args eventfd hcall σ₁ ctx =>
    rcases insertSubscriberInfo_subs (σ := σ₁) i.env t (getProcessDomainId σ args.pid) args ctx
      with heq | heq <;> rw [heq] at hs'
    · exact hs'
    · -- a new subscriber starts with the flag
      rcases HTable.mem_hashAdd.mp hs' with rfl | hs'
      · cases hflag
      · exact hs'
  | @addPublisher topicName ipcNs args hcall σ₁ =>
    rcases insertPublisherInfo_cases (σ := σ₁) i.env t (getProcessDomainId σ args.pid) args with
      ⟨e, heq⟩ | ⟨e, _, heq⟩ | ⟨capacity, _, _, heq⟩ <;> rw [heq] at hs'
    · exact hs'
    · exact hs'
    · -- every subscriber is asked to map the new publisher's pool
      obtain ⟨s, _, rfl⟩ := List.mem_map.mp hs'
      cases hflag
  | @publishMsg p hp addr hA =>
    rcases publishMsgCore_cases hc hp i.env addr with ⟨e, heq⟩ | ⟨r, _, ⟨e, heq⟩ | heq⟩ <;>
      rw [heq] at hs' <;> exact hs'
  | fetchMsg _ hcall =>
    rw [hfetch] at hcall
    cases hcall
  | releaseReference => exact hs'
  | @removeSubscriber s hs hA =>
    have hs' : s' ∈ (unlinkSubscriberInfo σ t s).subInfoHtable := hs'
    -- a removal and an exit take subscribers out, and change no flag
    rw [(unlinkSubscriberInfo_frame t s).2.1] at hs'
    exact (HTable.mem_hashDel.mp hs').1
  | removePublisher => exact hs'
  | setRos2SubscriberNum => exact hs'
  | setRos2PublisherNum => exact hs'
  | @processExit pid p hcall hp σ₁ hprocs =>
    have hs' : s' ∈ (visitTopic σ₁ pid t).subInfoHtable := hs'
    rw [visitTopic_subs hc pid] at hs'
    exact (List.mem_filter.mp hs').1

/-- As long as a subscriber is left without the flag, no publisher has joined. -/
theorem TopicStep.unflagged_pubs (hstep : TopicStep σ i tp t t') (hwf : σ.WellFormed)
    (hc : t.Consistent []) {s' : SubscriberInfo} (hs' : s' ∈ t'.subInfoHtable)
    (hflag : s'.needMmapUpdate = false) {p' : PublisherInfo} (hp' : p' ∈ t'.pubInfoHtable) :
    ∃ p ∈ t.pubInfoHtable, SamePublisher p p' := by
  rcases hstep.pub_from hwf hc hp' with hold | ⟨topicName, ipcNs, args, hcall, _⟩
  · exact hold
  rcases hstep.of_adds (by rw [hcall]; rfl) with
    rfl | ⟨_, _, _, _, _, _, hcall', _⟩ | ⟨_, _, args', σ₁, _, rfl⟩
  · exact ⟨p', hp', .refl p'⟩
  · rw [hcall] at hcall'
    cases hcall'
  · rcases insertPublisherInfo_cases (σ := σ₁) i.env t (getProcessDomainId σ args'.pid) args' with
      ⟨e, heq⟩ | ⟨e, _, heq⟩ | ⟨capacity, _, _, heq⟩ <;> rw [heq] at hs' hp'
    · exact ⟨p', hp', .refl p'⟩
    · exact ⟨p', hp', .refl p'⟩
    · obtain ⟨s, _, rfl⟩ := List.mem_map.mp hs'
      cases hflag

/-! ## Orderly runs -/

/-- The caller's wrapper and the subscriber that a receive or a take finds. -/
private theorem fetchTarget_find {current : Pid} {topicName : Name} {ipcNs : IpcNs} {id : Int}
    (size : Nat) {w : TopicWrapper} {s : SubscriberInfo}
    (h : fetchTarget σ (.receiveMsg current topicName ipcNs id size) = some (w, s)) :
    findTopicForCurrent σ current topicName ipcNs = some w ∧
      findSubscriberInfo (σ.topicStructs w.topic) id = some s := by
  simp only [fetchTarget] at h
  split at h
  · cases h
  · next w' hw =>
    obtain ⟨s', hs, heq⟩ := Option.map_eq_some_iff.mp h
    obtain ⟨rfl, rfl⟩ := Prod.mk.inj heq
    exact ⟨hw, hs⟩

/-- The process that issues a receive or a take. -/
def Call.fetcher : Call → Option Pid
  | .receiveMsg current .. => some current
  | .takeMsg current .. => some current
  | _ => none

/-- The room for pool addresses that a receive or a take offers. -/
def Call.pubShmInfosSize : Call → Option Nat
  | .receiveMsg _ _ _ _ size => some size
  | .takeMsg _ _ _ _ _ size => some size
  | _ => none

/-- The process that a publisher is added for. -/
def Call.publisherPid : Call → Option Pid
  | .addPublisher _ _ args => some args.pid
  | _ => none

/-- The process that registers. -/
def Call.newPid : Call → Option Pid
  | .addProcess pid .. => some pid
  | _ => none

/-- Endpoints belong to registered processes: subscribers at any time, publishers when they
are added; and no process registers under a pid that a publisher still carries. -/
def EndpointsRegistered (σ : Kmod) (i : Input) : Prop :=
  (∀ tp < (step σ i).2.nextTopicPtr, ∀ s ∈ ((step σ i).2.topicStructs tp).subInfoHtable,
    (findProcessInfo (step σ i).2 s.pid).isSome) ∧
  (∀ pid ∈ i.call.publisherPid, (findProcessInfo σ pid).isSome) ∧
  ∀ pid ∈ i.call.newPid, ∀ tp < σ.nextTopicPtr, ∀ p ∈ (σ.topicStructs tp).pubInfoHtable,
    p.pid ≠ pid

instance (σ : Kmod) (i : Input) : Decidable (EndpointsRegistered σ i) :=
  inferInstanceAs (Decidable (_ ∧ _ ∧ _))

/-- The receives and takes succeed, and have room for every publisher of a topic. -/
def FetchSucceeds (σ : Kmod) (i : Input) : Prop :=
  ∀ size ∈ i.call.pubShmInfosSize, maxPublisherNum ≤ size ∧ (step σ i).1.isOk = true

instance (σ : Kmod) (i : Input) : Decidable (FetchSucceeds σ i) :=
  inferInstanceAs (Decidable (∀ size ∈ _, _))

/-- A process receives and takes for its own subscribers only. -/
def FetchesOwn (σ : Kmod) (i : Input) : Prop :=
  ∀ target ∈ fetchTarget σ i.call, i.call.fetcher = some target.2.pid

instance (σ : Kmod) (i : Input) : Decidable (FetchesOwn σ i) :=
  inferInstanceAs (Decidable (∀ target ∈ _, _))

/-- Receives and takes are issued from the domain of the subscriber. -/
def FetchesAtHome (σ : Kmod) (i : Input) : Prop :=
  ∀ target ∈ fetchTarget σ i.call, target.1.domainId = target.2.domainId

instance (σ : Kmod) (i : Input) : Decidable (FetchesAtHome σ i) :=
  inferInstanceAs (Decidable (∀ target ∈ _, _))

theorem FetchesAtHome.domain (hhome : FetchesAtHome σ i) {w : TopicWrapper} {s : SubscriberInfo}
    (htarget : fetchTarget σ i.call = some (w, s)) : w.domainId = s.domainId :=
  hhome (w, s) htarget

theorem EndpointsRegistered.subscriber (hr : Reachable σ) (hg : EndpointsRegistered σ i)
    {s : SubscriberInfo} (hs : s ∈ ((step σ i).2.topicStructs tp).subInfoHtable) :
    (findProcessInfo (step σ i).2 s.pid).isSome := by
  have hr' : Reachable (step σ i).2 := Transition.Reachable.step hr i
  refine hg.1 tp ?_ s hs
  by_contra hge
  rw [hr'.fresh tp (not_lt.mp hge)] at hs
  cases hs

theorem EndpointsRegistered.fresh_pid (hr : Reachable σ) (hg : EndpointsRegistered σ i) {pid : Pid}
    {ipcNs : IpcNs} {raw domainId : Nat} (hcall : i.call = .addProcess pid ipcNs raw domainId)
    {p : PublisherInfo} (hp : p ∈ (σ.topicStructs tp).pubInfoHtable) : p.pid ≠ pid := by
  refine hg.2.2 pid (by rw [hcall]; rfl) tp ?_ p hp
  by_contra hge
  rw [hr.fresh tp (not_lt.mp hge)] at hp
  cases hp

theorem FetchesOwn.fetcher (hown : FetchesOwn σ i) {w : TopicWrapper} {s : SubscriberInfo}
    (htarget : fetchTarget σ i.call = some (w, s)) : i.call.fetcher = some s.pid :=
  hown (w, s) htarget

/-- A receive or a take of an orderly run succeeds. -/
theorem FetchSucceeds.isOk (hok : FetchSucceeds σ i) (hfetch : i.call.isFetch = true) :
    (step σ i).1.isOk = true := by
  obtain ⟨env, call⟩ := i
  cases call with
  | receiveMsg _ _ _ _ size => exact (hok size rfl).2
  | takeMsg _ _ _ _ _ size => exact (hok size rfl).2
  | _ => cases hfetch

/-- Every subscriber is in the domain of its registered process. -/
def SubscribersAtHome (σ : Kmod) : Prop :=
  ∀ tp, ∀ s ∈ (σ.topicStructs tp).subInfoHtable, ∃ q, findProcessInfo σ s.pid = some q ∧
    q.domainId = s.domainId

theorem SubscribersAtHome.step (hr : Reachable σ) (h : SubscribersAtHome σ)
    (hg : EndpointsRegistered σ i) : SubscribersAtHome (Agnocast.step σ i).2 := by
  intro tp s' hs'
  obtain ⟨t, t', hbefore, hstep, hafter⟩ := step_topicStep hr i tp
  obtain ⟨q', hq'⟩ := Option.isSome_iff_exists.mp (hg.subscriber hr hs')
  refine ⟨q', hq', ?_⟩
  rcases hstep.sub_origin hr.wellFormed (hbefore.consistent (hr.wellFormed.store tp))
    (hafter.subs ▸ hs') with ⟨s, hs, hsame⟩ | ⟨_, _, args, _, ctx, hcall, rfl⟩
  · -- the process of an old subscriber was registered, and is so still
    obtain ⟨q, hq, hdom⟩ := h tp s (hbefore.subs ▸ hs)
    rw [hsame.pid_eq] at hq'
    rcases registration_origin hr hq' with ⟨q₀, hq₀, heq, _⟩ | ⟨_, _, _, _, _, _, _, hnone, _⟩
    · obtain rfl := Option.some.inj (hq.symm.trans hq₀)
      rw [heq, hsame.domainId_eq]
      exact hdom
    · rw [hq] at hnone
      cases hnone
  · rcases registration_origin hr hq' with ⟨q₀, hq₀, heq, _⟩ | ⟨_, _, _, _, _, hcall', _⟩
    · have hq₀ : findProcessInfo σ args.pid = some q₀ := hq₀
      show q'.domainId = getProcessDomainId σ args.pid
      unfold getProcessDomainId
      rw [heq, hq₀]
    · rw [hcall] at hcall'
      cases hcall'

/-- **Who fetches for itself fetches in its own domain.** -/
theorem SubscribersAtHome.fetches (h : SubscribersAtHome σ) (hown : FetchesOwn σ i) :
    FetchesAtHome σ i := by
  rintro ⟨w, s⟩ htarget
  have htarget : fetchTarget σ i.call = some (w, s) := htarget
  have hfetcher := hown.fetcher htarget
  have hkey : ∀ {current topicName ipcNs id}, i.call.fetcher = some current →
      findTopicForCurrent σ current topicName ipcNs = some w →
      findSubscriberInfo (σ.topicStructs w.topic) id = some s → w.domainId = s.domainId := by
    intro current topicName ipcNs id hcurrent hw hs
    obtain ⟨q, hq, hdom⟩ := h w.topic s (HTable.mem_of_lookup hs).1
    obtain rfl := Option.some.inj (hcurrent.symm.trans hfetcher)
    rw [(findTopicForCurrent_mem hw).2]
    unfold getProcessDomainId
    rw [hq]
    exact hdom
  obtain ⟨env, call⟩ := i
  cases call with
  | receiveMsg current topicName ipcNs id size =>
    obtain ⟨hw, hs⟩ := fetchTarget_find size htarget
    exact hkey rfl hw hs
  | takeMsg current topicName ipcNs id allow size =>
    obtain ⟨hw, hs⟩ := fetchTarget_find size htarget
    exact hkey rfl hw hs
  | _ => cases htarget

/-! ## Mappings that last -/

/-- The event ends every mapping of `pid`: the exit cleanup of its registration, or its
deregistration as an idle unlink daemon. -/
def ends (pid : Pid) (ev : Event) : Bool :=
  (findProcessInfo ev.pre pid).isSome &&
    match ev.input.call with
    | .processExitCleanup q => q == pid
    | .commitExitProcess _ globalPid callerPid =>
      decide (globalPid < 0) && callerPid == pid &&
        (findProcessInfo (step ev.pre ev.input).2 pid).isNone
    | _ => false

/-- A mapping lasts until its process ends. -/
theorem mapped_kept (hr : Reachable σ) {pid : Pid} {k : Nat} (hin : pid ∈ σ.mem.mapped k)
    (hkeep : ends pid (eventOf σ i) = false) : pid ∈ (step σ i).2.mem.mapped k := by
  have hcounted := (reachable_poolsOk hr).counted
  have hchange := step_procs hr.wellFormed i
  unfold ends eventOf findProcessInfo at hkeep
  generalize (step σ i).2.procInfoHtable = procs at hchange hkeep
  generalize (step σ i).2.mem = m at hchange ⊢
  cases hchange with
  | same | drained | demoted => exact hin
  | registered => exact MemoryAllocator.mem_mapped_mapPools.mpr (.inl hin)
  | @exited q p hcall hp =>
    refine (mem_mapped_freeMemory hcounted).mpr ⟨hin, fun _ heq => ?_⟩
    subst heq
    have hp : HTable.lookup ProcessInfo.globalPid pid σ.procInfoHtable = some p := hp
    simp [hcall, hp] at hkeep
  | @deregistered ipcNs globalPid callerPid p hcall hg hlast hp hrole =>
    refine (mem_mapped_freeMemory hcounted).mpr ⟨hin, fun _ heq => ?_⟩
    subst heq
    have hp : HTable.lookup ProcessInfo.globalPid pid σ.procInfoHtable = some p := hp
    simp [hcall, hp, hg, HTable.lookup_hashDel_self] at hkeep
  | reported _ hmaps =>
    obtain ⟨pools, _, _, _, rfl⟩ := hmaps
    exact MemoryAllocator.mem_mapped_mapPools.mpr (.inl hin)

/-- A process that ends maps nothing any more. -/
theorem unmapped_of_ends (hr : Reachable σ) {pid : Pid} (hends : ends pid (eventOf σ i) = true)
    {k : Nat} (hk : k < σ.mem.mempoolNum) : pid ∉ (step σ i).2.mem.mapped k := by
  have hcounted := (reachable_poolsOk hr).counted
  have hfreed : (step σ i).2.mem = freeMemory pid σ.mem → pid ∉ (step σ i).2.mem.mapped k := by
    intro hmem hin
    rw [hmem] at hin
    exact ((mem_mapped_freeMemory hcounted).mp hin).2 hk rfl
  obtain ⟨env, call⟩ := i
  unfold ends eventOf at hends
  obtain ⟨hregistered, hcall⟩ := Bool.and_eq_true_iff.mp hends
  obtain ⟨p, hp⟩ := Option.isSome_iff_exists.mp hregistered
  cases call with
  | processExitCleanup q =>
    obtain rfl : q = pid := by simpa using hcall
    exact hfreed (processExitCleanup_world hp).2.1
  | commitExitProcess ipcNs globalPid callerPid =>
    obtain ⟨⟨hg, rfl⟩, hgone⟩ : (globalPid < 0 ∧ callerPid = pid) ∧
        findProcessInfo (step σ ⟨env, .commitExitProcess ipcNs globalPid callerPid⟩).2 pid =
          none := by
      simpa using hcall
    have hafter : (step σ ⟨env, .commitExitProcess ipcNs globalPid callerPid⟩).2 =
      (commitExitProcess σ ipcNs globalPid callerPid).2 := rfl
    rw [hafter] at hgone hfreed ⊢
    rcases commitExitProcess_cases (σ := σ) ipcNs globalPid callerPid with
      ⟨hge, _⟩ | ⟨_, _, _, _, _, _, heq⟩ | ⟨_, heq⟩
    · exact absurd hge (not_le.mpr hg)
    · exact hfreed (by rw [heq]; rfl)
    · rw [heq, hp] at hgone
      cases hgone
  | _ => cases hcall

/-- A process that has a subscriber left has not ended. -/
theorem ends_eq_false (hr : Reachable σ) (hg : EndpointsRegistered σ i) {s : SubscriberInfo}
    (hs : s ∈ ((step σ i).2.topicStructs tp).subInfoHtable) :
    ends s.pid (eventOf σ i) = false := by
  rw [Bool.eq_false_iff]
  intro hends
  obtain ⟨q, hq⟩ := Option.isSome_iff_exists.mp (hg.subscriber hr hs)
  obtain ⟨env, call⟩ := i
  unfold ends eventOf at hends
  obtain ⟨hregistered, hcall⟩ := Bool.and_eq_true_iff.mp hends
  obtain ⟨p, hp⟩ := Option.isSome_iff_exists.mp hregistered
  cases call with
  | processExitCleanup pid =>
    obtain rfl : pid = s.pid := by simpa using hcall
    exact (exit_subs hr hp tp s hs).2 rfl
  | commitExitProcess ipcNs globalPid callerPid =>
    simp [hq] at hcall
  | _ => cases hcall

/-! ## Subscribers without the flag -/

/-- A subscriber without the flag has every pool mapped that it can be handed an entry
from. -/
def UnflaggedMapped (σ : Kmod) : Prop :=
  ∀ tp, ∀ s ∈ (σ.topicStructs tp).subInfoHtable, s.needMmapUpdate = false →
    ∀ p ∈ (σ.topicStructs tp).pubInfoHtable, ∀ k,
      reportPool σ (σ.topicStructs tp) s.domainId s.pid s.isBridge p = some k →
        s.pid ∈ σ.mem.mapped k

/-- What a publisher makes a subscriber map is what it made it map before the step, if both
were in the topic then. -/
private theorem reportPool_before (hr : Reachable σ) (hg : EndpointsRegistered σ i)
    {p p' : PublisherInfo} (hp : p ∈ (σ.topicStructs tp).pubInfoHtable) (hpub : SamePublisher p p')
    {s s' : SubscriberInfo} (hsub : SameSubscriber s s') {k : Nat}
    (hk : reportPool (step σ i).2 ((step σ i).2.topicStructs tp) s'.domainId s'.pid s'.isBridge p' =
      some k) :
    reportPool σ (σ.topicStructs tp) s.domainId s.pid s.isBridge p = some k := by
  obtain ⟨hne, hallowed, q', hq', hlive, hpool⟩ := reportPool_eq_some.mp hk
  rw [domainDeliveryAllowed_step hr i hp] at hallowed
  rw [hpub.pid_eq] at hne hq'
  rw [hsub.pid_eq] at hne
  rw [hpub.domainId_eq, hpub.isBridge_eq, hsub.domainId_eq, hsub.isBridge_eq] at hallowed
  -- nobody takes the pid of a publisher, so its process had the pool before
  rcases registration_origin hr hq' with ⟨q, hq, heq, _, hmark⟩ | ⟨_, _, _, _, _, hcall, _⟩
  · rw [heq] at hpool
    exact reportPool_eq_some.mpr ⟨hne, hallowed, q, hq, hmark hlive, hpool⟩
  · exact absurd rfl (hg.fresh_pid hr hcall hp)

/-- **What a receive or take leaves mapped**: a subscriber without the flag has the pools
mapped, by an earlier report or by this one. -/
private theorem Fetched.unflagged_mapped (hr : Reachable σ) (h : UnflaggedMapped σ)
    {w : TopicWrapper} {s : SubscriberInfo} {batch : List EntryNode}
    {ret : Except Errno (List PublisherShmInfo)} {m : MemoryAllocator}
    (hf : Fetched σ i w s batch ret t' m) (hdomain : w.domainId = s.domainId)
    {s' : SubscriberInfo} (hs' : s' ∈ t'.subInfoHtable) (hflag : s'.needMmapUpdate = false) :
    ∃ s₀ ∈ (σ.topicStructs w.topic).subInfoHtable, SameSubscriber s₀ s' ∧
      ∀ p ∈ (σ.topicStructs w.topic).pubInfoHtable, ∀ k,
        reportPool σ (σ.topicStructs w.topic) s₀.domainId s₀.pid s₀.isBridge p = some k →
          s₀.pid ∈ m.mapped k := by
  obtain ⟨pools, _, _, rfl, hcomplete⟩ := hf.report
  obtain ⟨s₀, hs₀, hsame, hclear | ⟨rfl, infos, rfl⟩⟩ := hf.unflagged hr.wellFormed hs' hflag
  · refine ⟨s₀, hs₀, hsame, fun p hp k hk => ?_⟩
    exact MemoryAllocator.mem_mapped_mapPools.mpr (.inl (h _ s₀ hs₀ hclear p hp k hk))
  · refine ⟨s₀, hs₀, hsame, fun p hp k hk => ?_⟩
    cases hset : s₀.needMmapUpdate with
    | false => exact MemoryAllocator.mem_mapped_mapPools.mpr (.inl (h _ s₀ hs₀ hset p hp k hk))
    | true => exact (hcomplete infos rfl).2 hset p hp k (hdomain ▸ hk)

/-- **The step** keeps it: the flag comes back whenever a publisher joins, and a report maps
what it clears the flag for. -/
theorem UnflaggedMapped.step (hr : Reachable σ) (h : UnflaggedMapped σ)
    (hg : EndpointsRegistered σ i) (hhome : FetchesAtHome σ i) : UnflaggedMapped (Agnocast.step σ i).2 := by
  intro tp s' hs' hflag p' hp' k hk
  obtain ⟨t, t', hbefore, hstep, hafter⟩ := step_topicStep hr i tp
  have hwf := hr.wellFormed
  have hc := hbefore.consistent (hwf.store tp)
  have hends := ends_eq_false hr hg hs'
  -- a subscriber that had the flag cleared before
  have hold : ∀ s ∈ (σ.topicStructs tp).subInfoHtable, SameSubscriber s s' →
      s.needMmapUpdate = false → s'.pid ∈ (Agnocast.step σ i).2.mem.mapped k := by
    intro s hs hsame hclear
    obtain ⟨p, hp, hpub⟩ := hstep.unflagged_pubs hwf hc (hafter.subs ▸ hs') hflag (hafter.pubs ▸ hp')
    have hp : p ∈ (σ.topicStructs tp).pubInfoHtable := hbefore.pubs ▸ hp
    refine mapped_kept hr ?_ hends
    rw [hsame.pid_eq]
    exact h tp s hs hclear p hp k (reportPool_before hr hg hp hpub hsame hk)
  by_cases hfetch : i.call.isFetch = false
  · have hs := hstep.unflagged hc hfetch (hafter.subs ▸ hs') hflag
    exact hold s' (hbefore.subs ▸ hs) (.refl s') hflag
  have hfetch : i.call.isFetch = true := by simpa using hfetch
  cases htarget : fetchTarget σ i.call with
  | none =>
    have hsame := (fetch_refused hwf i hfetch htarget).1
    rw [hsame] at hs'
    exact hold s' hs' (.refl s') hflag
  | some target =>
    obtain ⟨w, s⟩ := target
    obtain ⟨batch, ret, t₁, m, hf⟩ := fetch_cases hwf i htarget
    by_cases htp : tp = w.topic
    · subst htp
      have hs₁ : s' ∈ t₁.subInfoHtable := by rwa [hf.topic] at hs'
      obtain ⟨s₀, hs₀, hsame, hmapped⟩ :=
        hf.unflagged_mapped hr h (hhome.domain htarget) hs₁ hflag
      obtain ⟨p, hp, hpub⟩ :=
        hstep.unflagged_pubs hwf hc (hafter.subs ▸ hs') hflag (hafter.pubs ▸ hp')
      have hp : p ∈ (σ.topicStructs w.topic).pubInfoHtable := hbefore.pubs ▸ hp
      rw [hf.after, hsame.pid_eq]
      exact hmapped p hp k (reportPool_before hr hg hp hpub hsame hk)
    · rw [hf.after, Kmod.setMem_topicStructs, Kmod.setTopic_of_ne _ _ _ htp] at hs'
      exact hold s' hs' (.refl s') hflag

/-! ## What the replies have told -/

/-- The addresses in the reply to a receive or a take of process `pid`. -/
def toldBy (pid : Pid) (ev : Event) : List Nat :=
  if ev.input.call.fetcher = some pid then (shmInfos ev.output).map PublisherShmInfo.shmAddr
  else []

/-- The pool addresses that the replies to `pid` have named since it last ended. -/
def told (pid : Pid) : List Event → List Nat
  | [] => []
  | ev :: before => if ends pid ev then [] else toldBy pid ev ++ told pid before

private theorem fetchTarget_isFetch {w : TopicWrapper} {s : SubscriberInfo}
    (htarget : fetchTarget σ i.call = some (w, s)) : i.call.isFetch = true := by
  obtain ⟨env, call⟩ := i
  cases call with
  | receiveMsg => rfl
  | takeMsg => rfl
  | _ => cases htarget

/-- What a successful receive or take maps is what its reply names. -/
private theorem fetch_told (hr : Reachable σ) (hok : FetchSucceeds σ i) {w : TopicWrapper}
    {s : SubscriberInfo} (htarget : fetchTarget σ i.call = some (w, s)) :
    ∃ pools : List Nat, pools.Nodup ∧ (∀ k ∈ pools, s.pid ∉ σ.mem.mapped k) ∧
      (step σ i).2.mem = σ.mem.mapPools s.pid pools ∧
      (shmInfos (step σ i).1).map PublisherShmInfo.shmAddr =
        pools.map fun k => (σ.mem.mempoolEntries k).addr := by
  obtain ⟨batch, ret, t', m, hf, hanswer⟩ := fetch_answered hr.wellFormed i htarget
  obtain ⟨infos, rfl⟩ : ∃ infos, ret = .ok infos := by
    have hisOk := hok.isOk (fetchTarget_isFetch htarget)
    rw [hanswer] at hisOk
    cases ret with
    | error e => cases hisOk
    | ok infos => exact ⟨infos, rfl⟩
  obtain ⟨pools, hnodup, hfresh, rfl, hnamed⟩ := hf.report
  refine ⟨pools, hnodup, hfresh, by rw [hf.after]; rfl, ?_⟩
  rw [hf.infos]
  exact (hnamed infos rfl).1

/-- **What a reply tells a process**: nothing if no subscriber of it was served, else the pools
that were mapped for it. -/
private theorem toldBy_cases (hr : Reachable σ) (hok : FetchSucceeds σ i) (hown : FetchesOwn σ i)
    (pid : Pid) :
    (toldBy pid (eventOf σ i) = [] ∧ ∀ w s, fetchTarget σ i.call = some (w, s) → s.pid ≠ pid) ∨
    ∃ pools : List Nat, i.call.isFetch = true ∧ pools.Nodup ∧ (∀ k ∈ pools, pid ∉ σ.mem.mapped k) ∧
      (step σ i).2.mem = σ.mem.mapPools pid pools ∧
      toldBy pid (eventOf σ i) = pools.map fun k => (σ.mem.mempoolEntries k).addr := by
  unfold toldBy eventOf
  by_cases hfetcher : i.call.fetcher = some pid
  · rw [if_pos hfetcher]
    have hfetch : i.call.isFetch = true := by
      obtain ⟨env, call⟩ := i
      cases call with
      | receiveMsg => rfl
      | takeMsg => rfl
      | _ => cases hfetcher
    cases htarget : fetchTarget σ i.call with
    | none =>
      -- a refused call would have failed
      have hfail := (fetch_refused hr.wellFormed i hfetch htarget).2
      rw [hok.isOk hfetch] at hfail
      cases hfail
    | some target =>
      obtain ⟨w, s⟩ := target
      obtain rfl := Option.some.inj ((hown.fetcher htarget).symm.trans hfetcher)
      obtain ⟨pools, hrest⟩ := fetch_told hr hok htarget
      exact .inr ⟨pools, hfetch, hrest⟩
  · rw [if_neg hfetcher]
    refine .inl ⟨rfl, fun w s htarget heq => hfetcher ?_⟩
    rw [hown.fetcher htarget, heq]

/-- **Where a mapping comes from**: it was there, or the process registers with the pool, or
a receive or take for it maps the pool. -/
theorem mapped_origin (hr : Reachable σ) {pid : Pid} {k : Nat}
    (hin : pid ∈ (step σ i).2.mem.mapped k) :
    pid ∈ σ.mem.mapped k ∨
    (∃ q ∈ (step σ i).2.procInfoHtable, q.exited = false ∧ q.globalPid = pid ∧
      q.mempoolEntry = k) ∨
    ∃ w s, fetchTarget σ i.call = some (w, s) ∧ s.pid = pid := by
  have hcounted := (reachable_poolsOk hr).counted
  have hchange := step_procs hr.wellFormed i
  generalize (step σ i).2.procInfoHtable = procs at hchange ⊢
  generalize (step σ i).2.mem = m at hchange hin
  cases hchange with
  | same | drained | demoted => exact .inl hin
  | registered =>
    rcases MemoryAllocator.mem_mapped_mapPools.mp hin with hin | ⟨hk, rfl⟩
    · exact .inl hin
    · exact .inr (.inl ⟨_, HTable.mem_hashAdd.mpr (.inl rfl), rfl, rfl,
        (List.mem_singleton.mp hk).symm⟩)
  | exited | deregistered => exact .inl ((mem_mapped_freeMemory hcounted).mp hin).1
  | reported htarget hmaps =>
    obtain ⟨pools, _, _, _, rfl⟩ := hmaps
    rcases MemoryAllocator.mem_mapped_mapPools.mp hin with hin | ⟨_, rfl⟩
    · exact .inl hin
    · exact .inr (.inr ⟨_, _, htarget, rfl⟩)

/-- What a process has been told it maps, nothing twice, and of what it maps it has been told
all that other live processes own. -/
structure ToldOk (tr : List Event) (σ : Kmod) : Prop where
  nodup : ∀ pid, (told pid tr).Nodup
  mapped : ∀ pid, ∀ a ∈ told pid tr, ∃ k, (σ.mem.mempoolEntries k).addr = a ∧ pid ∈ σ.mem.mapped k
  others : ∀ pid, ∀ q ∈ σ.procInfoHtable, q.exited = false → q.globalPid ≠ pid →
    pid ∈ σ.mem.mapped q.mempoolEntry →
      (σ.mem.mempoolEntries q.mempoolEntry).addr ∈ told pid tr

/-- A pool that a live process owns and another process maps was so before, or it is mapped
for a subscriber of that process. -/
private theorem owned_before (hr : Reachable σ) {pid : Pid} {q : ProcessInfo}
    (hq : q ∈ (step σ i).2.procInfoHtable) (hlive : q.exited = false) (hne : q.globalPid ≠ pid)
    (hin : pid ∈ (step σ i).2.mem.mapped q.mempoolEntry)
    (hother : ∀ w s, fetchTarget σ i.call = some (w, s) → s.pid ≠ pid) :
    pid ∈ σ.mem.mapped q.mempoolEntry ∧ ∃ q₀ ∈ σ.procInfoHtable, q₀.exited = false ∧
      q₀.globalPid = q.globalPid ∧ q₀.mempoolEntry = q.mempoolEntry := by
  have hpools' := reachable_poolsOk (Transition.Reachable.step hr i)
  have hfind : findProcessInfo (step σ i).2 q.globalPid = some q :=
    (HTable.lookup_eq_some_iff hpools'.pids).mpr ⟨hq, rfl⟩
  have hbefore : pid ∈ σ.mem.mapped q.mempoolEntry := by
    rcases mapped_origin hr hin with hin | ⟨p, hp, hplive, hpid, hpool⟩ | ⟨w, s, htarget, hpid⟩
    · exact hin
    · have hsame := hpools'.distinct p hp q hq hplive hlive hpool
      exact absurd (hsame ▸ hpid) hne
    · exact absurd hpid (hother w s htarget)
  refine ⟨hbefore, ?_⟩
  rcases registration_origin hr hfind with ⟨q₀, hq₀, heq, _, hmark⟩ |
    ⟨_, _, _, _, pool, _, _, _, hfree, heq⟩
  · obtain ⟨hmem, hpid⟩ := findProcessInfo_mem hq₀
    exact ⟨q₀, hmem, hmark hlive, hpid, by rw [heq]⟩
  · -- nobody mapped the pool of a process that registers now
    have hpool : q.mempoolEntry = pool := by rw [heq]; rfl
    rw [hpool, (reachable_poolsOk hr).counted.unassigned hfree] at hbefore
    cases hbefore

/-- **The step** keeps what has been told in line with what is mapped. -/
theorem ToldOk.step {tr : List Event} (hr : Reachable σ) (h : ToldOk tr σ)
    (hok : FetchSucceeds σ i) (hown : FetchesOwn σ i) :
    ToldOk (eventOf σ i :: tr) (Agnocast.step σ i).2 := by
  have hpools := reachable_poolsOk hr
  obtain ⟨start, hlaid⟩ := hpools.laidOut
  obtain ⟨hnum, _, haddr⟩ := step_layout hr.wellFormed i
  refine ⟨fun pid => ?_, fun pid a ha => ?_, fun pid q hq hlive hne hin => ?_⟩
  · unfold told
    split
    · exact List.nodup_nil
    rcases toldBy_cases hr hok hown pid with ⟨hnil, _⟩ |
      ⟨pools, _, hnodup, hfresh, _, hnames⟩
    · rw [hnil]
      exact h.nodup pid
    · rw [hnames]
      refine (hnodup.map_on fun k _ j _ heq => hlaid.addr_inj heq).append (h.nodup pid) ?_
      -- what was told before is mapped, what is told now was not
      intro a hnow hbefore
      obtain ⟨k, hk, rfl⟩ := List.mem_map.mp hnow
      obtain ⟨j, hj, hin⟩ := h.mapped pid _ hbefore
      exact hfresh k hk (hlaid.addr_inj hj ▸ hin)
  · unfold told at ha
    split at ha
    · cases ha
    next hends =>
    have hkeep : ends pid (eventOf σ i) = false := by simpa using hends
    have hold : ∀ a ∈ told pid tr, ∃ k, ((Agnocast.step σ i).2.mem.mempoolEntries k).addr = a ∧
        pid ∈ (Agnocast.step σ i).2.mem.mapped k := by
      intro a ha
      obtain ⟨k, hk, hin⟩ := h.mapped pid a ha
      exact ⟨k, (haddr k).trans hk, mapped_kept hr hin hkeep⟩
    rcases toldBy_cases hr hok hown pid with ⟨hnil, _⟩ | ⟨pools, _, _, _, hmem, hnames⟩
    · rw [hnil] at ha
      exact hold a ha
    · rw [hnames] at ha
      rcases List.mem_append.mp ha with ha | ha
      · obtain ⟨k, hk, rfl⟩ := List.mem_map.mp ha
        refine ⟨k, haddr k, ?_⟩
        rw [hmem]
        exact MemoryAllocator.mem_mapped_mapPools.mpr (.inr ⟨hk, rfl⟩)
      · exact hold a ha
  · have howned := ((reachable_poolsOk (Transition.Reachable.step hr i)).owned q hq hlive).1
    have hkeep : ends pid (eventOf σ i) = false := by
      rw [Bool.eq_false_iff]
      exact fun hends => unmapped_of_ends hr hends (hnum ▸ howned) hin
    unfold told
    rw [if_neg (by rw [hkeep]; exact Bool.false_ne_true), haddr]
    rcases toldBy_cases hr hok hown pid with ⟨hnil, hother⟩ |
      ⟨pools, hfetch, _, _, hmem, hnames⟩
    · obtain ⟨hbefore, q₀, hq₀, hlive₀, hpid₀, hpool₀⟩ := owned_before hr hq hlive hne hin hother
      rw [hnil, ← hpool₀]
      exact h.others pid q₀ hq₀ hlive₀ (hpid₀ ▸ hne) (hpool₀ ▸ hbefore)
    · rw [hmem] at hin
      rw [hnames]
      rcases MemoryAllocator.mem_mapped_mapPools.mp hin with hin | ⟨hk, _⟩
      · rw [(fetch_world hr.wellFormed hfetch).1] at hq
        exact List.mem_append_right _ (h.others pid q hq hlive hne hin)
      · exact List.mem_append_left _ (List.mem_map_of_mem hk)

/-! ## Delivery -/

/-- What a subscriber accepts is from a live process, and if that is another one, the report goes
by its pool. -/
theorem accepts_reportPool (hc : (σ.topicStructs tp).Consistent []) {s : SubscriberInfo}
    {en : EntryNode} (haccepts : accepts σ (σ.topicStructs tp) s en = true) {p : PublisherInfo}
    (hp : p ∈ (σ.topicStructs tp).pubInfoHtable) (hid : p.id = en.publisherId) :
    ∃ q, findProcessInfo σ p.pid = some q ∧ q.exited = false ∧ (p.pid ≠ s.pid →
      reportPool σ (σ.topicStructs tp) s.domainId s.pid s.isBridge p = some q.mempoolEntry) := by
  have hfind : findPublisherInfo (σ.topicStructs tp) en.publisherId = some p :=
    (HTable.lookup_eq_some_iff hc.pubs_nodup).mpr ⟨hp, hid⟩
  unfold accepts isEntryDeliverable at haccepts
  rw [hfind] at haccepts
  cases hgone : processGone σ p.pid with
  | true => simp [hgone] at haccepts
  | false =>
    obtain ⟨q, hq, hlive⟩ := processGone_eq_false.mp hgone
    refine ⟨q, hq, hlive, fun hne => ?_⟩
    have hallowed : domainDeliveryAllowed σ (σ.topicStructs tp) p.domainId p.isBridge s.domainId
        s.isBridge = true := by
      simpa [hgone, hne.symm] using haccepts
    exact reportPool_eq_some.mpr ⟨hne.symm, hallowed, q, hq, hlive, rfl⟩

/-- After the event process `pid` maps the pool of process `owner`, and this reply to it or an
earlier one has named the pool. -/
def MappedAndTold (ev : Event) (before : List Event) (pid owner : Pid) : Prop :=
  ∃ q ∈ findProcessInfo ev.pre owner,
    pid ∈ (step ev.pre ev.input).2.mem.mapped q.mempoolEntry ∧
      (ev.pre.mem.mempoolEntries q.mempoolEntry).addr ∈ told pid (ev :: before)

instance (ev : Event) (before : List Event) (pid owner : Pid) :
    Decidable (MappedAndTold ev before pid owner) :=
  inferInstanceAs (Decidable (∃ q ∈ findProcessInfo ev.pre owner, _))

/-- Whatever the event hands out of another process's entries lies in a pool that the receiving
process maps and has been told. -/
def MappedAtDelivery (ev : Event) (before : List Event) : Prop :=
  ∀ ho ∈ handouts ev, ∀ s ∈ (ev.pre.topicStructs ho.topic).subInfoHtable,
    ∀ en ∈ (ev.pre.topicStructs ho.topic).entries,
    ∀ p ∈ (ev.pre.topicStructs ho.topic).pubInfoHtable,
    s.id = ho.subscriberId → en.entryId = ho.entryId → p.id = en.publisherId → p.pid ≠ s.pid →
      MappedAndTold ev before s.pid p.pid

instance (ev : Event) (before : List Event) : Decidable (MappedAtDelivery ev before) :=
  inferInstanceAs (Decidable (∀ ho ∈ handouts ev, _))

/-- Mapping precedes delivery at every event, and no pool is named to a process twice. -/
def MappingPrecedesDelivery : List Event → Prop
  | [] => True
  | ev :: before => MappingPrecedesDelivery before ∧ (∀ pid, (told pid (ev :: before)).Nodup) ∧
      MappedAtDelivery ev before

/-- **What is handed out is mapped**: after a receive or take the subscriber's process maps the
pool of the publisher of each entry, be it its own or another live process's. -/
theorem Fetched.mapped (hr : Reachable σ) (h : UnflaggedMapped σ) {w : TopicWrapper}
    {s : SubscriberInfo} {batch : List EntryNode} {infos : List PublisherShmInfo}
    {m : MemoryAllocator} (hf : Fetched σ i w s batch (.ok infos) t' m)
    (hdomain : w.domainId = s.domainId) {en : EntryNode} (hen : en ∈ batch) {p : PublisherInfo}
    (hp : p ∈ (σ.topicStructs w.topic).pubInfoHtable) (hid : p.id = en.publisherId) :
    ∃ q, findProcessInfo σ p.pid = some q ∧ q.exited = false ∧ s.pid ∈ m.mapped q.mempoolEntry := by
  obtain ⟨q, hq, hlive, hpool⟩ :=
    accepts_reportPool (hr.wellFormed.store w.topic) (hf.accepted en hen) hp hid
  obtain ⟨pools, _, _, rfl, hcomplete⟩ := hf.report
  refine ⟨q, hq, hlive, ?_⟩
  have hmore : s.pid ∈ σ.mem.mapped q.mempoolEntry →
      s.pid ∈ (σ.mem.mapPools s.pid pools).mapped q.mempoolEntry :=
    fun h => MemoryAllocator.mem_mapped_mapPools.mpr (.inl h)
  by_cases hself : p.pid = s.pid
  · -- a live process maps its own pool
    obtain ⟨hmem, hpid⟩ := findProcessInfo_mem hq
    have howned := ((reachable_poolsOk hr).owned q hmem hlive).2
    rw [hpid, hself] at howned
    exact hmore howned
  have hpool := hpool hself
  cases hflag : s.needMmapUpdate with
  | false => exact hmore (h w.topic s hf.subscriber hflag p hp q.mempoolEntry hpool)
  | true => exact (hcomplete infos rfl).2 hflag p hp q.mempoolEntry (hdomain ▸ hpool)

/-- **Mapping precedes delivery** in a run of registered endpoints whose receives and takes
succeed and are issued by the subscriber's own process. -/
theorem mapping_precedes_delivery {tr : List Event}
    (h : Transition.Run kmod
      (fun σ i => (EndpointsRegistered σ i ∧ FetchSucceeds σ i) ∧ FetchesOwn σ i) tr σ) :
    MappingPrecedesDelivery tr := by
  refine (h.history (P := fun tr σ => (SubscribersAtHome σ ∧ UnflaggedMapped σ ∧ ToldOk tr σ) ∧
    MappingPrecedesDelivery tr) ?_ ?_).2
  · rintro σ ⟨num, start, gb, m, hinit, rfl⟩
    refine ⟨⟨fun tp s hs => (by cases hs), fun tp s hs => (by cases hs), ?_⟩, trivial⟩
    exact ⟨fun _ => List.nodup_nil, fun _ a ha => (by cases ha), fun _ q hq => (by cases hq)⟩
  rintro tr σ i hrun ⟨⟨hhome, hmapped, htold⟩, hall⟩ ⟨⟨hg, hok⟩, hown⟩
  have hr : Reachable σ := hrun.reachable
  have htold' : ToldOk (eventOf σ i :: tr) (step σ i).2 := htold.step hr hok hown
  refine ⟨⟨hhome.step hr hg, hmapped.step hr hg (hhome.fetches hown), htold'⟩, hall, htold'.nodup, ?_⟩
  -- the entry that is handed out, its subscriber and its publisher
  intro ho hho s₁ hs₁ en₁ hen₁ p hp hsid hentry hid hne
  obtain ⟨w, s, batch, infos, t', m, htarget, hf, en, hen, rfl⟩ := handout_cases hr.wellFormed hho
  have hc := hr.wellFormed.store w.topic
  obtain rfl : s₁ = s := HTable.eq_of_key_eq hc.subs_nodup hs₁ hf.subscriber hsid
  obtain rfl : en₁ = en := HTable.eq_of_key_eq hc.entries_nodup hen₁ (hf.sublist.subset hen) hentry
  obtain ⟨q, hq, hlive, hin⟩ :=
    hf.mapped hr hmapped ((hhome.fetches hown).domain htarget) hen hp hid
  have hin : s₁.pid ∈ (step σ i).2.mem.mapped q.mempoolEntry := by
    rw [hf.after]
    exact hin
  refine ⟨q, hq, hin, ?_⟩
  obtain ⟨hqmem, hqpid⟩ := findProcessInfo_mem hq
  have hqmem' : q ∈ (step σ i).2.procInfoHtable := by
    rw [(fetch_world hr.wellFormed (fetchTarget_isFetch htarget)).1]
    exact hqmem
  -- a pool of another process that is mapped has been told
  have hnamed := htold'.others s₁.pid q hqmem' hlive (hqpid ▸ hne) hin
  rwa [(step_layout hr.wellFormed i).2.2] at hnamed

/-- Process 2 receives what process 1 publishes, and again: the pool is named once. -/
theorem mapping_precedes_delivery_of_two :
    let r := runOf 2 [.addProcess 1 0 0 1, .addProcess 2 0 0 1,
      .addSubscriber ['/', 't'] 0 ⟨[], 2, 1, false, true, false, false, false⟩ 7,
      .addPublisher ['/', 't'] 0 ⟨[], 1, 1, false, false⟩, .publishMsg 1 ['/', 't'] 0 1 16,
      .receiveMsg 2 ['/', 't'] 0 0 1024, .publishMsg 1 ['/', 't'] 0 1 32,
      .receiveMsg 2 ['/', 't'] 0 0 1024]
    MappingPrecedesDelivery r.1 ∧ (r.1.map handouts).head? = some [⟨0, 0, 2, 32⟩] ∧
      told 2 r.1 = [0] :=
  ⟨mapping_precedes_delivery (run_runOf (by decide) (by decide) (by decide)), by decide, by decide⟩

/-- **A foreign receive delivers what is not mapped**: under a rule from domain 1 to domain 2,
process 1 of domain 1 receives for the subscriber of process 2. Nothing of domain 2 is reported
to it, and it is handed the entry of process 3. -/
theorem foreign_fetch_unmapped :
    ¬ ∀ (tr : List Event) (σ : Kmod),
      Transition.Run kmod (fun σ i => EndpointsRegistered σ i ∧ FetchSucceeds σ i) tr σ →
        MappingPrecedesDelivery tr := by
  intro h
  have hrun := run_runOf (n := 4) (by decide) (by decide)
    (G := fun σ i => EndpointsRegistered σ i ∧ FetchSucceeds σ i)
    (show kmod.Guarded _ _ ([.addDomainBridge ['/', 't'] ['/', 't'] 1 2 0, .addProcess 1 0 0 1,
      .addProcess 2 0 0 2, .addProcess 3 0 0 2,
      .addSubscriber ['/', 't'] 0 ⟨[], 2, 1, false, true, false, false, false⟩ 7,
      .addPublisher ['/', 't'] 0 ⟨[], 1, 1, false, false⟩,
      .addPublisher ['/', 't'] 0 ⟨[], 3, 1, false, false⟩,
      .publishMsg 3 ['/', 't'] 0 2 (2 * 1024 ^ 3 + 16)].map fun call => ⟨.smooth, call⟩) by decide)
  have hmapped := (h _ _ (.step ⟨.smooth, .receiveMsg 1 ['/', 't'] 0 0 1024⟩ hrun (by decide))).2.2
  exact absurd hmapped (by decide)

end Agnocast
