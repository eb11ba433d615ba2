import Agnocast.Store.History

/-!
# Delivery — what RECEIVE_MSG returns

The specification is two filters of the entry tree: `undelivered` are the entries
past the subscriber's watermark that the delivery test accepts, `pending` the
newest `qos_depth` of them.

* `receiveMsg_ok`     — one successful call returns the oldest ten of `pending`.
* `receiveAll_ok`     — calling until no more are announced returns `pending`.
* `handedOut_sorted`  — through a run without takes the ids only grow.
* `receive_correct`   — all of it, with what a volatile subscriber never gets.
-/

namespace Agnocast

variable {σ σ' : Kmod} {t t' : TopicStruct} {s s' : SubscriberInfo}

/-! ## The specification -/

/-- The entries past the watermark that `is_entry_deliverable` accepts. -/
def undelivered (σ : Kmod) (t : TopicStruct) (s : SubscriberInfo) : List EntryNode :=
  t.entries.filter fun en =>
    s.latestReceivedEntryId < en.entryId && decide (isEntryDeliverable σ t s en = .ok true)

/-- The newest `qos_depth` undelivered entries, or all if there are fewer. -/
def pending (σ : Kmod) (t : TopicStruct) (s : SubscriberInfo) : List EntryNode :=
  (undelivered σ t s).rtake s.qosDepth

theorem length_pending (σ : Kmod) (t : TopicStruct) (s : SubscriberInfo) :
    (pending σ t s).length = min (undelivered σ t s).length s.qosDepth := by
  rw [pending, List.rtake, List.length_drop]
  omega

theorem accepts_eq (en : EntryNode) :
    accepts σ t s en = decide (isEntryDeliverable σ t s en = .ok true) := by
  unfold accepts
  cases isEntryDeliverable σ t s en with
  | error e => rfl
  | ok b => cases b <;> simp

/-- The window of the implementation is the specified one. -/
theorem pending_eq : pending σ t s = deliveryWindow σ t s (s.latestReceivedEntryId + 1) := by
  unfold pending undelivered deliveryWindow Window.window
  congr 1
  refine List.filter_congr fun en _ => ?_
  rw [accepts_eq]
  congr 1
  rw [Bool.eq_iff_iff]
  simp only [decide_eq_true_eq, Bool.not_eq_true', decide_eq_false_iff_not, Int.not_lt]
  exact Int.lt_iff_add_one_le

/-! ## One call -/

theorem handOut_subscriber {b : Int} {ids : List Int} (hs : findSubscriberInfo t b = some s) :
    findSubscriberInfo (t.handOut b ids) b =
      some { s with latestReceivedEntryId := ids.getLast?.getD s.latestReceivedEntryId } := by
  unfold TopicStruct.handOut
  cases ids.getLast? with
  | none => exact hs
  | some last =>
    simp only [TopicStruct.modifySubscriber, TopicStruct.grant, findSubscriberInfo]
    rw [HTable.lookup_modify (fun _ => by rfl), if_pos rfl]
    exact congrArg (Option.map _) hs

theorem reported_subscriber {env : Env} {w : TopicWrapper} {size : Nat}
    {ret : Except Errno (List PublisherShmInfo)} {m : MemoryAllocator}
    (h : reportPublisherShm σ env w t s size = (ret, t', m)) {s₁ : SubscriberInfo}
    (hs : findSubscriberInfo t s.id = some s₁) :
    ∃ s', findSubscriberInfo t' s.id = some s' ∧ SameSubscriber s₁ s' ∧
      s'.latestReceivedEntryId = s₁.latestReceivedEntryId := by
  rcases reportPublisherShm_topic h with rfl | rfl
  · exact ⟨s₁, hs, .refl s₁, rfl⟩
  · refine ⟨{ s₁ with needMmapUpdate := false }, ?_, rfl, rfl⟩
    unfold TopicStruct.modifySubscriber findSubscriberInfo
    simp only
    rw [HTable.lookup_modify (fun _ => by rfl), if_pos rfl]
    exact congrArg (Option.map _) hs

/-- **One successful RECEIVE_MSG** in a well-formed state, with the subscriber it
leaves behind. -/
theorem receiveMsg_ok (h : σ.WellFormed) {env : Env} {current : Pid} {topicName : Name}
    {ipcNs : IpcNs} {id : Int} {size : Nat} {reply : ReceivedEntries}
    {infos : List PublisherShmInfo}
    (hok : receiveMsg σ env current topicName ipcNs id size = (.ok (reply, infos), σ')) :
    ∃ w s s' batch, findTopicForCurrent σ current topicName ipcNs = some w ∧
      findSubscriberInfo (σ.topicStructs w.topic) id = some s ∧
      findSubscriberInfo (σ'.topicStructs w.topic) id = some s' ∧
      batch = (pending σ (σ.topicStructs w.topic) s).take maxReceiveNum ∧
      reply = ⟨batch.map fun en => (en.entryId, en.msgVirtualAddress),
        decide (maxReceiveNum < (pending σ (σ.topicStructs w.topic) s).length)⟩ ∧
      SameSubscriber s s' ∧
      s'.latestReceivedEntryId =
        (batch.getLast?.map EntryNode.entryId).getD s.latestReceivedEntryId ∧
      (σ'.topicStructs w.topic).entries =
        ((σ.topicStructs w.topic).grant id (batch.map EntryNode.entryId)).entries ∧
      (σ'.topicStructs w.topic).pubInfoHtable = (σ.topicStructs w.topic).pubInfoHtable ∧
      (σ'.topicStructs w.topic).rule = (σ.topicStructs w.topic).rule ∧
      σ'.procInfoHtable = σ.procInfoHtable ∧ σ'.domainRules = σ.domainRules ∧
      σ'.topicHashtable = σ.topicHashtable := by
  rcases receiveMsg_cases h env current topicName ipcNs id size with
    ⟨heq, _⟩ | ⟨w, s, ret, t', m, hw, hs, hr, heq⟩
  · rw [heq] at hok
    cases hok
  rw [heq] at hok
  obtain ⟨hret, rfl⟩ := Prod.mk.inj hok
  obtain ⟨_, rfl⟩ := HTable.mem_of_lookup hs
  cases ret with
  | error e => cases hret
  | ok infos' =>
    cases hret
    have hself : ((σ.setTopic w.topic t').setMem m).topicStructs w.topic = t' :=
      Kmod.setTopic_self ..
    obtain ⟨s', hs', hsame, hlatest⟩ := reported_subscriber hr (handOut_subscriber hs)
    have hbatch : receiveBatch σ (σ.topicStructs w.topic) s =
        (pending σ (σ.topicStructs w.topic) s).take maxReceiveNum := by
      rw [pending_eq]
      rfl
    -- the report of the pools changes no more than a flag of the subscriber
    have hpubs : t'.pubInfoHtable = (σ.topicStructs w.topic).pubInfoHtable ∧
        t'.rule = (σ.topicStructs w.topic).rule ∧ t'.entries = ((σ.topicStructs w.topic).grant s.id
          ((receiveBatch σ (σ.topicStructs w.topic) s).map EntryNode.entryId)).entries := by
      have hout : ∀ ids, ((σ.topicStructs w.topic).handOut s.id ids).pubInfoHtable =
          (σ.topicStructs w.topic).pubInfoHtable ∧
          ((σ.topicStructs w.topic).handOut s.id ids).rule = (σ.topicStructs w.topic).rule := by
        intro ids
        unfold TopicStruct.handOut
        split <;> exact ⟨rfl, rfl⟩
      rw [← TopicStruct.handOut_entries]
      rcases reportPublisherShm_topic hr with rfl | rfl <;>
        exact ⟨(hout _).1, (hout _).2, rfl⟩
    have hmark : ∀ last, SameSubscriber s { s with latestReceivedEntryId := last } := fun _ => rfl
    refine ⟨w, s, s', _, hw, hs, ?_, rfl, ?_, (hmark _).trans hsame, ?_, ?_, ?_, ?_, rfl, rfl, rfl⟩
    · rw [hself]
      exact hs'
    · rw [hbatch, pending_eq]
    · rw [hlatest, hbatch, List.getLast?_map]
    · rw [hself, hpubs.2.2, hbatch]
    · rw [hself, hpubs.1]
    · rw [hself, hpubs.2.1]

/-! ## Calling again -/

/-- The delivery test looks at nothing that a receive changes. -/
private theorem isEntryDeliverable_congr {en en' : EntryNode} (hsame : SameEntry en en')
    (hsub : SameSubscriber s s') (hproc : σ'.procInfoHtable = σ.procInfoHtable)
    (hrules : σ'.domainRules = σ.domainRules) (hpubs : t'.pubInfoHtable = t.pubInfoHtable)
    (hrule : t'.rule = t.rule) :
    isEntryDeliverable σ' t' s' en' = isEntryDeliverable σ t s en := by
  have hgone : ∀ pid, processGone σ' pid = processGone σ pid := fun pid => by
    unfold processGone findProcessInfo
    rw [hproc]
  have hallowed : ∀ d b d' b', domainDeliveryAllowed σ' t' d b d' b' =
      domainDeliveryAllowed σ t d b d' b' := fun d b d' b' => by
    unfold domainDeliveryAllowed
    rw [hrule, hrules]
  unfold isEntryDeliverable findPublisherInfo
  rw [hpubs, hsame.publisherId_eq]
  simp only [hgone, hallowed, hsub.pid_eq, hsub.domainId_eq, hsub.isBridge_eq]
  rw [hsub]

/-- After a batch that was not the whole of `pending`, the rest of it is pending:
granted bits do not matter. -/
private theorem pending_after (hc : t.Consistent []) {batch : List EntryNode}
    (hbatch : batch = (pending σ t s).take maxReceiveNum) {last : EntryNode}
    (hlast : batch.getLast? = some last) (hsub : SameSubscriber s s')
    (hlatest : s'.latestReceivedEntryId = last.entryId) {b : Int} {ids : List Int}
    (hentries : t'.entries = (t.grant b ids).entries)
    (hproc : σ'.procInfoHtable = σ.procInfoHtable) (hrules : σ'.domainRules = σ.domainRules)
    (hpubs : t'.pubInfoHtable = t.pubInfoHtable) (hrule : t'.rule = t.rule) :
    (pending σ' t' s').map (fun en => (en.entryId, en.msgVirtualAddress)) =
      ((pending σ t s).drop maxReceiveNum).map fun en => (en.entryId, en.msgVirtualAddress) := by
  have hsplit : undelivered σ t s = ((undelivered σ t s).take
      ((undelivered σ t s).length - s.qosDepth) ++ batch) ++ (pending σ t s).drop maxReceiveNum := by
    rw [List.append_assoc, hbatch, List.take_append_drop, pending, List.rtake,
      List.take_append_drop]
  have hmem : last ∈ undelivered σ t s := by
    rw [hsplit]
    simp [List.mem_of_getLast? hlast]
  have hpast : s.latestReceivedEntryId < last.entryId := by
    have := (List.mem_filter.mp hmem).2
    rw [Bool.and_eq_true, decide_eq_true_eq] at this
    exact this.1
  -- what lies past the batch is the rest
  have hsorted : (undelivered σ t s).Pairwise fun a b => a.entryId < b.entryId :=
    hc.sorted.sublist List.filter_sublist
  have hrest : (undelivered σ t s).filter (fun en => decide (last.entryId < en.entryId)) =
      (pending σ t s).drop maxReceiveNum := by
    rw [hsplit] at hsorted ⊢
    exact Window.filter_after_last hsorted (by rw [List.getLast?_append, hlast]; rfl)
  set g := fun en : EntryNode => if en.entryId ∈ ids then en.setBit b else en with hg
  have hsame : ∀ en, SameEntry en (g en) := by
    intro en
    rw [hg]
    dsimp only
    split
    · exact en.setBit_same b
    · exact .refl en
  have hund : undelivered σ' t' s' = ((pending σ t s).drop maxReceiveNum).map g := by
    rw [← hrest, undelivered, hentries]
    show (t.entries.map g).filter _ = _
    rw [List.filter_map, undelivered, List.filter_filter]
    congr 1
    refine List.filter_congr fun en _ => ?_
    rw [Function.comp_apply, (hsame en).entryId_eq, hlatest,
      isEntryDeliverable_congr (hsame en) hsub hproc hrules hpubs hrule]
    by_cases hlt : last.entryId < en.entryId
    · have : s.latestReceivedEntryId < en.entryId := by omega
      simp [hlt, this]
    · simp [hlt]
  have hdepth : s'.qosDepth = s.qosDepth := by rw [hsub]
  have hlen : (undelivered σ' t' s').length ≤ s'.qosDepth := by
    rw [hund, List.length_map, List.length_drop, length_pending, hdepth]
    omega
  rw [pending, Window.rtake_of_length_le hlen, hund, List.map_map]
  refine List.map_congr_left fun en _ => ?_
  rw [Function.comp_apply, (hsame en).entryId_eq, (hsame en).msgVirtualAddress_eq]

/-- Call RECEIVE_MSG, each time with an environment and a buffer size of its own,
until it does not ask to be called again: what all calls returned together, or
`none` if the calls ran out before. -/
def receiveAll (current : Pid) (topicName : Name) (ipcNs : IpcNs) (id : Int) :
    List (Env × Nat) → Kmod → Except Errno (Option (List (Int × Nat))) × Kmod
  | [], σ => (.ok none, σ)
  | (env, size) :: calls, σ =>
    match receiveMsg σ env current topicName ipcNs id size with
    | (.error e, σ) => (.error e, σ)
    | (.ok (reply, _), σ) =>
      if reply.callAgain then
        let (rest, σ) := receiveAll current topicName ipcNs id calls σ
        (rest.map fun rest => rest.map fun rest => reply.entries ++ rest, σ)
      else (.ok (some reply.entries), σ)

/-- **Calling again** returns the pending entries, in order, each once; one call per
ten of them is enough. -/
theorem receiveAll_ok {current : Pid} {topicName : Name} {ipcNs : IpcNs} {id : Int}
    {w : TopicWrapper} (h : Reachable σ)
    (hw : findTopicForCurrent σ current topicName ipcNs = some w)
    (hs : findSubscriberInfo (σ.topicStructs w.topic) id = some s) (calls : List (Env × Nat))
    (hne : calls ≠ [])
    (hlen : (pending σ (σ.topicStructs w.topic) s).length ≤ maxReceiveNum * calls.length)
    {r : Option (List (Int × Nat))} (hok : receiveAll current topicName ipcNs id calls σ = (.ok r, σ')) :
    r = some ((pending σ (σ.topicStructs w.topic) s).map fun en =>
      (en.entryId, en.msgVirtualAddress)) := by
  induction calls generalizing σ s r with
  | nil => exact absurd rfl hne
  | cons call calls ih =>
    obtain ⟨env, size⟩ := call
    have hstep := h.step ⟨env, .receiveMsg current topicName ipcNs id size⟩
    rw [receiveAll] at hok
    cases hret : receiveMsg σ env current topicName ipcNs id size with
    | mk ret σ₁ =>
      rw [hret] at hok
      cases ret with
      | error e => cases hok
      | ok res =>
        obtain ⟨reply, infos⟩ := res
        have hstep : Reachable σ₁ := by
          have heq : (step σ ⟨env, .receiveMsg current topicName ipcNs id size⟩).2 = σ₁ :=
            congrArg Prod.snd hret
          exact heq ▸ hstep
        obtain ⟨w', s', s₁, batch, hw', hs', hs₁, hbatch, rfl, hsub, hlatest, hentries, hpubs, hrule,
          hproc, hrules, htable⟩ := receiveMsg_ok h.wellFormed hret
        obtain rfl : w = w' := Option.some.inj (hw.symm.trans hw')
        obtain rfl : s = s' := Option.some.inj (hs.symm.trans hs')
        dsimp only at hok
        by_cases hagain : maxReceiveNum < (pending σ (σ.topicStructs w.topic) s).length
        · rw [if_pos (by simpa using hagain)] at hok
          -- the batch is full, so it has a last entry and the rest is still pending
          have hlast : ∃ last, batch.getLast? = some last := by
            refine Option.ne_none_iff_exists'.mp fun hnone => ?_
            rw [List.getLast?_eq_none_iff.mp hnone] at hbatch
            have := congrArg List.length hbatch
            rw [List.length_take, List.length_nil] at this
            simp only [maxReceiveNum] at *
            omega
          obtain ⟨last, hlast⟩ := hlast
          rw [hlast] at hlatest
          have hrest := pending_after (h.wellFormed.store w.topic) hbatch hlast hsub hlatest
            hentries hproc hrules hpubs hrule
          have hlen₁ := congrArg List.length hrest
          simp only [List.length_map, List.length_drop] at hlen₁
          rw [List.length_cons, Nat.mul_add, Nat.mul_one] at hlen
          have hw₁ : findTopicForCurrent σ₁ current topicName ipcNs = some w := by
            unfold findTopicForCurrent getProcessDomainId findProcessInfo findTopic at hw ⊢
            rw [htable, hproc]
            exact hw
          have hcalls : calls ≠ [] := by
            rintro rfl
            simp only [List.length_nil, Nat.mul_zero] at hlen
            omega
          cases hall : receiveAll current topicName ipcNs id calls σ₁ with
          | mk rest σ₂ =>
            rw [hall] at hok
            cases rest with
            | error e => cases hok
            | ok rest =>
              cases hok
              rw [ih hstep hw₁ hs₁ hcalls (by omega) hall, hrest, hbatch]
              simp only [Option.map_some]
              rw [← List.map_append, List.take_append_drop]
        · rw [if_neg (by simpa using hagain)] at hok
          cases hok
          rw [hbatch, List.take_of_length_le (by omega)]

/-! ## Through a run -/

/-- The ids that a run hands out to one subscriber of one topic, oldest first. -/
def handedOut (tp : Nat) (id : Int) : List Event → List Int
  | [] => []
  | ev :: tr => handedOut tp id tr ++
      ((handouts ev).filter fun ho => ho.topic = tp && ho.subscriberId = id).map Handout.entryId

/-- The step is no TAKE_MSG of this subscriber. -/
def receiveOnly (tp : Nat) (id : Int) (σ : Kmod) (i : Input) : Prop :=
  i.call.isTake = true → ∀ w s, fetchTarget σ i.call = some (w, s) → ¬ (w.topic = tp ∧ s.id = id)

/-- What an event adds to `handedOut`: nothing, or a batch past the watermark of the
subscriber, which covers it afterwards. -/
private theorem handedOut_cases (h : Reachable σ) {tp : Nat} {id : Int} {i : Input}
    (hg : receiveOnly tp id σ i) :
    ((handouts (eventOf σ i)).filter fun ho => ho.topic = tp && ho.subscriberId = id) = [] ∨
    ∃ s ∈ (σ.topicStructs tp).subInfoHtable, s.id = id ∧
      let ids := ((handouts (eventOf σ i)).filter fun ho =>
        ho.topic = tp && ho.subscriberId = id).map Handout.entryId
      ids.Pairwise (· < ·) ∧ ∀ x ∈ ids, s.latestReceivedEntryId < x ∧
        ∀ s' ∈ ((step σ i).2.topicStructs tp).subInfoHtable, s'.id = id →
          x ≤ s'.latestReceivedEntryId := by
  rcases List.eq_nil_or_concat ((handouts (eventOf σ i)).filter fun ho =>
    ho.topic = tp && ho.subscriberId = id) with hnil | ⟨init, ho, hho⟩
  · exact .inl hnil
  right
  have hmem : ho ∈ (handouts (eventOf σ i)).filter fun ho =>
      ho.topic = tp && ho.subscriberId = id := by
    rw [hho]
    simp
  obtain ⟨hmem, hkey⟩ := List.mem_filter.mp hmem
  obtain ⟨w, s, batch, infos, t', m, ht, hf, en, hen, rfl⟩ := handout_cases h.wellFormed hmem
  simp only [Bool.and_eq_true, decide_eq_true_eq] at hkey
  obtain ⟨rfl, rfl⟩ := hkey
  -- takes of the subscriber are excluded, so it was a receive
  have htake : i.call.isTake = false := by
    by_contra htake
    exact hg (by simpa using htake) w s ht ⟨rfl, rfl⟩
  have hbatch := hf.received htake
  have hids : ((handouts (eventOf σ i)).filter fun ho =>
      ho.topic = w.topic && ho.subscriberId = s.id).map Handout.entryId =
        batch.map EntryNode.entryId := by
    rw [hf.handed_ok, List.filter_eq_self.mpr (by simp), List.map_map]
    rfl
  refine ⟨s, hf.subscriber, rfl, ?_⟩
  simp only [hids]
  have hc := h.wellFormed.store w.topic
  refine ⟨List.pairwise_map.mpr (hc.sorted.sublist hf.sublist), fun x hx => ?_⟩
  obtain ⟨en, hen, rfl⟩ := List.mem_map.mp hx
  constructor
  · rw [hbatch] at hen
    exact Int.add_one_le_iff.mp (mem_deliveryWindow (List.mem_of_mem_take hen)).2.1
  -- the bit that was set says that the watermark has come that far
  · intro s' hs' hid
    obtain ⟨en', hen', hsame, hbit⟩ := hf.granted h.wellFormed hen
    rw [← hf.topic] at hen'
    have hc' : ((step σ i).2.topicStructs w.topic).Consistent [] :=
      (h.wellFormed.step i).store w.topic
    rw [← hsame.entryId_eq]
    exact hc'.bit_le hen' hs' (hid ▸ hbit)

/-- An id given out and the watermark of its subscriber, one step later. -/
theorem watermark_step (h : Reachable σ) (i : Input) {tp : Nat} {id c : Int}
    (hlt : id < (σ.topicStructs tp).currentPubsubId)
    (hc : ∀ s ∈ (σ.topicStructs tp).subInfoHtable, s.id = id → c ≤ s.latestReceivedEntryId) :
    id < ((step σ i).2.topicStructs tp).currentPubsubId ∧
      ∀ s ∈ ((step σ i).2.topicStructs tp).subInfoHtable, s.id = id →
        c ≤ s.latestReceivedEntryId := by
  have he := h.evolves i tp
  refine ⟨hlt.trans_le he.pubsubId, fun s' hs' hid => ?_⟩
  rcases he.sub s' hs' with ⟨s, hs, hsame, hle⟩ | ⟨hnew, _⟩
  · exact (hc s hs (hsame.id_eq.symm.trans hid)).trans hle
  · omega

/-- **Nothing is returned twice**: while a subscriber only receives, the ids that it
is handed grow, and its watermark covers them. -/
theorem handedOut_sorted {tp : Nat} {id : Int} {tr : List Event}
    (hr : Transition.Run kmod (receiveOnly tp id) tr σ) :
    (handedOut tp id tr).Pairwise (· < ·) ∧ ∀ x ∈ handedOut tp id tr,
      id < (σ.topicStructs tp).currentPubsubId ∧
      ∀ s ∈ (σ.topicStructs tp).subInfoHtable, s.id = id → x ≤ s.latestReceivedEntryId := by
  refine hr.history (P := fun tr σ => (handedOut tp id tr).Pairwise (· < ·) ∧
    ∀ x ∈ handedOut tp id tr, id < (σ.topicStructs tp).currentPubsubId ∧
      ∀ s ∈ (σ.topicStructs tp).subInfoHtable, s.id = id → x ≤ s.latestReceivedEntryId)
    (fun _ _ => ⟨.nil, by simp [handedOut]⟩) fun tr σ i hr ⟨hsorted, hmark⟩ hg => ?_
  have h : Reachable σ := hr.reachable
  have hold : ∀ x ∈ handedOut tp id tr, id < ((step σ i).2.topicStructs tp).currentPubsubId ∧
      ∀ s ∈ ((step σ i).2.topicStructs tp).subInfoHtable, s.id = id →
        x ≤ s.latestReceivedEntryId :=
    fun x hx => watermark_step h i (hmark x hx).1 (hmark x hx).2
  have hcons : handedOut tp id (⟨σ, i, (kmod.step σ i).1⟩ :: tr) = handedOut tp id tr ++
      ((handouts (eventOf σ i)).filter fun ho =>
        ho.topic = tp && ho.subscriberId = id).map Handout.entryId := rfl
  rw [hcons]
  rcases handedOut_cases h hg with hnil | ⟨s, hs, hid, hids, hnew⟩
  · rw [hnil, List.map_nil, List.append_nil]
    exact ⟨hsorted, hold⟩
  · have hlt : id < (σ.topicStructs tp).currentPubsubId :=
      hid ▸ ((h.wellFormed.store tp).sub_id s hs).2
    refine ⟨List.pairwise_append.mpr ⟨hsorted, hids, fun x hx y hy => ?_⟩, fun x hx => ?_⟩
    · exact ((hmark x hx).2 s hs hid).trans_lt (hnew y hy).1
    · rcases List.mem_append.mp hx with hx | hx
      · exact hold x hx
      · exact ⟨hlt.trans_le (h.evolves i tp).pubsubId, (hnew x hx).2⟩

/-- Published ids are below the topic's next one. -/
theorem publications_lt {G : Kmod → Input → Prop} {tr : List Event}
    (hr : Transition.Run kmod G tr σ) {pb : Publication} (hpb : pb ∈ tr.flatMap publications) :
    pb.entryId < (σ.topicStructs pb.topic).currentEntryId := by
  refine hr.history (P := fun tr σ => ∀ pb ∈ tr.flatMap publications,
    pb.entryId < (σ.topicStructs pb.topic).currentEntryId) (fun _ _ => by simp)
    (fun tr σ i hr ih _ pb hpb => ?_) pb hpb
  have h : Reachable σ := hr.reachable
  rw [List.flatMap_cons, List.mem_append] at hpb
  rcases hpb with hpb | hpb
  · obtain ⟨w, _, p, _, _, _, r, _, rfl, _, hstep⟩ := publication_cases h.wellFormed hpb
    have : (step σ i).2.topicStructs w.topic = (σ.topicStructs w.topic).published p r.entries := by
      rw [hstep, Kmod.setTopic_self]
    show _ < ((step σ i).2.topicStructs w.topic).currentEntryId
    rw [this]
    exact Int.lt_succ _
  · exact (ih pb hpb).trans_le (h.evolves i pb.topic).entryId

/-- The topic and the id of the volatile subscriber that the event creates, if any. -/
def joinedVolatile (ev : Event) : Option (Nat × Int) :=
  match ev.input.call, ev.output with
  | .addSubscriber topicName ipcNs args _, .endpointAdded (.ok id) =>
    if args.qosIsTransientLocal then none
    else
      (findTopic (step ev.pre ev.input).2 ⟨topicName, ipcNs, getProcessDomainId ev.pre args.pid⟩).map
        fun w => (w.topic, id)
  | _, _ => none

/-- A volatile subscriber starts past every id its topic has given out. -/
private theorem joinedVolatile_watermark (h : Reachable σ) {i : Input} {tp : Nat} {id : Int}
    (hj : joinedVolatile (eventOf σ i) = some (tp, id)) :
    id < ((step σ i).2.topicStructs tp).currentPubsubId ∧
      ∀ s ∈ ((step σ i).2.topicStructs tp).subInfoHtable, s.id = id →
        (σ.topicStructs tp).currentEntryId ≤ s.latestReceivedEntryId := by
  obtain ⟨env, call⟩ := i
  cases call with
  | addSubscriber topicName ipcNs args eventfd =>
    rcases addSubscriber_cases (σ := σ) env topicName ipcNs args eventfd with
      ⟨⟨e, heq⟩, _⟩ | ⟨ctx, w, σ₁, _, _, hadd, heq⟩ <;>
      have hstep := congrArg (answer Reply.endpointAdded) heq
    · have hout : (step σ ⟨env, .addSubscriber topicName ipcNs args eventfd⟩).1 = _ :=
        congrArg Prod.fst hstep
      unfold joinedVolatile eventOf at hj
      rw [hout] at hj
      cases hj
    have hafter : (step σ ⟨env, .addSubscriber topicName ipcNs args eventfd⟩).2 = _ :=
      congrArg Prod.snd hstep
    have hout : (step σ ⟨env, .addSubscriber topicName ipcNs args eventfd⟩).1 = _ :=
      congrArg Prod.fst hstep
    have hmoves := addTopic_moves (σ := σ) (A := fun _ _ => False) env
      ⟨topicName, ipcNs, getProcessDomainId σ args.pid⟩
    rw [hadd] at hmoves
    obtain ⟨hmoves, hw⟩ := hmoves
    obtain ⟨hw, hcell⟩ := hw w rfl
    have hwf := h.wellFormed.moves hmoves
    have hfind : findTopic (step σ ⟨env, .addSubscriber topicName ipcNs args eventfd⟩).2
        ⟨topicName, ipcNs, getProcessDomainId σ args.pid⟩ = some w := by
      rw [hafter, ← hcell]
      exact HTable.lookup_self hwf.cells hw
    unfold joinedVolatile eventOf at hj
    rw [hout] at hj
    simp only [answer] at hj
    rw [hafter]
    show id < (Kmod.topicStructs (σ₁.setTopic w.topic _) tp).currentPubsubId ∧
      ∀ s ∈ (Kmod.topicStructs (σ₁.setTopic w.topic _) tp).subInfoHtable, _
    rcases insertSubscriberInfo_cases (σ := σ₁) env (σ₁.topicStructs w.topic) w.domainId args ctx
      with ⟨e, pubs, _, hins⟩ | ⟨pubs, _, _, _, _, hins⟩ <;> rw [hins] at hj ⊢
    · cases hj
    simp only [hfind, Option.map_some] at hj
    split at hj
    · cases hj
    next hvol =>
    obtain ⟨rfl, rfl⟩ := Prod.mk.inj (Option.some.inj hj)
    rw [Kmod.setTopic_self]
    -- the entry counter only grew while the topic was looked up
    have hle : (σ.topicStructs w.topic).currentEntryId ≤
        (σ₁.topicStructs w.topic).currentEntryId :=
      (hmoves.evolves h.wellFormed h.fresh w.topic).entryId
    have hsubs : ∀ s ∈ ((σ₁.topicStructs w.topic).joinSubscriber pubs (env.place .subInfo)
        (newSubscriberInfo (σ₁.topicStructs w.topic) w.domainId args ctx)).subInfoHtable,
        s.id = (σ₁.topicStructs w.topic).currentPubsubId →
        (σ.topicStructs w.topic).currentEntryId ≤ s.latestReceivedEntryId := by
      intro s hs hid
      rcases HTable.mem_hashAdd.mp hs with rfl | hs
      · simpa [newSubscriberInfo, hvol] using hle
      · exact absurd hid ((hwf.store w.topic).sub_id s hs).2.ne
    simp only
    split
    · exact ⟨Int.lt_succ _, hsubs⟩
    · exact ⟨Int.lt_succ _, hsubs⟩
  | _ => cases hj

/-- What a volatile subscriber receives lies past everything published before it
joined. -/
private theorem volatile_lt {tp : Nat} {id : Int} {ev : Event} {later before : List Event}
    (hr : Transition.Run kmod (receiveOnly tp id) (later ++ ev :: before) σ)
    (hj : joinedVolatile ev = some (tp, id)) {x : Int} (hx : x ∈ handedOut tp id later) :
    (ev.pre.topicStructs tp).currentEntryId < x := by
  obtain ⟨hbefore, _, hout, _⟩ := hr.event
  have hpre : Reachable ev.pre := hbefore.reachable
  have hev : ev = eventOf ev.pre ev.input := by
    cases ev
    exact congrArg _ hout
  suffices h : (∀ x ∈ handedOut tp id later, (ev.pre.topicStructs tp).currentEntryId < x) ∧
      id < (σ.topicStructs tp).currentPubsubId ∧ ∀ s ∈ (σ.topicStructs tp).subInfoHtable,
        s.id = id → (ev.pre.topicStructs tp).currentEntryId ≤ s.latestReceivedEntryId from h.1 x hx
  refine hr.since (P := fun later σ =>
    (∀ x ∈ handedOut tp id later, (ev.pre.topicStructs tp).currentEntryId < x) ∧
      id < (σ.topicStructs tp).currentPubsubId ∧ ∀ s ∈ (σ.topicStructs tp).subInfoHtable,
        s.id = id → (ev.pre.topicStructs tp).currentEntryId ≤ s.latestReceivedEntryId)
    (fun σ hr => ⟨by simp [handedOut], ?_⟩) fun later σ i hr ⟨hids, hlt, hmark⟩ hg => ?_
  · cases hr with
    | step i _ _ => exact joinedVolatile_watermark hpre (hev ▸ hj)
  · have h : Reachable σ := hr.reachable
    refine ⟨fun x hx => ?_, watermark_step h i hlt hmark⟩
    rcases List.mem_append.mp hx with hx | hx
    · exact hids x hx
    · rcases handedOut_cases h hg with hnil | ⟨s, hs, hid, _, hnew⟩
      · have hnil : ((handouts ⟨σ, i, (kmod.step σ i).1⟩).filter fun ho =>
            ho.topic = tp && ho.subscriberId = id) = [] := hnil
        rw [hnil] at hx
        cases hx
      · exact (hmark s hs hid).trans_lt (hnew x hx).1

/-! ## All of it -/

/-- What RECEIVE_MSG owes to a subscriber, with `D = undelivered` and `W = pending`:

1. a successful call returns the oldest ten of `W` in ascending order, asks to be
   called again iff `W` is larger, sets the subscriber's bit on just these entries,
   and moves the watermark to the last of them;
2. successful calls until no more are announced return `W`, each entry once, and
   one call per ten entries is enough;
3. in a run without takes the ids a subscriber is handed strictly increase;
4. in such a run a volatile subscriber gets nothing published before it joined. -/
structure ReceiveCorrect : Prop where
  one : ∀ σ, Reachable σ → ∀ env current topicName ipcNs id size reply infos σ',
    receiveMsg σ env current topicName ipcNs id size = (.ok (reply, infos), σ') →
    ∃ w s s' W batch, findTopicForCurrent σ current topicName ipcNs = some w ∧
      findSubscriberInfo (σ.topicStructs w.topic) id = some s ∧
      findSubscriberInfo (σ'.topicStructs w.topic) id = some s' ∧
      W = pending σ (σ.topicStructs w.topic) s ∧ batch = W.take maxReceiveNum ∧
      reply.entries = batch.map (fun en => (en.entryId, en.msgVirtualAddress)) ∧
      batch.Pairwise (fun a b => a.entryId < b.entryId) ∧
      (reply.callAgain = true ↔ maxReceiveNum < W.length) ∧
      List.Forall₂ (fun en en' => SameEntry en en' ∧ en'.referencingSubscribers.bits =
          if en ∈ batch then insert id en.referencingSubscribers.bits
          else en.referencingSubscribers.bits)
        (σ.topicStructs w.topic).entries (σ'.topicStructs w.topic).entries ∧
      s'.latestReceivedEntryId =
        (batch.getLast?.map EntryNode.entryId).getD s.latestReceivedEntryId
  all : ∀ σ, Reachable σ → ∀ current topicName ipcNs id w s,
    findTopicForCurrent σ current topicName ipcNs = some w →
    findSubscriberInfo (σ.topicStructs w.topic) id = some s →
    ∀ calls : List (Env × Nat), calls ≠ [] →
      (pending σ (σ.topicStructs w.topic) s).length ≤ maxReceiveNum * calls.length →
      ∀ r σ', receiveAll current topicName ipcNs id calls σ = (.ok r, σ') →
        r = some ((pending σ (σ.topicStructs w.topic) s).map fun en =>
          (en.entryId, en.msgVirtualAddress))
  once : ∀ tp id tr σ, Transition.Run kmod (receiveOnly tp id) tr σ →
    (handedOut tp id tr).Pairwise (· < ·)
  volatile : ∀ tp id later ev before σ,
    Transition.Run kmod (receiveOnly tp id) (later ++ ev :: before) σ →
    joinedVolatile ev = some (tp, id) → ∀ pb ∈ before.flatMap publications, pb.topic = tp →
      pb.entryId ∉ handedOut tp id later

/-- The granted bits, entry by entry. -/
theorem grant_forall₂ (hc : t.Consistent []) {b : Int} (hb : inBitmapRange b)
    {batch : List EntryNode} (hbatch : ∀ en ∈ batch, en ∈ t.entries) :
    List.Forall₂ (fun en en' => SameEntry en en' ∧ en'.referencingSubscribers.bits =
        if en ∈ batch then insert b en.referencingSubscribers.bits
        else en.referencingSubscribers.bits)
      t.entries (t.grant b (batch.map EntryNode.entryId)).entries := by
  refine List.forall₂_map_right_iff.mpr (List.forall₂_same.mpr fun en hen => ?_)
  have hiff : en.entryId ∈ batch.map EntryNode.entryId ↔ en ∈ batch := by
    refine ⟨fun h => ?_, List.mem_map_of_mem⟩
    obtain ⟨en', hen', hid⟩ := List.mem_map.mp h
    rwa [← HTable.eq_of_key_eq hc.entries_nodup (hbatch en' hen') hen hid]
  by_cases hmem : en ∈ batch
  · rw [if_pos (hiff.mpr hmem), if_pos hmem]
    exact ⟨en.setBit_same b, en.setBit_bits hb⟩
  · rw [if_neg (mt hiff.mp hmem), if_neg hmem]
    exact ⟨.refl en, rfl⟩

/-- **RECEIVE_MSG delivers**: every call, every series of calls, every run. -/
theorem receive_correct : ReceiveCorrect where
  one σ h env current topicName ipcNs id size reply infos σ' hok := by
    obtain ⟨w, s, s', batch, hw, hs, hs', hbatch, rfl, _, hlatest, hentries, _⟩ :=
      receiveMsg_ok h.wellFormed hok
    obtain ⟨hmem, rfl⟩ := HTable.mem_of_lookup hs
    have hc := h.wellFormed.store w.topic
    have hsub : batch.Sublist (σ.topicStructs w.topic).entries := by
      rw [hbatch, pending_eq]
      exact (List.take_sublist _ _).trans (deliveryWindow_sublist _)
    refine ⟨w, s, s', _, batch, hw, hs, hs', rfl, hbatch, rfl, hc.sorted.sublist hsub, by simp, ?_,
      hlatest⟩
    rw [hentries]
    exact grant_forall₂ hc (hc.sub_inRange hmem) fun en hen => hsub.subset hen
  all σ h current topicName ipcNs id w s hw hs calls hne hlen r σ' hok :=
    receiveAll_ok h hw hs calls hne hlen hok
  once tp id tr σ hr := (handedOut_sorted hr).1
  volatile tp id later ev before σ hr hj pb hpb htopic hmem := by
    have hlt := volatile_lt hr hj hmem
    have := publications_lt hr.event.1 hpb
    rw [htopic] at this
    omega

/-- Twelve entries for a subscriber of depth twelve: two calls. -/
theorem receive_correct_two_batches :
    handedOut 0 1 (runOf 2 ([.addProcess 1 0 0 0, .addProcess 2 0 0 0,
      .addPublisher ['/', 't'] 0 ⟨[], 1, 12, false, false⟩,
      .addSubscriber ['/', 't'] 0 ⟨[], 2, 12, false, true, false, false, false⟩ 7] ++
      List.replicate 12 (.publishMsg 1 ['/', 't'] 0 0 16) ++
      [.receiveMsg 2 ['/', 't'] 0 1 8, .receiveMsg 2 ['/', 't'] 0 1 8])).1 =
        [1, 2, 3, 4, 5, 6, 7, 8, 9, 10, 11, 12] ∧ ReceiveCorrect :=
  ⟨by decide, receive_correct⟩

end Agnocast
