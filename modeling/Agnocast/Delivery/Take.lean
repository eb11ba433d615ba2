import Agnocast.Delivery.Receive

/-!
# Delivery — what TAKE_MSG returns

The specification is again two filters of the entry tree: `takeable` are the entries past the
subscriber's watermark, or also at it when the same message is allowed, that the delivery test
accepts, and `takeWindow` the newest `qos_depth` of them.

* `takeMsg_ok`     — one successful call returns the oldest of `takeWindow`, if there is one.
* `handed_covered` — what a call hands out is past the watermark and covered by it afterwards.
* `take_correct`   — both, and what follows for runs that mix receives and takes.
-/

namespace Agnocast

variable {σ σ' : Kmod} {t t' : TopicStruct} {s s' : SubscriberInfo}

/-! ## The specification -/

/-- The entries past the watermark, or at it if `allow`, that `is_entry_deliverable` accepts. -/
def takeable (σ : Kmod) (t : TopicStruct) (s : SubscriberInfo) (allow : Bool) : List EntryNode :=
  t.entries.filter fun en =>
    (if allow then s.latestReceivedEntryId ≤ en.entryId else s.latestReceivedEntryId < en.entryId) ∧
      isEntryDeliverable σ t s en = .ok true

/-- The newest `qos_depth` takeable entries, or all if there are fewer. -/
def takeWindow (σ : Kmod) (t : TopicStruct) (s : SubscriberInfo) (allow : Bool) :
    List EntryNode := (takeable σ t s allow).rtake s.qosDepth

theorem length_takeWindow (allow : Bool) :
    (takeWindow σ t s allow).length = min (takeable σ t s allow).length s.qosDepth := by
  rw [takeWindow, List.rtake, List.length_drop]
  omega

/-- The window of the implementation is the specified one. -/
theorem takeWindow_eq (allow : Bool) :
    takeWindow σ t s allow = deliveryWindow σ t s (takeFrom s allow) := by
  unfold takeWindow takeable deliveryWindow Window.window
  congr 1
  refine List.filter_congr fun en _ => ?_
  rw [accepts_eq, Bool.eq_iff_iff]
  simp only [decide_eq_true_eq, Bool.and_eq_true, Bool.not_eq_true', decide_eq_false_iff_not,
    Int.not_lt]
  refine and_congr_left' ?_
  cases allow
  · exact Int.lt_iff_add_one_le
  · exact Iff.rfl

theorem takeEntry_eq (allow : Bool) : takeEntry σ t s allow = (takeWindow σ t s allow).head? := by
  rw [takeWindow_eq]
  rfl

/-! ## One call -/

/-- **One successful TAKE_MSG** in a well-formed state, with the subscriber it leaves behind. -/
theorem takeMsg_ok (h : σ.WellFormed) {env : Env} {current : Pid} {topicName : Name}
    {ipcNs : IpcNs} {id : Int} {allow : Bool} {size : Nat} {taken : Option (Int × Nat)}
    {infos : List PublisherShmInfo}
    (hok : takeMsg σ env current topicName ipcNs id allow size = (.ok (taken, infos), σ')) :
    ∃ w s s' entry, findTopicForCurrent σ current topicName ipcNs = some w ∧
      findSubscriberInfo (σ.topicStructs w.topic) id = some s ∧
      findSubscriberInfo (σ'.topicStructs w.topic) id = some s' ∧
      entry = (takeWindow σ (σ.topicStructs w.topic) s allow).head? ∧
      taken = entry.map (fun en => (en.entryId, en.msgVirtualAddress)) ∧ SameSubscriber s s' ∧
      s'.latestReceivedEntryId = (entry.map EntryNode.entryId).getD s.latestReceivedEntryId ∧
      (σ'.topicStructs w.topic).entries =
        ((σ.topicStructs w.topic).grant id (entry.toList.map EntryNode.entryId)).entries := by
  rcases takeMsg_cases h env current topicName ipcNs id allow size with
    ⟨heq, _⟩ | ⟨w, s, ret, t', m, hw, hs, hr, heq⟩
  · rw [heq] at hok
    cases hok
  rw [heq] at hok
  obtain ⟨hret, rfl⟩ := Prod.mk.inj hok
  obtain ⟨_, rfl⟩ := HTable.mem_of_lookup hs
  cases ret with
  | error e => cases hret
  | ok infos' =>
    cases hret
    have hself : ((σ.setTopic w.topic t').setMem m).topicStructs w.topic = t' :=
      Kmod.setTopic_self ..
    rw [takeEntry_eq] at hr ⊢
    -- the report changes a flag of the subscriber, not its watermark
    obtain ⟨s', hs', hsame, hlatest⟩ := reported_subscriber hr (handOut_subscriber hs)
    have hentries : t'.entries = ((σ.topicStructs w.topic).grant s.id
        ((takeWindow σ (σ.topicStructs w.topic) s allow).head?.toList.map EntryNode.entryId)).entries := by
      rw [← TopicStruct.handOut_entries]
      rcases reportPublisherShm_topic hr with rfl | rfl <;> rfl
    have hmark : ∀ last, SameSubscriber s { s with latestReceivedEntryId := last } := fun _ => rfl
    refine ⟨w, s, s', _, hw, hs, ?_, rfl, rfl, (hmark _).trans hsame, ?_, ?_⟩
    · rw [hself]
      exact hs'
    · rw [hlatest]
      cases (takeWindow σ (σ.topicStructs w.topic) s allow).head? <;> rfl
    · rw [hself, hentries]

/-! ## Through a run -/

/-- The ids that an event hands out to one subscriber of one topic. -/
def handedBy (tp : Nat) (id : Int) (ev : Event) : List Int :=
  ((handouts ev).filter fun ho => ho.topic = tp && ho.subscriberId = id).map Handout.entryId

/-- The call is a TAKE_MSG that may hand out the same message again. -/
def Call.allowsSameMessage : Call → Bool
  | .takeMsg _ _ _ _ allow _ => allow
  | _ => false

theorem takes_nothing {ev : Event} {r : Except Errno (Option (Int × Nat) × List PublisherShmInfo)}
    (hout : ev.output = .taken r) (hr : ∀ e infos, r ≠ .ok (some e, infos)) : handouts ev = [] := by
  unfold handouts
  rw [hout]
  split
  · next heq => cases heq
  · next heq => exact absurd (Reply.taken.inj heq) (hr _ _)
  · rfl

/-- Unless the same message is allowed, only what is past the watermark is handed out. -/
theorem handed_past (h : σ.WellFormed) {i : Input} (hallow : i.call.allowsSameMessage = false)
    {ho : Handout} (hho : ho ∈ handouts (eventOf σ i))
    (hs : findSubscriberInfo (σ.topicStructs ho.topic) ho.subscriberId = some s) :
    s.latestReceivedEntryId < ho.entryId := by
  obtain ⟨env, call⟩ := i
  cases htake : call.isTake with
  -- a receive hands out its window, which begins behind the watermark
  | false =>
    obtain ⟨w, s₀, batch, infos, t', m, _, hf, en, hen, rfl⟩ := handout_cases h hho
    have hs₀ : findSubscriberInfo (σ.topicStructs w.topic) s₀.id = some s₀ :=
      HTable.lookup_self (h.store w.topic).subs_nodup hf.subscriber
    obtain rfl := Option.some.inj (hs₀.symm.trans hs)
    rw [hf.received htake] at hen
    exact Int.add_one_le_iff.mp (mem_deliveryWindow (List.mem_of_mem_take hen)).2.1
  | true =>
    cases call with
    | takeMsg current topicName ipcNs id allow size =>
      -- so does a take that may not repeat the last message
      obtain rfl : allow = false := hallow
      cases htaken : takeMsg σ env current topicName ipcNs id false size with
      | mk ret σ' =>
        have hout : (eventOf σ ⟨env, .takeMsg current topicName ipcNs id false size⟩).output =
            .taken ret := congrArg (fun r => Reply.taken (Prod.fst r)) htaken
        rcases ret with e | ⟨_ | e, infos⟩
        · rw [takes_nothing hout (by simp)] at hho
          cases hho
        · rw [takes_nothing hout (by simp)] at hho
          cases hho
        · obtain ⟨w, s₀, _, entry, hw, hs₀, _, hentry, htaken, _⟩ := takeMsg_ok h htaken
          obtain ⟨en, hen, rfl⟩ := Option.map_eq_some_iff.mp htaken.symm
          have hhanded : handouts (eventOf σ ⟨env, .takeMsg current topicName ipcNs id false size⟩) =
              [⟨w.topic, id, en.entryId, en.msgVirtualAddress⟩] := by
            unfold handouts
            rw [hout]
            dsimp only [eventOf]
            rw [hw]
          rw [hhanded] at hho
          obtain rfl := List.mem_singleton.mp hho
          obtain rfl := Option.some.inj (hs₀.symm.trans hs)
          have hmem := List.mem_of_mem_head? (hentry.symm.trans hen)
          rw [takeWindow_eq] at hmem
          exact Int.add_one_le_iff.mp (mem_deliveryWindow hmem).2.1
    | _ => cases htake

/-- **What an event hands out** is past the watermark of its subscriber, unless the same message
is allowed, and covered by the watermark afterwards. -/
theorem handed_covered (h : Reachable σ) (tp : Nat) (id : Int) (i : Input) :
    (handedBy tp id (eventOf σ i)).Pairwise (· < ·) ∧ ∀ x ∈ handedBy tp id (eventOf σ i),
      ∃ s ∈ (σ.topicStructs tp).subInfoHtable, s.id = id ∧
        (i.call.allowsSameMessage = false → s.latestReceivedEntryId < x) ∧
        ∀ s' ∈ ((step σ i).2.topicStructs tp).subInfoHtable, s'.id = id →
          x ≤ s'.latestReceivedEntryId := by
  constructor
  · cases ht : fetchTarget σ i.call with
    | none =>
      rw [handedBy, handouts_eq_nil h.wellFormed i ht]
      exact .nil
    | some target =>
      obtain ⟨w, s⟩ := target
      obtain ⟨batch, ret, t', m, hf⟩ := fetch_cases h.wellFormed i ht
      refine List.Pairwise.map _ (fun _ _ hlt => hlt) (List.Pairwise.filter _ ?_)
      rw [hf.handed]
      split
      · exact List.pairwise_map.mpr ((h.wellFormed.store w.topic).sorted.sublist hf.sublist)
      · exact .nil
  · intro x hx
    obtain ⟨ho, hho, rfl⟩ := List.mem_map.mp hx
    obtain ⟨hmem, hkey⟩ := List.mem_filter.mp hho
    simp only [Bool.and_eq_true, decide_eq_true_eq] at hkey
    obtain ⟨rfl, rfl⟩ := hkey
    obtain ⟨w, s, batch, infos, t', m, _, hf, en, hen, rfl⟩ := handout_cases h.wellFormed hmem
    refine ⟨s, hf.subscriber, rfl, fun hallow => ?_, fun s' hs' hid => ?_⟩
    · exact handed_past h.wellFormed hallow hmem
        (HTable.lookup_self (h.wellFormed.store w.topic).subs_nodup hf.subscriber)
    · obtain ⟨en', hen', hsame, hbit⟩ := hf.granted h.wellFormed hen
      rw [← hf.topic] at hen'
      have hc' : ((step σ i).2.topicStructs w.topic).Consistent [] :=
        (h.wellFormed.step i).store w.topic
      rw [← hsame.entryId_eq]
      exact hc'.bit_le hen' hs' (hid ▸ hbit)

theorem handedOut_cons (tp : Nat) (id : Int) (ev : Event) (tr : List Event) :
    handedOut tp id (ev :: tr) = handedOut tp id tr ++ handedBy tp id ev := rfl

/-- The watermark of a subscriber covers all that it was handed. -/
theorem handedOut_covered {tp : Nat} {id : Int} {G : Kmod → Input → Prop} {tr : List Event}
    (hr : Transition.Run kmod G tr σ) : ∀ x ∈ handedOut tp id tr,
      id < (σ.topicStructs tp).currentPubsubId ∧
      ∀ s ∈ (σ.topicStructs tp).subInfoHtable, s.id = id → x ≤ s.latestReceivedEntryId := by
  refine hr.history (P := fun tr σ => ∀ x ∈ handedOut tp id tr,
    id < (σ.topicStructs tp).currentPubsubId ∧
      ∀ s ∈ (σ.topicStructs tp).subInfoHtable, s.id = id → x ≤ s.latestReceivedEntryId)
    (fun _ _ => nofun) fun tr σ i hr ih _ x hx => ?_
  have h : Reachable σ := hr.reachable
  rw [handedOut_cons] at hx
  rcases List.mem_append.mp hx with hx | hx
  · exact watermark_step h i (ih x hx).1 (ih x hx).2
  · obtain ⟨s, hs, rfl, _, hcovered⟩ := (handed_covered h tp id i).2 x hx
    have hlt : s.id < (σ.topicStructs tp).currentPubsubId := ((h.wellFormed.store tp).sub_id s hs).2
    exact ⟨hlt.trans_le (h.evolves i tp).pubsubId, hcovered⟩

/-- **Watermarks only grow**: between a state of a run and a later one. -/
theorem watermark_le_run {tp : Nat} {id : Int} {G : Kmod → Input → Prop} {ev : Event}
    {later before : List Event} (hr : Transition.Run kmod G (later ++ ev :: before) σ)
    (hs : s ∈ (ev.pre.topicStructs tp).subInfoHtable) (hid : s.id = id) :
    ∀ s' ∈ (σ.topicStructs tp).subInfoHtable, s'.id = id →
      s.latestReceivedEntryId ≤ s'.latestReceivedEntryId := by
  have hpre : Reachable ev.pre := hr.event.1.reachable
  have hlt : id < (ev.pre.topicStructs tp).currentPubsubId :=
    hid ▸ ((hpre.wellFormed.store tp).sub_id s hs).2
  have hmark : ∀ s' ∈ (ev.pre.topicStructs tp).subInfoHtable, s'.id = id →
      s.latestReceivedEntryId ≤ s'.latestReceivedEntryId := fun s' hs' hid' => by
    rw [HTable.eq_of_key_eq (hpre.wellFormed.store tp).subs_nodup hs' hs (hid'.trans hid.symm)]
  refine (hr.since (P := fun _ σ => id < (σ.topicStructs tp).currentPubsubId ∧
    ∀ s' ∈ (σ.topicStructs tp).subInfoHtable, s'.id = id →
      s.latestReceivedEntryId ≤ s'.latestReceivedEntryId) (fun σ hr => ?_)
    fun later σ i hr ih _ => watermark_step hr.reachable i ih.1 ih.2).2
  cases hr with
  | step i _ _ => exact watermark_step hpre i hlt hmark

/-! ## All of it -/

/-- What TAKE_MSG owes to a subscriber, with `T = takeable` and `W = takeWindow`:

1. a successful call returns nothing iff `W`, the newest `min |T| qos_depth` of `T`, is empty, else
   the oldest entry of `W`; it sets the subscriber's bit on just this entry, and moves the
   watermark to it;
2. through a run of any calls the watermark never decreases;
3. what a receive hands out, or a take that does not allow the same message, was not handed out to
   the subscriber before. -/
structure TakeCorrect : Prop where
  one : ∀ σ, Reachable σ → ∀ env current topicName ipcNs id allow size taken infos σ',
    takeMsg σ env current topicName ipcNs id allow size = (.ok (taken, infos), σ') →
    ∃ w s s' W, findTopicForCurrent σ current topicName ipcNs = some w ∧
      findSubscriberInfo (σ.topicStructs w.topic) id = some s ∧
      findSubscriberInfo (σ'.topicStructs w.topic) id = some s' ∧
      W = takeWindow σ (σ.topicStructs w.topic) s allow ∧
      W.length = min (takeable σ (σ.topicStructs w.topic) s allow).length s.qosDepth ∧
      W <:+ takeable σ (σ.topicStructs w.topic) s allow ∧
      W.Pairwise (fun a b => a.entryId < b.entryId) ∧
      (taken = none ↔ W = []) ∧
      taken = W.head?.map (fun en => (en.entryId, en.msgVirtualAddress)) ∧
      List.Forall₂ (fun en en' => SameEntry en en' ∧ en'.referencingSubscribers.bits =
          if W.head? = some en then insert id en.referencingSubscribers.bits
          else en.referencingSubscribers.bits)
        (σ.topicStructs w.topic).entries (σ'.topicStructs w.topic).entries ∧
      s'.latestReceivedEntryId = (W.head?.map EntryNode.entryId).getD s.latestReceivedEntryId
  monotone : ∀ later ev before σ, Transition.Run kmod Transition.anyStep (later ++ ev :: before) σ →
    ∀ tp, ∀ s ∈ (ev.pre.topicStructs tp).subInfoHtable, ∀ s' ∈ (σ.topicStructs tp).subInfoHtable,
      s'.id = s.id → s.latestReceivedEntryId ≤ s'.latestReceivedEntryId
  once : ∀ ev before σ, Transition.Run kmod Transition.anyStep (ev :: before) σ →
    ev.input.call.allowsSameMessage = false → ∀ tp id, (handedBy tp id ev).Nodup ∧
      ∀ x ∈ handedBy tp id ev, x ∉ handedOut tp id before

/-- **TAKE_MSG delivers**: every call, and every run of receives and takes among other calls. -/
theorem take_correct : TakeCorrect where
  one σ h env current topicName ipcNs id allow size taken infos σ' hok := by
    obtain ⟨w, s, s', entry, hw, hs, hs', hentry, htaken, _, hlatest, hentries⟩ :=
      takeMsg_ok h.wellFormed hok
    obtain ⟨hmem, rfl⟩ := HTable.mem_of_lookup hs
    have hc := h.wellFormed.store w.topic
    have hsub : (takeWindow σ (σ.topicStructs w.topic) s allow).Sublist
        (σ.topicStructs w.topic).entries := by
      rw [takeWindow_eq]
      exact deliveryWindow_sublist _
    subst hentry
    refine ⟨w, s, s', _, hw, hs, hs', rfl, length_takeWindow allow, List.drop_suffix _ _,
      hc.sorted.sublist hsub, ?_, htaken, ?_, hlatest⟩
    · rw [htaken, Option.map_eq_none_iff, List.head?_eq_none_iff]
    · rw [hentries]
      have hbatch : ∀ en ∈ (takeWindow σ (σ.topicStructs w.topic) s allow).head?.toList,
          en ∈ (σ.topicStructs w.topic).entries := fun en hen =>
        hsub.subset (List.mem_of_mem_head? (Option.mem_toList.mp hen))
      -- only the entry that is handed out gets the bit
      have hall := grant_forall₂ hc (hc.sub_inRange hmem) hbatch
      refine hall.imp fun en en' hsame => ?_
      simpa only [Option.mem_toList, Option.mem_def] using hsame
  monotone later ev before σ hr tp s hs s' hs' hid := watermark_le_run hr hs rfl s' hs' hid
  once ev before σ hr hallow tp id := by
    have hr' : Transition.Run kmod Transition.anyStep ([] ++ ev :: before) σ := hr
    obtain ⟨hbefore, _, hout, _⟩ := hr'.event
    have hev : ev = eventOf ev.pre ev.input := by
      cases ev
      exact congrArg _ hout
    -- what is handed out now is past the watermark, and what was before is not
    obtain ⟨hsorted, hcovered⟩ := handed_covered hbefore.reachable tp id ev.input
    rw [← hev] at hsorted hcovered
    refine ⟨hsorted.imp fun hlt => hlt.ne, fun x hx hold => ?_⟩
    obtain ⟨s, hs, hid, hpast, _⟩ := hcovered x hx
    have hle := (handedOut_covered hbefore x hold).2 s hs hid
    have hlt := hpast hallow
    omega

/-- A subscriber of depth two: a take gets the older of the newest two entries, again if the same
message is allowed, and a receive the other. -/
theorem take_correct_mixed :
    handedOut 0 1 (runOf 2 [.addProcess 1 0 0 0, .addProcess 2 0 0 0,
      .addPublisher ['/', 't'] 0 ⟨[], 1, 5, false, false⟩,
      .addSubscriber ['/', 't'] 0 ⟨[], 2, 2, false, true, true, false, false⟩ 7,
      .publishMsg 1 ['/', 't'] 0 0 16, .publishMsg 1 ['/', 't'] 0 0 17,
      .publishMsg 1 ['/', 't'] 0 0 18, .takeMsg 2 ['/', 't'] 0 1 false 8,
      .takeMsg 2 ['/', 't'] 0 1 true 8, .receiveMsg 2 ['/', 't'] 0 1 8]).1 = [2, 2, 3] ∧
    TakeCorrect :=
  ⟨by decide, take_correct⟩

end Agnocast
