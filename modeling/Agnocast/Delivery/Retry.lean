import Agnocast.Memory.Report

/-!
# Delivery — a receive or take that fails

RECEIVE_MSG and TAKE_MSG move the watermark and set reference bits first and
report the pools afterwards. The report can fail, and nothing is taken back.

* `FetchUndone`            — no bit, watermark, flag or mapped list has changed.
* `failed_fetch_undone_iff` — a failed call leaves all of them alone exactly when
  there was nothing to hand out anew and the report failed at the first pool that
  it would have recorded; the state is then the one before.
* `failed_receive_loses_entry` — a receive without room for the pools consumes the
  entry it does not return.
-/

namespace Agnocast

variable {σ σ' : Kmod} {t : TopicStruct} {s : SubscriberInfo}

/-- No reference bitmap, no watermark, no mapping flag and no mapped list differs. -/
structure FetchUndone (σ σ' : Kmod) : Prop where
  references : ∀ tp, (σ'.topicStructs tp).entries.map EntryNode.referencingSubscribers =
    (σ.topicStructs tp).entries.map EntryNode.referencingSubscribers
  watermarks : ∀ tp, (σ'.topicStructs tp).subInfoHtable.map SubscriberInfo.latestReceivedEntryId =
    (σ.topicStructs tp).subInfoHtable.map SubscriberInfo.latestReceivedEntryId
  flags : ∀ tp, (σ'.topicStructs tp).subInfoHtable.map SubscriberInfo.needMmapUpdate =
    (σ.topicStructs tp).subInfoHtable.map SubscriberInfo.needMmapUpdate
  mapped : ∀ i, σ'.mem.mapped i = σ.mem.mapped i

/-- Nothing is to be handed out that the subscriber does not hold already: RECEIVE_MSG
finds no deliverable entry past the watermark, and the oldest that TAKE_MSG may
return, if any, carries the subscriber's bit. -/
def NothingNew (σ : Kmod) (t : TopicStruct) (s : SubscriberInfo) : Call → Prop
  | .receiveMsg .. => deliveryWindow σ t s (s.latestReceivedEntryId + 1) = []
  | .takeMsg _ _ _ _ allowSameMessage _ =>
    ∀ en ∈ (deliveryWindow σ t s (takeFrom s allowSameMessage)).head?,
      s.id ∈ en.referencingSubscribers.bits
  | _ => True

/-- The failures that change nothing. -/
def FetchFailsClean (σ : Kmod) (env : Env) (call : Call) : Prop :=
  ∀ w s, fetchTarget σ call = some (w, s) →
    NothingNew σ (σ.topicStructs w.topic) s call ∧
      NoMemoryFirst σ env (σ.topicStructs w.topic) w.domainId s.pid s.isBridge σ.mem
        (σ.topicStructs w.topic).pubInfoHtable

/-! ## The hand-out -/

/-- Handing out what is held already changes nothing. -/
private theorem handOut_held (h : t.Consistent []) (hs : s ∈ t.subInfoHtable) {en : EntryNode}
    (hen : en ∈ t.entries) (hle : s.latestReceivedEntryId ≤ en.entryId)
    (hbit : s.id ∈ en.referencingSubscribers.bits) : t.handOut s.id [en.entryId] = t := by
  -- the bit bounds the entry by the watermark, so it is the last one received
  have hlast : en.entryId = s.latestReceivedEntryId := le_antisymm (h.bit_le hen hs hbit) hle
  have hsubs : HTable.modify SubscriberInfo.id s.id
      (fun s => { s with latestReceivedEntryId := en.entryId }) t.subInfoHtable =
        t.subInfoHtable := by
    refine (List.map_congr_left fun s' hs' => ?_).trans (List.map_id _)
    split
    · next hid =>
      rw [HTable.eq_of_key_eq h.subs_nodup hs' hs hid, hlast]
      rfl
    · rfl
  show (t.grant s.id [en.entryId]).modifySubscriber s.id
    (fun s => { s with latestReceivedEntryId := en.entryId }) = t
  rw [grant_of_mem h hen hbit]
  unfold TopicStruct.modifySubscriber
  rw [hsubs]

/-- A hand-out that sets no bit and moves no watermark hands out nothing, or one entry
that the subscriber holds. -/
private theorem handOut_same (h : t.Consistent []) (hs : s ∈ t.subInfoHtable)
    {batch : List EntryNode} (hbatch : batch.Sublist t.entries)
    (href : (t.handOut s.id (batch.map EntryNode.entryId)).entries.map
      EntryNode.referencingSubscribers = t.entries.map EntryNode.referencingSubscribers) :
    ∀ en ∈ batch, s.id ∈ en.referencingSubscribers.bits := by
  intro en hen
  rw [TopicStruct.handOut_entries] at href
  unfold TopicStruct.grant at href
  rw [List.map_map] at href
  have hpoint := List.map_inj_left.mp href en (hbatch.subset hen)
  simp only [Function.comp_apply] at hpoint
  rw [if_pos (List.mem_map_of_mem hen)] at hpoint
  rw [← hpoint, EntryNode.setBit_bits en (h.sub_inRange hs)]
  exact Finset.mem_insert_self ..

/-! ## The call -/

private theorem handOut_rule (t : TopicStruct) (b : Int) (ids : List Int) :
    (t.handOut b ids).rule = t.rule ∧ (t.handOut b ids).pubInfoHtable = t.pubInfoHtable := by
  unfold TopicStruct.handOut
  split <;> exact ⟨rfl, rfl⟩

private theorem fetchUndone_refl : FetchUndone σ σ :=
  ⟨fun _ => rfl, fun _ => rfl, fun _ => rfl, fun _ => rfl⟩

/-- A failed report after a hand-out: everything is as before iff the hand-out handed
out nothing new and the report recorded nothing. -/
private theorem undone_iff_of_report (hwf : σ.WellFormed) {env : Env} {w : TopicWrapper}
    (hs : s ∈ (σ.topicStructs w.topic).subInfoHtable) {batch : List EntryNode}
    (hbatch : batch.Sublist (σ.topicStructs w.topic).entries) {size : Nat} {e : Errno}
    {t' : TopicStruct} {m : MemoryAllocator} {new : Prop}
    (hreport : reportPublisherShm σ env w ((σ.topicStructs w.topic).handOut s.id
      (batch.map EntryNode.entryId)) s size = (.error e, t', m))
    (hnew : new ↔ ∀ en ∈ batch, s.id ∈ en.referencingSubscribers.bits)
    (hheld : new → (σ.topicStructs w.topic).handOut s.id (batch.map EntryNode.entryId) =
      σ.topicStructs w.topic) :
    (FetchUndone σ ((σ.setTopic w.topic t').setMem m) ↔
      new ∧ NoMemoryFirst σ env (σ.topicStructs w.topic) w.domainId s.pid s.isBridge σ.mem
        (σ.topicStructs w.topic).pubInfoHtable) ∧
    (FetchUndone σ ((σ.setTopic w.topic t').setMem m) →
      (σ.setTopic w.topic t').setMem m = σ) := by
  have hc := hwf.store w.topic
  obtain ⟨rfl, hmem, hsame⟩ := reportPublisherShm_error hreport
  obtain ⟨hrule, hpubs⟩ := handOut_rule (σ.topicStructs w.topic) s.id
    (batch.map EntryNode.entryId)
  rw [hpubs, noMemoryFirst_congr hrule] at hmem
  have htopic : ((σ.setTopic w.topic ((σ.topicStructs w.topic).handOut s.id
      (batch.map EntryNode.entryId))).setMem m).topicStructs w.topic =
        (σ.topicStructs w.topic).handOut s.id (batch.map EntryNode.entryId) :=
    Kmod.setTopic_self ..
  -- unchanged bits mean that nothing new was handed out
  have hfields : FetchUndone σ ((σ.setTopic w.topic ((σ.topicStructs w.topic).handOut s.id
      (batch.map EntryNode.entryId))).setMem m) → new ∧ m = σ.mem := by
    intro h
    have href := h.references w.topic
    rw [htopic] at href
    exact ⟨hnew.mpr (handOut_same hc hs hbatch href), hsame h.mapped⟩
  have hstate : new → m = σ.mem → (σ.setTopic w.topic ((σ.topicStructs w.topic).handOut s.id
      (batch.map EntryNode.entryId))).setMem m = σ := by
    intro hn hm
    rw [hheld hn, hm]
    unfold Kmod.setTopic
    rw [Function.update_eq_self]
    rfl
  refine ⟨⟨fun h => ?_, fun ⟨hn, hno⟩ => ?_⟩, fun h => ?_⟩
  · obtain ⟨hn, _⟩ := hfields h
    exact ⟨hn, hmem.mp h.mapped⟩
  · rw [hstate hn (hsame (hmem.mpr hno))]
    exact fetchUndone_refl
  · obtain ⟨hn, hm⟩ := hfields h
    exact hstate hn hm

/-- A receive holds all that it would hand out only if there is nothing: an entry past the
watermark cannot carry the bit. -/
private theorem deliveryWindow_eq_nil_iff (hc : t.Consistent []) (hs : s ∈ t.subInfoHtable) :
    deliveryWindow σ t s (s.latestReceivedEntryId + 1) = [] ↔
      ∀ en ∈ receiveBatch σ t s, s.id ∈ en.referencingSubscribers.bits := by
  constructor
  · intro hnew en hen
    have hen := List.mem_of_mem_take hen
    rw [hnew] at hen
    cases hen
  · intro hall
    unfold receiveBatch at hall
    cases hwindow : deliveryWindow σ t s (s.latestReceivedEntryId + 1) with
    | nil => rfl
    | cons en rest =>
      have hen : en ∈ deliveryWindow σ t s (s.latestReceivedEntryId + 1) :=
        hwindow ▸ List.mem_cons_self
      obtain ⟨hen, hlt, _⟩ := mem_deliveryWindow hen
      have hbit := hall en (by rw [hwindow]; exact List.mem_cons_self)
      have hle := hc.bit_le hen hs hbit
      omega

/-- What a take hands out is an entry that is not older than the watermark. -/
private theorem takeEntry_mem {allow : Bool} {en : EntryNode} (hen : en ∈ takeEntry σ t s allow) :
    en ∈ t.entries ∧ s.latestReceivedEntryId ≤ en.entryId := by
  obtain ⟨hen, hle, _⟩ := mem_deliveryWindow (List.mem_of_mem_head? hen)
  exact ⟨hen, (takeFrom_ge s allow).trans hle⟩

private theorem takeEntry_sublist (allow : Bool) :
    (takeEntry σ t s allow).toList.Sublist t.entries := by
  cases htake : takeEntry σ t s allow with
  | none => exact List.nil_sublist _
  | some en => exact List.singleton_sublist.mpr (takeEntry_mem htake).1

/-- A take of an entry that is held already changes nothing. -/
private theorem takeEntry_held (hc : t.Consistent []) (hs : s ∈ t.subInfoHtable) {allow : Bool}
    (hnew : ∀ en ∈ takeEntry σ t s allow, s.id ∈ en.referencingSubscribers.bits) :
    t.handOut s.id ((takeEntry σ t s allow).toList.map EntryNode.entryId) = t := by
  cases htake : takeEntry σ t s allow with
  | none => rfl
  | some en =>
    obtain ⟨hen, hle⟩ := takeEntry_mem htake
    exact handOut_held hc hs hen hle (hnew en htake)

/-- **A failed receive or take leaves everything alone** exactly when nothing new was
to be handed out and the report failed at the first pool that it would have recorded.
The state is then the one before the call, so a retry does what the call would have
done. -/
theorem failed_fetch_undone_iff (h : Reachable σ) {i : Input} (hfetch : i.call.isFetch = true)
    (hfail : (step σ i).1.isOk = false) :
    (FetchUndone σ (step σ i).2 ↔ FetchFailsClean σ i.env i.call) ∧
      (FetchUndone σ (step σ i).2 → (step σ i).2 = σ) := by
  have hwf := h.wellFormed
  cases ht : fetchTarget σ i.call with
  | none =>
    rw [(fetch_refused hwf i hfetch ht).1]
    refine ⟨iff_of_true fetchUndone_refl ?_, fun _ => rfl⟩
    intro w s hws
    rw [ht] at hws
    cases hws
  | some target =>
    obtain ⟨w, s⟩ := target
    -- the call has one target, so the condition is about that one
    have hclean : FetchFailsClean σ i.env i.call ↔
        NothingNew σ (σ.topicStructs w.topic) s i.call ∧
          NoMemoryFirst σ i.env (σ.topicStructs w.topic) w.domainId s.pid s.isBridge σ.mem
            (σ.topicStructs w.topic).pubInfoHtable := by
      refine ⟨fun h => h w s ht, fun h w' s' hws => ?_⟩
      rw [ht] at hws
      obtain ⟨rfl, rfl⟩ := Prod.mk.inj (Option.some.inj hws)
      exact h
    rw [hclean]
    obtain ⟨env, call⟩ := i
    cases call with
    | receiveMsg current topicName ipcNs id size =>
      rcases receiveMsg_cases hwf env current topicName ipcNs id size with
        ⟨heq, hnone⟩ | ⟨w', s', ret, t', m, hw, hs, hreport, heq⟩
      · rw [fetchTarget_eq_none size hnone] at ht
        cases ht
      have hws := Option.some.inj ((fetchTarget_receiveMsg hw hs).symm.trans ht)
      obtain ⟨rfl, rfl⟩ := Prod.mk.inj hws
      have hmem := (HTable.mem_of_lookup hs).1
      have hstep : step σ ⟨env, .receiveMsg current topicName ipcNs id size⟩ = _ :=
        congrArg (answer Reply.received) heq
      rw [hstep] at hfail ⊢
      cases ret with
      | ok infos => cases hfail
      | error e =>
        -- the report comes after the entries have been handed out
        refine undone_iff_of_report hwf hmem
          ((List.take_sublist _ _).trans (deliveryWindow_sublist _)) hreport
          (deliveryWindow_eq_nil_iff (hwf.store w'.topic) hmem) fun hnew => ?_
        have hnew : deliveryWindow σ (σ.topicStructs w'.topic) s'
          (s'.latestReceivedEntryId + 1) = [] := hnew
        rw [hnew]
        rfl
    | takeMsg current topicName ipcNs id allow size =>
      rcases takeMsg_cases hwf env current topicName ipcNs id allow size with
        ⟨heq, hnone⟩ | ⟨w', s', ret, t', m, hw, hs, hreport, heq⟩
      · have := (fetchTarget_eq_none size hnone).symm.trans ht
        cases this
      have hws := Option.some.inj ((fetchTarget_takeMsg hw hs).symm.trans ht)
      obtain ⟨rfl, rfl⟩ := Prod.mk.inj hws
      have hmem := (HTable.mem_of_lookup hs).1
      have hstep : step σ ⟨env, .takeMsg current topicName ipcNs id allow size⟩ = _ :=
        congrArg (answer Reply.taken) heq
      rw [hstep] at hfail ⊢
      cases ret with
      | ok infos => cases hfail
      | error e =>
        exact undone_iff_of_report hwf hmem (takeEntry_sublist allow) hreport
          (forall_congr' fun en => imp_congr_left Option.mem_toList.symm)
          fun hnew => takeEntry_held (hwf.store w'.topic) hmem hnew
    | _ => cases hfetch

/-- A subscriber that has not received the one entry of another process yet. -/
def waitingSubscriber : Kmod :=
  (runOf 2 [.addProcess 1 0 0 0, .addProcess 2 0 0 0,
    .addPublisher ['/', 't'] 0 ⟨[], 1, 1, false, false⟩,
    .addSubscriber ['/', 't'] 0 ⟨[], 2, 1, false, true, false, false, false⟩ 7,
    .publishMsg 1 ['/', 't'] 0 0 16]).2

theorem reachable_waitingSubscriber : Reachable waitingSubscriber :=
  reachable_runOf (by decide) (by decide) _

/-- Its receive fails without memory for the record of the pool. -/
theorem failed_fetch_without_memory :
    let i : Input := ⟨{ Env.smooth with kmalloc := fun s => s ≠ .mappedPidOf 0 },
      .receiveMsg 2 ['/', 't'] 0 1 8⟩
    (step waitingSubscriber i).1.isOk = false ∧
      (FetchUndone waitingSubscriber (step waitingSubscriber i).2 ↔
        FetchFailsClean waitingSubscriber i.env i.call) :=
  ⟨rfl, (failed_fetch_undone_iff reachable_waitingSubscriber rfl rfl).1⟩

/-- **A failed receive loses an entry**: without room for the pool the call answers
ENOBUFS, but the watermark has passed the entry, whose bit is set, and the pool counts
as mapped. -/
theorem failed_receive_loses_entry :
    ¬ ∀ (σ : Kmod) (i : Input), Reachable σ → i.call.isFetch = true →
      (step σ i).1.isOk = false → FetchUndone σ (step σ i).2 := by
  intro h
  have hundone := h waitingSubscriber ⟨.smooth, .receiveMsg 2 ['/', 't'] 0 1 0⟩
    reachable_waitingSubscriber rfl rfl
  exact absurd (hundone.watermarks 0) (by decide)

end Agnocast
