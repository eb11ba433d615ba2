import Agnocast.Kmod.Ioctl
import Agnocast.Store.Endpoint
import Agnocast.Store.Loops

/-!
# The store — consistency of one topic

`TopicStruct.Consistent leaving t` ties the four linked structures of a topic
together: the entry tree, the two endpoint tables and the reference bitmaps.
`leaving` holds the ids of subscribers that are unlinked already but whose bits
are still being cleared; between two calls it is empty.

Every operation on a topic keeps it. The ones here work on endpoints, publish and
release; what a receive or a take does is in `Store/Delivery.lean`.
-/

namespace Agnocast

variable {σ : Kmod} {t : TopicStruct} {leaving : List Int}

/-- The store of a topic is consistent. -/
structure TopicStruct.Consistent (leaving : List Int) (t : TopicStruct) : Prop where
  sorted : t.entries.Pairwise fun a b => a.entryId < b.entryId
  entry_lt : ∀ en ∈ t.entries, en.entryId < t.currentEntryId
  publisher : ∀ en ∈ t.entries, ∃ p ∈ t.pubInfoHtable, p.id = en.publisherId
  counted : ∀ p ∈ t.pubInfoHtable, p.entriesNum = entriesOf p.id t.entries
  holder : ∀ en ∈ t.entries, ∀ b ∈ en.referencingSubscribers.bits,
    b ∈ leaving ∨ ∃ s ∈ t.subInfoHtable, s.id = b ∧ en.entryId ≤ s.latestReceivedEntryId
  ids_nodup : (t.pubInfoHtable.map PublisherInfo.id ++ t.subInfoHtable.map SubscriberInfo.id).Nodup
  pub_id : ∀ p ∈ t.pubInfoHtable, 0 ≤ p.id ∧ p.id < t.currentPubsubId
  sub_id : ∀ s ∈ t.subInfoHtable, 0 ≤ s.id ∧ s.id < t.currentPubsubId
  pubsubId_le : 0 ≤ t.currentPubsubId ∧ t.currentPubsubId ≤ maxTopicLocalId
  entryId_nonneg : 0 ≤ t.currentEntryId
  watermark : ∀ s ∈ t.subInfoHtable,
    -1 ≤ s.latestReceivedEntryId ∧ s.latestReceivedEntryId < t.currentEntryId

namespace TopicStruct.Consistent

/-! ## Reading it -/

theorem pubs_nodup (h : t.Consistent leaving) : (t.pubInfoHtable.map PublisherInfo.id).Nodup :=
  (List.nodup_append.mp h.ids_nodup).1

theorem subs_nodup (h : t.Consistent leaving) : (t.subInfoHtable.map SubscriberInfo.id).Nodup :=
  (List.nodup_append.mp h.ids_nodup).2.1

theorem entries_nodup (h : t.Consistent leaving) : (t.entries.map EntryNode.entryId).Nodup :=
  List.pairwise_map.mpr (h.sorted.imp ne_of_lt)

theorem sub_inRange (h : t.Consistent leaving) {s : SubscriberInfo} (hs : s ∈ t.subInfoHtable) :
    inBitmapRange s.id :=
  ⟨(h.sub_id s hs).1, (h.sub_id s hs).2.trans_le h.pubsubId_le.2⟩

/-- Only the holder's own bit stands for it: every other subscriber's watermark
bounds the entries it references. -/
theorem bit_le (h : t.Consistent []) {en : EntryNode} (hen : en ∈ t.entries) {s : SubscriberInfo}
    (hs : s ∈ t.subInfoHtable) (hb : s.id ∈ en.referencingSubscribers.bits) :
    en.entryId ≤ s.latestReceivedEntryId := by
  rcases h.holder en hen s.id hb with hb | ⟨s', hs', hid, hle⟩
  · simp at hb
  · rwa [HTable.eq_of_key_eq h.subs_nodup hs' hs hid] at hle

/-- The publisher of an entry is found. -/
theorem findPublisherInfo_entry (h : t.Consistent leaving) {en : EntryNode} (hen : en ∈ t.entries) :
    ∃ p ∈ t.pubInfoHtable, findPublisherInfo t en.publisherId = some p := by
  obtain ⟨p, hp, hid⟩ := h.publisher en hen
  exact ⟨p, hp, (HTable.lookup_eq_some_iff h.pubs_nodup).mpr ⟨hp, hid⟩⟩

/-! ## Changes it does not see -/

/-- Consistency does not look at qos, names, processes, notify lists, mappings or
wrappers. -/
theorem of_same {t' : TopicStruct} (h : t.Consistent leaving) (hentries : t'.entries = t.entries)
    (hpubs : t'.pubInfoHtable.map (fun p => (p.id, p.entriesNum)) =
      t.pubInfoHtable.map fun p => (p.id, p.entriesNum))
    (hsubs : t'.subInfoHtable.map (fun s => (s.id, s.latestReceivedEntryId)) =
      t.subInfoHtable.map fun s => (s.id, s.latestReceivedEntryId))
    (hpubsub : t'.currentPubsubId = t.currentPubsubId)
    (hentry : t'.currentEntryId = t.currentEntryId) : t'.Consistent leaving := by
  -- the nodes correspond, in both directions
  have hpub : ∀ p' ∈ t'.pubInfoHtable, ∃ p ∈ t.pubInfoHtable, p.id = p'.id ∧
      p.entriesNum = p'.entriesNum := by
    intro p' hp'
    obtain ⟨p, hp, heq⟩ := HTable.exists_of_map_eq hpubs hp'
    exact ⟨p, hp, (Prod.mk.inj heq).1, (Prod.mk.inj heq).2⟩
  have hpub' : ∀ p ∈ t.pubInfoHtable, ∃ p' ∈ t'.pubInfoHtable, p'.id = p.id := by
    intro p hp
    obtain ⟨p', hp', heq⟩ := HTable.exists_of_map_eq hpubs.symm hp
    exact ⟨p', hp', (Prod.mk.inj heq).1⟩
  have hsub : ∀ s' ∈ t'.subInfoHtable, ∃ s ∈ t.subInfoHtable, s.id = s'.id ∧
      s.latestReceivedEntryId = s'.latestReceivedEntryId := by
    intro s' hs'
    obtain ⟨s, hs, heq⟩ := HTable.exists_of_map_eq hsubs hs'
    exact ⟨s, hs, (Prod.mk.inj heq).1, (Prod.mk.inj heq).2⟩
  have hsub' : ∀ s ∈ t.subInfoHtable, ∃ s' ∈ t'.subInfoHtable, s'.id = s.id ∧
      s'.latestReceivedEntryId = s.latestReceivedEntryId := by
    intro s hs
    obtain ⟨s', hs', heq⟩ := HTable.exists_of_map_eq hsubs.symm hs
    exact ⟨s', hs', (Prod.mk.inj heq).1, (Prod.mk.inj heq).2⟩
  have hids : t'.pubInfoHtable.map PublisherInfo.id ++ t'.subInfoHtable.map SubscriberInfo.id =
      t.pubInfoHtable.map PublisherInfo.id ++ t.subInfoHtable.map SubscriberInfo.id := by
    have h1 := congrArg (List.map Prod.fst) hpubs
    have h2 := congrArg (List.map Prod.fst) hsubs
    simp only [List.map_map] at h1 h2
    exact congrArg₂ _ h1 h2
  constructor
  · rw [hentries]
    exact h.sorted
  · rw [hentries, hentry]
    exact h.entry_lt
  · intro en hen
    rw [hentries] at hen
    obtain ⟨p, hp, hid⟩ := h.publisher en hen
    obtain ⟨p', hp', hid'⟩ := hpub' p hp
    exact ⟨p', hp', hid'.trans hid⟩
  · intro p' hp'
    obtain ⟨p, hp, hid, hnum⟩ := hpub p' hp'
    rw [← hnum, ← hid, hentries]
    exact h.counted p hp
  · intro en hen b hb
    rw [hentries] at hen
    rcases h.holder en hen b hb with hb | ⟨s, hs, hid, hle⟩
    · exact .inl hb
    · obtain ⟨s', hs', hid', hlatest⟩ := hsub' s hs
      exact .inr ⟨s', hs', hid'.trans hid, hlatest ▸ hle⟩
  · rw [hids]
    exact h.ids_nodup
  · intro p' hp'
    obtain ⟨p, hp, hid, _⟩ := hpub p' hp'
    rw [← hid, hpubsub]
    exact h.pub_id p hp
  · intro s' hs'
    obtain ⟨s, hs, hid, _⟩ := hsub s' hs'
    rw [← hid, hpubsub]
    exact h.sub_id s hs
  · rw [hpubsub]
    exact h.pubsubId_le
  · rw [hentry]
    exact h.entryId_nonneg
  · intro s' hs'
    obtain ⟨s, hs, _, hlatest⟩ := hsub s' hs'
    rw [← hlatest, hentry]
    exact h.watermark s hs

theorem rebuildAllNotifyLists (h : t.Consistent leaving) :
    (rebuildAllNotifyLists σ t).Consistent leaving :=
  h.of_same rfl (by simp [Agnocast.rebuildAllNotifyLists, rebuildNotifyList]) rfl rfl rfl

theorem requestMmapUpdate (h : t.Consistent leaving) : t.requestMmapUpdate.Consistent leaving :=
  h.of_same rfl rfl (by simp [TopicStruct.requestMmapUpdate]) rfl rfl

theorem mapped (h : t.Consistent leaving) (id : Int) (b : Bool) :
    (t.modifySubscriber id fun s => { s with needMmapUpdate := b }).Consistent leaving :=
  h.of_same rfl rfl (HTable.map_modify (fun _ => by rfl) _) rfl rfl

theorem grown (h : t.Consistent leaving) {pubs : List PublisherInfo}
    (hpubs : List.Forall₂ GrownNotify t.pubInfoHtable pubs) :
    ({ t with pubInfoHtable := pubs } : TopicStruct).Consistent leaving :=
  h.of_same rfl (map_eq_of_grownNotify (fun _ _ => rfl) hpubs) rfl rfl rfl

/-! ## Creation and release -/

theorem blank : TopicStruct.blank.Consistent [] := by
  constructor <;> simp [TopicStruct.blank, maxTopicLocalId]

theorem new (rule : Option Nat) : (TopicStruct.new rule).Consistent [] :=
  blank.of_same rfl rfl rfl rfl rfl

theorem withRefcnt (h : t.Consistent leaving) (n : Nat) :
    ({ t with wrapperRefcnt := n } : TopicStruct).Consistent leaving :=
  h.of_same rfl rfl rfl rfl rfl

theorem tearDown (h : t.Consistent leaving) : t.tearDown.Consistent leaving := by
  constructor <;> simp [TopicStruct.tearDown, h.pubsubId_le, h.entryId_nonneg]

theorem dropRef (h : t.Consistent leaving) : t.dropRef.Consistent leaving := by
  unfold TopicStruct.dropRef
  simp only
  split
  · exact (h.withRefcnt _).tearDown
  · exact h.withRefcnt _

/-! ## Endpoints join -/

private theorem joinSubscriber (h : t.Consistent leaving) {pubs : List PublisherInfo}
    (hpubs : List.Forall₂ GrownNotify t.pubInfoHtable pubs) (hlt : t.currentPubsubId < maxTopicLocalId)
    (place domainId : Nat) (args : SubscriberArgs) (ctx : Option EventfdCtx) :
    (t.joinSubscriber pubs place (newSubscriberInfo t domainId args ctx)).Consistent leaving := by
  have hg := h.grown hpubs
  have hcur := h.entryId_nonneg
  have hentry : t.currentEntryId ≤
      (t.joinSubscriber pubs place (newSubscriberInfo t domainId args ctx)).currentEntryId := by
    simp only [TopicStruct.joinSubscriber]
    split <;> omega
  refine
    { sorted := h.sorted
      entry_lt := fun en hen => (h.entry_lt en hen).trans_le hentry
      publisher := hg.publisher
      counted := hg.counted
      holder := ?_
      ids_nodup := ?_
      pub_id := fun p hp => ⟨(hg.pub_id p hp).1, Int.lt_add_one_of_le (hg.pub_id p hp).2.le⟩
      sub_id := ?_
      pubsubId_le := ⟨Int.le_add_one h.pubsubId_le.1, hlt⟩
      entryId_nonneg := hcur.trans hentry
      watermark := ?_ }
  · intro en hen b hb
    rcases h.holder en hen b hb with hb | ⟨s, hs, hrest⟩
    · exact .inl hb
    · exact .inr ⟨s, HTable.mem_hashAdd.mpr (.inr hs), hrest⟩
  -- the new id is above all that have been given out
  · have hperm : (pubs.map PublisherInfo.id ++ (HTable.hashAdd place t.subInfoHtable
        (newSubscriberInfo t domainId args ctx)).map SubscriberInfo.id).Perm
        (t.currentPubsubId ::
          (pubs.map PublisherInfo.id ++ t.subInfoHtable.map SubscriberInfo.id)) :=
      (((HTable.hashAdd_perm ..).map _).append_left _).trans List.perm_middle
    refine hperm.nodup_iff.mpr (List.nodup_cons.mpr ⟨?_, hg.ids_nodup⟩)
    simp only [List.mem_append, List.mem_map, not_or, not_exists, not_and]
    exact ⟨fun p hp => ne_of_lt (hg.pub_id p hp).2, fun s hs => ne_of_lt (h.sub_id s hs).2⟩
  · intro s hs
    simp only [TopicStruct.joinSubscriber]
    rcases HTable.mem_hashAdd.mp hs with rfl | hs
    · exact ⟨h.pubsubId_le.1, Int.lt_succ _⟩
    · have := h.sub_id s hs
      omega
  · intro s hs
    rcases HTable.mem_hashAdd.mp hs with rfl | hs
    · have hmark : (newSubscriberInfo t domainId args ctx).latestReceivedEntryId =
          if args.qosIsTransientLocal then -1 else t.currentEntryId := rfl
      have hnext : (t.joinSubscriber pubs place
          (newSubscriberInfo t domainId args ctx)).currentEntryId =
          if args.qosIsTransientLocal then t.currentEntryId else t.currentEntryId + 1 := rfl
      rw [hmark, hnext]
      split <;> omega
    · have := h.watermark s hs
      omega

theorem insertSubscriberInfo (h : t.Consistent leaving) (env : Env) (domainId : Nat)
    (args : SubscriberArgs) (ctx : Option EventfdCtx) :
    (insertSubscriberInfo σ env t domainId args ctx).2.Consistent leaving := by
  rcases insertSubscriberInfo_cases (σ := σ) env t domainId args ctx with
    ⟨e, pubs, hpubs, heq⟩ | ⟨pubs, hpubs, hlt, _, _, heq⟩
  · rw [heq]
    exact h.grown hpubs
  · rw [heq]
    have hjoin := h.joinSubscriber hpubs hlt (env.place .subInfo) domainId args ctx
    simp only
    split
    · exact hjoin.rebuildAllNotifyLists
    · exact hjoin

private theorem withPubsubId (h : t.Consistent leaving) (hlt : t.currentPubsubId < maxTopicLocalId) :
    ({ t with currentPubsubId := t.currentPubsubId + 1 } : TopicStruct).Consistent leaving :=
  { h with
    pub_id := fun p hp => ⟨(h.pub_id p hp).1, Int.lt_add_one_of_le (h.pub_id p hp).2.le⟩
    sub_id := fun s hs => ⟨(h.sub_id s hs).1, Int.lt_add_one_of_le (h.sub_id s hs).2.le⟩
    pubsubId_le := ⟨Int.le_add_one h.pubsubId_le.1, hlt⟩ }

theorem insertPublisherInfo (h : t.Consistent leaving) (env : Env) (domainId : Nat)
    (args : PublisherArgs) : (insertPublisherInfo σ env t domainId args).2.Consistent leaving := by
  rcases insertPublisherInfo_cases (σ := σ) env t domainId args with
    ⟨e, heq⟩ | ⟨e, hlt, heq⟩ | ⟨capacity, _, hlt, heq⟩
  · rw [heq]
    exact h
  · rw [heq]
    exact h.withPubsubId hlt
  · rw [heq]
    have h' := h.withPubsubId hlt
    set p := rebuildNotifyList σ { t with currentPubsubId := t.currentPubsubId + 1 }
      (newPublisherInfo t domainId args capacity) with hp
    have hid : p.id = t.currentPubsubId := rfl
    -- no entry carries the fresh id, so the new publisher's count starts at zero
    have hfresh : entriesOf t.currentPubsubId t.entries = 0 := by
      rw [entriesOf_eq_zero]
      intro en hen heq
      obtain ⟨q, hq, hqid⟩ := h.publisher en hen
      have := h.pub_id q hq
      omega
    refine { h' with publisher := ?_, counted := ?_, ids_nodup := ?_, pub_id := ?_ }
    · intro en hen
      obtain ⟨q, hq, hqid⟩ := h.publisher en hen
      exact ⟨q, HTable.mem_hashAdd.mpr (.inr hq), hqid⟩
    · intro q hq
      rcases HTable.mem_hashAdd.mp hq with rfl | hq
      · rw [hid, hfresh]
        rfl
      · exact h.counted q hq
    · have hperm : ((HTable.hashAdd (env.place .pubInfo) t.pubInfoHtable p).map PublisherInfo.id ++
          t.subInfoHtable.map SubscriberInfo.id).Perm (t.currentPubsubId ::
            (t.pubInfoHtable.map PublisherInfo.id ++ t.subInfoHtable.map SubscriberInfo.id)) :=
        ((HTable.hashAdd_perm ..).map _).append_right _
      refine hperm.nodup_iff.mpr (List.nodup_cons.mpr ⟨?_, h.ids_nodup⟩)
      simp only [List.mem_append, List.mem_map, not_or, not_exists, not_and]
      exact ⟨fun q hq => ne_of_lt (h.pub_id q hq).2, fun s hs => ne_of_lt (h.sub_id s hs).2⟩
    · intro q hq
      rcases HTable.mem_hashAdd.mp hq with rfl | hq
      · exact ⟨h.pubsubId_le.1, Int.lt_succ _⟩
      · exact h'.pub_id q hq

/-! ## Entries leave -/

/-- Fewer entries, and publisher counts that follow: the common part of every
deletion. -/
theorem of_fewer {t' : TopicStruct} {leaving' : List Int} (h : t.Consistent leaving)
    (hentries : (t'.entries.map EntryNode.entryId).Sublist (t.entries.map EntryNode.entryId))
    (hpublisher : ∀ en ∈ t'.entries, ∃ p ∈ t'.pubInfoHtable, p.id = en.publisherId)
    (hcounted : ∀ p ∈ t'.pubInfoHtable, p.entriesNum = entriesOf p.id t'.entries)
    (hholder : ∀ en ∈ t'.entries, ∀ b ∈ en.referencingSubscribers.bits,
      b ∈ leaving' ∨ ∃ s ∈ t'.subInfoHtable, s.id = b ∧ en.entryId ≤ s.latestReceivedEntryId)
    (hpubs : (t'.pubInfoHtable.map PublisherInfo.id).Sublist (t.pubInfoHtable.map PublisherInfo.id))
    (hsubs : t'.subInfoHtable.Sublist t.subInfoHtable)
    (hpubsub : t'.currentPubsubId = t.currentPubsubId)
    (hentry : t'.currentEntryId = t.currentEntryId) : t'.Consistent leaving' := by
  constructor
  · have := List.pairwise_map.mpr h.sorted
    exact List.pairwise_map.mp (this.sublist hentries)
  · intro en hen
    obtain ⟨en₀, hen₀, hid⟩ := List.mem_map.mp (hentries.subset (List.mem_map_of_mem hen))
    rw [hentry, ← hid]
    exact h.entry_lt en₀ hen₀
  · exact hpublisher
  · exact hcounted
  · exact hholder
  · exact h.ids_nodup.sublist (hpubs.append (hsubs.map _))
  · intro p hp
    obtain ⟨p₀, hp₀, hid⟩ := List.mem_map.mp (hpubs.subset (List.mem_map_of_mem hp))
    rw [hpubsub, ← hid]
    exact h.pub_id p₀ hp₀
  · intro s hs
    rw [hpubsub]
    exact h.sub_id s (hsubs.subset hs)
  · rw [hpubsub]
    exact h.pubsubId_le
  · rw [hentry]
    exact h.entryId_nonneg
  · intro s hs
    rw [hentry]
    exact h.watermark s (hsubs.subset hs)

/-- What the departure loop over a consistent topic does. -/
theorem clearSpec (h : t.Consistent leaving) (b : Int) :
    ClearSpec σ b t.entries t.pubInfoHtable (fun _ => 0)
      (clearSubscriberReferences σ t b).entries (clearSubscriberReferences σ t b).pubInfoHtable :=
  clearReferences_spec b t.entries t.pubInfoHtable (fun _ => 0) h.pubs_nodup
    (fun p hp => by rw [h.counted p hp, Nat.zero_add]) h.publisher

theorem clearSubscriberReferences {b : Int} (h : t.Consistent (b :: leaving)) :
    (clearSubscriberReferences σ t b).Consistent leaving := by
  have hspec := h.clearSpec (σ := σ) b
  have hmem : ∀ en ∈ (Agnocast.clearSubscriberReferences σ t b).entries,
      ∃ en₀ ∈ t.entries, en = en₀.clearBit b := by
    intro en hen
    rw [hspec.entries] at hen
    obtain ⟨en₀, hen₀, rfl⟩ := List.mem_map.mp (List.mem_filter.mp hen).1
    exact ⟨en₀, hen₀, rfl⟩
  refine h.of_fewer ?_ ?_ ?_ ?_ hspec.ids (.refl _) rfl rfl
  · rw [hspec.entries]
    have hmap : (t.entries.map fun en => en.clearBit b).map EntryNode.entryId =
        t.entries.map EntryNode.entryId := by
      rw [List.map_map]
      rfl
    exact hmap ▸ List.filter_sublist.map EntryNode.entryId
  · intro en hen
    obtain ⟨en₀, hen₀, rfl⟩ := hmem en hen
    obtain ⟨p, hp, hid⟩ := h.publisher en₀ hen₀
    have hpos : 0 < entriesOf p.id (Agnocast.clearSubscriberReferences σ t b).entries :=
      entriesOf_pos.mpr ⟨_, hen, hid.symm⟩
    obtain ⟨p', hp', hid'⟩ := hspec.kept p hp (by omega)
    exact ⟨p', hp', hid'.trans hid⟩
  · intro p hp
    rw [hspec.counted p hp, Nat.zero_add]
  · intro en hen c hc
    obtain ⟨en₀, hen₀, rfl⟩ := hmem en hen
    obtain ⟨hne, hc⟩ := Finset.mem_erase.mp hc
    rcases h.holder en₀ hen₀ c hc with hc | hs
    · exact .inl ((List.mem_cons.mp hc).resolve_left hne)
    · exact .inr hs

/-- Unlinked subscribers are leaving: their bits may still be set. -/
theorem unlink {t' : TopicStruct} (h : t.Consistent leaving) {leaving' : List Int}
    (hentries : t'.entries = t.entries) (hpubs : t'.pubInfoHtable = t.pubInfoHtable)
    (hsubs : t'.subInfoHtable.Sublist t.subInfoHtable)
    (hleaving : ∀ s ∈ t.subInfoHtable, s ∈ t'.subInfoHtable ∨ s.id ∈ leaving')
    (hsub : ∀ b ∈ leaving, b ∈ leaving')
    (hpubsub : t'.currentPubsubId = t.currentPubsubId)
    (hentry : t'.currentEntryId = t.currentEntryId) : t'.Consistent leaving' := by
  refine h.of_fewer ?_ ?_ ?_ ?_ ?_ hsubs hpubsub hentry
  · rw [hentries]
  · rw [hentries, hpubs]
    exact h.publisher
  · rw [hentries, hpubs]
    exact h.counted
  · intro en hen b hb
    rw [hentries] at hen
    rcases h.holder en hen b hb with hb | ⟨s, hs, hid, hle⟩
    · exact .inl (hsub b hb)
    · rcases hleaving s hs with hs | hs
      · exact .inr ⟨s, hs, hid, hle⟩
      · exact .inl (hid ▸ hs)
  · rw [hpubs]

theorem unlinkSubscriberInfo (h : t.Consistent leaving) (s : SubscriberInfo) :
    (unlinkSubscriberInfo σ t s).Consistent (s.id :: leaving) := by
  have h' : ({ t with subInfoHtable := HTable.hashDel SubscriberInfo.id s.id t.subInfoHtable } :
      TopicStruct).Consistent (s.id :: leaving) := by
    refine h.unlink rfl rfl (HTable.hashDel_sublist ..) ?_ (fun b hb => List.mem_cons_of_mem _ hb)
      rfl rfl
    intro s' hs'
    by_cases hid : s'.id = s.id
    · exact .inr (hid ▸ List.mem_cons_self)
    · exact .inl (HTable.mem_hashDel.mpr ⟨hs', hid⟩)
  unfold Agnocast.unlinkSubscriberInfo
  simp only
  split
  · exact h'.rebuildAllNotifyLists
  · exact h'

/-- REMOVE_SUBSCRIBER on the topic. -/
theorem removeSubscriber (h : t.Consistent []) (s : SubscriberInfo) :
    (Agnocast.clearSubscriberReferences σ (Agnocast.unlinkSubscriberInfo σ t s) s.id).Consistent [] :=
  (h.unlinkSubscriberInfo s).clearSubscriberReferences

private theorem clearAll (leaving : List SubscriberInfo) (t : TopicStruct)
    (h : t.Consistent (leaving.map SubscriberInfo.id)) :
    (leaving.foldl (fun t s => Agnocast.clearSubscriberReferences σ t s.id) t).Consistent [] := by
  induction leaving generalizing t with
  | nil => exact h
  | cons s leaving ih => exact ih _ h.clearSubscriberReferences

/-- A process's subscribers, unlinked as a batch, are all leaving. -/
theorem unlinkByPid (h : t.Consistent []) (pid : Pid) :
    ({ t with subInfoHtable := t.subInfoHtable.filter fun s => s.pid ≠ pid } :
      TopicStruct).Consistent ((t.subInfoHtable.filter fun s => s.pid = pid).map
        SubscriberInfo.id) := by
  refine h.unlink rfl rfl List.filter_sublist ?_ (by simp) rfl rfl
  intro s hs
  by_cases hpid : s.pid = pid
  · exact .inr (List.mem_map_of_mem (List.mem_filter.mpr ⟨hs, by simpa using hpid⟩))
  · exact .inl (List.mem_filter.mpr ⟨hs, by simpa using hpid⟩)

theorem preHandlerSubscriberExit (h : t.Consistent []) (pid : Pid) :
    (preHandlerSubscriberExit σ t pid).Consistent [] := by
  unfold Agnocast.preHandlerSubscriberExit
  simp only
  split
  · exact h
  · exact clearAll _ _ (h.unlinkByPid pid).rebuildAllNotifyLists

/-- The entries that stay when a publisher leaves. -/
theorem dropPublisher_entries (h : t.Consistent leaving) {p : PublisherInfo}
    (hp : p ∈ t.pubInfoHtable) : (dropPublisher t p).entries =
      t.entries.filter fun en => en.publisherId ≠ p.id ∨ isReferenced en := by
  have := dropUnreferenced_eq p.id t.entries 0
  rw [Nat.zero_add, ← h.counted p hp] at this
  rw [dropPublisher, this]

/-- The publishers that stay when one leaves: the leaving one only with entries. -/
theorem mem_dropPublisher (h : t.Consistent leaving) {p : PublisherInfo}
    (hp : p ∈ t.pubInfoHtable) {q : PublisherInfo} :
    q ∈ (dropPublisher t p).pubInfoHtable ↔ (q ∈ t.pubInfoHtable ∧ q.id ≠ p.id) ∨
      (q = { p with entriesNum := entriesOf p.id (dropPublisher t p).entries } ∧
        0 < entriesOf p.id (dropPublisher t p).entries) := by
  have := dropUnreferenced_eq p.id t.entries 0
  rw [Nat.zero_add, ← h.counted p hp, ← h.dropPublisher_entries hp, Nat.zero_add] at this
  have htable : (dropPublisher t p).pubInfoHtable =
      if (dropUnreferenced p.id t.entries p.entriesNum).2 = 0 then
        HTable.hashDel PublisherInfo.id p.id t.pubInfoHtable
      else
        HTable.modify PublisherInfo.id p.id (fun q =>
          { q with entriesNum := (dropUnreferenced p.id t.entries p.entriesNum).2 })
          t.pubInfoHtable := rfl
  rw [htable, this]
  split
  · next h0 =>
    have h0 : entriesOf p.id (dropPublisher t p).entries = 0 := h0
    simp [h0]
  · next h0 =>
    have h0 : entriesOf p.id (dropPublisher t p).entries ≠ 0 := h0
    rw [HTable.mem_modify]
    constructor
    · rintro ⟨q, hq, rfl⟩
      by_cases hid : q.id = p.id
      · rw [if_pos hid, HTable.eq_of_key_eq h.pubs_nodup hq hp hid]
        exact .inr ⟨rfl, by omega⟩
      · rw [if_neg hid]
        exact .inl ⟨hq, hid⟩
    · rintro (⟨hq, hid⟩ | ⟨rfl, _⟩)
      · exact ⟨q, hq, (if_neg hid).symm⟩
      · exact ⟨p, hp, (if_pos rfl).symm⟩

theorem dropPublisher_ids (t : TopicStruct) (p : PublisherInfo) :
    ((Agnocast.dropPublisher t p).pubInfoHtable.map PublisherInfo.id).Sublist
      (t.pubInfoHtable.map PublisherInfo.id) := by
  unfold Agnocast.dropPublisher
  simp only
  split
  · exact (HTable.hashDel_sublist ..).map _
  · rw [HTable.map_modify (fun _ => by rfl)]

theorem dropPublisher (h : t.Consistent leaving) {p : PublisherInfo} (hp : p ∈ t.pubInfoHtable) :
    (dropPublisher t p).Consistent leaving := by
  have hentries := h.dropPublisher_entries hp
  have hmem := @mem_dropPublisher _ _ h p hp
  have hother : ∀ q, q ≠ p.id →
      entriesOf q (Agnocast.dropPublisher t p).entries = entriesOf q t.entries := by
    intro q hq
    rw [hentries, entriesOf, entriesOf, List.countP_filter]
    refine List.countP_congr fun en _ => ?_
    simp only [Bool.and_eq_true, decide_eq_true_eq, and_iff_left_iff_imp]
    rintro rfl
    simp [hq]
  refine h.of_fewer ?_ ?_ ?_ ?_ (dropPublisher_ids t p) (.refl _) rfl rfl
  · rw [hentries]
    exact List.filter_sublist.map _
  · intro en hen
    by_cases hid : en.publisherId = p.id
    · have hpos : 0 < entriesOf p.id (Agnocast.dropPublisher t p).entries :=
        entriesOf_pos.mpr ⟨en, hen, hid⟩
      exact ⟨_, hmem.mpr (.inr ⟨rfl, hpos⟩), hid.symm⟩
    · rw [hentries] at hen
      obtain ⟨q, hq, hqid⟩ := h.publisher en (List.mem_filter.mp hen).1
      exact ⟨q, hmem.mpr (.inl ⟨hq, fun h => hid (hqid.symm.trans h)⟩), hqid⟩
  · intro q hq
    rcases hmem.mp hq with ⟨hq, hne⟩ | ⟨rfl, _⟩
    · rw [h.counted q hq, hother q.id hne]
    · rfl
  · intro en hen b hb
    rw [hentries] at hen
    exact h.holder en (List.mem_filter.mp hen).1 b hb

end TopicStruct.Consistent

end Agnocast
