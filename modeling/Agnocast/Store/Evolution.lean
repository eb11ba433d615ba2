import Agnocast.Store.Delivery

/-!
# The store — what a topic can turn into

`TopicStruct.Evolves D t t'`: everything that `t'` holds was in `t` already, up to
the fields that operations change (bits, counters, notify lists, watermarks, the
mapping flag), or it is new: an entry or an endpoint whose id `t` had not given
out yet, and then an endpoint's domain satisfies `D`.

Ids are never given out twice, so through a whole run an entry or an endpoint that
is still there is still the same one. Watermarks only grow, and a new volatile
subscriber starts past every entry id in use.
-/

namespace Agnocast

variable {σ : Kmod} {t t' t'' : TopicStruct} {D : Nat → Prop}

/-- The fields of a publisher that never change. -/
def SamePublisher (p p' : PublisherInfo) : Prop :=
  p' = { p with
    entriesNum := p'.entriesNum
    notifyCtxs := p'.notifyCtxs
    notifyCapacity := p'.notifyCapacity }

/-- The fields of a subscriber that never change. -/
def SameSubscriber (s s' : SubscriberInfo) : Prop :=
  s' = { s with
    latestReceivedEntryId := s'.latestReceivedEntryId
    needMmapUpdate := s'.needMmapUpdate }

/-- The fields of an entry that never change. -/
def SameEntry (en en' : EntryNode) : Prop :=
  en' = { en with referencingSubscribers := en'.referencingSubscribers }

theorem SamePublisher.refl (p : PublisherInfo) : SamePublisher p p := rfl

theorem SamePublisher.trans {p p' p'' : PublisherInfo} (h : SamePublisher p p')
    (h' : SamePublisher p' p'') : SamePublisher p p'' := by
  unfold SamePublisher at *
  rw [h'] at *
  rw [h]

theorem SamePublisher.symm {p p' : PublisherInfo} (h : SamePublisher p p') : SamePublisher p' p := by
  unfold SamePublisher at *
  rw [h]

theorem SameSubscriber.refl (s : SubscriberInfo) : SameSubscriber s s := rfl

theorem SameSubscriber.trans {s s' s'' : SubscriberInfo} (h : SameSubscriber s s')
    (h' : SameSubscriber s' s'') : SameSubscriber s s'' := by
  unfold SameSubscriber at *
  rw [h'] at *
  rw [h]

theorem SameEntry.refl (en : EntryNode) : SameEntry en en := rfl

theorem SameEntry.trans {en en' en'' : EntryNode} (h : SameEntry en en') (h' : SameEntry en' en'') :
    SameEntry en en'' := by
  unfold SameEntry at *
  rw [h'] at *
  rw [h]

section

variable {p p' : PublisherInfo} {s s' : SubscriberInfo} {en en' : EntryNode}

theorem SamePublisher.id_eq (h : SamePublisher p p') : p'.id = p.id := by rw [h]
theorem SamePublisher.pid_eq (h : SamePublisher p p') : p'.pid = p.pid := by rw [h]
theorem SamePublisher.domainId_eq (h : SamePublisher p p') : p'.domainId = p.domainId := by rw [h]
theorem SamePublisher.isBridge_eq (h : SamePublisher p p') : p'.isBridge = p.isBridge := by rw [h]
theorem SameSubscriber.id_eq (h : SameSubscriber s s') : s'.id = s.id := by rw [h]
theorem SameSubscriber.pid_eq (h : SameSubscriber s s') : s'.pid = s.pid := by rw [h]
theorem SameSubscriber.domainId_eq (h : SameSubscriber s s') : s'.domainId = s.domainId := by rw [h]
theorem SameSubscriber.isBridge_eq (h : SameSubscriber s s') : s'.isBridge = s.isBridge := by rw [h]
theorem SameSubscriber.notifyCtx_eq (h : SameSubscriber s s') : s'.notifyCtx = s.notifyCtx := by
  rw [h]
theorem SameSubscriber.isTakeSub_eq (h : SameSubscriber s s') : s'.isTakeSub = s.isTakeSub := by
  rw [h]
theorem SameSubscriber.qosIsTransientLocal_eq (h : SameSubscriber s s') :
    s'.qosIsTransientLocal = s.qosIsTransientLocal := by rw [h]
theorem SameEntry.entryId_eq (h : SameEntry en en') : en'.entryId = en.entryId := by rw [h]
theorem SameEntry.publisherId_eq (h : SameEntry en en') : en'.publisherId = en.publisherId := by
  rw [h]
theorem SameEntry.msgVirtualAddress_eq (h : SameEntry en en') :
    en'.msgVirtualAddress = en.msgVirtualAddress := by rw [h]

theorem GrownNotify.same (h : GrownNotify p p') : SamePublisher p p' := by
  unfold SamePublisher
  rw [h.1]

theorem Renotified.same (h : Renotified p p') : SamePublisher p p' := by
  unfold SamePublisher
  rw [h]

theorem EntryNode.clearBit_same (en : EntryNode) (b : Int) : SameEntry en (en.clearBit b) := rfl

theorem EntryNode.setBit_same (en : EntryNode) (b : Int) : SameEntry en (en.setBit b) := by
  unfold setBit
  split <;> rfl

end

/-- `t'` is what some operations can make of `t`. -/
structure TopicStruct.Evolves (D : Nat → Prop) (t t' : TopicStruct) : Prop where
  pubsubId : t.currentPubsubId ≤ t'.currentPubsubId
  entryId : t.currentEntryId ≤ t'.currentEntryId
  entry : ∀ en' ∈ t'.entries, (∃ en ∈ t.entries, SameEntry en en') ∨ t.currentEntryId ≤ en'.entryId
  pub : ∀ p' ∈ t'.pubInfoHtable, (∃ p ∈ t.pubInfoHtable, SamePublisher p p') ∨
    (t.currentPubsubId ≤ p'.id ∧ D p'.domainId)
  sub : ∀ s' ∈ t'.subInfoHtable,
    (∃ s ∈ t.subInfoHtable, SameSubscriber s s' ∧
      s.latestReceivedEntryId ≤ s'.latestReceivedEntryId) ∨
    (t.currentPubsubId ≤ s'.id ∧ D s'.domainId ∧
      (s'.qosIsTransientLocal = false → t.currentEntryId ≤ s'.latestReceivedEntryId))

namespace TopicStruct.Evolves

theorem refl (t : TopicStruct) : t.Evolves D t :=
  ⟨le_rfl, le_rfl, fun en h => .inl ⟨en, h, .refl en⟩, fun p h => .inl ⟨p, h, .refl p⟩,
    fun s h => .inl ⟨s, h, .refl s, le_rfl⟩⟩

theorem trans (h : t.Evolves D t') (h' : t'.Evolves D t'') : t.Evolves D t'' where
  pubsubId := h.pubsubId.trans h'.pubsubId
  entryId := h.entryId.trans h'.entryId
  entry en'' hen'' := by
    rcases h'.entry en'' hen'' with ⟨en', hen', hsame'⟩ | hnew
    · rcases h.entry en' hen' with ⟨en, hen, hsame⟩ | hnew
      · exact .inl ⟨en, hen, hsame.trans hsame'⟩
      · exact .inr (hsame'.entryId_eq ▸ hnew)
    · exact .inr (h.entryId.trans hnew)
  pub p'' hp'' := by
    rcases h'.pub p'' hp'' with ⟨p', hp', hsame'⟩ | ⟨hnew, hdom⟩
    · rcases h.pub p' hp' with ⟨p, hp, hsame⟩ | ⟨hnew, hdom⟩
      · exact .inl ⟨p, hp, hsame.trans hsame'⟩
      · exact .inr ⟨hsame'.id_eq ▸ hnew, hsame'.domainId_eq ▸ hdom⟩
    · exact .inr ⟨h.pubsubId.trans hnew, hdom⟩
  sub s'' hs'' := by
    rcases h'.sub s'' hs'' with ⟨s', hs', hsame', hle'⟩ | ⟨hnew, hdom, hmark⟩
    · rcases h.sub s' hs' with ⟨s, hs, hsame, hle⟩ | ⟨hnew, hdom, hmark⟩
      · exact .inl ⟨s, hs, hsame.trans hsame', hle.trans hle'⟩
      · refine .inr ⟨hsame'.id_eq ▸ hnew, hsame'.domainId_eq ▸ hdom, fun hvol => ?_⟩
        exact (hmark (hsame'.qosIsTransientLocal_eq ▸ hvol)).trans hle'
    · exact .inr ⟨h.pubsubId.trans hnew, hdom, fun hvol => h.entryId.trans (hmark hvol)⟩

theorem mono {D' : Nat → Prop} (hD : ∀ d, D d → D' d) (h : t.Evolves D t') : t.Evolves D' t' :=
  { h with
    pub := fun p' hp' => (h.pub p' hp').imp_right fun ⟨hnew, hdom⟩ => ⟨hnew, hD _ hdom⟩
    sub := fun s' hs' => (h.sub s' hs').imp_right fun ⟨hnew, hdom, hmark⟩ =>
      ⟨hnew, hD _ hdom, hmark⟩ }

/-- The common case: nothing is created. -/
theorem of_old (hpubsub : t.currentPubsubId ≤ t'.currentPubsubId)
    (hentryId : t.currentEntryId ≤ t'.currentEntryId)
    (hentries : ∀ en' ∈ t'.entries, ∃ en ∈ t.entries, SameEntry en en')
    (hpubs : ∀ p' ∈ t'.pubInfoHtable, ∃ p ∈ t.pubInfoHtable, SamePublisher p p')
    (hsubs : ∀ s' ∈ t'.subInfoHtable, ∃ s ∈ t.subInfoHtable, SameSubscriber s s' ∧
      s.latestReceivedEntryId ≤ s'.latestReceivedEntryId) : t.Evolves D t' :=
  ⟨hpubsub, hentryId, fun en' h => .inl (hentries en' h), fun p' h => .inl (hpubs p' h),
    fun s' h => .inl (hsubs s' h)⟩

private theorem entries_refl : ∀ en' ∈ t.entries, ∃ en ∈ t.entries, SameEntry en en' :=
  fun en h => ⟨en, h, .refl en⟩

private theorem pubs_refl : ∀ p' ∈ t.pubInfoHtable, ∃ p ∈ t.pubInfoHtable, SamePublisher p p' :=
  fun p h => ⟨p, h, .refl p⟩

private theorem subs_refl : ∀ s' ∈ t.subInfoHtable, ∃ s ∈ t.subInfoHtable, SameSubscriber s s' ∧
    s.latestReceivedEntryId ≤ s'.latestReceivedEntryId :=
  fun s h => ⟨s, h, .refl s, le_rfl⟩

/-! ## The operations -/

theorem rebuildAllNotifyLists (t : TopicStruct) : t.Evolves D (rebuildAllNotifyLists σ t) := by
  refine of_old le_rfl le_rfl entries_refl (fun p' hp' => ?_) subs_refl
  obtain ⟨p, hp, rfl⟩ := List.mem_map.mp hp'
  exact ⟨p, hp, rfl⟩

theorem grown {pubs : List PublisherInfo} (h : List.Forall₂ GrownNotify t.pubInfoHtable pubs) :
    t.Evolves D { t with pubInfoHtable := pubs } := by
  refine of_old le_rfl le_rfl entries_refl (fun p' hp' => ?_) subs_refl
  obtain ⟨p, hp, hg⟩ := HTable.exists_of_forall₂ h hp'
  exact ⟨p, hp, hg.same⟩

theorem insertSubscriberInfo (env : Env) (t : TopicStruct) (domainId : Nat) (args : SubscriberArgs)
    (ctx : Option EventfdCtx) :
    t.Evolves (· = domainId) (insertSubscriberInfo σ env t domainId args ctx).2 := by
  rcases insertSubscriberInfo_cases (σ := σ) env t domainId args ctx with
    ⟨e, pubs, hpubs, heq⟩ | ⟨pubs, hpubs, _, _, _, heq⟩
  · rw [heq]
    exact grown hpubs
  · rw [heq]
    have hjoin : t.Evolves (· = domainId) (t.joinSubscriber pubs (env.place .subInfo)
        (newSubscriberInfo t domainId args ctx)) := by
      refine ⟨(Int.lt_succ _).le, ?_, fun en h => .inl ⟨en, h, .refl en⟩, fun p' hp' => ?_,
        fun s' hs' => ?_⟩
      · simp only [TopicStruct.joinSubscriber]
        split <;> omega
      · obtain ⟨p, hp, hg⟩ := HTable.exists_of_forall₂ hpubs hp'
        exact .inl ⟨p, hp, hg.same⟩
      · rcases HTable.mem_hashAdd.mp hs' with rfl | hs'
        · refine .inr ⟨le_rfl, rfl, fun hvol => ?_⟩
          have hvol : args.qosIsTransientLocal = false := hvol
          simp [newSubscriberInfo, hvol]
        · exact .inl ⟨s', hs', .refl s', le_rfl⟩
    simp only
    split
    · exact hjoin.trans (rebuildAllNotifyLists _)
    · exact hjoin

theorem insertPublisherInfo (env : Env) (t : TopicStruct) (domainId : Nat) (args : PublisherArgs) :
    t.Evolves (· = domainId) (insertPublisherInfo σ env t domainId args).2 := by
  have hbump : t.Evolves (· = domainId) { t with currentPubsubId := t.currentPubsubId + 1 } :=
    of_old (Int.lt_succ _).le le_rfl entries_refl pubs_refl subs_refl
  rcases insertPublisherInfo_cases (σ := σ) env t domainId args with
    ⟨e, heq⟩ | ⟨e, _, heq⟩ | ⟨capacity, _, _, heq⟩
  · rw [heq]
    exact refl t
  · rw [heq]
    exact hbump
  · rw [heq]
    refine { hbump with pub := fun p' hp' => ?_ }
    rcases HTable.mem_hashAdd.mp hp' with rfl | hp'
    · exact .inr ⟨le_rfl, rfl⟩
    · exact .inl ⟨p', hp', .refl p'⟩

theorem requestMmapUpdate (t : TopicStruct) : t.Evolves D t.requestMmapUpdate := by
  refine of_old le_rfl le_rfl entries_refl pubs_refl fun s' hs' => ?_
  obtain ⟨s, hs, rfl⟩ := List.mem_map.mp hs'
  exact ⟨s, hs, rfl, le_rfl⟩

theorem mapped (t : TopicStruct) (id : Int) (b : Bool) :
    t.Evolves D (t.modifySubscriber id fun s => { s with needMmapUpdate := b }) := by
  refine of_old le_rfl le_rfl entries_refl pubs_refl fun s' hs' => ?_
  obtain ⟨s, hs, rfl⟩ := HTable.mem_modify.mp hs'
  split
  · exact ⟨s, hs, rfl, le_rfl⟩
  · exact ⟨s, hs, .refl s, le_rfl⟩

theorem published {p : PublisherInfo} {addr : Nat} {r : ReleaseLoop}
    (hr : ReleaseSpec p.id (t.entries ++ [newEntryNode t p addr]) 0 [] r) :
    t.Evolves D (t.published p r.entries) := by
  refine ⟨le_rfl, (Int.lt_succ _).le, fun en hen => ?_, fun p' hp' => ?_,
    fun s hs => .inl ⟨s, hs, .refl s, le_rfl⟩⟩
  · rcases List.mem_append.mp (hr.sublist.subset hen) with hen | hen
    · exact .inl ⟨en, hen, .refl en⟩
    · rw [List.mem_singleton.mp hen]
      exact .inr le_rfl
  · obtain ⟨q, hq, rfl⟩ := HTable.mem_modify.mp hp'
    left
    split
    · exact ⟨q, hq, rfl⟩
    · exact ⟨q, hq, .refl q⟩

theorem publishMsgCore {leaving : List Int} (h : t.Consistent leaving) {p : PublisherInfo}
    (hp : p ∈ t.pubInfoHtable) (env : Env) (addr : Nat) :
    t.Evolves D (publishMsgCore env t p addr).2 := by
  rcases publishMsgCore_cases h hp env addr with ⟨e, heq⟩ | ⟨r, hr, ⟨e, heq⟩ | heq⟩
  · rw [heq]
    exact refl t
  · rw [heq]
    exact published hr
  · rw [heq]
    exact published hr

theorem mapEntries {f : EntryNode → EntryNode} (hf : ∀ en ∈ t.entries, SameEntry en (f en)) :
    t.Evolves D { t with entries := t.entries.map f } := by
  refine of_old le_rfl le_rfl (fun en' hen' => ?_) pubs_refl subs_refl
  obtain ⟨en, hen, rfl⟩ := List.mem_map.mp hen'
  exact ⟨en, hen, hf en hen⟩

theorem clearBit {leaving : List Int} (h : t.Consistent leaving) {en : EntryNode}
    (hen : en ∈ t.entries) (b : Int) : t.Evolves D (t.setEntry (en.clearBit b)) := by
  refine mapEntries fun en' hen' => ?_
  split
  · next hid =>
    rw [HTable.eq_of_key_eq h.entries_nodup hen' hen hid]
    exact en.clearBit_same b
  · exact .refl en'

theorem grant (t : TopicStruct) (b : Int) (ids : List Int) : t.Evolves D (t.grant b ids) := by
  refine mapEntries fun en _ => ?_
  split
  · exact en.setBit_same b
  · exact .refl en

theorem handOut {leaving : List Int} (h : t.Consistent leaving) {s : SubscriberInfo}
    (hs : s ∈ t.subInfoHtable) {ids : List Int} (hids : ∀ i ∈ ids, s.latestReceivedEntryId ≤ i) :
    t.Evolves D (t.handOut s.id ids) := by
  unfold TopicStruct.handOut
  cases hlast : ids.getLast? with
  | none => exact refl t
  | some last =>
    refine (grant t s.id ids).trans
      (of_old le_rfl le_rfl entries_refl pubs_refl fun s' hs' => ?_)
    obtain ⟨s₀, hs₀, rfl⟩ := HTable.mem_modify.mp hs'
    split
    · next hid =>
      refine ⟨s₀, hs₀, rfl, ?_⟩
      rw [HTable.eq_of_key_eq h.subs_nodup hs₀ hs hid]
      exact hids last (List.mem_of_getLast? hlast)
    · exact ⟨s₀, hs₀, .refl s₀, le_rfl⟩

theorem receiveMsgCore (h : t.Consistent []) {s : SubscriberInfo} (hs : s ∈ t.subInfoHtable) :
    t.Evolves D (receiveMsgCore σ t s s.id).2 := by
  rw [receiveMsgCore_eq h hs]
  refine handOut h hs fun i hi => ?_
  obtain ⟨en, hen, rfl⟩ := List.mem_map.mp hi
  have := (mem_deliveryWindow (List.mem_of_mem_take hen)).2.1
  omega

theorem takeMsgCore (h : t.Consistent []) {s : SubscriberInfo} (hs : s ∈ t.subInfoHtable)
    (allow : Bool) : t.Evolves D (takeMsgCore σ t s s.id allow).2 := by
  rw [takeMsgCore_eq h hs]
  cases hw : (deliveryWindow σ t s (takeFrom s allow)).head? with
  | none => exact refl t
  | some en =>
    show t.Evolves D (t.handOut s.id [en.entryId])
    refine handOut h hs fun i hi => ?_
    rw [List.mem_singleton.mp hi]
    exact (takeFrom_ge s allow).trans (mem_deliveryWindow (List.mem_of_mem_head? hw)).2.1

theorem unlink {subs : List SubscriberInfo} (hsubs : subs.Sublist t.subInfoHtable) :
    t.Evolves D { t with subInfoHtable := subs } :=
  of_old le_rfl le_rfl entries_refl pubs_refl fun s hs => ⟨s, hsubs.subset hs, .refl s, le_rfl⟩

theorem unlinkSubscriberInfo (t : TopicStruct) (s : SubscriberInfo) :
    t.Evolves D (unlinkSubscriberInfo σ t s) := by
  have hsub : (HTable.hashDel SubscriberInfo.id s.id t.subInfoHtable).Sublist t.subInfoHtable :=
    HTable.hashDel_sublist ..
  have h := unlink (D := D) hsub
  unfold Agnocast.unlinkSubscriberInfo
  simp only
  split
  · exact h.trans (rebuildAllNotifyLists _)
  · exact h

theorem clearSubscriberReferences {leaving : List Int} (h : t.Consistent leaving) (b : Int) :
    t.Evolves D (clearSubscriberReferences σ t b) := by
  have hspec := h.clearSpec (σ := σ) b
  refine of_old le_rfl le_rfl (fun en' hen' => ?_) (fun p' hp' => ?_) subs_refl
  · rw [hspec.entries] at hen'
    obtain ⟨en, hen, rfl⟩ := List.mem_map.mp (List.mem_filter.mp hen').1
    exact ⟨en, hen, en.clearBit_same b⟩
  · obtain ⟨p, hp, heq⟩ := hspec.fromPub p' hp'
    refine ⟨p, hp, ?_⟩
    unfold SamePublisher
    rw [heq]

theorem preHandlerSubscriberExit (h : t.Consistent []) (pid : Pid) :
    t.Evolves D (preHandlerSubscriberExit σ t pid) := by
  have hclear : ∀ (l : List SubscriberInfo) (t : TopicStruct),
      t.Consistent (l.map SubscriberInfo.id) →
      t.Evolves D (l.foldl (fun t s => Agnocast.clearSubscriberReferences σ t s.id) t) := by
    intro l
    induction l with
    | nil => exact fun t _ => refl t
    | cons s l ih =>
      exact fun t ht => (clearSubscriberReferences ht s.id).trans
        (ih _ ht.clearSubscriberReferences)
  unfold Agnocast.preHandlerSubscriberExit
  simp only
  split
  · exact refl t
  · refine ((unlink List.filter_sublist).trans (rebuildAllNotifyLists _)).trans (hclear _ _ ?_)
    exact (h.unlinkByPid pid).rebuildAllNotifyLists

theorem dropPublisher {leaving : List Int} (h : t.Consistent leaving) {p : PublisherInfo}
    (hp : p ∈ t.pubInfoHtable) : t.Evolves D (dropPublisher t p) := by
  refine of_old le_rfl le_rfl (fun en hen => ?_) (fun q hq => ?_) subs_refl
  · rw [h.dropPublisher_entries hp] at hen
    exact ⟨en, (List.mem_filter.mp hen).1, .refl en⟩
  · rcases (h.mem_dropPublisher hp).mp hq with ⟨hq, _⟩ | ⟨rfl, _⟩
    · exact ⟨q, hq, .refl q⟩
    · exact ⟨p, hp, rfl⟩

theorem ros2Num (t : TopicStruct) (n m : Nat) :
    t.Evolves D { t with ros2SubscriberNum := n, ros2PublisherNum := m } :=
  of_old le_rfl le_rfl entries_refl pubs_refl subs_refl

theorem tearDown (t : TopicStruct) : t.Evolves D t.tearDown :=
  of_old le_rfl le_rfl (by simp [TopicStruct.tearDown]) (by simp [TopicStruct.tearDown])
    (by simp [TopicStruct.tearDown])

theorem withRefcnt (t : TopicStruct) (n : Nat) : t.Evolves D { t with wrapperRefcnt := n } :=
  of_old le_rfl le_rfl entries_refl pubs_refl subs_refl

theorem dropRef (t : TopicStruct) : t.Evolves D t.dropRef := by
  unfold TopicStruct.dropRef
  simp only
  split
  · exact (withRefcnt t _).trans (tearDown _)
  · exact withRefcnt t _

end TopicStruct.Evolves

end Agnocast
