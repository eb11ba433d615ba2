import Agnocast.Store.Zombies

/-!
# The store — references and who may take them

An entry is deleted on four paths, and each of them asks for a reference bit first. So an
entry that a subscriber references stays, in the same place and with the bit set, until
the subscriber's own reference is given up: by a release that names it, by the removal of
the subscriber, or by the exit of its process.

* `TopicStep.keeps_subscriber` — a subscriber stays unless it is removed or exits.
* `TopicStep.keeps_reference`  — an entry that it references stays, bit and address.
* `keeps_reference_step`, `keeps_wrapper_step` — for a whole step of the module.
-/

namespace Agnocast

open Relation

variable {σ : Kmod} {t t' : TopicStruct} {i : Input} {tp : Nat}

/-- The subscriber `b` references the entry. -/
def References (t : TopicStruct) (b : Int) (en : EntryNode) : Prop :=
  en ∈ t.entries ∧ b ∈ en.referencingSubscribers.bits

/-- The call leaves the subscriber `b` alone: it does not remove it, and does not clean
up its process. -/
def SparesSubscriber (σ : Kmod) (call : Call) (tp : Nat) (s : SubscriberInfo) : Prop :=
  ¬ Permits σ call tp (.leave s.id) ∧ call ≠ .processExitCleanup s.pid

/-! ## Subscribers -/

private theorem requestMmapUpdate_keeps {s : SubscriberInfo} (hs : s ∈ t.subInfoHtable) :
    ∃ s' ∈ t.requestMmapUpdate.subInfoHtable, SameSubscriber s s' :=
  ⟨_, List.mem_map_of_mem hs, rfl⟩

private theorem modifySubscriber_keeps {s : SubscriberInfo} (hs : s ∈ t.subInfoHtable) (id : Int)
    {f : SubscriberInfo → SubscriberInfo} (hf : ∀ s, SameSubscriber s (f s)) :
    ∃ s' ∈ (t.modifySubscriber id f).subInfoHtable, SameSubscriber s s' := by
  by_cases hid : s.id = id
  · exact ⟨f s, HTable.mem_modify_of_eq hs hid, hf s⟩
  · exact ⟨s, HTable.mem_modify_of_ne hs hid, .refl s⟩

theorem Fetched.keeps_subscriber {w : TopicWrapper} {s₀ : SubscriberInfo} {batch : List EntryNode}
    {ret : Except Errno (List PublisherShmInfo)} {m : MemoryAllocator}
    (hf : Fetched σ i w s₀ batch ret t' m) {s : SubscriberInfo}
    (hs : s ∈ (σ.topicStructs w.topic).subInfoHtable) :
    ∃ s' ∈ t'.subInfoHtable, SameSubscriber s s' := by
  have hhand : ∀ ids, ∃ s' ∈ ((σ.topicStructs w.topic).handOut s₀.id ids).subInfoHtable,
      SameSubscriber s s' := by
    intro ids
    unfold TopicStruct.handOut
    split
    · exact ⟨s, hs, .refl s⟩
    · have hs : s ∈ ((σ.topicStructs w.topic).grant s₀.id ids).subInfoHtable := hs
      exact modifySubscriber_keeps hs s₀.id fun _ => rfl
  obtain ⟨size, hr⟩ := hf.reported
  obtain ⟨s₁, hs₁, hsame⟩ := hhand (batch.map EntryNode.entryId)
  rcases reportPublisherShm_topic hr with rfl | rfl
  · exact ⟨s₁, hs₁, hsame⟩
  · obtain ⟨s', hs', hsame'⟩ := modifySubscriber_keeps hs₁ s₀.id
      (f := fun s => { s with needMmapUpdate := false }) fun _ => rfl
    exact ⟨s', hs', hsame.trans hsame'⟩

/-- **A subscriber stays** when it is neither removed nor its process cleaned up. -/
theorem TopicStep.keeps_subscriber (hstep : TopicStep σ i tp t t') (hc : t.Consistent [])
    {s : SubscriberInfo} (hs : s ∈ t.subInfoHtable) (hspare : SparesSubscriber σ i.call tp s) :
    ∃ s' ∈ t'.subInfoHtable, SameSubscriber s s' := by
  obtain ⟨hleave, hexit⟩ := hspare
  cases hstep with
  | same => exact ⟨s, hs, .refl s⟩
  | @addSubscriber topicName ipcNs args eventfd hcall σ₁ ctx =>
    rcases insertSubscriberInfo_subs (σ := σ₁) i.env t (getProcessDomainId σ args.pid) args ctx
      with heq | heq <;> rw [heq]
    · exact ⟨s, hs, .refl s⟩
    · exact ⟨s, HTable.mem_hashAdd.mpr (.inr hs), .refl s⟩
  | @addPublisher topicName ipcNs args hcall σ₁ =>
    rcases insertPublisherInfo_cases (σ := σ₁) i.env t (getProcessDomainId σ args.pid) args with
      ⟨e, heq⟩ | ⟨e, _, heq⟩ | ⟨capacity, _, _, heq⟩ <;> rw [heq]
    · exact ⟨s, hs, .refl s⟩
    · exact ⟨s, hs, .refl s⟩
    · exact requestMmapUpdate_keeps hs
  | publishMsg hp hA =>
    rcases publishMsgCore_cases hc hp i.env _ with ⟨e, heq⟩ | ⟨r, _, ⟨e, heq⟩ | heq⟩ <;> rw [heq] <;>
      exact ⟨s, hs, .refl s⟩
  | fetchMsg ht hcall htp hf =>
    subst htp ht
    exact hf.keeps_subscriber hs
  | releaseReference => exact ⟨s, hs, .refl s⟩
  | @removeSubscriber s₀ hs₀ hA =>
    -- it is another one that is removed
    have hne : s.id ≠ s₀.id := fun heq => hleave (heq ▸ hA)
    refine ⟨s, ?_, .refl s⟩
    show s ∈ (unlinkSubscriberInfo σ t s₀).subInfoHtable
    rw [(unlinkSubscriberInfo_frame t s₀).2.1]
    exact HTable.mem_hashDel.mpr ⟨hs, hne⟩
  | removePublisher => exact ⟨s, hs, .refl s⟩
  | setRos2SubscriberNum => exact ⟨s, hs, .refl s⟩
  | setRos2PublisherNum => exact ⟨s, hs, .refl s⟩
  | @processExit pid p hcall hp σ₁ hprocs =>
    -- and another process that exits
    have hne : s.pid ≠ pid := fun heq => hexit (heq ▸ hcall)
    refine ⟨s, ?_, .refl s⟩
    show s ∈ (visitTopic σ₁ pid t).subInfoHtable
    rw [visitTopic_subs hc pid]
    exact List.mem_filter.mpr ⟨hs, by simpa using hne⟩

/-! ## References -/

/-- The reference is still there, to the entry at the same address. -/
def KeepsReference (t' : TopicStruct) (b : Int) (en : EntryNode) : Prop :=
  ∃ en', SameEntry en en' ∧ References t' b en'

theorem KeepsReference.of_entries {b : Int} {en : EntryNode} (h : KeepsReference t b en)
    (heq : t'.entries = t.entries) : KeepsReference t' b en := by
  obtain ⟨en', hsame, hmem, hb⟩ := h
  exact ⟨en', hsame, heq ▸ hmem, hb⟩

theorem References.keeps {b : Int} {en : EntryNode} (h : References t b en) :
    KeepsReference t b en := ⟨en, .refl en, h⟩

/-- Clearing the bits of another subscriber. -/
theorem clear_keeps_reference {leaving : List Int} (hc : t.Consistent leaving) {b c : Int}
    {en : EntryNode} (h : References t b en) (hne : b ≠ c) :
    KeepsReference (clearSubscriberReferences σ t c) b en := by
  obtain ⟨hen, hb⟩ := h
  have hb' : b ∈ (en.clearBit c).referencingSubscribers.bits := Finset.mem_erase.mpr ⟨hne, hb⟩
  refine ⟨en.clearBit c, en.clearBit_same c, ?_, hb'⟩
  exact hc.mem_clearSubscriberReferences.mpr ⟨en, hen, rfl, .inl (isReferenced_iff.mpr ⟨b, hb'⟩)⟩

/-- Clearing the bits of several others. -/
private theorem clearAll_keeps_reference {b : Int} {en : EntryNode} (l : List SubscriberInfo) :
    ∀ t : TopicStruct, t.Consistent (l.map SubscriberInfo.id) → (∀ s ∈ l, b ≠ s.id) →
      KeepsReference t b en →
      KeepsReference (l.foldl (fun t s => clearSubscriberReferences σ t s.id) t) b en := by
  induction l with
  | nil => exact fun _ _ _ h => h
  | cons s l ih =>
    intro t hc hne ⟨en', hsame, h⟩
    obtain ⟨en'', hsame', h'⟩ :=
      clear_keeps_reference (σ := σ) hc h (hne s List.mem_cons_self)
    exact ih _ hc.clearSubscriberReferences (fun s' hs' => hne s' (List.mem_cons_of_mem _ hs'))
      ⟨en'', hsame.trans hsame', h'⟩

/-- The visit of the exit cleanup, for a subscriber of another process. -/
theorem visitTopic_keeps_reference (hc : t.Consistent []) {pid : Pid} {b : Int} {en : EntryNode}
    (h : References t b en) (hne : ∀ s ∈ t.subInfoHtable, s.id = b → s.pid ≠ pid) :
    KeepsReference (visitTopic σ pid t) b en := by
  -- the publishers of the process leave what is referenced
  have hpubs : References (preHandlerPublisherExit t pid) b en := by
    refine preHandlerPublisherExit_rec (P := fun t₁ => References t₁ b en) hc h ?_
    rintro t₁ p ht hp _ ⟨hen, hb⟩
    refine ⟨?_, hb⟩
    rw [ht.dropPublisher_entries hp]
    exact List.mem_filter.mpr ⟨hen, by simpa using .inr (isReferenced_iff.mpr ⟨b, hb⟩)⟩
  rcases visitTopic_cases (σ := σ) pid hc with ⟨_, heq⟩ | ⟨l, _, hl, t₁, hc₁, hentries, _, _, heq⟩
  · rw [heq]
    exact hpubs.keeps
  · rw [heq]
    refine clearAll_keeps_reference l t₁ hc₁ (fun s hs hid => ?_) (hpubs.keeps.of_entries hentries)
    obtain ⟨hmem, hpid⟩ := hl s hs
    exact hne s hmem hid.symm hpid

theorem Fetched.keeps_reference {w : TopicWrapper} {s : SubscriberInfo} {batch : List EntryNode}
    {ret : Except Errno (List PublisherShmInfo)} {m : MemoryAllocator}
    (hf : Fetched σ i w s batch ret t' m) (h₀ : σ.WellFormed) {b : Int} {en : EntryNode}
    (h : References (σ.topicStructs w.topic) b en) : KeepsReference t' b en := by
  obtain ⟨hen, hb⟩ := h
  unfold KeepsReference References
  rw [hf.entries]
  unfold TopicStruct.grant
  refine ⟨_, ?_, List.mem_map_of_mem hen, ?_⟩
  · split
    · exact en.setBit_same s.id
    · exact .refl en
  · split
    · rw [EntryNode.setBit_bits en ((h₀.store w.topic).sub_inRange hf.subscriber)]
      exact Finset.mem_insert_of_mem hb
    · exact hb

/-- **A referenced entry stays** as long as its reference is not given up: the entry is in
the tree after the step, unchanged but for other bits. -/
theorem TopicStep.keeps_reference (hstep : TopicStep σ i tp t t') (hwf : σ.WellFormed)
    (hc : t.Consistent []) {b : Int} {en : EntryNode} (h : References t b en)
    (hrelease : ¬ Permits σ i.call tp (.release b en.entryId))
    (hspare : ∀ s ∈ t.subInfoHtable, s.id = b → SparesSubscriber σ i.call tp s) :
    KeepsReference t' b en := by
  have hreferenced : isReferenced en = true := isReferenced_iff.mpr ⟨b, h.2⟩
  cases hstep with
  | same => exact h.keeps
  | addSubscriber => exact h.keeps.of_entries (insertSubscriberInfo_entries ..)
  | @addPublisher topicName ipcNs args hcall σ₁ =>
    refine h.keeps.of_entries ?_
    rcases insertPublisherInfo_cases (σ := σ₁) i.env t (getProcessDomainId σ args.pid) args with
      ⟨e, heq⟩ | ⟨e, _, heq⟩ | ⟨capacity, _, _, heq⟩ <;> rw [heq]
    rfl
  | @publishMsg p hp addr hA =>
    -- the trimming passes over a referenced entry
    have hkept : ∀ r : ReleaseLoop, ReleaseSpec p.id (t.entries ++ [newEntryNode t p addr]) 0 [] r →
        KeepsReference (t.published p r.entries) b en := fun r hr =>
      ⟨en, .refl en, hr.kept en (List.mem_append_left _ h.1) (.inl hreferenced), h.2⟩
    rcases publishMsgCore_cases hc hp i.env addr with ⟨e, heq⟩ | ⟨r, hr, ⟨e, heq⟩ | heq⟩ <;>
      rw [heq]
    · exact h.keeps
    · exact hkept r hr
    · exact hkept r hr
  | fetchMsg ht hcall htp hf =>
    subst htp ht
    exact hf.keeps_reference hwf h
  | @releaseReference en₀ hen₀ c hA =>
    by_cases hid : en.entryId = en₀.entryId
    · -- a release of the entry is one for another subscriber
      obtain rfl := HTable.eq_of_key_eq hc.entries_nodup h.1 hen₀ hid
      have hne : b ≠ c := fun heq => hrelease (heq ▸ hA)
      exact ⟨en.clearBit c, en.clearBit_same c, HTable.mem_modify_of_eq h.1 rfl,
        Finset.mem_erase.mpr ⟨hne, h.2⟩⟩
    · exact ⟨en, .refl en, HTable.mem_modify_of_ne h.1 hid, h.2⟩
  | @removeSubscriber s hs hA =>
    obtain ⟨hentries, _⟩ := unlinkSubscriberInfo_frame (σ := σ) t s
    have h' : References (unlinkSubscriberInfo σ t s) b en := ⟨hentries ▸ h.1, h.2⟩
    exact clear_keeps_reference (hc.unlinkSubscriberInfo s) h' fun heq =>
      (hspare s hs heq.symm).1 hA
  -- the entries of a publisher go with it, but not the referenced ones
  | @removePublisher p hp =>
    refine ⟨en, .refl en, ?_, h.2⟩
    rw [hc.dropPublisher_entries hp]
    exact List.mem_filter.mpr ⟨h.1, by simpa using .inr hreferenced⟩
  | setRos2SubscriberNum => exact h.keeps
  | setRos2PublisherNum => exact h.keeps
  | @processExit pid p hcall hp σ₁ hprocs =>
    refine visitTopic_keeps_reference hc h fun s hs hid hpid => ?_
    exact (hspare s hs hid).2 (hpid ▸ hcall)

/-! ## Where entries come from -/

/-- Clearing the bits of several subscribers makes no entry. -/
private theorem clearAll_old {en' : EntryNode} (l : List SubscriberInfo) :
    ∀ t : TopicStruct, t.Consistent (l.map SubscriberInfo.id) →
      en' ∈ (l.foldl (fun t s => clearSubscriberReferences σ t s.id) t).entries →
      ∃ en ∈ t.entries, SameEntry en en' := by
  induction l with
  | nil => exact fun _ _ h => ⟨en', h, .refl en'⟩
  | cons s l ih =>
    intro t hc h
    obtain ⟨en₁, hen₁, hsame₁⟩ := ih _ hc.clearSubscriberReferences h
    obtain ⟨en, hen, rfl, _⟩ := hc.mem_clearSubscriberReferences.mp hen₁
    exact ⟨en, hen, (en.clearBit_same s.id).trans hsame₁⟩

private theorem visitTopic_old (hc : t.Consistent []) {pid : Pid} {en' : EntryNode}
    (h : en' ∈ (visitTopic σ pid t).entries) : ∃ en ∈ t.entries, SameEntry en en' := by
  have hpubs : ∀ en ∈ (preHandlerPublisherExit t pid).entries, en ∈ t.entries := by
    refine preHandlerPublisherExit_rec (P := fun t₁ => ∀ en ∈ t₁.entries, en ∈ t.entries) hc
      (fun _ h => h) fun t₁ p ht hp _ hold en hen => ?_
    rw [ht.dropPublisher_entries hp] at hen
    exact hold en (List.mem_filter.mp hen).1
  rcases visitTopic_cases (σ := σ) pid hc with ⟨_, heq⟩ | ⟨l, _, hl, t₁, hc₁, hentries, _, _, heq⟩ <;>
    rw [heq] at h
  · exact ⟨en', hpubs en' h, .refl en'⟩
  · obtain ⟨en, hen, hsame⟩ := clearAll_old l t₁ hc₁ h
    exact ⟨en, hpubs en (hentries ▸ hen), hsame⟩

/-- **Where an entry comes from**: it was there before, or the call publishes it. -/
theorem TopicStep.entry_origin (hstep : TopicStep σ i tp t t') (hc : t.Consistent [])
    {en' : EntryNode} (hen' : en' ∈ t'.entries) :
    (∃ en ∈ t.entries, SameEntry en en') ∨
      ∃ p ∈ t.pubInfoHtable, ∃ addr, Permits σ i.call tp (.publish p addr) ∧
        en' = newEntryNode t p addr := by
  have hold : en' ∈ t.entries → (∃ en ∈ t.entries, SameEntry en en') ∨
      ∃ p ∈ t.pubInfoHtable, ∃ addr, Permits σ i.call tp (.publish p addr) ∧
        en' = newEntryNode t p addr := fun h => .inl ⟨en', h, .refl en'⟩
  cases hstep with
  | same => exact hold hen'
  | addSubscriber =>
    rw [insertSubscriberInfo_entries] at hen'
    exact hold hen'
  | @addPublisher topicName ipcNs args hcall σ₁ =>
    rcases insertPublisherInfo_cases (σ := σ₁) i.env t (getProcessDomainId σ args.pid) args with
      ⟨e, heq⟩ | ⟨e, _, heq⟩ | ⟨capacity, _, _, heq⟩ <;> rw [heq] at hen' <;> exact hold hen'
  | @publishMsg p hp addr hA =>
    -- what the trimming leaves was there, or is the new entry
    have hnew : ∀ r : ReleaseLoop, ReleaseSpec p.id (t.entries ++ [newEntryNode t p addr]) 0 [] r →
        en' ∈ r.entries → (∃ en ∈ t.entries, SameEntry en en') ∨
          ∃ p ∈ t.pubInfoHtable, ∃ addr, Permits σ i.call tp (.publish p addr) ∧
            en' = newEntryNode t p addr := by
      intro r hr hen'
      rcases List.mem_append.mp (hr.sublist.subset hen') with h | h
      · exact hold h
      · exact .inr ⟨p, hp, addr, hA, List.mem_singleton.mp h⟩
    rcases publishMsgCore_cases hc hp i.env addr with ⟨e, heq⟩ | ⟨r, hr, ⟨e, heq⟩ | heq⟩ <;>
      rw [heq] at hen'
    · exact hold hen'
    · exact hnew r hr hen'
    · exact hnew r hr hen'
  | @fetchMsg w s batch ret t' m ht hcall htp hf =>
    subst htp ht
    rw [hf.entries] at hen'
    -- a fetch sets a bit and changes nothing else in an entry
    obtain ⟨en, hen, rfl⟩ := List.mem_map.mp hen'
    refine .inl ⟨en, hen, ?_⟩
    split
    · exact en.setBit_same s.id
    · exact .refl en
  | @releaseReference en hen b hA =>
    obtain ⟨en₀, hen₀, rfl⟩ := HTable.mem_modify.mp hen'
    refine .inl ⟨en₀, hen₀, ?_⟩
    split
    next hid =>
      obtain rfl := HTable.eq_of_key_eq hc.entries_nodup hen₀ hen hid
      exact en₀.clearBit_same b
    next => exact .refl en₀
  | @removeSubscriber s hs hA =>
    obtain ⟨hentries, _⟩ := unlinkSubscriberInfo_frame (σ := σ) t s
    obtain ⟨en, hen, rfl, _⟩ :=
      (hc.unlinkSubscriberInfo s).mem_clearSubscriberReferences.mp hen'
    exact .inl ⟨en, hentries ▸ hen, en.clearBit_same s.id⟩
  | @removePublisher p hp =>
    rw [hc.dropPublisher_entries hp] at hen'
    exact hold (List.mem_filter.mp hen').1
  | setRos2SubscriberNum => exact hold hen'
  | setRos2PublisherNum => exact hold hen'
  | @processExit pid p hcall hp σ₁ hprocs => exact .inl (visitTopic_old hc hen')

/-! ## One step of the module -/

/-- A move takes away no wrapper that has an endpoint. -/
private theorem Move.keeps_wrapper {A : Nat → Action → Prop} {σ' : Kmod} (hwf : σ.WellFormed)
    (hm : Move A σ σ') {w : TopicWrapper} (hw : w ∈ σ.topicHashtable)
    (hhas : wrapperHasDomainEndpoints σ w = true) : w ∈ σ'.topicHashtable := by
  cases hm with
  | topic => exact hw
  | join | create => exact HTable.mem_hashAdd.mpr (.inr hw)
  | release hw₀ hnone =>
    refine HTable.mem_hashDel.mpr ⟨hw, fun heq => ?_⟩
    rw [HTable.eq_of_key_eq hwf.cells hw hw₀ heq, hnone] at hhas
    cases hhas
  | world h => exact h.topicHashtable ▸ hw

/-- From the last move back: an endpoint with an old id is there all along. -/
private theorem Moves.keeps_wrapper {A : Nat → Action → Prop} {σ' : Kmod} {w : TopicWrapper} {id : Int}
    (hold : ∀ t : TopicStruct, t.Evolves (fun _ => True) (σ'.topicStructs w.topic) →
      id < t.currentPubsubId → w.domainId ∈ t.endpointDomains)
    (σ₀ : Kmod) (hm : Moves A σ₀ σ') :
    w ∈ σ₀.topicHashtable → id < (σ₀.topicStructs w.topic).currentPubsubId →
      σ₀.WellFormed → σ₀.Fresh → w ∈ σ'.topicHashtable := by
  induction hm using ReflTransGen.head_induction_on with
  | refl => exact fun hw _ _ _ => hw
  | @head σ₀ σ₁ hm hrest ih =>
    intro hw hlt hwf hfresh
    have hall : Moves A σ₀ σ' := .head hm hrest
    have hone : Moves A σ₀ σ₁ := .single hm
    have hhas : wrapperHasDomainEndpoints σ₀ w = true := by
      rw [wrapperHasDomainEndpoints_iff]
      exact hold _ (hall.evolves hwf hfresh w.topic) hlt
    exact ih (hm.keeps_wrapper hwf hw hhas)
      (lt_of_lt_of_le hlt (hone.evolves hwf hfresh w.topic).pubsubId) (hwf.move hm)
      (hfresh.move hwf hm)

/-- **The wrapper of a subscriber that stays** is the same after a step. -/
theorem keeps_wrapper_step (hr : Reachable σ) (i : Input) {w : TopicWrapper}
    (hw : w ∈ σ.topicHashtable) {s s' : SubscriberInfo}
    (hs : s ∈ (σ.topicStructs w.topic).subInfoHtable)
    (hs' : s' ∈ ((step σ i).2.topicStructs w.topic).subInfoHtable) (hsame : SameSubscriber s s')
    (hdom : s.domainId = w.domainId) : w ∈ (step σ i).2.topicHashtable := by
  rcases step_moves hr.wellFormed i with hrule | hm
  · generalize (step σ i).2 = σ' at hrule
    cases hrule <;> exact hw
  · have hlt : s'.id < (σ.topicStructs w.topic).currentPubsubId :=
      hsame.id_eq ▸ ((hr.wellFormed.store w.topic).sub_id s hs).2
    refine Moves.keeps_wrapper (fun t he hlt => ?_) σ hm hw hlt hr.wellFormed hr.fresh
    rcases he.sub s' hs' with ⟨s₀, hs₀, hsame₀, _⟩ | ⟨hnew, _⟩
    · rw [TopicStruct.mem_endpointDomains]
      exact .inr ⟨s₀, hs₀, hsame₀.domainId_eq.symm.trans (hsame.domainId_eq.trans hdom)⟩
    · exact absurd hlt (not_lt.mpr hnew)

/-- **The wrapper of a publisher that stays**: likewise. -/
theorem keeps_publisher_wrapper_step (hr : Reachable σ) (i : Input) {w : TopicWrapper}
    (hw : w ∈ σ.topicHashtable) {p p' : PublisherInfo}
    (hp : p ∈ (σ.topicStructs w.topic).pubInfoHtable)
    (hp' : p' ∈ ((step σ i).2.topicStructs w.topic).pubInfoHtable) (hsame : SamePublisher p p')
    (hdom : p.domainId = w.domainId) : w ∈ (step σ i).2.topicHashtable := by
  rcases step_moves hr.wellFormed i with hrule | hm
  · generalize (step σ i).2 = σ' at hrule
    cases hrule <;> exact hw
  · have hlt : p'.id < (σ.topicStructs w.topic).currentPubsubId :=
      hsame.id_eq ▸ ((hr.wellFormed.store w.topic).pub_id p hp).2
    refine Moves.keeps_wrapper (fun t he hlt => ?_) σ hm hw hlt hr.wellFormed hr.fresh
    rcases he.pub p' hp' with ⟨p₀, hp₀, hsame₀⟩ | ⟨hnew, _⟩
    · rw [TopicStruct.mem_endpointDomains]
      exact .inl ⟨p₀, hp₀, hsame₀.domainId_eq.symm.trans (hsame.domainId_eq.trans hdom)⟩
    · exact absurd hlt (not_lt.mpr hnew)

/-- **Where an entry comes from**, for a whole step. -/
theorem entry_origin_step (hr : Reachable σ) {en' : EntryNode}
    (hen' : en' ∈ ((step σ i).2.topicStructs tp).entries) :
    (∃ en ∈ (σ.topicStructs tp).entries, SameEntry en en') ∨
      ∃ p ∈ (σ.topicStructs tp).pubInfoHtable, ∃ addr, Permits σ i.call tp (.publish p addr) ∧
        en'.entryId = (σ.topicStructs tp).currentEntryId ∧ en'.publisherId = p.id ∧
        en'.msgVirtualAddress = addr := by
  obtain ⟨t, t', hbefore, hstep, hafter⟩ := step_topicStep hr i tp
  have hc := hbefore.consistent (hr.wellFormed.store tp)
  rcases hstep.entry_origin hc (hafter.entries ▸ hen') with ⟨en, hen, hsame⟩ |
    ⟨p, hp, addr, hA, rfl⟩
  · exact .inl ⟨en, hbefore.entries ▸ hen, hsame⟩
  · exact .inr ⟨p, hbefore.pubs ▸ hp, addr, hA, hbefore.entryId, rfl, rfl⟩

theorem keeps_subscriber_step (hr : Reachable σ) (i : Input) {s : SubscriberInfo}
    (hs : s ∈ (σ.topicStructs tp).subInfoHtable) (hspare : SparesSubscriber σ i.call tp s) :
    ∃ s' ∈ ((step σ i).2.topicStructs tp).subInfoHtable, SameSubscriber s s' := by
  obtain ⟨t, t', hbefore, hstep, hafter⟩ := step_topicStep hr i tp
  have hc := hbefore.consistent (hr.wellFormed.store tp)
  obtain ⟨s', hs', hsame⟩ := hstep.keeps_subscriber hc (hbefore.subs ▸ hs) hspare
  exact ⟨s', hafter.subs ▸ hs', hsame⟩

/-- **A referenced entry survives every step** that does not give its reference up. -/
theorem keeps_reference_step (hr : Reachable σ) (i : Input) {b : Int} {en : EntryNode}
    (h : References (σ.topicStructs tp) b en)
    (hrelease : ¬ Permits σ i.call tp (.release b en.entryId))
    (hspare : ∀ s ∈ (σ.topicStructs tp).subInfoHtable, s.id = b →
      SparesSubscriber σ i.call tp s) :
    KeepsReference ((step σ i).2.topicStructs tp) b en := by
  obtain ⟨t, t', hbefore, hstep, hafter⟩ := step_topicStep hr i tp
  have hc := hbefore.consistent (hr.wellFormed.store tp)
  have h' : References t b en := ⟨hbefore.entries ▸ h.1, h.2⟩
  exact (hstep.keeps_reference hr.wellFormed hc h' hrelease fun s hs => hspare s (hbefore.subs ▸ hs)).of_entries
    hafter.entries

end Agnocast
