import Agnocast.Memory.Mapping
import Agnocast.Store.References

/-!
# The memory pools — no use after free

While a subscriber holds the reference of an entry, the memory under the entry's address
stays as it is. Three things could take it away: the entry is deleted, the publisher is told
that the address is free, or the pool goes to another process. The tree and its reference
bits keep out the first, the second as long as no other entry has the address, and the third
is up to the mapped list, which another call fills in.

* `EntriesInPools`, `AddressesUnique` — where the entries lie.
* `InUse`             — what a held entry has: its bit, and a process that maps its pool.
* `no_use_after_free` — in a run whose fetches come from the subscriber's domain and whose
  publishes use no address that is still in a topic.
* `held_entry_lost`   — what either condition keeps out.
-/

namespace Agnocast

variable {σ : Kmod} {i : Input} {tp : Nat}

/-! ## Held entries -/

/-- The call gives the reference up: a release or a removal that succeeds, or the exit cleanup
of the subscriber's process. -/
def GivesUp (ev : Event) (ho : Handout) : Prop :=
  ((step ev.pre ev.input).1.isOk = true ∧
    (Permits ev.pre ev.input.call ho.topic (.release ho.subscriberId ho.entryId) ∨
      Permits ev.pre ev.input.call ho.topic (.leave ho.subscriberId))) ∨
  ∃ s ∈ (ev.pre.topicStructs ho.topic).subInfoHtable, s.id = ho.subscriberId ∧
    ev.input.call = .processExitCleanup s.pid

/-- A successful reply handed the entry to the subscriber, and the reference was not given up
since. -/
def Holds : List Event → Handout → Prop
  | [], _ => False
  | ev :: before, ho => ho ∈ handouts ev ∨ (Holds before ho ∧ ¬ GivesUp ev ho)

/-- The addresses that the reply to a publish frees. -/
def releasedAddrs : Reply → List Nat
  | .published (.ok reply) => reply.releasedAddrs
  | _ => []

/-- The event deletes an entry at the address. -/
def Deletes (ev : Event) (addr : Nat) : Prop :=
  ∃ tp, ∃ en ∈ (ev.pre.topicStructs tp).entries, en.msgVirtualAddress = addr ∧
    ∀ en' ∈ ((step ev.pre ev.input).2.topicStructs tp).entries, en'.entryId ≠ en.entryId

/-- The address lies in the pool. -/
def MemoryAllocator.Covers (m : MemoryAllocator) (k addr : Nat) : Prop :=
  (m.mempoolEntries k).addr ≤ addr ∧ addr < (m.mempoolEntries k).addr + m.mempoolSizeBytes

instance (m : MemoryAllocator) (k addr : Nat) : Decidable (m.Covers k addr) :=
  inferInstanceAs (Decidable (_ ∧ _))

/-- An address lies in at most one pool. -/
theorem MemoryAllocator.LaidOut.covers_inj {m : MemoryAllocator} {start j k addr : Nat}
    (h : m.LaidOut start) (hj : m.Covers j addr) (hk : m.Covers k addr) : j = k := by
  obtain ⟨hjlo, hjhi⟩ := hj
  obtain ⟨hklo, hkhi⟩ := hk
  rcases Nat.lt_trichotomy j k with hlt | rfl | hgt
  · have := h.before hlt
    omega
  · rfl
  · have := h.before hgt
    omega

theorem covers_step (h : σ.WellFormed) (i : Input) (k addr : Nat) :
    (step σ i).2.mem.Covers k addr ↔ σ.mem.Covers k addr := by
  obtain ⟨_, hsize, haddr⟩ := step_layout h i
  unfold MemoryAllocator.Covers
  rw [hsize, haddr]

/-! ## A reference is only given up by its owner -/

/-- A call that names a reference that is there succeeds. -/
theorem References.names_isOk (hr : Reachable σ) {b : Int} {en : EntryNode}
    (href : References (σ.topicStructs tp) b en)
    (hA : Permits σ i.call tp (.release b en.entryId) ∨ Permits σ i.call tp (.leave b)) :
    (step σ i).1.isOk = true := by
  have hc := hr.wellFormed.store tp
  obtain ⟨s, hs, rfl⟩ := hc.bit_holder href.1 href.2
  have hrange := hc.sub_inRange hs
  obtain ⟨env, call⟩ := i
  rcases hA with ⟨current, topicName, ipcNs, w, rfl, hw, rfl⟩ | ⟨current, topicName, ipcNs, w, rfl, hw, rfl⟩
  · have hentry : findMessageEntry (σ.topicStructs w.topic) en.entryId = some en :=
      (HTable.lookup_eq_some_iff hc.entries_nodup).mpr ⟨href.1, rfl⟩
    show (releaseMessageEntryReference σ current topicName ipcNs s.id en.entryId).1.isOk = true
    unfold releaseMessageEntryReference
    simp [hw, hentry, hrange, href.2, Except.isOk, Except.toBool]
  · have hsub : findSubscriberInfo (σ.topicStructs w.topic) s.id = some s :=
      (HTable.lookup_eq_some_iff hc.subs_nodup).mpr ⟨hs, rfl⟩
    show (removeSubscriber σ current topicName ipcNs s.id).1.isOk = true
    unfold removeSubscriber
    simp [hw, hsub, hrange, Except.isOk, Except.toBool]

/-! ## Where the entries lie -/

/-- The address that a publish uses. -/
def Call.publishedAddr : Call → Option Nat
  | .publishMsg _ _ _ _ addr => some addr
  | _ => none

/-- A publish uses no address that an entry of a topic has. -/
def PublishesUnused (σ : Kmod) (i : Input) : Prop :=
  ∀ addr ∈ i.call.publishedAddr, ∀ tp < σ.nextTopicPtr, ∀ en ∈ (σ.topicStructs tp).entries,
    en.msgVirtualAddress ≠ addr

instance (σ : Kmod) (i : Input) : Decidable (PublishesUnused σ i) :=
  inferInstanceAs (Decidable (∀ addr ∈ _, _))

theorem PublishesUnused.unused (hr : Reachable σ) (h : PublishesUnused σ i) {p : PublisherInfo}
    {tp₀ addr : Nat} (hA : Permits σ i.call tp₀ (.publish p addr)) {en : EntryNode}
    (hen : en ∈ (σ.topicStructs tp).entries) : en.msgVirtualAddress ≠ addr := by
  obtain ⟨current, topicName, ipcNs, w, procInfo, hcall, _⟩ := hA
  refine h addr (by rw [hcall]; rfl) tp ?_ en hen
  by_contra hge
  rw [hr.fresh tp (not_lt.mp hge)] at hen
  cases hen

/-- No two entries have one address. -/
def AddressesUnique (σ : Kmod) : Prop :=
  ∀ tp, ∀ en ∈ (σ.topicStructs tp).entries, ∀ tp', ∀ en' ∈ (σ.topicStructs tp').entries,
    en'.msgVirtualAddress = en.msgVirtualAddress → tp' = tp ∧ en'.entryId = en.entryId

/-- A call publishes at one place. -/
private theorem Permits.publish_inj {tp tp' : Nat} {p p' : PublisherInfo} {addr addr' : Nat}
    (h : Permits σ i.call tp (.publish p addr)) (h' : Permits σ i.call tp' (.publish p' addr')) :
    tp' = tp ∧ addr' = addr := by
  obtain ⟨current, topicName, ipcNs, w, _, hcall, hw, rfl, _⟩ := h
  obtain ⟨current', topicName', ipcNs', w', _, hcall', hw', rfl, _⟩ := h'
  rw [hcall] at hcall'
  obtain ⟨rfl, rfl, rfl, _, rfl⟩ := Call.publishMsg.inj hcall'
  exact ⟨congrArg TopicWrapper.topic (Option.some.inj (hw'.symm.trans hw)), rfl⟩

theorem AddressesUnique.step (hr : Reachable σ) (h : AddressesUnique σ)
    (hunused : PublishesUnused σ i) : AddressesUnique (Agnocast.step σ i).2 := by
  intro tp en hen tp' en' hen' heq
  rcases entry_origin_step hr hen with ⟨en₀, hen₀, hsame⟩ | ⟨p, _, addr, hA, hid, _, haddr⟩ <;>
    rcases entry_origin_step hr hen' with ⟨en₀', hen₀', hsame'⟩ | ⟨p', _, addr', hA', hid', _, haddr'⟩
  · rw [hsame.msgVirtualAddress_eq, hsame'.msgVirtualAddress_eq] at heq
    rw [hsame.entryId_eq, hsame'.entryId_eq]
    exact h tp en₀ hen₀ tp' en₀' hen₀' heq
  · rw [hsame.msgVirtualAddress_eq, haddr'] at heq
    exact absurd heq.symm (hunused.unused hr hA' hen₀)
  · rw [hsame'.msgVirtualAddress_eq, haddr] at heq
    exact absurd heq (hunused.unused hr hA hen₀')
  · obtain ⟨rfl, _⟩ := hA.publish_inj hA'
    exact ⟨rfl, hid'.trans hid.symm⟩

/-- The entries of a live process lie in its pool. -/
def EntriesInPools (σ : Kmod) : Prop :=
  ∀ tp, ∀ en ∈ (σ.topicStructs tp).entries, ∀ p ∈ (σ.topicStructs tp).pubInfoHtable,
    p.id = en.publisherId → ∀ q, findProcessInfo σ p.pid = some q → q.exited = false →
      σ.mem.Covers q.mempoolEntry en.msgVirtualAddress

theorem EntriesInPools.step (hr : Reachable σ) (h : EntriesInPools σ)
    (hg : EndpointsRegistered σ i) : EntriesInPools (Agnocast.step σ i).2 := by
  intro tp en' hen' p' hp' hid q' hq' hlive
  have hc := hr.wellFormed.store tp
  rw [covers_step hr.wellFormed]
  -- the publisher was there before, and so was its process with the same pool
  have hold : ∀ p ∈ (σ.topicStructs tp).pubInfoHtable, SamePublisher p p' →
      ∃ q, findProcessInfo σ p.pid = some q ∧ q.exited = false ∧
        q'.mempoolEntry = q.mempoolEntry := by
    intro p hp hsame
    rw [hsame.pid_eq] at hq'
    rcases registration_origin hr hq' with ⟨q, hq, heq, _, hmark⟩ | ⟨_, _, _, _, _, hcall, _⟩
    · exact ⟨q, hq, hmark hlive, by rw [heq]⟩
    · exact absurd rfl (hg.fresh_pid hr hcall hp)
  obtain ⟨t, t', hbefore, hstep, hafter⟩ := step_topicStep hr i tp
  have hct := hbefore.consistent hc
  have hfrom := hstep.pub_from hr.wellFormed hct (hafter.pubs ▸ hp')
  rw [hbefore.pubs, hbefore.pubsubId] at hfrom
  rcases entry_origin_step hr hen' with ⟨en, hen, hsame⟩ |
    ⟨p₀, hp₀, addr, hA, _, hpub, haddr⟩
  · rw [hsame.msgVirtualAddress_eq]
    rw [hsame.publisherId_eq] at hid
    rcases hfrom with ⟨p, hp, hsamep⟩ | ⟨_, _, _, _, hnew, _⟩
    · obtain ⟨q, hq, hqlive, hpool⟩ := hold p hp hsamep
      rw [hpool]
      exact h tp en hen p hp (hsamep.id_eq.symm.trans hid) q hq hqlive
    · -- the entry's publisher has an older id than a new one
      obtain ⟨p, hp, hpid⟩ := hc.publisher en hen
      have := (hc.pub_id p hp).2
      omega
  · obtain ⟨current, topicName, ipcNs, w, procInfo, hcall, _, _, _, hproc, hlo, hhi⟩ := hA
    rw [haddr]
    rcases hfrom with ⟨p, hp, hsamep⟩ | ⟨_, _, _, hcall', _⟩
    · obtain ⟨q, hq, _, hpool⟩ := hold p hp hsamep
      obtain rfl : p = p₀ := HTable.eq_of_key_eq hc.pubs_nodup hp hp₀
        (hsamep.id_eq.symm.trans (hid.trans hpub))
      obtain rfl := Option.some.inj (hq.symm.trans hproc)
      rw [hpool]
      exact ⟨hlo, hhi⟩
    · rw [hcall] at hcall'
      cases hcall'

/-! ## What is held is in use -/

/-- The entry is in the tree at its address with the subscriber's bit, and the subscriber's
process maps the pool that the address lies in. -/
structure InUse (σ : Kmod) (ho : Handout) : Prop where
  entry : ∃ en, References (σ.topicStructs ho.topic) ho.subscriberId en ∧
    en.entryId = ho.entryId ∧ en.msgVirtualAddress = ho.addr
  pool : ∃ s ∈ (σ.topicStructs ho.topic).subInfoHtable, s.id = ho.subscriberId ∧
    ∃ k, σ.mem.Covers k ho.addr ∧ s.pid ∈ σ.mem.mapped k

/-- What is handed out is in use. -/
private theorem InUse.granted (hr : Reachable σ) (hmapped : UnflaggedMapped σ)
    (hin : EntriesInPools σ) (hhome : FetchesAtHome σ i) {ho : Handout}
    (hho : ho ∈ handouts (eventOf σ i)) : InUse (step σ i).2 ho := by
  obtain ⟨w, s, batch, infos, t', m, htarget, hf, en, hen, rfl⟩ := handout_cases hr.wellFormed hho
  obtain ⟨en', hen', hsame, hbit⟩ := hf.granted hr.wellFormed hen
  obtain ⟨s', hs', hsub⟩ := hf.keeps_subscriber hf.subscriber
  have hmem := hf.sublist.subset hen
  obtain ⟨p, hp, hid⟩ := (hr.wellFormed.store w.topic).publisher en hmem
  obtain ⟨q, hq, hlive, hq'⟩ := hf.mapped hr hmapped (hhome.domain htarget) hen hp hid
  have hcovers := hin w.topic en hmem p hp hid q hq hlive
  rw [← covers_step hr.wellFormed i] at hcovers
  constructor
  · exact ⟨en', ⟨hf.topic.symm ▸ hen', hbit⟩, hsame.entryId_eq, hsame.msgVirtualAddress_eq⟩
  · refine ⟨s', hf.topic.symm ▸ hs', hsub.id_eq, q.mempoolEntry, hcovers, ?_⟩
    rw [hsub.pid_eq, hf.after]
    exact hq'

/-- **The step**: what is in use stays so until the reference is given up. -/
theorem InUse.step (hr : Reachable σ) (hg : EndpointsRegistered σ i) {ho : Handout}
    (h : InUse σ ho) (hkeep : ¬ GivesUp (eventOf σ i) ho) : InUse (Agnocast.step σ i).2 ho := by
  obtain ⟨⟨en, href, hentry, haddr⟩, s, hs, hid, k, hcovers, hin⟩ := h
  have hc := hr.wellFormed.store ho.topic
  -- a call that named the reference would have succeeded
  have hnames : ¬ (Permits σ i.call ho.topic (.release ho.subscriberId en.entryId) ∨
      Permits σ i.call ho.topic (.leave ho.subscriberId)) :=
    fun hA => hkeep (.inl ⟨href.names_isOk hr hA, hentry ▸ hA⟩)
  have hspare : SparesSubscriber σ i.call ho.topic s :=
    ⟨fun hleave => hnames (.inr (hid ▸ hleave)), fun hcall => hkeep (.inr ⟨s, hs, hid, hcall⟩)⟩
  obtain ⟨en', hsame, href'⟩ := keeps_reference_step hr i href (fun hA => hnames (.inl hA))
    fun s₁ hs₁ hid₁ => HTable.eq_of_key_eq hc.subs_nodup hs hs₁ (hid.trans hid₁.symm) ▸ hspare
  obtain ⟨s', hs', hsub⟩ := keeps_subscriber_step hr i hs hspare
  constructor
  · exact ⟨en', href', hsame.entryId_eq.trans hentry, hsame.msgVirtualAddress_eq.trans haddr⟩
  · refine ⟨s', hs', hsub.id_eq.trans hid, k, (covers_step hr.wellFormed i k _).mpr hcovers, ?_⟩
    have hends := ends_eq_false hr hg hs'
    rw [hsub.pid_eq] at hends ⊢
    exact mapped_kept hr hin hends

/-- A publish frees no address that is in use. -/
private theorem InUse.not_released (hr : Reachable σ) (hunique : AddressesUnique σ)
    (hunused : PublishesUnused σ i) {ho : Handout} (h : InUse σ ho) :
    ho.addr ∉ releasedAddrs (Agnocast.step σ i).1 := by
  obtain ⟨⟨en, href, hentry, haddr⟩, _⟩ := h
  intro hmem
  obtain ⟨env, call⟩ := i
  have hnone : ∀ r : Reply × Kmod, releasedAddrs r.1 = [] → ho.addr ∉ releasedAddrs r.1 := by
    intro r hr hin
    rw [hr] at hin
    cases hin
  cases call with
  | publishMsg current topicName ipcNs publisherId addr =>
    have hstep : Agnocast.step σ ⟨env, .publishMsg current topicName ipcNs publisherId addr⟩ =
      answer .published (publishMsg σ env current topicName ipcNs publisherId addr) := rfl
    rw [hstep] at hmem
    rcases publishMsg_cases (σ := σ) env current topicName ipcNs publisherId addr with
      ⟨e, heq⟩ | ⟨w, p, procInfo, hw, hp, hproc, hlo, hhi, heq⟩ <;> rw [heq] at hmem
    · cases hmem
    obtain ⟨hpmem, hpid⟩ := HTable.mem_of_lookup hp
    have hc := hr.wellFormed.store w.topic
    rcases publishMsgCore_cases hc hpmem env addr with ⟨e, hcore⟩ | ⟨r, hspec, ⟨e, hcore⟩ | hcore⟩ <;>
      rw [hcore] at hmem
    · cases hmem
    · cases hmem
    rcases hspec.addrs _ hmem with hmem | ⟨en₀, hen₀, _, hfree, hsame⟩
    · cases hmem
    rcases List.mem_append.mp hen₀ with hen₀ | hen₀
    · -- an old entry at the address is the one that is in use, and that is referenced
      obtain ⟨htp, hsameId⟩ := hunique ho.topic en href.1 w.topic en₀ hen₀ (hsame.trans haddr.symm)
      rw [htp] at hen₀
      obtain rfl := HTable.eq_of_key_eq (hr.wellFormed.store ho.topic).entries_nodup hen₀ href.1
        hsameId
      rw [isReferenced_iff.mpr ⟨_, href.2⟩] at hfree
      cases hfree
    · -- the new one lies somewhere else
      obtain rfl := List.mem_singleton.mp hen₀
      have hA : Permits σ (.publishMsg current topicName ipcNs publisherId addr) w.topic
          (.publish p addr) := by
        subst hpid
        exact ⟨current, topicName, ipcNs, w, procInfo, rfl, hw, rfl, hp, hproc, hlo, hhi⟩
      exact hunused.unused hr hA href.1 (haddr.trans hsame.symm)
  | _ => exact hnone _ rfl hmem

/-! ## Every run -/

/-- What an event leaves alone while the entry is held: no entry at its address is deleted, no
publisher is told that the address is free, and no process gets the pool around it. -/
structure LeftAlone (ev : Event) (ho : Handout) : Prop where
  kept : ¬ Deletes ev ho.addr
  notReleased : ho.addr ∉ releasedAddrs ev.output
  notAssigned : ∀ k, ev.pre.mem.Covers k ho.addr → ¬ Assigns ev k

/-- Whatever is held is in the tree at its address, and every event leaves it alone that does
not give it up. -/
def NoUseAfterFree : List Event → Prop
  | [] => True
  | ev :: before => NoUseAfterFree before ∧
      (∀ ho, Holds (ev :: before) ho →
        ∃ en ∈ ((step ev.pre ev.input).2.topicStructs ho.topic).entries,
          en.entryId = ho.entryId ∧ en.msgVirtualAddress = ho.addr) ∧
      ∀ ho, Holds before ho → ¬ GivesUp ev ho → LeftAlone ev ho

/-- **One event leaves alone** what is in use before it. -/
private theorem InUse.leftAlone (hr : Reachable σ) (hg : EndpointsRegistered σ i)
    (hunique : AddressesUnique σ) (hunused : PublishesUnused σ i) {ho : Handout} (h : InUse σ ho)
    (hkeep : ¬ GivesUp (eventOf σ i) ho) : LeftAlone (eventOf σ i) ho := by
  refine ⟨?_, h.not_released hr hunique hunused, fun k hk hassigns => ?_⟩
  · rintro ⟨tp, en, hen, haddr, hgone⟩
    obtain ⟨en₁, href, hentry, haddr₁⟩ := h.entry
    obtain ⟨rfl, hid⟩ := hunique _ en₁ href.1 tp en hen (haddr.trans haddr₁.symm)
    obtain ⟨en', href', hentry', _⟩ := (h.step hr hg hkeep).entry
    exact hgone en' href'.1 (hentry'.trans (hentry.symm.trans hid.symm))
  · obtain ⟨s, _, _, j, hcovers, hin⟩ := h.pool
    obtain ⟨start, hlaid⟩ := (reachable_poolsOk hr).laidOut
    obtain rfl := hlaid.covers_inj hcovers hk
    have hnobody : σ.mem.mapped j = [] := hassigns.nobody hr
    rw [hnobody] at hin
    cases hin

/-- **No use after free**: in a run of registered endpoints whose receives and takes come from
the domain of the subscriber, and whose publishes use no address of an entry that is still in a
topic, whatever is held stays. -/
theorem no_use_after_free {tr : List Event}
    (h : Transition.Run kmod
      (fun σ i => EndpointsRegistered σ i ∧ FetchesAtHome σ i ∧ PublishesUnused σ i) tr σ) :
    NoUseAfterFree tr := by
  refine (h.history (P := fun tr σ => (UnflaggedMapped σ ∧ EntriesInPools σ ∧ AddressesUnique σ ∧
    ∀ ho, Holds tr ho → InUse σ ho) ∧ NoUseAfterFree tr) ?_ ?_).2
  · rintro σ ⟨num, start, gb, m, hinit, rfl⟩
    refine ⟨⟨fun tp s hs => (by cases hs), fun tp en hen => (by cases hen),
      fun tp en hen => (by cases hen), fun ho hho => hho.elim⟩, trivial⟩
  rintro tr σ i hrun ⟨⟨hmapped, hin, hunique, hheld⟩, hall⟩ ⟨hg, hhome, hunused⟩
  have hr : Reachable σ := hrun.reachable
  have hheld' : ∀ ho, Holds (eventOf σ i :: tr) ho → InUse (step σ i).2 ho := by
    rintro ho (hho | ⟨hho, hkeep⟩)
    · exact .granted hr hmapped hin hhome hho
    · exact (hheld ho hho).step hr hg hkeep
  refine ⟨⟨hmapped.step hr hg hhome, hin.step hr hg, hunique.step hr hunused, hheld'⟩, hall,
    fun ho hho => ?_, fun ho hho hkeep => (hheld ho hho).leftAlone hr hg hunique hunused hkeep⟩
  obtain ⟨en, href, hentry⟩ := (hheld' ho hho).entry
  exact ⟨en, href.1, hentry⟩

/-- Process 2 holds the first entry of process 1 when the second one is published with depth 1,
and process 1 exits. -/
theorem no_use_after_free_of_two :
    let r := runOf 2 [.addProcess 1 0 0 1, .addProcess 2 0 0 1,
      .addSubscriber ['/', 't'] 0 ⟨[], 2, 1, false, true, false, false, false⟩ 7,
      .addPublisher ['/', 't'] 0 ⟨[], 1, 1, false, false⟩, .publishMsg 1 ['/', 't'] 0 1 16,
      .receiveMsg 2 ['/', 't'] 0 0 1024, .publishMsg 1 ['/', 't'] 0 1 32, .processExitCleanup 1]
    NoUseAfterFree r.1 ∧ (r.2.topicStructs 0).entries.map EntryNode.msgVirtualAddress = [16] :=
  ⟨no_use_after_free (run_runOf (by decide) (by decide) (by decide)), by decide⟩

/-! ## What the conditions keep out -/

/-- Only a release, a removal of a subscriber or an exit cleanup gives anything up. -/
private theorem GivesUp.names {ev : Event} {ho : Handout} (h : GivesUp ev ho) :
    (∃ current topicName ipcNs id entryId,
      ev.input.call = .releaseMessageEntryReference current topicName ipcNs id entryId) ∨
    (∃ current topicName ipcNs id, ev.input.call = .removeSubscriber current topicName ipcNs id) ∨
    ∃ s ∈ (ev.pre.topicStructs ho.topic).subInfoHtable, s.id = ho.subscriberId ∧
      ev.input.call = .processExitCleanup s.pid := by
  rcases h with ⟨_, ⟨current, topicName, ipcNs, _, hcall, _⟩ |
    ⟨current, topicName, ipcNs, _, hcall, _⟩⟩ | hexit
  · exact .inl ⟨current, topicName, ipcNs, _, _, hcall⟩
  · exact .inr (.inl ⟨current, topicName, ipcNs, _, hcall⟩)
  · exact .inr (.inr hexit)

/-- Process 1 of the other domain receives for process 2 what process 3 published, and process 3
exits: nobody maps the pool of the entry that process 2 holds, and process 4 gets it. -/
private theorem foreign_fetch_loses_pool :
    ¬ ∀ (tr : List Event) (σ : Kmod),
      Transition.Run kmod (fun σ i => EndpointsRegistered σ i ∧ PublishesUnused σ i) tr σ →
        NoUseAfterFree tr := by
  intro h
  have hrun := run_runOf (n := 4) (by decide) (by decide)
    (G := fun σ i => EndpointsRegistered σ i ∧ PublishesUnused σ i)
    (show kmod.Guarded _ _ ([.addDomainBridge ['/', 't'] ['/', 't'] 1 2 0, .addProcess 1 0 0 1,
      .addProcess 2 0 0 2, .addProcess 3 0 0 2,
      .addSubscriber ['/', 't'] 0 ⟨[], 2, 1, false, true, false, false, false⟩ 7,
      .addPublisher ['/', 't'] 0 ⟨[], 1, 1, false, false⟩,
      .addPublisher ['/', 't'] 0 ⟨[], 3, 1, false, false⟩,
      .publishMsg 3 ['/', 't'] 0 2 (2 * 1024 ^ 3 + 16), .receiveMsg 1 ['/', 't'] 0 0 1024,
      .processExitCleanup 3].map fun call => ⟨.smooth, call⟩) by decide)
  have hlast := (h _ _ (.step ⟨.smooth, .addProcess 4 0 0 2⟩ hrun (by decide))).2.2
    ⟨0, 0, 1, 2 * 1024 ^ 3 + 16⟩
  refine (hlast (.inr ⟨.inl (by decide), fun hgives => ?_⟩) fun hgives => ?_).notAssigned 2
    (by decide) ⟨⟨false, .application, 4, 4, 2, 0, 2⟩, ⟨by decide, by decide⟩, rfl⟩
  · rcases hgives.names with ⟨_, _, _, _, _, hcall⟩ | ⟨_, _, _, _, hcall⟩ | ⟨s, hs, _, hcall⟩
    · cases hcall
    · cases hcall
    · have hpid : s.pid = 2 := by
        revert s
        decide
      rw [hpid] at hcall
      cases hcall
  · rcases hgives.names with ⟨_, _, _, _, _, hcall⟩ | ⟨_, _, _, _, hcall⟩ | ⟨s, _, _, hcall⟩ <;>
      cases hcall

/-- Process 1 publishes the address that process 2 holds once more, and when that entry is
trimmed it is told that the address is free. -/
private theorem reused_address_is_freed :
    ¬ ∀ (tr : List Event) (σ : Kmod),
      Transition.Run kmod (fun σ i => EndpointsRegistered σ i ∧ FetchesAtHome σ i) tr σ →
        NoUseAfterFree tr := by
  intro h
  have hrun := run_runOf (n := 2) (by decide) (by decide)
    (G := fun σ i => EndpointsRegistered σ i ∧ FetchesAtHome σ i)
    (show kmod.Guarded _ _ ([.addProcess 1 0 0 1, .addProcess 2 0 0 1,
      .addSubscriber ['/', 't'] 0 ⟨[], 2, 1, false, true, false, false, false⟩ 7,
      .addPublisher ['/', 't'] 0 ⟨[], 1, 1, false, false⟩, .publishMsg 1 ['/', 't'] 0 1 16,
      .receiveMsg 2 ['/', 't'] 0 0 1024, .publishMsg 1 ['/', 't'] 0 1 16].map
        fun call => ⟨.smooth, call⟩) by decide)
  have hlast := (h _ _ (.step ⟨.smooth, .publishMsg 1 ['/', 't'] 0 1 32⟩ hrun (by decide))).2.2
    ⟨0, 0, 1, 16⟩
  refine (hlast (.inr ⟨.inl (by decide), fun hgives => ?_⟩) fun hgives => ?_).notReleased (by decide)
  all_goals
    rcases hgives.names with ⟨_, _, _, _, _, hcall⟩ | ⟨_, _, _, _, hcall⟩ | ⟨s, _, _, hcall⟩ <;>
      cases hcall

/-- **Held entries are lost** without either condition. -/
theorem held_entry_lost :
    (¬ ∀ (tr : List Event) (σ : Kmod),
      Transition.Run kmod (fun σ i => EndpointsRegistered σ i ∧ PublishesUnused σ i) tr σ →
        NoUseAfterFree tr) ∧
    ¬ ∀ (tr : List Event) (σ : Kmod),
      Transition.Run kmod (fun σ i => EndpointsRegistered σ i ∧ FetchesAtHome σ i) tr σ →
        NoUseAfterFree tr :=
  ⟨foreign_fetch_loses_pool, reused_address_is_freed⟩

end Agnocast
