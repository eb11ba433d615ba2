import Agnocast.Delivery.DepthTrimming
import Agnocast.Store.References

/-!
# Delivery — every published address comes back once

A publisher gets the memory of a message back when PUBLISH_MSG reports its address as released.

* `TopicStep.keeps_owed` — no other call takes an entry of a live publisher out of the tree.
* `run_addresses`        — through a run in which the publisher is neither removed nor exits, what
  it has published is what is in the tree and what was reported.
* `depth_trimming`       — that, and what one call trims.
-/

namespace Agnocast

variable {σ σ' : Kmod} {t t' : TopicStruct} {i : Input} {tp : Nat}

/-! ## One step of a topic -/

theorem owedAddrs_congr (q : Int) (h : t'.entries = t.entries) : owedAddrs q t' = owedAddrs q t := by
  rw [owedAddrs, h, owedAddrs]

/-- Changing the bits of entries changes no address. -/
private theorem entriesBy_map {f : EntryNode → EntryNode} (hf : ∀ en, SameEntry en (f en)) (q : Int)
    (l : List EntryNode) : (entriesBy q (l.map f)).map EntryNode.msgVirtualAddress =
      (entriesBy q l).map EntryNode.msgVirtualAddress := by
  have hfilter : entriesBy q (l.map f) = (entriesBy q l).map f := by
    rw [entriesBy, List.filter_map]
    congr 1
    refine List.filter_congr fun en _ => ?_
    show decide ((f en).publisherId = q) = _
    rw [(hf en).publisherId_eq]
  rw [hfilter, List.map_map]
  exact List.map_congr_left fun en _ => (hf en).msgVirtualAddress_eq

/-- What a filter drops of others does not matter. -/
private theorem entriesBy_filter {keep : EntryNode → Bool} {q : Int} {l : List EntryNode}
    (hkeep : ∀ en ∈ l, en.publisherId = q → keep en = true) :
    entriesBy q (l.filter keep) = entriesBy q l := by
  have hcomm : entriesBy q (l.filter keep) = (entriesBy q l).filter keep := List.filter_comm ..
  rw [hcomm]
  refine List.filter_eq_self.mpr fun en hen => ?_
  obtain ⟨hmem, hid⟩ := List.mem_filter.mp hen
  exact hkeep en hmem (by simpa using hid)

theorem ReleaseSpec.entriesBy {q q' : Int} {l : List EntryNode} {c : Nat} {released : List Nat}
    {r : ReleaseLoop} (hr : ReleaseSpec q l c released r) (hne : q' ≠ q) :
    Agnocast.entriesBy q' r.entries = Agnocast.entriesBy q' l := by
  refine (hr.sublist.filter _).eq_of_length ?_
  show (Agnocast.entriesBy q' r.entries).length = (Agnocast.entriesBy q' l).length
  rw [length_entriesBy, length_entriesBy, hr.others q' hne]

private theorem clear_keeps_owed {leaving : List Int} (h : t.Consistent leaving) (b : Int)
    {p : PublisherInfo} (hp : p ∈ t.pubInfoHtable) (hlive : processGone σ p.pid = false) :
    owedAddrs p.id (clearSubscriberReferences σ t b) = owedAddrs p.id t := by
  have hexited : publisherExited σ t.pubInfoHtable p.id = false := by
    rw [publisherExited, HTable.lookup_self h.pubs_nodup hp]
    exact hlive
  rw [owedAddrs, (h.clearSpec (σ := σ) b).entries, entriesWithout, entriesBy_filter]
  · exact entriesBy_map (fun en => en.clearBit_same b) p.id t.entries
  · rintro en - hid
    rw [hid, hexited]
    exact Bool.or_true _

private theorem dropPublisher_keeps_owed (h : t.Consistent []) {p : PublisherInfo} {q : Int}
    (hp : p ∈ t.pubInfoHtable) (hne : q ≠ p.id) : owedAddrs q (dropPublisher t p) = owedAddrs q t := by
  rw [owedAddrs, h.dropPublisher_entries hp, entriesBy_filter, owedAddrs]
  rintro en - rfl
  exact decide_eq_true (.inl hne)

private theorem visitTopic_keeps_owed (h : t.Consistent []) {pid : Pid} {p : PublisherInfo}
    (hp : p ∈ t.pubInfoHtable) (hpid : p.pid ≠ pid) (hlive : processGone σ p.pid = false) :
    owedAddrs p.id (visitTopic σ pid t) = owedAddrs p.id t := by
  have hown : p ∈ (preHandlerPublisherExit t pid).pubInfoHtable ∧
      owedAddrs p.id (preHandlerPublisherExit t pid) = owedAddrs p.id t := by
    refine preHandlerPublisherExit_rec
      (P := fun t₁ => p ∈ t₁.pubInfoHtable ∧ owedAddrs p.id t₁ = owedAddrs p.id t) h ⟨hp, rfl⟩ ?_
    rintro t₁ q ht hq hqpid ⟨hp₁, howed⟩
    have hne : p.id ≠ q.id := fun hid => by
      rw [HTable.eq_of_key_eq ht.pubs_nodup hp₁ hq hid] at hpid
      exact hpid hqpid
    exact ⟨(ht.mem_dropPublisher hq).mpr (.inl ⟨hp₁, hne⟩),
      (dropPublisher_keeps_owed ht hq hne).trans howed⟩
  rcases visitTopic_cases (σ := σ) pid h with ⟨_, heq⟩ | ⟨l, _, _, t₁, hc, hentries, _, hpubs₁, heq⟩
  · rw [heq]
    exact hown.2
  · obtain ⟨p₁, hp₁, hsame⟩ := hpubs₁ p hown.1
    -- one subscriber of the process after the other
    have hall : ∀ (l : List SubscriberInfo) (t : TopicStruct),
        t.Consistent (l.map SubscriberInfo.id) → p₁ ∈ t.pubInfoHtable →
        owedAddrs p₁.id (l.foldl (fun t s => clearSubscriberReferences σ t s.id) t) =
          owedAddrs p₁.id t := by
      have hlive₁ : processGone σ p₁.pid = false := hsame.pid_eq ▸ hlive
      intro l
      induction l with
      | nil => exact fun _ _ _ => rfl
      | cons s l ih =>
        intro t ht hp
        exact (ih _ ht.clearSubscriberReferences (clear_keeps_live ht s.id hp hlive₁)).trans
          (clear_keeps_owed ht s.id hp hlive₁)
    rw [heq, ← hsame.id_eq, hall l t₁ hc hp₁, hsame.id_eq, owedAddrs_congr p.id hentries]
    exact hown.2

/-- The call removes the publisher of the topic at `tp`. -/
def RemovesPublisher (σ : Kmod) (call : Call) (tp : Nat) (id : Int) : Prop :=
  ∃ current topicName ipcNs w, call = .removePublisher current topicName ipcNs id ∧
    findTopicForCurrent σ current topicName ipcNs = some w ∧ w.topic = tp

/-- **What a live publisher is owed** only its own publications and its removal change. -/
theorem TopicStep.keeps_owed (hstep : TopicStep σ i tp t t') (hc : t.Consistent [])
    {p : PublisherInfo} (hp : p ∈ t.pubInfoHtable) (hlive : processGone σ p.pid = false)
    (hlive' : processGone (step σ i).2 p.pid = false)
    (hpublish : ∀ p' addr, Permits σ i.call tp (.publish p' addr) → p'.id ≠ p.id)
    (hremove : ¬ RemovesPublisher σ i.call tp p.id) : owedAddrs p.id t' = owedAddrs p.id t := by
  cases hstep with
  | same | setRos2SubscriberNum | setRos2PublisherNum => rfl
  | addSubscriber => exact owedAddrs_congr p.id (insertSubscriberInfo_entries ..)
  | @addPublisher topicName ipcNs args hcall σ₁ =>
    refine owedAddrs_congr p.id ?_
    rcases insertPublisherInfo_cases (σ := σ₁) i.env t (getProcessDomainId σ args.pid) args with
      ⟨e, heq⟩ | ⟨e, _, heq⟩ | ⟨capacity, _, _, heq⟩ <;> rw [heq]
    rfl
  | @publishMsg p' hp' addr hA =>
    have hne : p.id ≠ p'.id := (hpublish p' addr hA).symm
    -- the trimming of another publisher leaves the entries of this one
    have hpublished (r : ReleaseLoop)
        (hr : ReleaseSpec p'.id (t.entries ++ [newEntryNode t p' addr]) 0 [] r) :
        owedAddrs p.id (t.published p' r.entries) = owedAddrs p.id t := by
      show (entriesBy p.id r.entries).map _ = _
      rw [hr.entriesBy hne, entriesBy_append, entriesBy_cons_of_ne hne.symm, owedAddrs]
      exact congrArg _ (List.append_nil _)
    rcases publishMsgCore_cases hc hp' i.env addr with ⟨e, heq⟩ | ⟨r, hr, ⟨e, heq⟩ | heq⟩ <;> rw [heq]
    · exact hpublished r hr
    · exact hpublished r hr
  | @fetchMsg w s batch ret t' m ht hcall htp hf =>
    subst htp ht
    rw [owedAddrs, hf.entries]
    refine entriesBy_map (fun en => ?_) p.id _
    split
    · exact en.setBit_same s.id
    · exact .refl en
  | @releaseReference en hen b hA =>
    -- setting and clearing a bit keep the publisher and the address of an entry
    have hsame : HTable.modify EntryNode.entryId en.entryId (fun _ => en.clearBit b) t.entries =
        HTable.modify EntryNode.entryId en.entryId (fun x => x.clearBit b) t.entries :=
      HTable.modify_congr fun x hx hid => by rw [HTable.eq_of_key_eq hc.entries_nodup hx hen hid]
    show (entriesBy p.id (HTable.modify EntryNode.entryId en.entryId _ t.entries)).map _ = _
    rw [hsame]
    refine entriesBy_map (fun x => ?_) p.id _
    split
    · exact x.clearBit_same b
    · exact .refl x
  | @removeSubscriber s hs _ =>
    obtain ⟨hentries, -, hpubs⟩ := unlinkSubscriberInfo_frame (σ := σ) t s
    obtain ⟨p₁, hp₁, hsame, -⟩ := hpubs p hp
    have hclear := clear_keeps_owed (hc.unlinkSubscriberInfo s) s.id hp₁ (hsame.pid_eq ▸ hlive)
    rw [hsame.id_eq] at hclear
    exact hclear.trans (owedAddrs_congr p.id hentries)
  | @removePublisher p' hp' current topicName ipcNs w hcall hw htp =>
    refine dropPublisher_keeps_owed hc hp' fun hid => hremove ?_
    exact ⟨current, topicName, ipcNs, w, hid ▸ hcall, hw, htp⟩
  | @processExit pid procInfo hcall hproc σ₁ hprocs =>
    have hgone (q : Pid) : processGone σ₁ q = processGone (step σ i).2 q := by
      unfold processGone findProcessInfo
      rw [hprocs]
    refine visitTopic_keeps_owed hc hp (fun hpid => ?_) ((hgone p.pid).trans hlive')
    -- the exit is of another process, as the publisher's is still there
    have hafter : (step σ i).2 = processExitCleanup σ pid := by
      obtain ⟨env, call⟩ := i
      obtain rfl : call = _ := hcall
      rfl
    rw [hafter, hpid, (processGone_of_exit hproc rfl).mpr (.inl rfl)] at hlive'
    cases hlive'

/-! ## One step of the module -/

/-- What the event brings to the publisher of the topic at `tp`: the address that it publishes, and
those that are reported as released. -/
def publishedBy (tp : Nat) (id : Int) (ev : Event) : Option (Nat × List Nat) :=
  match ev.input.call, ev.output with
  | .publishMsg current topicName ipcNs publisherId addr, .published (.ok reply) =>
    match findTopicForCurrent ev.pre current topicName ipcNs with
    | none => none
    | some w =>
      if w.topic = tp ∧ publisherId = id then some (addr, reply.releasedAddrs) else none
  | _, _ => none

/-- The addresses that the publisher has published in a run. -/
def publishedAddrs (tp : Nat) (id : Int) (tr : List Event) : List Nat :=
  (tr.filterMap (publishedBy tp id)).map Prod.fst

/-- The addresses that were reported as released to it. -/
def reportedAddrs (tp : Nat) (id : Int) (tr : List Event) : List Nat :=
  (tr.filterMap (publishedBy tp id)).flatMap Prod.snd

/-- The publisher has a depth, is not removed by the step, and its process, once it is registered,
does not exit. -/
def KeepsPublisher (tp : Nat) (id : Int) (σ : Kmod) (i : Input) : Prop :=
  ∀ p ∈ (σ.topicStructs tp).pubInfoHtable, p.id = id →
    1 ≤ p.qosDepth ∧ ¬ RemovesPublisher σ i.call tp id ∧
      (findProcessInfo σ p.pid ≠ none →
        processGone σ p.pid = false ∧ processGone (step σ i).2 p.pid = false)

/-- The call publishes under the id on the topic at `tp`. -/
def PublishesOn (σ : Kmod) (call : Call) (tp : Nat) (id : Int) : Prop :=
  ∃ current topicName ipcNs addr w, call = .publishMsg current topicName ipcNs id addr ∧
    findTopicForCurrent σ current topicName ipcNs = some w ∧ w.topic = tp

theorem publishedBy_eq_none {id : Int} {ev : Event} (h : ¬ PublishesOn ev.pre ev.input.call tp id) :
    publishedBy tp id ev = none := by
  unfold publishedBy
  split
  · next current topicName ipcNs publisherId addr reply hcall _ =>
    split
    · rfl
    · next w hw =>
      refine if_neg fun ⟨htp, hid⟩ => h ?_
      exact ⟨current, topicName, ipcNs, addr, w, hid ▸ hcall, hw, htp⟩
  · rfl

/-- Whoever is owed something is registered. -/
def OwedRegistered (tp : Nat) (id : Int) (σ : Kmod) : Prop :=
  owedAddrs id (σ.topicStructs tp) ≠ [] →
    ∀ p ∈ (σ.topicStructs tp).pubInfoHtable, p.id = id → findProcessInfo σ p.pid ≠ none

/-- Who is owed something has its publisher in the table. -/
private theorem publisher_of_owed (hc : t.Consistent []) {id : Int} (howed : owedAddrs id t ≠ []) :
    ∃ p ∈ t.pubInfoHtable, p.id = id := by
  obtain ⟨a, ha⟩ := List.exists_mem_of_ne_nil _ howed
  obtain ⟨en, hen, -⟩ := List.mem_map.mp ha
  obtain ⟨hmem, hid⟩ := List.mem_filter.mp hen
  obtain ⟨p, hp, hpid⟩ := hc.publisher en hmem
  exact ⟨p, hp, hpid.trans (by simpa using hid)⟩

/-- A step that is no publication of the publisher. -/
private theorem owed_step_other (hr : Reachable σ) {id : Int} (hg : KeepsPublisher tp id σ i)
    (hreg : OwedRegistered tp id σ) (hother : ¬ PublishesOn σ i.call tp id) :
    owedAddrs id ((step σ i).2.topicStructs tp) = owedAddrs id (σ.topicStructs tp) := by
  obtain ⟨t, t', hleft, hstep, hright⟩ := step_topicStep hr i tp
  have hc : t.Consistent [] := hleft.consistent (hr.wellFormed.store tp)
  rw [owedAddrs_congr id hright.entries, ← owedAddrs_congr id hleft.entries]
  have hpublish (p' : PublisherInfo) (addr : Nat) (hA : Permits σ i.call tp (.publish p' addr)) :
      p'.id ≠ id := by
    rintro rfl
    obtain ⟨current, topicName, ipcNs, w, _, hcall, hw, htp, _⟩ := hA
    exact hother ⟨current, topicName, ipcNs, addr, w, hcall, hw, htp⟩
  by_cases howed : owedAddrs id t = []
  · -- there is nothing of the publisher, and nothing comes in
    rw [howed]
    by_contra hnew
    obtain ⟨a, ha⟩ := List.exists_mem_of_ne_nil _ hnew
    obtain ⟨en', hen', -⟩ := List.mem_map.mp ha
    obtain ⟨hmem', hid'⟩ := List.mem_filter.mp hen'
    have hid' : en'.publisherId = id := by simpa using hid'
    rcases hstep.entry_origin hc hmem' with ⟨en, hen, hsame⟩ | ⟨p, hp, addr, hA, rfl⟩
    · have hid : en.publisherId = id := hsame.publisherId_eq.symm.trans hid'
      have hby : en ∈ entriesBy id t.entries := List.mem_filter.mpr ⟨hen, by simpa using hid⟩
      have hmem := List.mem_map_of_mem (f := EntryNode.msgVirtualAddress) hby
      rw [show (entriesBy id t.entries).map EntryNode.msgVirtualAddress = [] from howed] at hmem
      cases hmem
    · exact hpublish p addr hA hid'
  · obtain ⟨p, hp, rfl⟩ := publisher_of_owed hc howed
    have hp₀ : p ∈ (σ.topicStructs tp).pubInfoHtable := hleft.pubs ▸ hp
    rw [owedAddrs_congr p.id hleft.entries] at howed
    obtain ⟨-, hremove, hexit⟩ := hg p hp₀ rfl
    obtain ⟨hlive, hlive'⟩ := hexit (hreg howed p hp₀ rfl)
    exact hstep.keeps_owed hc hp hlive hlive' hpublish hremove

/-- What is trimmed and what stays are all there is. -/
private theorem perm_trimmed (q : Int) (depth : Nat) {l : List EntryNode} (hnd : l.Nodup) :
    (entriesBy q l).Perm
      (entriesBy q (l.filter fun en => en ∉ trimmed q depth l) ++ trimmed q depth l) := by
  have hcomm : entriesBy q (l.filter fun en => en ∉ trimmed q depth l) =
      (entriesBy q l).filter fun en => en ∉ trimmed q depth l := List.filter_comm ..
  have hgone : ((entriesBy q l).filter fun en => en ∈ trimmed q depth l).Perm (trimmed q depth l) := by
    refine (List.perm_ext_iff_of_nodup ((hnd.filter _).filter _) (hnd.sublist trimmed_sublist)).mpr
      fun en => ?_
    rw [List.mem_filter, decide_eq_true_eq]
    exact ⟨And.right, fun hen => ⟨List.mem_of_mem_take (mem_trimmed hen).1, hen⟩⟩
  rw [hcomm]
  refine (List.filter_append_perm (fun en => decide (en ∈ trimmed q depth l)) _).symm.trans ?_
  refine List.perm_append_comm.trans (List.Perm.append ?_ hgone)
  rw [List.filter_congr fun en _ => (decide_not (p := en ∈ trimmed q depth l)).symm]

/-- A publication of the publisher: refused, or it brings an address and gives some back. -/
private theorem owed_step_publish (hr : Reachable σ) {id : Int} (hg : KeepsPublisher tp id σ i)
    (hpublish : PublishesOn σ i.call tp id) :
    ((step σ i).2 = σ ∧ publishedBy tp id (eventOf σ i) = none) ∨
    ∃ addr released p, p ∈ (σ.topicStructs tp).pubInfoHtable ∧ p.id = id ∧
      findProcessInfo σ p.pid ≠ none ∧
      publishedBy tp id (eventOf σ i) = some (addr, released) ∧
      (addr :: owedAddrs id (σ.topicStructs tp)).Perm
        (owedAddrs id ((step σ i).2.topicStructs tp) ++ released) := by
  obtain ⟨current, topicName, ipcNs, addr, w, hcall, hw, rfl⟩ := hpublish
  obtain ⟨env, call⟩ := i
  obtain rfl : call = _ := hcall
  have hwf := hr.wellFormed
  -- a check of the call refuses it
  by_cases hchecks : ∃ p, PublishChecks σ current topicName ipcNs id addr w p
  swap
  · have hno (w' : TopicWrapper) (p : PublisherInfo) :
        ¬ PublishChecks σ current topicName ipcNs id addr w' p := fun hc =>
      hchecks ⟨p, Option.some.inj (hw.symm.trans hc.topic) ▸ hc⟩
    have hrefused := publishMsg_refused hno env
    refine .inl ⟨congrArg Prod.snd hrefused, ?_⟩
    show publishedBy w.topic id ⟨σ, _, .published (publishMsg σ env current topicName ipcNs id addr).1⟩ = none
    rw [hrefused]
    rfl
  obtain ⟨p, hc⟩ := hchecks
  obtain ⟨hp, rfl⟩ := HTable.mem_of_lookup hc.publisher
  obtain ⟨hdepth, -⟩ := hg p hp rfl
  have hstep := publish_trims hwf hdepth hc env
  -- no memory for the entry
  by_cases hmalloc : env.kmalloc .entryNode = true
  swap
  · rw [if_neg hmalloc] at hstep
    refine .inl ⟨congrArg Prod.snd hstep, ?_⟩
    show publishedBy w.topic p.id ⟨σ, _, .published (publishMsg σ env current topicName ipcNs p.id addr).1⟩ = none
    rw [hstep]
    rfl
  rw [if_pos hmalloc] at hstep
  refine .inr ⟨addr, (trimmed p.id p.qosDepth ((σ.topicStructs w.topic).entries ++
    [newEntryNode (σ.topicStructs w.topic) p addr])).map EntryNode.msgVirtualAddress, p, hp, rfl,
    ?_, ?_, ?_⟩
  · obtain ⟨procInfo, hproc, -⟩ := hc.inPool
    rw [hproc]
    exact Option.some_ne_none _
  · show publishedBy w.topic p.id
      ⟨σ, ⟨env, .publishMsg current topicName ipcNs p.id addr⟩,
        .published (publishMsg σ env current topicName ipcNs p.id addr).1⟩ = _
    rw [hstep]
    unfold publishedBy
    dsimp only
    rw [hw]
    exact if_pos ⟨rfl, rfl⟩
  · have hafter : (step σ ⟨env, .publishMsg current topicName ipcNs p.id addr⟩).2 = _ :=
      congrArg Prod.snd (congrArg (answer Reply.published) hstep)
    rw [hafter]
    show (addr :: owedAddrs p.id (σ.topicStructs w.topic)).Perm
      (owedAddrs p.id ((σ.setTopic w.topic _).topicStructs w.topic) ++ _)
    rw [Kmod.setTopic_self]
    have hc₀ := hwf.store w.topic
    have hnd := nodup_append_new hc₀ p addr
    -- what the publisher owes with the new entry is split by the trimming
    have hperm := (perm_trimmed p.id p.qosDepth hnd).map EntryNode.msgVirtualAddress
    have hnew : entriesBy p.id [newEntryNode (σ.topicStructs w.topic) p addr] =
        [newEntryNode (σ.topicStructs w.topic) p addr] := entriesBy_cons_self rfl
    rw [List.map_append, entriesBy_append, hnew] at hperm
    refine List.Perm.trans ?_ hperm
    rw [List.map_append]
    exact (List.perm_append_singleton addr _).symm

/-! ## Through a run -/

/-- Whoever is owed something is registered after a step too. -/
private theorem owedRegistered_step (hr : Reachable σ) {id : Int} (hg : KeepsPublisher tp id σ i)
    (hreg : ∀ p ∈ (σ.topicStructs tp).pubInfoHtable, p.id = id →
      owedAddrs id ((step σ i).2.topicStructs tp) ≠ [] → findProcessInfo σ p.pid ≠ none)
    (hlt : owedAddrs id ((step σ i).2.topicStructs tp) ≠ [] →
      id < (σ.topicStructs tp).currentPubsubId) : OwedRegistered tp id (step σ i).2 := by
  intro howed p' hp' hid
  rcases (hr.evolves i tp).pub p' hp' with ⟨p, hp, hsame⟩ | ⟨hnew, -⟩
  · have hpid : p.id = id := hsame.id_eq.symm.trans hid
    obtain ⟨-, hlive⟩ := (hg p hp hpid).2.2 (hreg p hp hpid howed)
    intro hnone
    rw [hsame.pid_eq] at hnone
    rw [processGone, hnone] at hlive
    cases hlive
  · have := hlt howed
    omega

/-- **Every address comes back once**: through a run in which the publisher has a depth and neither
is removed nor exits, what it has published is what is still in the tree and what was reported. -/
theorem run_addresses {id : Int} {tr : List Event}
    (hrun : Transition.Run kmod (KeepsPublisher tp id) tr σ) :
    (publishedAddrs tp id tr).Perm
      (owedAddrs id (σ.topicStructs tp) ++ reportedAddrs tp id tr) := by
  -- who is owed an address is registered; the induction carries that along
  suffices h : (publishedAddrs tp id tr).Perm
      (owedAddrs id (σ.topicStructs tp) ++ reportedAddrs tp id tr) ∧ OwedRegistered tp id σ from h.1
  refine hrun.history (P := fun tr σ => (publishedAddrs tp id tr).Perm
    (owedAddrs id (σ.topicStructs tp) ++ reportedAddrs tp id tr) ∧ OwedRegistered tp id σ) ?_ ?_
  · rintro σ ⟨mempoolNum, start, size, m, -, rfl⟩
    exact ⟨.refl _, fun h => absurd rfl h⟩
  · rintro tr σ i hrun ⟨hperm, hreg⟩ hg
    have hr : Reachable σ := hrun.reachable
    have hpublished : publishedAddrs tp id (eventOf σ i :: tr) =
        ((publishedBy tp id (eventOf σ i)).toList.map Prod.fst) ++ publishedAddrs tp id tr := by
      unfold publishedAddrs
      rw [List.filterMap_cons]
      cases publishedBy tp id (eventOf σ i) <;> rfl
    have hreported : reportedAddrs tp id (eventOf σ i :: tr) =
        ((publishedBy tp id (eventOf σ i)).toList.flatMap Prod.snd) ++ reportedAddrs tp id tr := by
      unfold reportedAddrs
      rw [List.filterMap_cons]
      cases publishedBy tp id (eventOf σ i) with
      | none => rfl
      | some e => simp
    show (publishedAddrs tp id (eventOf σ i :: tr)).Perm
      (owedAddrs id ((step σ i).2.topicStructs tp) ++ reportedAddrs tp id (eventOf σ i :: tr)) ∧
        OwedRegistered tp id (step σ i).2
    rw [hpublished, hreported]
    have hc := hr.wellFormed.store tp
    by_cases hpublish : PublishesOn σ i.call tp id
    · rcases owed_step_publish hr hg hpublish with ⟨hsame, hnone⟩ |
        ⟨addr, released, p, hp, hid, hproc, hsome, howed⟩
      · rw [hsame, hnone]
        exact ⟨by simpa using hperm, hreg⟩
      · rw [hsome]
        constructor
        · -- the new address joins what is owed, and what is released leaves it
          show (addr :: publishedAddrs tp id tr).Perm
            (owedAddrs id ((step σ i).2.topicStructs tp) ++ (released ++ [] ++ reportedAddrs tp id tr))
          rw [List.append_nil, ← List.append_assoc]
          exact (hperm.cons addr).trans (howed.append_right _)
        · refine owedRegistered_step hr hg (fun q hq hqid _ => ?_) fun _ => hid ▸ (hc.pub_id p hp).2
          rw [HTable.eq_of_key_eq hc.pubs_nodup hq hp (hqid.trans hid.symm)]
          exact hproc
    -- any other step publishes nothing of this publisher and keeps what it is owed
    · have hsame := owed_step_other hr hg hreg hpublish
      rw [publishedBy_eq_none hpublish, hsame]
      refine ⟨by simpa using hperm,
        owedRegistered_step hr hg (fun q hq hqid howed => ?_) fun howed => ?_⟩
      · exact hreg (hsame ▸ howed) q hq hqid
      · obtain ⟨p, hp, hid⟩ := publisher_of_owed hc (hsame ▸ howed)
        exact hid ▸ (hc.pub_id p hp).2

/-! ## All of it -/

/-- What trimming owes to a publisher of positive depth:

1. a publication that passes the checks fails for want of memory only, and then changes nothing;
   else it appends one entry with a fresh greatest id, takes out the oldest unreferenced entries
   outside the newest `qos_depth`, at most `MAX_RELEASE_NUM`, and reports their addresses; the new
   entry, the others' entries, the referenced ones and the newest `qos_depth` stay; and if fewer
   went, what is left outside the newest ones is referenced;
2. through a run every published address is in the tree or was reported, once. -/
structure DepthTrimmed : Prop where
  one : ∀ σ, Reachable σ → ∀ env current topicName ipcNs id addr w p,
    PublishChecks σ current topicName ipcNs id addr w p → 1 ≤ p.qosDepth →
    (env.kmalloc .entryNode = false →
      publishMsg σ env current topicName ipcNs id addr = (.error .ENOMEM, σ)) ∧
    (env.kmalloc .entryNode = true → ∃ reply σ' new l removed,
      publishMsg σ env current topicName ipcNs id addr = (.ok reply, σ') ∧
      new = newEntryNode (σ.topicStructs w.topic) p addr ∧
      l = (σ.topicStructs w.topic).entries ++ [new] ∧
      removed = (((entriesBy p.id l).rdrop p.qosDepth).filter fun en =>
        !isReferenced en).take maxReleaseNum ∧
      (σ'.topicStructs w.topic).entries = l.filter (fun en => en ∉ removed) ∧
      reply.releasedAddrs = removed.map EntryNode.msgVirtualAddress ∧
      reply.entryId = new.entryId ∧
      (∀ en ∈ (σ.topicStructs w.topic).entries, en.entryId < new.entryId) ∧
      new.entryId < (σ'.topicStructs w.topic).currentEntryId ∧
      new ∈ (σ'.topicStructs w.topic).entries ∧
      (∀ en ∈ l, en.publisherId ≠ p.id ∨ isReferenced en = true ∨
        en ∈ (entriesBy p.id l).rtake p.qosDepth → en ∈ (σ'.topicStructs w.topic).entries) ∧
      (removed.length < maxReleaseNum →
        ∀ en ∈ (entriesBy p.id (σ'.topicStructs w.topic).entries).rdrop p.qosDepth,
          isReferenced en = true))
  run : ∀ tp id tr σ, Transition.Run kmod (KeepsPublisher tp id) tr σ →
    (publishedAddrs tp id tr).Perm (owedAddrs id (σ.topicStructs tp) ++ reportedAddrs tp id tr)

/-- **Depth trimming**: every publication, and every run. -/
theorem depth_trimming : DepthTrimmed where
  one σ h env current topicName ipcNs id addr w p hc hdepth := by
    have hstep := publish_trims h.wellFormed hdepth hc env
    obtain ⟨hp, rfl⟩ := HTable.mem_of_lookup hc.publisher
    refine ⟨fun hmalloc => ?_, fun hmalloc => ?_⟩
    · rw [hstep, if_neg (by simp [hmalloc])]
    rw [if_pos hmalloc] at hstep
    have hc₀ := h.wellFormed.store w.topic
    have hlt : ∀ en ∈ (σ.topicStructs w.topic).entries,
        en.entryId < (newEntryNode (σ.topicStructs w.topic) p addr).entryId := hc₀.entry_lt
    have hnd := nodup_append_new hc₀ p addr
    have hself (t : TopicStruct) : (σ.setTopic w.topic t).topicStructs w.topic = t :=
      Kmod.setTopic_self ..
    refine ⟨_, _, _, _, _, hstep, rfl, rfl, rfl, ?_⟩
    rw [hself]
    refine ⟨rfl, rfl, rfl, hlt, Int.lt_succ _, ?_, fun en hen hkeep => ?_, fun hfew => ?_⟩
    -- the new entry is the newest, and the depth is not zero
    · have hnew := new_not_trimmed (newEntryNode (σ.topicStructs w.topic) p addr) p.id hdepth
        (fun hmem => (hlt _ hmem).ne rfl) rfl
      exact List.mem_filter.mpr
        ⟨List.mem_append_right _ (List.mem_singleton_self _), by simpa using hnew⟩
    · refine List.mem_filter.mpr ⟨hen, decide_eq_true fun hmem => ?_⟩
      obtain ⟨hold, hfree⟩ := mem_trimmed hmem
      -- what is another publisher's, referenced or among the newest is passed over
      rcases hkeep with hother | href | hnewest
      · exact hother (by simpa using (List.mem_filter.mp (List.mem_of_mem_take hold)).2)
      · rw [hfree] at href
        cases href
      · exact newest_not_trimmed hnd hnewest hmem
    · exact referenced_of_few_trimmed hnd hfew
  run tp id tr σ hrun := run_addresses hrun

/-- A publisher of depth two and five publications, while a subscriber holds on to the first. -/
theorem depth_trimming_of_five :
    let r := runOf 2 [.addProcess 1 0 0 0, .addProcess 2 0 0 0,
      .addPublisher ['/', 't'] 0 ⟨[], 1, 2, false, false⟩,
      .addSubscriber ['/', 't'] 0 ⟨[], 2, 2, false, true, true, false, false⟩ 7,
      .publishMsg 1 ['/', 't'] 0 0 16, .takeMsg 2 ['/', 't'] 0 1 false 8,
      .publishMsg 1 ['/', 't'] 0 0 17, .publishMsg 1 ['/', 't'] 0 0 18,
      .publishMsg 1 ['/', 't'] 0 0 19, .publishMsg 1 ['/', 't'] 0 0 20]
    DepthTrimmed ∧ owedAddrs 0 (r.2.topicStructs 0) = [16, 19, 20] ∧
      reportedAddrs 0 0 r.1 = [18, 17] :=
  ⟨depth_trimming, by decide, by decide⟩

end Agnocast
