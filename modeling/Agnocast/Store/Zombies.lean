import Agnocast.Store.Content

/-!
# The store — publishers that outlive their process

A publisher that has left keeps its place in the topic for as long as somebody
references one of its entries: it is `Settled`, with entries and all of them
referenced. Which steps leave it settled, and what an exit cleanup makes of the
others, is said here once.

* `TopicStep.settled`  — a step that spares the publisher (`SparesPublisher`) leaves it
  settled.
* `visitTopic_settled`, `visitTopic_held` — the exit cleanup sweeps what nobody
  references any more, if the process of the publisher is gone.
-/

namespace Agnocast

variable {σ : Kmod} {t t' : TopicStruct}

/-! ## Settled publishers -/

/-- The publisher has entries, and the topic has a subscriber that may hold them. -/
def Held (t : TopicStruct) (p : PublisherInfo) : Prop :=
  p.entriesNum ≠ 0 ∧ t.subInfoHtable ≠ []

theorem Settled.entry (h : t.Consistent []) {p : PublisherInfo} (hp : p ∈ t.pubInfoHtable)
    (hs : Settled t p) : ∃ en ∈ t.entries, en.publisherId = p.id :=
  entriesOf_pos.mp (Nat.pos_of_ne_zero ((h.counted p hp).symm.trans_ne hs.1))

/-- Whoever references an entry is a subscriber of the topic. -/
theorem TopicStruct.Consistent.bit_holder (h : t.Consistent []) {en : EntryNode}
    (hen : en ∈ t.entries) {b : Int} (hb : b ∈ en.referencingSubscribers.bits) :
    ∃ s ∈ t.subInfoHtable, s.id = b := by
  rcases h.holder en hen b hb with hnone | ⟨s, hs, hid, _⟩
  · cases hnone
  · exact ⟨s, hs, hid⟩

theorem Settled.held (h : t.Consistent []) {p : PublisherInfo} (hp : p ∈ t.pubInfoHtable)
    (hs : Settled t p) : Held t p := by
  obtain ⟨en, hen, hid⟩ := hs.entry h hp
  obtain ⟨b, hb⟩ := isReferenced_iff.mp (hs.2 en hen hid)
  obtain ⟨s, hsub, _⟩ := h.bit_holder hen hb
  exact ⟨hs.1, fun hnil => by rw [hnil] at hsub; cases hsub⟩

/-- Fewer entries of a publisher that keeps its count leave it settled. -/
theorem Settled.of_entries {p : PublisherInfo} (hs : Settled t p)
    (hentries : ∀ en ∈ t'.entries, en ∈ t.entries) : Settled t' p :=
  ⟨hs.1, fun en hen hid => hs.2 en (hentries en hen) hid⟩

/-! ## A subscriber's references are cleared -/

/-- The publisher survives without the references in `ids`: it is swept together with
its last entry, or every entry has another reference. -/
def SurvivesWithout (σ : Kmod) (t : TopicStruct) (ids : Int → Prop) (p : PublisherInfo) : Prop :=
  processGone σ p.pid = true ∨
    ∀ en ∈ t.entries, en.publisherId = p.id → ∃ c ∈ en.referencingSubscribers.bits, ¬ ids c

theorem clear_keeps_settled {leaving : List Int} (h : t.Consistent leaving) {b : Int}
    {p p' : PublisherInfo} (hp : p ∈ t.pubInfoHtable)
    (hp' : p' ∈ (clearSubscriberReferences σ t b).pubInfoHtable) (hid : p'.id = p.id)
    (hs : Settled t p) (hkeep : SurvivesWithout σ t (· = b) p) :
    Settled (clearSubscriberReferences σ t b) p' := by
  have hspec := h.clearSpec (σ := σ) b
  obtain ⟨p₀, hp₀, heq⟩ := hspec.fromPub p' hp'
  have hid₀ : p₀.id = p.id := by rw [← hid, heq]
  rw [HTable.eq_of_key_eq h.pubs_nodup hp₀ hp hid₀] at heq
  have hnum : p'.entriesNum ≠ 0 := by
    intro hzero
    have hsame := HTable.eq_of_key_eq h.pubs_nodup (hspec.emptied p' hp' hzero) hp hid
    exact hs.1 (hsame ▸ hzero)
  rcases hkeep with hgone | hothers
  · refine clear_swept h b hp' ?_ hnum
    rw [heq]
    exact hgone
  · refine ⟨hnum, fun en hen hen' => ?_⟩
    obtain ⟨en₀, hen₀, rfl, _⟩ := h.mem_clearSubscriberReferences.mp hen
    obtain ⟨c, hc, hne⟩ := hothers en₀ hen₀ (hen'.trans hid)
    exact isReferenced_iff.mpr ⟨c, Finset.mem_erase.mpr ⟨hne, hc⟩⟩

/-- The same for all subscribers that leave, one after the other. -/
private theorem clearAll_keeps_settled {q : Int} (l : List SubscriberInfo) : ∀ t : TopicStruct,
    t.Consistent (l.map SubscriberInfo.id) →
    (∀ p ∈ t.pubInfoHtable, p.id = q →
      Settled t p ∧ SurvivesWithout σ t (· ∈ l.map SubscriberInfo.id) p) →
    ∀ p ∈ (l.foldl (fun t s => clearSubscriberReferences σ t s.id) t).pubInfoHtable, p.id = q →
      Settled (l.foldl (fun t s => clearSubscriberReferences σ t s.id) t) p := by
  induction l with
  | nil => exact fun t _ hall p hp hid => (hall p hp hid).1
  | cons s l ih =>
    intro t h hall
    refine ih _ h.clearSubscriberReferences fun p' hp' hid => ?_
    obtain ⟨p, hp, heq⟩ := (h.clearSpec (σ := σ) s.id).fromPub p' hp'
    have hid' : p'.id = p.id := by rw [heq]
    obtain ⟨hs, hkeep⟩ := hall p hp (hid'.symm.trans hid)
    refine ⟨clear_keeps_settled h hp hp' hid' hs (hkeep.imp_right fun hothers en hen hen' => ?_), ?_⟩
    · obtain ⟨c, hc, hnot⟩ := hothers en hen hen'
      exact ⟨c, hc, fun hcs => hnot (List.mem_cons.mpr (.inl hcs))⟩
    · refine hkeep.imp (fun hgone => by rw [heq]; exact hgone) fun hothers en hen hen' => ?_
      obtain ⟨en₀, hen₀, rfl, _⟩ := h.mem_clearSubscriberReferences.mp hen
      obtain ⟨c, hc, hnot⟩ := hothers en₀ hen₀ (hen'.trans hid')
      refine ⟨c, Finset.mem_erase.mpr ⟨fun hcs => hnot (List.mem_cons.mpr (.inl hcs)), hc⟩,
        fun hcl => hnot (List.mem_cons_of_mem _ hcl)⟩

/-- Whoever is the last to leave, nothing unreferenced of a gone process stays. -/
private theorem clearAll_swept (l : List SubscriberInfo) : ∀ t : TopicStruct, l ≠ [] →
    t.Consistent (l.map SubscriberInfo.id) →
    (∀ p ∈ t.pubInfoHtable, processGone σ p.pid = true → p.entriesNum ≠ 0) →
    ∀ p ∈ (l.foldl (fun t s => clearSubscriberReferences σ t s.id) t).pubInfoHtable,
      processGone σ p.pid = true →
        Settled (l.foldl (fun t s => clearSubscriberReferences σ t s.id) t) p := by
  induction l with
  | nil => exact fun _ hne => absurd rfl hne
  | cons s l ih =>
    intro t _ h hnum
    have hspec := h.clearSpec (σ := σ) s.id
    have hnum' : ∀ p ∈ (clearSubscriberReferences σ t s.id).pubInfoHtable,
        processGone σ p.pid = true → p.entriesNum ≠ 0 :=
      fun p hp hgone hzero => hnum p (hspec.emptied p hp hzero) hgone hzero
    by_cases hl : l = []
    · subst hl
      exact fun p hp hgone => clear_swept h s.id hp hgone (hnum' p hp hgone)
    · exact ih _ hl h.clearSubscriberReferences hnum'

/-! ## The exit of a process -/

/-- The publishers of other processes are not touched by the exit of this one's. -/
theorem preHandlerPublisherExit_others (h : t.Consistent []) (pid : Pid) :
    (∀ p ∈ (preHandlerPublisherExit t pid).pubInfoHtable, p.pid ≠ pid → p ∈ t.pubInfoHtable) ∧
      (∀ en ∈ (preHandlerPublisherExit t pid).entries, en ∈ t.entries) ∧
      (preHandlerPublisherExit t pid).subInfoHtable = t.subInfoHtable := by
  refine preHandlerPublisherExit_rec (P := fun t₁ =>
    (∀ p ∈ t₁.pubInfoHtable, p.pid ≠ pid → p ∈ t.pubInfoHtable) ∧
      (∀ en ∈ t₁.entries, en ∈ t.entries) ∧ t₁.subInfoHtable = t.subInfoHtable) h
    ⟨fun _ hp _ => hp, fun _ hen => hen, rfl⟩ fun t₁ q ht hq hqpid ⟨hpubs, hentries, hsubs⟩ => ?_
  refine ⟨fun p hp hne => ?_, fun en hen => ?_, hsubs⟩
  · rcases (ht.mem_dropPublisher hq).mp hp with ⟨hp, _⟩ | ⟨rfl, _⟩
    · exact hpubs p hp hne
    · exact absurd hqpid hne
  · rw [ht.dropPublisher_entries hq] at hen
    exact hentries en (List.mem_filter.mp hen).1

theorem visitTopic_consistent (h : t.Consistent []) (pid : Pid) :
    (visitTopic σ pid t).Consistent [] := by
  have hmoves : TopicMoves (fun _ => True) σ 0 t (preHandlerPublisherExit t pid) :=
    preHandlerPublisherExit_moves h pid
  exact (hmoves.consistent h).preHandlerSubscriberExit pid

/-- The process's own subscribers go, and nobody else's. -/
theorem visitTopic_subs (h : t.Consistent []) (pid : Pid) :
    (visitTopic σ pid t).subInfoHtable = t.subInfoHtable.filter fun s => s.pid ≠ pid := by
  have hsubs := (preHandlerPublisherExit_others h pid).2.2
  have hfold : ∀ (l : List SubscriberInfo) (t : TopicStruct),
      (l.foldl (fun t s => clearSubscriberReferences σ t s.id) t).subInfoHtable =
        t.subInfoHtable := by
    intro l
    induction l with
    | nil => exact fun _ => rfl
    | cons s l ih => exact fun t => ih _
  unfold visitTopic preHandlerSubscriberExit
  simp only [hsubs]
  split
  · next hnone =>
    rw [hsubs]
    refine (List.filter_eq_self.mpr fun s hs => ?_).symm
    simpa using List.filter_eq_nil_iff.mp hnone s hs
  · exact hfold _ _

/-- What the exit of the process's publishers leaves is cleared of the references of
its subscribers; without subscribers nothing more happens. -/
theorem visitTopic_cases (pid : Pid) (h : t.Consistent []) :
    (t.subInfoHtable.filter (fun s => s.pid = pid) = [] ∧
      visitTopic σ pid t = preHandlerPublisherExit t pid) ∨
    ∃ l : List SubscriberInfo, l ≠ [] ∧ (∀ s ∈ l, s ∈ t.subInfoHtable ∧ s.pid = pid) ∧
      ∃ t₁ : TopicStruct, t₁.Consistent (l.map SubscriberInfo.id) ∧
        t₁.entries = (preHandlerPublisherExit t pid).entries ∧
        (∀ p₁ ∈ t₁.pubInfoHtable, ∃ p ∈ (preHandlerPublisherExit t pid).pubInfoHtable,
          SamePublisher p p₁ ∧ p₁.entriesNum = p.entriesNum) ∧
        (∀ p ∈ (preHandlerPublisherExit t pid).pubInfoHtable, ∃ p₁ ∈ t₁.pubInfoHtable,
          SamePublisher p p₁) ∧
        visitTopic σ pid t = l.foldl (fun t s => clearSubscriberReferences σ t s.id) t₁ := by
  have hsubs := (preHandlerPublisherExit_others h pid).2.2
  have hmoves : TopicMoves (fun _ => True) σ 0 t (preHandlerPublisherExit t pid) :=
    preHandlerPublisherExit_moves h pid
  have hc := hmoves.consistent h
  rw [← hsubs]
  unfold visitTopic preHandlerSubscriberExit
  simp only
  split
  · next hnone => exact .inl ⟨hnone, rfl⟩
  · next hsome =>
    refine .inr ⟨_, hsome, fun s hs => by simpa using List.mem_filter.mp hs, _,
      (hc.unlinkByPid pid).rebuildAllNotifyLists, rfl, fun p₁ hp₁ => ?_,
      fun p hp => ⟨_, List.mem_map_of_mem hp, rfl⟩, rfl⟩
    obtain ⟨p, hp, rfl⟩ := List.mem_map.mp hp₁
    exact ⟨p, hp, rfl, rfl⟩

/-- **One visit of the exit cleanup and a settled publisher**: it stays settled if it
survives without the subscribers of the process; the process's own publishers become
settled. -/
theorem visitTopic_settled (h : t.Consistent []) {pid : Pid} (hgone : processGone σ pid = true)
    {q : Int} (hall : ∀ p ∈ t.pubInfoHtable, p.id = q → p.pid ≠ pid → Settled t p ∧
      SurvivesWithout σ t (fun b => ∃ s ∈ t.subInfoHtable, s.id = b ∧ s.pid = pid) p) :
    ∀ p ∈ (visitTopic σ pid t).pubInfoHtable, p.id = q → Settled (visitTopic σ pid t) p := by
  obtain ⟨hpubs, hentries, _⟩ := preHandlerPublisherExit_others h pid
  -- the first half of the visit leaves the publisher settled
  have hfirst : ∀ p ∈ (preHandlerPublisherExit t pid).pubInfoHtable, p.id = q →
      Settled (preHandlerPublisherExit t pid) p ∧ SurvivesWithout σ t
        (fun b => ∃ s ∈ t.subInfoHtable, s.id = b ∧ s.pid = pid) p := by
    intro p hp hid
    by_cases hpid : p.pid = pid
    · exact ⟨preHandlerPublisherExit_settled h pid p hp hpid, .inl (hpid ▸ hgone)⟩
    · obtain ⟨hs, hkeep⟩ := hall p (hpubs p hp hpid) hid hpid
      exact ⟨hs.of_entries hentries, hkeep⟩
  rcases visitTopic_cases (σ := σ) pid h with ⟨_, heq⟩ | ⟨l, _, hl, t₁, hc, hentries₁, hpubs₁, _, heq⟩
  · rw [heq]
    exact fun p hp hid => (hfirst p hp hid).1
  · rw [heq]
    refine clearAll_keeps_settled l t₁ hc fun p₁ hp₁ hid => ?_
    obtain ⟨p, hp, hsame, hnum⟩ := hpubs₁ p₁ hp₁
    obtain ⟨hs, hkeep⟩ := hfirst p hp (hsame.id_eq.symm.trans hid)
    refine ⟨⟨hnum ▸ hs.1, fun en hen hid' => ?_⟩, ?_⟩
    · rw [hentries₁] at hen
      exact hs.2 en hen (hid'.trans hsame.id_eq)
    · refine hkeep.imp (fun hgone => hsame.pid_eq ▸ hgone) fun hothers en hen hid' => ?_
      rw [hentries₁] at hen
      obtain ⟨c, hc, hnot⟩ := hothers en (hentries en hen) (hid'.trans hsame.id_eq)
      refine ⟨c, hc, fun hcl => hnot ?_⟩
      obtain ⟨s, hs, hsid⟩ := List.mem_map.mp hcl
      exact ⟨s, (hl s hs).1, hsid, (hl s hs).2⟩

/-- **One visit of the exit cleanup and the gone publishers**: those of the process
itself keep what others reference, and everybody else's stay held. -/
theorem visitTopic_held (h : t.Consistent []) {pid : Pid} (hgone : processGone σ pid = true)
    (hall : ∀ p ∈ t.pubInfoHtable, processGone σ p.pid = true → p.pid ≠ pid → Held t p) :
    ∀ p ∈ (visitTopic σ pid t).pubInfoHtable, processGone σ p.pid = true →
      Held (visitTopic σ pid t) p := by
  intro p hp hpgone
  obtain ⟨hpubs, _, hsubs⟩ := preHandlerPublisherExit_others h pid
  by_cases hpid : p.pid = pid
  · exact ((visit_cleaned h hgone).pubs p hp hpid).held (visitTopic_consistent h pid) hp
  rcases visitTopic_cases (σ := σ) pid h with ⟨_, heq⟩ | ⟨l, hne, _, t₁, hc, _, hpubs₁, _, heq⟩
  · rw [heq] at hp ⊢
    unfold Held
    rw [hsubs]
    exact hall p (hpubs p hp hpid) hpgone hpid
  · refine Settled.held (visitTopic_consistent h pid) hp ?_
    rw [heq] at hp ⊢
    refine clearAll_swept l t₁ hne hc (fun q₁ hq₁ hqgone => ?_) p hp hpgone
    obtain ⟨q, hq, hsame, hnum⟩ := hpubs₁ q₁ hq₁
    rw [hnum]
    by_cases hqpid : q.pid = pid
    · exact (preHandlerPublisherExit_settled h pid q hq hqpid).1
    · exact (hall q (hpubs q hq hqpid) (hsame.pid_eq ▸ hqgone) hqpid).1

/-- A publisher whose process is alive loses no entry, and stays, when a subscriber's
references are cleared. -/
theorem clear_keeps_live {leaving : List Int} (h : t.Consistent leaving) (b : Int)
    {p : PublisherInfo} (hp : p ∈ t.pubInfoHtable) (hlive : processGone σ p.pid = false) :
    p ∈ (clearSubscriberReferences σ t b).pubInfoHtable := by
  have hspec := h.clearSpec (σ := σ) b
  refine hspec.untouched p hp ?_
  have hexited : publisherExited σ t.pubInfoHtable p.id = false := by
    rw [publisherExited, HTable.lookup_self h.pubs_nodup hp]
    exact hlive
  rw [hspec.entries]
  unfold entriesWithout entriesOf
  rw [List.countP_filter, List.countP_map]
  refine List.countP_congr fun en _ => ?_
  by_cases hid : en.publisherId = p.id
  · simp [hid, hexited]
  · simp [hid]

/-- **One visit of the exit cleanup and a live publisher** of another process: it stays. -/
theorem visitTopic_keeps_live (h : t.Consistent []) {pid : Pid} {p : PublisherInfo}
    (hp : p ∈ t.pubInfoHtable) (hpid : p.pid ≠ pid) (hlive : processGone σ p.pid = false) :
    ∃ p' ∈ (visitTopic σ pid t).pubInfoHtable, p'.id = p.id := by
  have hown : p ∈ (preHandlerPublisherExit t pid).pubInfoHtable := by
    refine preHandlerPublisherExit_rec (P := fun t₁ => p ∈ t₁.pubInfoHtable) h hp ?_
    refine fun t₁ q ht hq hqpid hp₁ => (ht.mem_dropPublisher hq).mpr (.inl ⟨hp₁, fun hid => ?_⟩)
    rw [HTable.eq_of_key_eq ht.pubs_nodup hp₁ hq hid] at hpid
    exact hpid hqpid
  rcases visitTopic_cases (σ := σ) pid h with ⟨_, heq⟩ | ⟨l, _, _, t₁, hc, _, _, hpubs₁, heq⟩
  · rw [heq]
    exact ⟨p, hown, rfl⟩
  · obtain ⟨p₁, hp₁, hsame⟩ := hpubs₁ p hown
    have hall : ∀ (l : List SubscriberInfo) (t : TopicStruct),
        t.Consistent (l.map SubscriberInfo.id) → p₁ ∈ t.pubInfoHtable →
        p₁ ∈ (l.foldl (fun t s => clearSubscriberReferences σ t s.id) t).pubInfoHtable := by
      intro l
      induction l with
      | nil => exact fun _ _ hp => hp
      | cons s l ih =>
        intro t ht hp
        refine ih _ ht.clearSubscriberReferences (clear_keeps_live ht s.id hp ?_)
        rw [hsame.pid_eq]
        exact hlive
    rw [heq]
    exact ⟨p₁, hall l t₁ hc hp₁, hsame.id_eq⟩

/-! ## One step of a topic -/

/-- A publication takes nothing from other publishers, and leaves its own entry. -/
private theorem publishMsgCore_pubs (h : t.Consistent []) {q : PublisherInfo}
    (hq : q ∈ t.pubInfoHtable) (env : Env) (addr : Nat) :
    (publishMsgCore env t q addr).2.subInfoHtable = t.subInfoHtable ∧
      ∀ p' ∈ (publishMsgCore env t q addr).2.pubInfoHtable,
        p' ∈ t.pubInfoHtable ∨ (p'.id = q.id ∧ SamePublisher q p' ∧ p'.entriesNum ≠ 0) := by
  have hpublished : ∀ r : ReleaseLoop,
      ReleaseSpec q.id (t.entries ++ [newEntryNode t q addr]) 0 [] r →
      ∀ p' ∈ (t.published q r.entries).pubInfoHtable,
        p' ∈ t.pubInfoHtable ∨ (p'.id = q.id ∧ SamePublisher q p' ∧ p'.entriesNum ≠ 0) := by
    intro r hr p' hp'
    obtain ⟨p, hp, rfl⟩ := HTable.mem_modify.mp hp'
    split
    · next hid =>
      refine .inr ⟨hid, HTable.eq_of_key_eq h.pubs_nodup hp hq hid ▸ rfl, ?_⟩
      -- the trimming loop never takes the newest entry
      have hlast : newEntryNode t q addr ∈ r.entries := by
        refine List.mem_of_getLast? ?_
        rw [hr.newest, List.getLast?_append_of_ne_nil _ (by simp)]
        rfl
      exact (entriesOf_pos.mpr ⟨_, hlast, rfl⟩).ne'
    · exact .inl hp
  rcases publishMsgCore_cases h hq env addr with ⟨e, heq⟩ | ⟨r, hr, ⟨e, heq⟩ | heq⟩ <;> rw [heq]
  · exact ⟨rfl, fun p' hp' => .inl hp'⟩
  · exact ⟨rfl, hpublished r hr⟩
  · exact ⟨rfl, hpublished r hr⟩

theorem Fetched.pubs {i : Input} {w : TopicWrapper} {s : SubscriberInfo} {batch : List EntryNode}
    {ret : Except Errno (List PublisherShmInfo)} {m : MemoryAllocator}
    (hf : Fetched σ i w s batch ret t' m) :
    t'.pubInfoHtable = (σ.topicStructs w.topic).pubInfoHtable ∧
      (t'.subInfoHtable = [] → (σ.topicStructs w.topic).subInfoHtable = []) := by
  have hhand : ∀ ids, ((σ.topicStructs w.topic).handOut s.id ids).pubInfoHtable =
      (σ.topicStructs w.topic).pubInfoHtable ∧
      (((σ.topicStructs w.topic).handOut s.id ids).subInfoHtable = [] →
        (σ.topicStructs w.topic).subInfoHtable = []) := by
    intro ids
    unfold TopicStruct.handOut
    split
    · exact ⟨rfl, id⟩
    · exact ⟨rfl, fun hnil => List.map_eq_nil_iff.mp hnil⟩
  obtain ⟨hpubs, hsubs⟩ := hhand (batch.map EntryNode.entryId)
  obtain ⟨size, hr⟩ := hf.reported
  rcases reportPublisherShm_topic hr with rfl | rfl
  · exact ⟨hpubs, hsubs⟩
  · exact ⟨hpubs, fun hnil => hsubs (List.map_eq_nil_iff.mp hnil)⟩

/-- **Gone publishers stay held** by every step but the exit of a process: whoever gives up the last
reference sweeps the entry, and a publisher only joins for a live process. -/
theorem TopicStep.held {i : Input} {tp : Nat} (hstep : TopicStep σ i tp t t')
    (hc : t.Consistent [])
    (hexit : ∀ pid, i.call = .processExitCleanup pid → findProcessInfo σ pid = none)
    (hnew : ∀ topicName ipcNs args, i.call = .addPublisher topicName ipcNs args →
      processGone σ args.pid = false)
    (hall : ∀ p ∈ t.pubInfoHtable, processGone σ p.pid = true → Held t p) :
    ∀ p' ∈ t'.pubInfoHtable, processGone σ p'.pid = true → Held t' p' := by
  intro p' hp' hgone
  cases hstep with
  | same | setRos2SubscriberNum | setRos2PublisherNum => exact hall p' hp' hgone
  | @addSubscriber topicName ipcNs args eventfd hcall σ₁ ctx =>
    obtain ⟨p, hp, hsame⟩ := HTable.exists_of_forall₂ (insertSubscriberInfo_pubs ..) hp'
    obtain ⟨hnum, hsubs⟩ := hall p hp (hsame.same.pid_eq ▸ hgone)
    refine ⟨hsame.entriesNum_eq ▸ hnum, ?_⟩
    rcases insertSubscriberInfo_subs (σ := σ₁) i.env t (getProcessDomainId σ args.pid) args ctx
      with heq | heq <;> rw [heq]
    · exact hsubs
    · exact List.ne_nil_of_mem (HTable.mem_hashAdd.mpr (.inl rfl))
  | @addPublisher topicName ipcNs args hcall σ₁ =>
    rcases insertPublisherInfo_cases (σ := σ₁) i.env t (getProcessDomainId σ args.pid) args with
      ⟨e, heq⟩ | ⟨e, _, heq⟩ | ⟨capacity, _, _, heq⟩ <;> rw [heq] at hp' ⊢
    · exact hall p' hp' hgone
    · exact hall p' hp' hgone
    · rcases HTable.mem_hashAdd.mp hp' with rfl | hp'
      · have hlive := hnew topicName ipcNs args hcall
        rw [show processGone σ args.pid = true from hgone] at hlive
        cases hlive
      · obtain ⟨hnum, hsubs⟩ := hall p' hp' hgone
        exact ⟨hnum, fun hnil => hsubs (List.map_eq_nil_iff.mp hnil)⟩
  | publishMsg hq _ =>
    obtain ⟨hsubs, hpubs⟩ := publishMsgCore_pubs hc hq i.env _
    unfold Held
    rw [hsubs]
    rcases hpubs p' hp' with hp' | ⟨_, hsame, hnum⟩
    · exact hall p' hp' hgone
    · exact ⟨hnum, (hall _ hq (hsame.pid_eq ▸ hgone)).2⟩
  | fetchMsg ht _ htp hf =>
    subst htp ht
    obtain ⟨hpubs, hsubs⟩ := hf.pubs
    rw [hpubs] at hp'
    obtain ⟨hnum, hsome⟩ := hall p' hp' hgone
    exact ⟨hnum, fun hnil => hsome (hsubs hnil)⟩
  | releaseReference => exact hall p' hp' hgone
  | @removeSubscriber s hs _ =>
    -- what is left of a gone publisher is referenced, so somebody else is there
    have hunlinked := hc.unlinkSubscriberInfo (σ := σ) s
    refine Settled.held (hc.removeSubscriber s) hp'
      (clear_swept hunlinked s.id hp' hgone fun hzero => ?_)
    have hp₁ := (hunlinked.clearSpec (σ := σ) s.id).emptied p' hp' hzero
    have hevolves := TopicStruct.Evolves.unlinkSubscriberInfo (σ := σ) (D := fun _ => False) t s
    rcases hevolves.pub p' hp₁ with ⟨p, hp, hsame⟩ | ⟨_, hno⟩
    · refine (hall p hp (hsame.pid_eq ▸ hgone)).1 ?_
      have hcount := hunlinked.counted p' hp₁
      rw [(unlinkSubscriberInfo_frame t s).1, hsame.id_eq, ← hc.counted p hp] at hcount
      rw [← hcount, hzero]
    · exact hno.elim
  | @removePublisher q hq =>
    rcases (hc.mem_dropPublisher hq).mp hp' with ⟨hp', _⟩ | ⟨rfl, hpos⟩
    · exact hall p' hp' hgone
    · exact ⟨hpos.ne', (hall q hq hgone).2⟩
  | processExit hcall hp =>
    rw [hexit _ hcall] at hp
    cases hp

/-- The step gives up no reference that keeps an entry of publisher `p` of the topic at
`tp`, or it sweeps the entry then; and it publishes nothing under `p`. -/
def SparesPublisher (σ : Kmod) (call : Call) (tp : Nat) (t : TopicStruct) (p : PublisherInfo) :
    Prop :=
  match call with
  | .publishMsg current topicName ipcNs id _ =>
    (∃ w, findTopicForCurrent σ current topicName ipcNs = some w ∧ w.topic = tp) → id ≠ p.id
  | .releaseMessageEntryReference current topicName ipcNs id entryId =>
    (∃ w, findTopicForCurrent σ current topicName ipcNs = some w ∧ w.topic = tp) →
      ∀ en ∈ t.entries, en.entryId = entryId → en.publisherId = p.id →
        ∃ c ∈ en.referencingSubscribers.bits, c ≠ id
  | .removeSubscriber current topicName ipcNs id =>
    (∃ w, findTopicForCurrent σ current topicName ipcNs = some w ∧ w.topic = tp) →
      SurvivesWithout σ t (· = id) p
  | .processExitCleanup pid => (findProcessInfo σ pid).isSome → p.pid = pid ∨
      SurvivesWithout σ t (fun b => ∃ s ∈ t.subInfoHtable, s.id = b ∧ s.pid = pid) p
  | _ => True

section

variable {p : PublisherInfo}

/-- The trimming loop of another publisher takes none of its entries. -/
private theorem Settled.published {pub : PublisherInfo} {addr : Nat} {r : ReleaseLoop}
    (hs : Settled t p) (hr : ReleaseSpec pub.id (t.entries ++ [newEntryNode t pub addr]) 0 [] r)
    (hne : p.id ≠ pub.id) : Settled (t.published pub r.entries) p := by
  refine ⟨hs.1, fun en hen hid => ?_⟩
  rcases List.mem_append.mp (hr.sublist.subset hen) with hen | hen
  · exact hs.2 en hen hid
  · -- the new entry is not its own
    rw [List.mem_singleton.mp hen] at hid
    exact absurd hid.symm hne

/-- A receive or a take adds references only. -/
private theorem Settled.fetched {i : Input} {w : TopicWrapper} {s : SubscriberInfo}
    {batch : List EntryNode} {ret : Except Errno (List PublisherShmInfo)} {m : MemoryAllocator}
    (hs : Settled (σ.topicStructs w.topic) p) (hf : Fetched σ i w s batch ret t' m) :
    Settled t' p := by
  refine ⟨hs.1, fun en' hen' hid' => ?_⟩
  rw [hf.entries] at hen'
  obtain ⟨en, hen, rfl⟩ := List.mem_map.mp hen'
  have hpub : en.publisherId = p.id := by
    rw [← hid']
    split
    · exact (en.setBit_same _).publisherId_eq.symm
    · rfl
  obtain ⟨c, hc⟩ := isReferenced_iff.mp (hs.2 en hen hpub)
  refine isReferenced_iff.mpr ⟨c, ?_⟩
  split
  · unfold EntryNode.setBit
    split
    · exact Finset.mem_insert_of_mem hc
    · exact hc
  · exact hc

/-- A reference is given up that is not the last one of its entry. -/
private theorem Settled.releaseReference (hs : Settled t p) {en : EntryNode} {b : Int}
    (hothers : en.publisherId = p.id → ∃ c ∈ en.referencingSubscribers.bits, c ≠ b) :
    Settled (t.setEntry (en.clearBit b)) p := by
  refine ⟨hs.1, fun en' hen' hid' => ?_⟩
  obtain ⟨en₀, hen₀, heq⟩ := HTable.mem_modify.mp hen'
  have heq : en' = if en₀.entryId = en.entryId then en.clearBit b else en₀ := heq
  by_cases hen₁ : en₀.entryId = en.entryId
  · rw [if_pos hen₁] at heq
    rw [heq] at hid' ⊢
    obtain ⟨c, hcm, hne⟩ := hothers hid'
    exact isReferenced_iff.mpr ⟨c, Finset.mem_erase.mpr ⟨hne, hcm⟩⟩
  · rw [if_neg hen₁] at heq
    exact heq ▸ hs.2 en₀ hen₀ (heq ▸ hid')

end

/-- A subscriber leaves without whose references the publisher survives. -/
private theorem removeSubscriber_settled (hc : t.Consistent []) (s : SubscriberInfo) {q : Int}
    (hall : ∀ p ∈ t.pubInfoHtable, p.id = q → Settled t p ∧ SurvivesWithout σ t (· = s.id) p) :
    ∀ p' ∈ (clearSubscriberReferences σ (unlinkSubscriberInfo σ t s) s.id).pubInfoHtable,
      p'.id = q → Settled (clearSubscriberReferences σ (unlinkSubscriberInfo σ t s) s.id) p' := by
  intro p' hp' hid
  have hunlinked := hc.unlinkSubscriberInfo (σ := σ) s
  obtain ⟨hentries, _, _⟩ := unlinkSubscriberInfo_frame (σ := σ) t s
  -- the publisher as it was, before and after the unlinking
  obtain ⟨p₁, hp₁, heq⟩ := (hunlinked.clearSpec (σ := σ) s.id).fromPub p' hp'
  have hid₁ : p'.id = p₁.id := by rw [heq]
  have hevolves := TopicStruct.Evolves.unlinkSubscriberInfo (σ := σ) (D := fun _ => False) t s
  rcases hevolves.pub p₁ hp₁ with ⟨p, hp, hsame⟩ | ⟨_, hno⟩
  swap
  · exact hno.elim
  obtain ⟨hset, hsurvives⟩ := hall p hp (hsame.id_eq.symm.trans (hid₁.symm.trans hid))
  have hnum : p₁.entriesNum = p.entriesNum := by
    have hcount := hunlinked.counted p₁ hp₁
    rwa [hentries, hsame.id_eq, ← hc.counted p hp] at hcount
  refine clear_keeps_settled hunlinked hp₁ hp' hid₁ ⟨hnum ▸ hset.1, fun en hen hid' => ?_⟩ ?_
  · rw [hentries] at hen
    exact hset.2 en hen (hid'.trans hsame.id_eq)
  · refine hsurvives.imp (fun hgone => hsame.pid_eq ▸ hgone) fun hothers en hen hid' => ?_
    rw [hentries] at hen
    exact hothers en hen (hid'.trans hsame.id_eq)

/-- **A step that spares the publisher** leaves it settled, if it is still there. -/
theorem TopicStep.settled {i : Input} {tp : Nat} (hstep : TopicStep σ i tp t t')
    (hc : t.Consistent []) {q : Int} (hq : q < t.currentPubsubId)
    (hall : ∀ p ∈ t.pubInfoHtable, p.id = q → Settled t p ∧ SparesPublisher σ i.call tp t p) :
    ∀ p' ∈ t'.pubInfoHtable, p'.id = q → Settled t' p' := by
  intro p' hp' hid
  cases hstep with
  | same | setRos2SubscriberNum | setRos2PublisherNum => exact (hall p' hp' hid).1
  | @addSubscriber topicName ipcNs args eventfd hcall σ₁ ctx =>
    obtain ⟨p, hp, hsame⟩ := HTable.exists_of_forall₂ (insertSubscriberInfo_pubs ..) hp'
    have hs := (hall p hp (hsame.same.id_eq.symm.trans hid)).1
    -- the notify lists say nothing about entries
    refine Settled.of_entries (t := t) ⟨hsame.entriesNum_eq ▸ hs.1, fun en hen hid' => ?_⟩
      fun en hen => insertSubscriberInfo_entries (σ := σ₁) .. ▸ hen
    exact hs.2 en hen (hid'.trans hsame.same.id_eq)
  | @addPublisher topicName ipcNs args hcall σ₁ =>
    rcases insertPublisherInfo_cases (σ := σ₁) i.env t (getProcessDomainId σ args.pid) args with
      ⟨e, heq⟩ | ⟨e, _, heq⟩ | ⟨capacity, _, _, heq⟩ <;> rw [heq] at hp' ⊢
    · exact (hall p' hp' hid).1
    · exact (hall p' hp' hid).1
    · rcases HTable.mem_hashAdd.mp hp' with rfl | hp'
      · -- the new publisher has a new id
        exact absurd hid (ne_of_gt hq)
      · exact (hall p' hp' hid).1
  | @publishMsg pub hpub addr hA =>
    obtain ⟨current, topicName, ipcNs, w, _, hcall, hw, htp, _⟩ := hA
    rcases publishMsgCore_cases hc hpub i.env addr with ⟨e, heq⟩ | ⟨r, hr, heq⟩
    · rw [heq] at hp' ⊢
      exact (hall p' hp' hid).1
    · have hafter : (publishMsgCore i.env t pub addr).2 = t.published pub r.entries := by
        rcases heq with ⟨e, heq⟩ | heq <;> rw [heq]
      rw [hafter] at hp' ⊢
      obtain ⟨p, hp, heq⟩ := HTable.mem_modify.mp hp'
      have hpid : p.id = q := by
        rw [← hid, heq]
        split <;> rfl
      obtain ⟨hs, hspare⟩ := hall p hp hpid
      rw [hcall] at hspare
      -- it is not the one that publishes, so the loop spares it
      have hne : p.id ≠ pub.id := fun h => hspare ⟨w, hw, htp⟩ h.symm
      rw [if_neg hne] at heq
      exact heq ▸ hs.published hr hne
  | fetchMsg ht _ htp hf =>
    subst htp ht
    rw [hf.pubs.1] at hp'
    exact (hall p' hp' hid).1.fetched hf
  | @releaseReference en hen b hA =>
    obtain ⟨current, topicName, ipcNs, w, hcall, hw, htp⟩ := hA
    obtain ⟨hs, hspare⟩ := hall p' hp' hid
    rw [hcall] at hspare
    exact hs.releaseReference (hspare ⟨w, hw, htp⟩ en hen rfl)
  | @removeSubscriber s hs hA =>
    obtain ⟨current, topicName, ipcNs, w, hcall, hw, htp⟩ := hA
    refine removeSubscriber_settled hc s (fun p hp hpid => ?_) p' hp' hid
    obtain ⟨hset, hspare⟩ := hall p hp hpid
    rw [hcall] at hspare
    exact ⟨hset, hspare ⟨w, hw, htp⟩⟩
  | @removePublisher pub hpub =>
    rcases (hc.mem_dropPublisher hpub).mp hp' with ⟨hp', _⟩ | ⟨rfl, hpos⟩
    · refine (hall p' hp' hid).1.of_entries fun en hen => ?_
      rw [hc.dropPublisher_entries hpub] at hen
      exact (List.mem_filter.mp hen).1
    · refine ⟨hpos.ne', fun en hen hen' => (hall pub hpub hid).1.2 en ?_ hen'⟩
      rw [hc.dropPublisher_entries hpub] at hen
      exact (List.mem_filter.mp hen).1
  | @processExit pid p hcall hp σ₁ hprocs =>
    have hprocs : σ₁.procInfoHtable = (processExitCleanup σ pid).procInfoHtable := by
      rw [hprocs]
      unfold step
      rw [hcall]
    have hgone := fun q => processGone_of_exit (q := q) hp hprocs
    -- its own process does not exit, or what it has is still referenced
    refine visitTopic_settled hc ((hgone pid).mpr (.inl rfl)) (fun p₀ hp₀ hid₀ hne => ?_) p' hp' hid
    obtain ⟨hs, hspare⟩ := hall p₀ hp₀ hid₀
    rw [hcall] at hspare
    have hsurvives := (hspare (by rw [hp]; rfl)).resolve_left hne
    exact ⟨hs, hsurvives.imp_left fun h => (hgone p₀.pid).mpr (.inr h)⟩

end Agnocast
