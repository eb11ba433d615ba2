import Agnocast.Kmod.System
import Agnocast.Rules.Registration
import Agnocast.Store.Evolution

/-!
# The store — every step in moves

A declaration of a rule changes nothing but rules (`RuleChange`). Any other call
makes a few *moves*: it changes the topic behind an existing wrapper
(`TopicMove`), links or releases a wrapper, or touches nothing that topics and
rules consist of. `step_moves` decomposes every step of the system, so an
invariant of topics, wrappers and rules is proved once per kind of move.

`Kmod.WellFormed` is the first such invariant, and the one the decomposition
itself needs: every topic is consistent, no two wrappers stand for one cell, each
`wrapper_refcnt` counts the wrappers of its topic, and every endpoint belongs to
the domain of one of them.
-/

namespace Agnocast

open Relation

variable {σ σ' : Kmod} {t t' : TopicStruct} {domainId : Nat}

/-! ## Moves of one topic -/

/-- The deeds that a call has to be entitled to: adding an entry, declaring a
subscriber's pools mapped, and whatever takes references away. -/
inductive Action
  | publish (p : PublisherInfo) (addr : Nat)
  | report (subscriberId : Int)
  | release (subscriberId entryId : Int)
  | leave (subscriberId : Int)
  | exit (pid : Pid)

/-- What one operation, called through a wrapper of domain `domainId`, can make of
a topic when only the actions `A` are open to it. -/
inductive TopicMove (A : Action → Prop) (σ : Kmod) (domainId : Nat) (t : TopicStruct) :
    TopicStruct → Prop
  | insertSubscriber (env : Env) (args : SubscriberArgs) (ctx : Option EventfdCtx)
      (hctx : ctx = none ↔ args.isTakeSub = true) :
      TopicMove A σ domainId t (insertSubscriberInfo σ env t domainId args ctx).2
  | insertPublisher (env : Env) (args : PublisherArgs) :
      TopicMove A σ domainId t
        (match insertPublisherInfo σ env t domainId args with
        | (.error _, t') => t'
        | (.ok _, t') => t'.requestMmapUpdate)
  | publish (env : Env) {p : PublisherInfo} (hp : p ∈ t.pubInfoHtable) (addr : Nat)
      (hA : A (.publish p addr)) : TopicMove A σ domainId t (publishMsgCore env t p addr).2
  | receive {s : SubscriberInfo} (hs : s ∈ t.subInfoHtable) :
      TopicMove A σ domainId t (receiveMsgCore σ t s s.id).2
  | take {s : SubscriberInfo} (hs : s ∈ t.subInfoHtable) (allowSameMessage : Bool) :
      TopicMove A σ domainId t (takeMsgCore σ t s s.id allowSameMessage).2
  | mapped (id : Int) (hA : A (.report id)) :
      TopicMove A σ domainId t (t.modifySubscriber id fun s => { s with needMmapUpdate := false })
  | clearBit {en : EntryNode} (hen : en ∈ t.entries) (b : Int) (hA : A (.release b en.entryId)) :
      TopicMove A σ domainId t (t.setEntry (en.clearBit b))
  | removeSubscriber {s : SubscriberInfo} (hs : s ∈ t.subInfoHtable) (hA : A (.leave s.id)) :
      TopicMove A σ domainId t (clearSubscriberReferences σ (unlinkSubscriberInfo σ t s) s.id)
  | removePublisher {p : PublisherInfo} (hp : p ∈ t.pubInfoHtable) :
      TopicMove A σ domainId t (dropPublisher t p)
  | subscriberExit (pid : Pid) (hA : A (.exit pid)) :
      TopicMove A σ domainId t (preHandlerSubscriberExit σ t pid)
  | ros2Num (subscriberNum publisherNum : Nat) :
      TopicMove A σ domainId t
        { t with ros2SubscriberNum := subscriberNum, ros2PublisherNum := publisherNum }

/-- Several operations through one wrapper. -/
abbrev TopicMoves (A : Action → Prop) (σ : Kmod) (domainId : Nat) :
    TopicStruct → TopicStruct → Prop := ReflTransGen (TopicMove A σ domainId)

variable {A : Action → Prop}

theorem TopicMove.consistent (h : t.Consistent []) (hm : TopicMove A σ domainId t t') :
    t'.Consistent [] := by
  cases hm with
  | insertSubscriber env args ctx _ => exact h.insertSubscriberInfo env domainId args ctx
  | insertPublisher env args =>
    have h := h.insertPublisherInfo (σ := σ) env domainId args
    split <;> next heq => rw [heq] at h; first | exact h | exact h.requestMmapUpdate
  | publish env hp addr _ => exact h.publishMsgCore hp env addr
  | receive hs => exact h.receiveMsgCore hs
  | take hs allow => exact h.takeMsgCore hs allow
  | mapped id _ => exact h.mapped id false
  | clearBit hen b _ => exact h.clearBit hen b
  | @removeSubscriber s hs _ => exact h.removeSubscriber s
  | removePublisher hp => exact h.dropPublisher hp
  | subscriberExit pid _ => exact h.preHandlerSubscriberExit pid
  | ros2Num n m => exact h.of_same rfl rfl rfl rfl rfl

theorem TopicMove.evolves (h : t.Consistent []) (hm : TopicMove A σ domainId t t') :
    t.Evolves (· = domainId) t' := by
  cases hm with
  | insertSubscriber env args ctx _ => exact .insertSubscriberInfo env t domainId args ctx
  | insertPublisher env args =>
    have h := TopicStruct.Evolves.insertPublisherInfo (σ := σ) env t domainId args
    split <;> next heq => rw [heq] at h; first | exact h | exact h.trans (.requestMmapUpdate _)
  | publish env hp addr _ => exact .publishMsgCore h hp env addr
  | receive hs => exact .receiveMsgCore h hs
  | take hs allow => exact .takeMsgCore h hs allow
  | mapped id _ => exact .mapped t id false
  | clearBit hen b _ => exact .clearBit h hen b
  | @removeSubscriber s hs _ =>
    exact (TopicStruct.Evolves.unlinkSubscriberInfo t s).trans
      (.clearSubscriberReferences (h.unlinkSubscriberInfo s) s.id)
  | removePublisher hp => exact .dropPublisher h hp
  | subscriberExit pid _ => exact .preHandlerSubscriberExit h pid
  | ros2Num n m => exact .ros2Num t n m

/-- The fields of a topic that belong to its wrappers. -/
def SameOwner (t t' : TopicStruct) : Prop := t'.wrapperRefcnt = t.wrapperRefcnt ∧ t'.rule = t.rule

theorem SameOwner.trans {t'' : TopicStruct} (h : SameOwner t t') (h' : SameOwner t' t'') :
    SameOwner t t'' := ⟨h'.1.trans h.1, h'.2.trans h.2⟩

private theorem handOut_sameOwner (t : TopicStruct) (b : Int) (ids : List Int) :
    SameOwner t (t.handOut b ids) := by
  unfold TopicStruct.handOut
  split <;> exact ⟨rfl, rfl⟩

private theorem unlinkSubscriberInfo_sameOwner (t : TopicStruct) (s : SubscriberInfo) :
    SameOwner t (unlinkSubscriberInfo σ t s) := by
  unfold unlinkSubscriberInfo
  simp only
  split <;> exact ⟨rfl, rfl⟩

private theorem preHandlerSubscriberExit_sameOwner (t : TopicStruct) (pid : Pid) :
    SameOwner t (preHandlerSubscriberExit σ t pid) := by
  have hfold : ∀ (l : List SubscriberInfo) (t : TopicStruct),
      SameOwner t (l.foldl (fun t s => clearSubscriberReferences σ t s.id) t) := by
    intro l
    induction l with
    | nil => exact fun t => ⟨rfl, rfl⟩
    | cons s l ih => exact fun t => SameOwner.trans ⟨rfl, rfl⟩ (ih _)
  unfold preHandlerSubscriberExit
  simp only
  split
  · exact ⟨rfl, rfl⟩
  · exact SameOwner.trans ⟨rfl, rfl⟩ (hfold _ _)

theorem TopicMove.sameOwner (h : t.Consistent []) (hm : TopicMove A σ domainId t t') :
    SameOwner t t' := by
  cases hm with
  | insertSubscriber env args ctx _ =>
    rcases insertSubscriberInfo_cases (σ := σ) env t domainId args ctx with
      ⟨e, pubs, _, heq⟩ | ⟨pubs, _, _, _, _, heq⟩
    · rw [heq]
      exact ⟨rfl, rfl⟩
    · rw [heq]
      simp only
      split <;> exact ⟨rfl, rfl⟩
  | insertPublisher env args =>
    rcases insertPublisherInfo_cases (σ := σ) env t domainId args with
      ⟨e, heq⟩ | ⟨e, _, heq⟩ | ⟨capacity, _, _, heq⟩ <;> rw [heq] <;> exact ⟨rfl, rfl⟩
  | publish env hp addr _ =>
    rcases publishMsgCore_cases h hp env addr with ⟨e, heq⟩ | ⟨r, _, ⟨e, heq⟩ | heq⟩ <;>
      rw [heq] <;> exact ⟨rfl, rfl⟩
  | receive hs =>
    rw [receiveMsgCore_eq h hs]
    exact handOut_sameOwner ..
  | @take s hs allow =>
    rw [takeMsgCore_eq h hs]
    cases (deliveryWindow σ t s (takeFrom s allow)).head? with
    | none => exact ⟨rfl, rfl⟩
    | some en => exact handOut_sameOwner ..
  | @removeSubscriber s hs _ =>
    exact (unlinkSubscriberInfo_sameOwner t s).trans ⟨rfl, rfl⟩
  | subscriberExit pid _ => exact preHandlerSubscriberExit_sameOwner t pid
  | _ => exact ⟨rfl, rfl⟩

/-- The induction over several operations on one topic. -/
theorem TopicMoves.rec_consistent {P : TopicStruct → Prop} (hP : P t) (h : t.Consistent [])
    (hstep : ∀ t₁ t₂, t₁.Consistent [] → P t₁ → TopicMove A σ domainId t₁ t₂ → P t₂)
    (hm : TopicMoves A σ domainId t t') : P t' ∧ t'.Consistent [] := by
  induction hm with
  | refl => exact ⟨hP, h⟩
  | tail _ hm ih => exact ⟨hstep _ _ ih.2 ih.1 hm, hm.consistent ih.2⟩

theorem TopicMoves.consistent (h : t.Consistent []) (hm : TopicMoves A σ domainId t t') :
    t'.Consistent [] :=
  (hm.rec_consistent (P := fun _ => True) trivial h fun _ _ _ _ _ => trivial).2

theorem TopicMoves.evolves (h : t.Consistent []) (hm : TopicMoves A σ domainId t t') :
    t.Evolves (· = domainId) t' :=
  (hm.rec_consistent (.refl t) h fun _ _ hc hP hm => hP.trans (hm.evolves hc)).1

theorem TopicMoves.sameOwner (h : t.Consistent []) (hm : TopicMoves A σ domainId t t') :
    SameOwner t t' :=
  (hm.rec_consistent (P := SameOwner t) ⟨rfl, rfl⟩ h fun _ _ hc hP hm =>
    hP.trans (hm.sameOwner hc)).1

/-- A process's publishers leave one after the other: the induction over the exit of
all of them. -/
theorem preHandlerPublisherExit_rec {P : TopicStruct → Prop} {pid : Pid} (h : t.Consistent [])
    (hP : P t) (hstep : ∀ t p, t.Consistent [] → p ∈ t.pubInfoHtable → p.pid = pid → P t →
      P (dropPublisher t p)) : P (preHandlerPublisherExit t pid) := by
  have hfold : ∀ (l : List PublisherInfo) (t : TopicStruct), t.Consistent [] → P t →
      (l.map PublisherInfo.id).Nodup → (∀ p ∈ l, p ∈ t.pubInfoHtable ∧ p.pid = pid) →
      P (l.foldl dropPublisher t) := by
    intro l
    induction l with
    | nil => exact fun t _ hP _ _ => hP
    | cons p l ih =>
      intro t ht hP hnd hmem
      obtain ⟨hp, hnd⟩ := List.nodup_cons.mp hnd
      obtain ⟨hpt, hpid⟩ := hmem p List.mem_cons_self
      refine ih _ (ht.dropPublisher hpt) (hstep t p ht hpt hpid hP) hnd fun q hq => ?_
      obtain ⟨hqt, hqpid⟩ := hmem q (List.mem_cons_of_mem _ hq)
      refine ⟨(ht.mem_dropPublisher hpt).mpr (.inl ⟨hqt, fun hid => ?_⟩), hqpid⟩
      exact hp (hid ▸ List.mem_map_of_mem hq)
  exact hfold _ t h hP (h.pubs_nodup.sublist (List.filter_sublist.map _)) fun p hp => by
    simpa using List.mem_filter.mp hp

theorem preHandlerPublisherExit_moves (h : t.Consistent []) (pid : Pid) :
    TopicMoves A σ domainId t (preHandlerPublisherExit t pid) :=
  preHandlerPublisherExit_rec (P := TopicMoves A σ domainId t) h .refl
    fun _ _ _ hp _ hmoves => hmoves.tail (.removePublisher hp)

/-! ## Moves of the module -/

/-- The states differ in nothing that topics, wrappers and rules consist of. -/
structure SameTopics (σ σ' : Kmod) : Prop where
  topicHashtable : σ'.topicHashtable = σ.topicHashtable
  topicStructs : σ'.topicStructs = σ.topicStructs
  nextTopicPtr : σ'.nextTopicPtr = σ.nextTopicPtr
  domainRuleHtable : σ'.domainRuleHtable = σ.domainRuleHtable
  domainRules : σ'.domainRules = σ.domainRules
  nextRulePtr : σ'.nextRulePtr = σ.nextRulePtr

/-- The wrapper `add_topic` makes for a cell. -/
def Cell.wrapper (c : Cell) (tp : Nat) : TopicWrapper := ⟨c.ipcNs, c.domainId, c.key, tp⟩

@[simp] theorem Cell.wrapper_cell (c : Cell) (tp : Nat) : (c.wrapper tp).cell = c := rfl

/-- `add_topic` joins an existing topic. -/
def Kmod.joinTopic (σ : Kmod) (place : Nat) (c : Cell) (tp : Nat) : Kmod :=
  (σ.setTopic tp { σ.topicStructs tp with
    wrapperRefcnt := (σ.topicStructs tp).wrapperRefcnt + 1 }).linkWrapper place (c.wrapper tp)

/-- `add_topic` creates a topic. -/
def Kmod.createTopic (σ : Kmod) (place : Nat) (c : Cell) : Kmod :=
  (σ.allocTopic (.new (findDomainRule σ c))).linkWrapper place (c.wrapper σ.nextTopicPtr)

/-- One move of the module, when the actions `A tp` are open on the topic at `tp`. -/
inductive Move (A : Nat → Action → Prop) (σ : Kmod) : Kmod → Prop
  | topic {w : TopicWrapper} (hw : w ∈ σ.topicHashtable) {t' : TopicStruct}
      (h : TopicMoves (A w.topic) σ w.domainId (σ.topicStructs w.topic) t') :
      Move A σ (σ.setTopic w.topic t')
  | join (place : Nat) {c : Cell} {tp : Nat} (hnew : findTopic σ c = none)
      (hg : findGroupedTopicStruct σ c = some tp) : Move A σ (σ.joinTopic place c tp)
  | create (place : Nat) {c : Cell} (hnew : findTopic σ c = none)
      (hg : findGroupedTopicStruct σ c = none) : Move A σ (σ.createTopic place c)
  | release {w : TopicWrapper} (hw : w ∈ σ.topicHashtable)
      (h : wrapperHasDomainEndpoints σ w = false) : Move A σ (releaseTopicWrapper σ w)
  | world {σ' : Kmod} (h : SameTopics σ σ') : Move A σ σ'

variable {A : Nat → Action → Prop}

/-- Several moves. -/
abbrev Moves (A : Nat → Action → Prop) : Kmod → Kmod → Prop := ReflTransGen (Move A)

/-- The registered rules are the same. -/
structure SameRules (σ σ' : Kmod) : Prop where
  domainRuleHtable : σ'.domainRuleHtable = σ.domainRuleHtable
  domainRules : σ'.domainRules = σ.domainRules
  nextRulePtr : σ'.nextRulePtr = σ.nextRulePtr

/-- Moves do not touch the rules. -/
theorem Move.sameRules (hm : Move A σ σ') : SameRules σ σ' := by
  cases hm with
  | world h => exact ⟨h.domainRuleHtable, h.domainRules, h.nextRulePtr⟩
  | _ => exact ⟨rfl, rfl, rfl⟩

theorem Moves.sameRules (hm : Moves A σ σ') : SameRules σ σ' := by
  induction hm with
  | refl => exact ⟨rfl, rfl, rfl⟩
  | tail _ hm ih =>
    have h := hm.sameRules
    exact ⟨h.1.trans ih.1, h.2.trans ih.2, h.3.trans ih.3⟩

/-! ## Well-formed states -/

/-- The invariant of topics and wrappers. -/
structure Kmod.WellFormed (σ : Kmod) : Prop where
  store : ∀ tp, (σ.topicStructs tp).Consistent []
  cells : (σ.topicHashtable.map TopicWrapper.cell).Nodup
  topic_lt : ∀ w ∈ σ.topicHashtable, w.topic < σ.nextTopicPtr
  refcnt : ∀ tp, (σ.topicStructs tp).wrapperRefcnt = σ.topicHashtable.countP fun w => w.topic = tp
  pub_domain : ∀ tp, ∀ p ∈ (σ.topicStructs tp).pubInfoHtable,
    ∃ w ∈ σ.topicHashtable, w.topic = tp ∧ w.domainId = p.domainId
  sub_domain : ∀ tp, ∀ s ∈ (σ.topicStructs tp).subInfoHtable,
    ∃ w ∈ σ.topicHashtable, w.topic = tp ∧ w.domainId = s.domainId

theorem findGroupedTopicStruct_mem {c : Cell} {tp : Nat}
    (h : findGroupedTopicStruct σ c = some tp) :
    ∃ r partner w, findDomainRule σ c = some r ∧ (σ.domainRules r).partnerCell c = some partner ∧
      findTopic σ partner = some w ∧ w.topic = tp := by
  unfold findGroupedTopicStruct at h
  split at h
  · cases h
  · next r hr =>
    split at h
    · cases h
    · next partner hp =>
      obtain ⟨w, hw, htopic⟩ := Option.map_eq_some_iff.mp h
      exact ⟨r, partner, w, hr, hp, hw, htopic⟩

theorem findTopic_mem {c : Cell} {w : TopicWrapper} (h : findTopic σ c = some w) :
    w ∈ σ.topicHashtable ∧ w.cell = c := HTable.mem_of_lookup h

private theorem cells_link (h : σ.WellFormed) {c : Cell} (hnew : findTopic σ c = none)
    (place tp : Nat) :
    ((HTable.hashAdd place σ.topicHashtable (c.wrapper tp)).map TopicWrapper.cell).Nodup := by
  refine HTable.nodup_map_hashAdd.mpr ⟨?_, h.cells⟩
  rw [List.mem_map]
  rintro ⟨w, hw, hc⟩
  exact findTopic_eq_none.mp hnew w hw hc

namespace Kmod.WellFormed

theorem setTopic (h : σ.WellFormed) {w : TopicWrapper} (hw : w ∈ σ.topicHashtable)
    (hc : t'.Consistent []) (he : (σ.topicStructs w.topic).Evolves (· = w.domainId) t')
    (ho : SameOwner (σ.topicStructs w.topic) t') : (σ.setTopic w.topic t').WellFormed := by
  refine ⟨fun tp => ?_, h.cells, h.topic_lt, fun tp => ?_, fun tp => ?_, fun tp => ?_⟩ <;>
    by_cases htp : tp = w.topic
  · rw [htp, setTopic_self]
    exact hc
  · rw [setTopic_of_ne _ _ _ htp]
    exact h.store tp
  · rw [htp, setTopic_self, ho.1]
    exact h.refcnt w.topic
  · rw [setTopic_of_ne _ _ _ htp]
    exact h.refcnt tp
  · rw [htp, setTopic_self]
    intro p' hp'
    rcases he.pub p' hp' with ⟨p, hp, hsame⟩ | ⟨_, hdom⟩
    · rw [hsame.domainId_eq]
      exact h.pub_domain w.topic p hp
    · exact ⟨w, hw, rfl, hdom.symm⟩
  · rw [setTopic_of_ne _ _ _ htp]
    exact h.pub_domain tp
  · rw [htp, setTopic_self]
    intro s' hs'
    rcases he.sub s' hs' with ⟨s, hs, hsame, _⟩ | ⟨_, hdom, _⟩
    · rw [hsame.domainId_eq]
      exact h.sub_domain w.topic s hs
    · exact ⟨w, hw, rfl, hdom.symm⟩
  · rw [setTopic_of_ne _ _ _ htp]
    exact h.sub_domain tp

theorem joinTopic (h : σ.WellFormed) (place : Nat) {c : Cell} {tp : Nat}
    (hnew : findTopic σ c = none) (hg : findGroupedTopicStruct σ c = some tp) :
    (σ.joinTopic place c tp).WellFormed := by
  obtain ⟨_, _, w, _, _, hw, rfl⟩ := findGroupedTopicStruct_mem hg
  have hlt := h.topic_lt w (findTopic_mem hw).1
  have htopics : ∀ tp, (σ.joinTopic place c w.topic).topicStructs tp =
      { σ.topicStructs tp with wrapperRefcnt :=
          (σ.topicStructs tp).wrapperRefcnt + if w.topic = tp then 1 else 0 } := by
    intro tp
    by_cases htp : tp = w.topic
    · rw [htp, if_pos rfl]
      exact setTopic_self ..
    · rw [if_neg (Ne.symm htp)]
      exact setTopic_of_ne _ _ _ htp
  refine ⟨fun tp => ?_, cells_link h hnew place _, fun w' hw' => ?_, fun tp => ?_,
    fun tp p hp => ?_, fun tp s hs => ?_⟩
  · rw [htopics]
    exact (h.store tp).withRefcnt _
  · rcases HTable.mem_hashAdd.mp hw' with rfl | hw'
    · exact hlt
    · exact h.topic_lt w' hw'
  · rw [htopics]
    show _ = (HTable.hashAdd place σ.topicHashtable (c.wrapper w.topic)).countP _
    rw [HTable.countP_hashAdd, h.refcnt tp]
    by_cases htp : w.topic = tp <;> simp [Cell.wrapper, htp]
  · rw [htopics] at hp
    obtain ⟨w', hw', hrest⟩ := h.pub_domain tp p hp
    exact ⟨w', HTable.mem_hashAdd.mpr (.inr hw'), hrest⟩
  · rw [htopics] at hs
    obtain ⟨w', hw', hrest⟩ := h.sub_domain tp s hs
    exact ⟨w', HTable.mem_hashAdd.mpr (.inr hw'), hrest⟩

theorem createTopic (h : σ.WellFormed) (place : Nat) {c : Cell} (hnew : findTopic σ c = none) :
    (σ.createTopic place c).WellFormed := by
  have hself : (σ.createTopic place c).topicStructs σ.nextTopicPtr = .new (findDomainRule σ c) :=
    setTopic_self ..
  have hne : ∀ tp, tp ≠ σ.nextTopicPtr →
      (σ.createTopic place c).topicStructs tp = σ.topicStructs tp :=
    fun tp htp => setTopic_of_ne _ _ _ htp
  -- no wrapper is over the new structure yet
  have hfresh : (σ.topicHashtable.countP fun w => w.topic = σ.nextTopicPtr) = 0 := by
    rw [List.countP_eq_zero]
    intro w hw
    simpa using (h.topic_lt w hw).ne
  refine ⟨fun tp => ?_, cells_link h hnew place _, fun w' hw' => ?_, fun tp => ?_,
    fun tp p hp => ?_, fun tp s hs => ?_⟩
  · by_cases htp : tp = σ.nextTopicPtr
    · rw [htp, hself]
      exact .new _
    · rw [hne tp htp]
      exact h.store tp
  · rcases HTable.mem_hashAdd.mp hw' with rfl | hw'
    · exact Nat.lt_succ_self _
    · exact Nat.lt_succ_of_lt (h.topic_lt w' hw')
  · show _ = (HTable.hashAdd place σ.topicHashtable (c.wrapper σ.nextTopicPtr)).countP _
    rw [HTable.countP_hashAdd]
    by_cases htp : tp = σ.nextTopicPtr
    · rw [htp, hself, hfresh]
      simp [Cell.wrapper, TopicStruct.new]
    · rw [hne tp htp, h.refcnt tp]
      simp [Cell.wrapper, Ne.symm htp]
  · by_cases htp : tp = σ.nextTopicPtr
    · rw [htp, hself] at hp
      simp [TopicStruct.new, TopicStruct.blank] at hp
    · rw [hne tp htp] at hp
      obtain ⟨w', hw', hrest⟩ := h.pub_domain tp p hp
      exact ⟨w', HTable.mem_hashAdd.mpr (.inr hw'), hrest⟩
  · by_cases htp : tp = σ.nextTopicPtr
    · rw [htp, hself] at hs
      simp [TopicStruct.new, TopicStruct.blank] at hs
    · rw [hne tp htp] at hs
      obtain ⟨w', hw', hrest⟩ := h.sub_domain tp s hs
      exact ⟨w', HTable.mem_hashAdd.mpr (.inr hw'), hrest⟩

theorem releaseTopicWrapper (h : σ.WellFormed) {w : TopicWrapper} (hw : w ∈ σ.topicHashtable)
    (hempty : wrapperHasDomainEndpoints σ w = false) : (releaseTopicWrapper σ w).WellFormed := by
  have hself : (Agnocast.releaseTopicWrapper σ w).topicStructs w.topic =
      (σ.topicStructs w.topic).dropRef := setTopic_self ..
  have hne : ∀ tp, tp ≠ w.topic →
      (Agnocast.releaseTopicWrapper σ w).topicStructs tp = σ.topicStructs tp :=
    fun tp htp => setTopic_of_ne _ _ _ htp
  -- a wrapper other than the released one stays
  have hstay : ∀ w' ∈ σ.topicHashtable, w' ≠ w →
      w' ∈ (Agnocast.releaseTopicWrapper σ w).topicHashtable := fun w' hw' hne' =>
    HTable.mem_hashDel.mpr ⟨hw', fun hc => hne' (HTable.eq_of_key_eq h.cells hw' hw hc)⟩
  have hcount := HTable.countP_hashDel h.cells hw
  have hevolves := TopicStruct.Evolves.dropRef (D := fun _ => False) (σ.topicStructs w.topic)
  simp only [wrapperHasDomainEndpoints, Bool.or_eq_false_iff, List.any_eq_false,
    decide_eq_true_eq] at hempty
  refine ⟨fun tp => ?_, HTable.nodup_map_hashDel h.cells,
    fun w' hw' => h.topic_lt w' (HTable.mem_hashDel.mp hw').1, fun tp => ?_,
    fun tp p' hp' => ?_, fun tp s' hs' => ?_⟩ <;> by_cases htp : tp = w.topic
  · rw [htp, hself]
    exact (h.store w.topic).dropRef
  · rw [hne tp htp]
    exact h.store tp
  · rw [htp, hself]
    have hrefcnt := h.refcnt w.topic
    rw [hcount, if_pos (by simp)] at hrefcnt
    have hdec : u32Dec (σ.topicStructs w.topic).wrapperRefcnt =
        (HTable.hashDel TopicWrapper.cell w.cell σ.topicHashtable).countP
          fun w' => w'.topic = w.topic := by
      rw [hrefcnt, u32Dec_succ]
    unfold TopicStruct.dropRef
    simp only
    split <;> exact hdec
  · rw [hne tp htp, h.refcnt tp, hcount, if_neg (by simpa using Ne.symm htp), Nat.add_zero]
    rfl
  · rw [htp, hself] at hp'
    rcases hevolves.pub p' hp' with ⟨p, hp, hsame⟩ | ⟨_, hfalse⟩
    · obtain ⟨w', hw', htopic, hdom⟩ := h.pub_domain w.topic p hp
      refine ⟨w', hstay w' hw' ?_, htopic.trans htp.symm, hdom.trans hsame.domainId_eq.symm⟩
      rintro rfl
      exact hempty.1 p hp hdom.symm
    · exact hfalse.elim
  · rw [hne tp htp] at hp'
    obtain ⟨w', hw', htopic, hdom⟩ := h.pub_domain tp p' hp'
    refine ⟨w', hstay w' hw' ?_, htopic, hdom⟩
    rintro rfl
    exact htp htopic.symm
  · rw [htp, hself] at hs'
    rcases hevolves.sub s' hs' with ⟨s, hs, hsame, _⟩ | ⟨_, hfalse, _⟩
    · obtain ⟨w', hw', htopic, hdom⟩ := h.sub_domain w.topic s hs
      refine ⟨w', hstay w' hw' ?_, htopic.trans htp.symm, hdom.trans hsame.domainId_eq.symm⟩
      rintro rfl
      exact hempty.2 s hs hdom.symm
    · exact hfalse.elim
  · rw [hne tp htp] at hs'
    obtain ⟨w', hw', htopic, hdom⟩ := h.sub_domain tp s' hs'
    refine ⟨w', hstay w' hw' ?_, htopic, hdom⟩
    rintro rfl
    exact htp htopic.symm

theorem of_sameTopics (h : σ.WellFormed) (htable : σ'.topicHashtable = σ.topicHashtable)
    (hstructs : σ'.topicStructs = σ.topicStructs) (hnext : σ'.nextTopicPtr = σ.nextTopicPtr) :
    σ'.WellFormed := by
  refine ⟨?_, ?_, ?_, ?_, ?_, ?_⟩ <;> simp only [htable, hstructs, hnext]
  · exact h.store
  · exact h.cells
  · exact h.topic_lt
  · exact h.refcnt
  · exact h.pub_domain
  · exact h.sub_domain

/-- Every move keeps a state well-formed. -/
theorem move (h : σ.WellFormed) (hm : Move A σ σ') : σ'.WellFormed := by
  cases hm with
  | @topic w hw t' hm =>
    have hc := h.store w.topic
    exact h.setTopic hw (hm.consistent hc) (hm.evolves hc) (hm.sameOwner hc)
  | join place hnew hg => exact h.joinTopic place hnew hg
  | create place hnew _ => exact h.createTopic place hnew
  | release hw hempty => exact h.releaseTopicWrapper hw hempty
  | world hw => exact h.of_sameTopics hw.topicHashtable hw.topicStructs hw.nextTopicPtr

theorem ruleChange (h : σ.WellFormed) (hr : RuleChange σ σ') : σ'.WellFormed := by
  cases hr <;> exact h.of_sameTopics rfl rfl rfl

theorem moves (h : σ.WellFormed) (hm : Moves A σ σ') : σ'.WellFormed := by
  induction hm with
  | refl => exact h
  | tail _ hm ih => exact ih.move hm

theorem loaded (m : MemoryAllocator) : (Kmod.loaded m).WellFormed := by
  refine ⟨fun _ => .blank, ?_, ?_, ?_, ?_, ?_⟩ <;> simp [Kmod.loaded, TopicStruct.blank]

end Kmod.WellFormed

/-! ## One topic -/

/-- The last wrapper of a topic goes only when the topic holds nothing any more. -/
theorem Kmod.WellFormed.tearDown_eq (h : σ.WellFormed) {w : TopicWrapper}
    (hw : w ∈ σ.topicHashtable) (hempty : wrapperHasDomainEndpoints σ w = false)
    (hlast : u32Dec (σ.topicStructs w.topic).wrapperRefcnt = 0) :
    (σ.topicStructs w.topic).tearDown = σ.topicStructs w.topic := by
  have hcount := h.refcnt w.topic
  rw [HTable.countP_hashDel h.cells hw, if_pos (by simp)] at hcount
  rw [hcount, u32Dec_succ, List.countP_eq_zero] at hlast
  -- every endpoint would need a wrapper of its own domain
  have hdomain : ∀ w' ∈ σ.topicHashtable, w'.topic = w.topic → w' = w := by
    intro w' hw' htopic
    by_contra hne
    have := hlast w' (HTable.mem_hashDel.mpr
      ⟨hw', fun hc => hne (HTable.eq_of_key_eq h.cells hw' hw hc)⟩)
    simp [htopic] at this
  simp only [wrapperHasDomainEndpoints, Bool.or_eq_false_iff, List.any_eq_false,
    decide_eq_true_eq] at hempty
  have hpubs : (σ.topicStructs w.topic).pubInfoHtable = [] := by
    refine List.eq_nil_iff_forall_not_mem.mpr fun p hp => ?_
    obtain ⟨w', hw', htopic, hdom⟩ := h.pub_domain w.topic p hp
    rw [hdomain w' hw' htopic] at hdom
    exact hempty.1 p hp hdom.symm
  have hsubs : (σ.topicStructs w.topic).subInfoHtable = [] := by
    refine List.eq_nil_iff_forall_not_mem.mpr fun s hs => ?_
    obtain ⟨w', hw', htopic, hdom⟩ := h.sub_domain w.topic s hs
    rw [hdomain w' hw' htopic] at hdom
    exact hempty.2 s hs hdom.symm
  have hentries : (σ.topicStructs w.topic).entries = [] := by
    refine List.eq_nil_iff_forall_not_mem.mpr fun en hen => ?_
    obtain ⟨p, hp, _⟩ := (h.store w.topic).publisher en hen
    rw [hpubs] at hp
    cases hp
  unfold TopicStruct.tearDown
  rw [← hpubs, ← hsubs, ← hentries]

/-- **What a move makes of one topic**: operations called through a wrapper of the
topic, another number of wrappers, or an empty topic at a new pointer. -/
theorem Move.topicStruct {P : TopicStruct → Prop} (hwf : σ.WellFormed) (hm : Move A σ σ') (tp : Nat)
    (hsame : P (σ.topicStructs tp))
    (hmoves : ∀ w ∈ σ.topicHashtable, w.topic = tp → ∀ t',
      TopicMoves (A tp) σ w.domainId (σ.topicStructs tp) t' → P t')
    (hrefcnt : ∀ w ∈ σ.topicHashtable, w.topic = tp → ∀ n,
      P { σ.topicStructs tp with wrapperRefcnt := n })
    (hnew : ∀ rule, tp = σ.nextTopicPtr → tp < σ'.nextTopicPtr → P (.new rule)) :
    P (σ'.topicStructs tp) := by
  cases hm with
  | @topic w hw t' hm =>
    by_cases htp : tp = w.topic
    · subst htp
      rw [Kmod.setTopic_self]
      exact hmoves w hw rfl t' hm
    · rw [Kmod.setTopic_of_ne _ _ _ htp]
      exact hsame
  | @join place c tp' _ hg =>
    by_cases htp : tp = tp'
    · subst htp
      obtain ⟨_, _, w, _, _, hw, htopic⟩ := findGroupedTopicStruct_mem hg
      have : (σ.joinTopic place c tp).topicStructs tp = _ := Kmod.setTopic_self ..
      rw [this]
      exact hrefcnt w (findTopic_mem hw).1 htopic _
    · have : (σ.joinTopic place c tp').topicStructs tp = _ := Kmod.setTopic_of_ne _ _ _ htp
      rw [this]
      exact hsame
  | @create place c _ _ =>
    by_cases htp : tp = σ.nextTopicPtr
    · have : (σ.createTopic place c).topicStructs σ.nextTopicPtr = .new (findDomainRule σ c) :=
        Kmod.setTopic_self ..
      rw [htp, this]
      exact hnew _ htp (htp ▸ Nat.lt_succ_self _)
    · have : (σ.createTopic place c).topicStructs tp = _ := Kmod.setTopic_of_ne _ _ _ htp
      rw [this]
      exact hsame
  | @release w hw hempty =>
    by_cases htp : tp = w.topic
    · subst htp
      have : (releaseTopicWrapper σ w).topicStructs w.topic = (σ.topicStructs w.topic).dropRef :=
        Kmod.setTopic_self ..
      rw [this]
      unfold TopicStruct.dropRef
      simp only
      split
      -- the last wrapper tears the topic down, which has nothing left to free
      · next hlast =>
        have htear : ({ σ.topicStructs w.topic with
            wrapperRefcnt := u32Dec (σ.topicStructs w.topic).wrapperRefcnt } :
              TopicStruct).tearDown = { σ.topicStructs w.topic with
                wrapperRefcnt := u32Dec (σ.topicStructs w.topic).wrapperRefcnt } :=
          congrArg (fun t : TopicStruct => { t with
            wrapperRefcnt := u32Dec (σ.topicStructs w.topic).wrapperRefcnt })
            (hwf.tearDown_eq hw hempty hlast)
        rw [htear]
        exact hrefcnt w hw rfl _
      · exact hrefcnt w hw rfl _
    · have : (releaseTopicWrapper σ w).topicStructs tp = _ := Kmod.setTopic_of_ne _ _ _ htp
      rw [this]
      exact hsame
  | world hw =>
    rw [hw.topicStructs]
    exact hsame

end Agnocast
