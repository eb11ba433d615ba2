import Agnocast.Kmod.CountQueries
import Agnocast.Store.Content

/-!
# Domain rules — what a domain sees of the other one

Two domains that a rule groups share a topic. The count queries answer for the
domain of the caller, and are meant to tell it nothing about the other one but how many
subscribers a publication reaches there. Three of their answers do: the bridge flag that
each of them takes from the endpoints of all domains, and the numbers of ROS 2 endpoints,
which the bridge managers of both domains write into one field of the topic.

* `run_ros2Num`          — the field holds what was set last, by a process of whatever
  domain.
* `counts_separated_iff` — two runs that agree on one domain give it the same counts
  exactly if they also agree on those three.
* `bridge_flag_leaks`    — a bridge publisher of the other domain is seen.
-/

namespace Agnocast

variable {σ : Kmod} {t t' : TopicStruct}

/-! ## The numbers of ROS 2 endpoints -/

/-- The two numbers that the bridge managers set. -/
inductive Ros2Side
  | subscribers
  | publishers
  deriving DecidableEq, Repr

/-- The number that a topic holds. -/
def TopicStruct.ros2Num (t : TopicStruct) : Ros2Side → Nat
  | .subscribers => t.ros2SubscriberNum
  | .publishers => t.ros2PublisherNum

/-- The arguments of the call, if it sets the number. -/
def Call.ros2Args : Ros2Side → Call → Option (Pid × Name × IpcNs × Nat)
  | .subscribers, .setRos2SubscriberNum current topicName ipcNs count =>
    some (current, topicName, ipcNs, count)
  | .publishers, .setRos2PublisherNum current topicName ipcNs count =>
    some (current, topicName, ipcNs, count)
  | _, _ => none

/-- What the call writes into the topic at `tp`: the domain of the caller and the number. -/
def ros2Write (side : Ros2Side) (σ : Kmod) (call : Call) (tp : Nat) : Option (Nat × Nat) :=
  (call.ros2Args side).bind fun (current, topicName, ipcNs, count) =>
    (findTopicForCurrent σ current topicName ipcNs).bind fun w =>
      if w.topic = tp then some (w.domainId, count) else none

/-- What was written into the topic at `tp`, newest first. -/
def ros2Writes (side : Ros2Side) (tp : Nat) (tr : List Event) : List (Nat × Nat) :=
  tr.filterMap fun ev => ros2Write side ev.pre ev.input.call tp

/-- The number that was written last. -/
def lastNumber (writes : List (Nat × Nat)) : Option Nat := writes.head?.map Prod.snd

/-- The number that was written last by a process of the domain. -/
def lastNumberOf (domainId : Nat) (writes : List (Nat × Nat)) : Option Nat :=
  lastNumber (writes.filter fun write => write.1 = domainId)

/-- The topics hold the same numbers. -/
def SameRos2 (t t' : TopicStruct) : Prop := ∀ side, t'.ros2Num side = t.ros2Num side

theorem SameStore.sameRos2 (h : SameStore t t') : SameRos2 t t'
  | .subscribers => h.ros2SubscriberNum
  | .publishers => h.ros2PublisherNum

private theorem sameRos2_of_eq (hs : t'.ros2SubscriberNum = t.ros2SubscriberNum)
    (hp : t'.ros2PublisherNum = t.ros2PublisherNum) : SameRos2 t t'
  | .subscribers => hs
  | .publishers => hp

private theorem foldl_sameRos2 {α : Type} {f : TopicStruct → α → TopicStruct}
    (hf : ∀ t a, SameRos2 t (f t a)) (l : List α) : ∀ t, SameRos2 t (l.foldl f t) := by
  induction l with
  | nil => exact fun _ _ => rfl
  | cons a l ih => exact fun t side => (ih (f t a) side).trans (hf t a side)

private theorem clearReferences_sameRos2 (t : TopicStruct) (b : Int) :
    SameRos2 t (clearSubscriberReferences σ t b) := sameRos2_of_eq rfl rfl

private theorem dropPublisher_sameRos2 (t : TopicStruct) (p : PublisherInfo) :
    SameRos2 t (dropPublisher t p) := sameRos2_of_eq rfl rfl

private theorem processExit_sameRos2 (t : TopicStruct) (pid : Pid) :
    SameRos2 t (preHandlerSubscriberExit σ (preHandlerPublisherExit t pid) pid) := by
  have hpubs : SameRos2 t (preHandlerPublisherExit t pid) :=
    foldl_sameRos2 dropPublisher_sameRos2 _ t
  generalize preHandlerPublisherExit t pid = t₁ at hpubs
  unfold preHandlerSubscriberExit
  simp only
  split
  · exact hpubs
  · have hclear := foldl_sameRos2 (f := fun t (s : SubscriberInfo) =>
      clearSubscriberReferences σ t s.id) fun t s => clearReferences_sameRos2 t s.id
    exact fun side => (hclear _ _ side).trans ((sameRos2_of_eq rfl rfl side).trans (hpubs side))

/-- **A step of a topic** that is none of the two setters leaves the numbers alone. -/
theorem TopicStep.sameRos2 {i : Input} {tp : Nat} (hstep : TopicStep σ i tp t t')
    (hc : t.Consistent []) (hset : ∀ side, i.call.ros2Args side = none) : SameRos2 t t' := by
  cases hstep with
  | same => exact fun _ => rfl
  | @addSubscriber topicName ipcNs args eventfd hcall σ₁ ctx =>
    rcases insertSubscriberInfo_cases (σ := σ₁) i.env t (getProcessDomainId σ args.pid) args ctx with
      ⟨e, pubs, _, heq⟩ | ⟨pubs, _, _, _, _, heq⟩ <;> rw [heq]
    · exact sameRos2_of_eq rfl rfl
    · simp only
      split <;> exact sameRos2_of_eq rfl rfl
  | @addPublisher topicName ipcNs args hcall σ₁ =>
    rcases insertPublisherInfo_cases (σ := σ₁) i.env t (getProcessDomainId σ args.pid) args with
      ⟨e, heq⟩ | ⟨e, _, heq⟩ | ⟨capacity, _, _, heq⟩ <;> rw [heq] <;> exact sameRos2_of_eq rfl rfl
  | @publishMsg p hp addr =>
    rcases publishMsgCore_cases hc hp i.env addr with ⟨e, heq⟩ | ⟨r, _, ⟨e, heq⟩ | heq⟩ <;>
      rw [heq] <;> exact sameRos2_of_eq rfl rfl
  | @fetchMsg w s batch ret _ m ht _ htp hf =>
    subst htp ht
    obtain ⟨size, hreport⟩ := hf.reported
    have hhand : SameRos2 (σ.topicStructs w.topic)
        ((σ.topicStructs w.topic).handOut s.id (batch.map EntryNode.entryId)) := by
      unfold TopicStruct.handOut
      split <;> exact sameRos2_of_eq rfl rfl
    rcases reportPublisherShm_topic hreport with rfl | rfl
    · exact hhand
    · exact fun side => (sameRos2_of_eq rfl rfl side).trans (hhand side)
  | releaseReference => exact sameRos2_of_eq rfl rfl
  | @removeSubscriber s =>
    have hunlink : SameRos2 t (unlinkSubscriberInfo σ t s) := by
      unfold unlinkSubscriberInfo
      simp only
      split <;> exact sameRos2_of_eq rfl rfl
    exact fun side => (clearReferences_sameRos2 _ _ side).trans (hunlink side)
  | removePublisher => exact dropPublisher_sameRos2 t _
  | setRos2SubscriberNum hcall =>
    -- the setters are excluded
    have hnone := hset .subscribers
    rw [hcall] at hnone
    cases hnone
  | setRos2PublisherNum hcall =>
    have hnone := hset .publishers
    rw [hcall] at hnone
    cases hnone
  | processExit => exact processExit_sameRos2 t _

/-- One setter writes into the topic of the caller's domain. -/
private theorem setRos2Num_ros2Num {current : Pid} {topicName : Name} {ipcNs : IpcNs} {count : Nat}
    {side : Ros2Side} (set : TopicStruct → TopicStruct) (hself : ∀ t, (set t).ros2Num side = count)
    (tp : Nat) :
    ((setRos2Num σ current topicName ipcNs set).2.topicStructs tp).ros2Num side =
      (((findTopicForCurrent σ current topicName ipcNs).bind fun w =>
        if w.topic = tp then some (w.domainId, count) else none).map Prod.snd).getD
        ((σ.topicStructs tp).ros2Num side) := by
  unfold setRos2Num
  cases findTopicForCurrent σ current topicName ipcNs with
  | none => rfl
  | some w =>
    by_cases htp : w.topic = tp
    · subst htp
      simp [hself]
    · simp [htp, Kmod.setTopic_of_ne _ _ _ (Ne.symm htp)]

/-- The other setter leaves the number alone. -/
private theorem setRos2Num_other {current : Pid} {topicName : Name} {ipcNs : IpcNs}
    {side : Ros2Side} (set : TopicStruct → TopicStruct)
    (hother : ∀ t, (set t).ros2Num side = t.ros2Num side) (tp : Nat) :
    ((setRos2Num σ current topicName ipcNs set).2.topicStructs tp).ros2Num side =
      (σ.topicStructs tp).ros2Num side := by
  unfold setRos2Num
  cases findTopicForCurrent σ current topicName ipcNs with
  | none => rfl
  | some w =>
    by_cases htp : tp = w.topic
    · rw [htp, Kmod.setTopic_self]
      exact hother _
    · rw [Kmod.setTopic_of_ne _ _ _ htp]

/-- **One step and a number**: it is what the call writes, or what it was. -/
theorem step_ros2Num (hr : Reachable σ) (i : Input) (tp : Nat) (side : Ros2Side) :
    ((step σ i).2.topicStructs tp).ros2Num side =
      ((ros2Write side σ i.call tp).map Prod.snd).getD ((σ.topicStructs tp).ros2Num side) := by
  by_cases hset : ∀ side, i.call.ros2Args side = none
  · obtain ⟨t, t', hleft, hstep, hright⟩ := step_topicStep hr i tp
    have hc := hleft.consistent (hr.wellFormed.store tp)
    unfold ros2Write
    rw [hset side, hright.sameRos2 side, hstep.sameRos2 hc hset side, hleft.sameRos2 side]
    rfl
  obtain ⟨env, call⟩ := i
  cases call with
  | setRos2SubscriberNum current topicName ipcNs count =>
    cases side with
    | subscribers =>
      exact setRos2Num_ros2Num (fun t => { t with ros2SubscriberNum := count }) (fun _ => rfl) tp
    | publishers =>
      exact setRos2Num_other (fun t => { t with ros2SubscriberNum := count }) (fun _ => rfl) tp
  | setRos2PublisherNum current topicName ipcNs count =>
    cases side with
    | subscribers =>
      exact setRos2Num_other (fun t => { t with ros2PublisherNum := count }) (fun _ => rfl) tp
    | publishers =>
      exact setRos2Num_ros2Num (fun t => { t with ros2PublisherNum := count }) (fun _ => rfl) tp
  | _ => exact absurd (fun side => by cases side <;> rfl) hset

/-- **The field holds what was set last**, by whichever of the domains. -/
theorem run_ros2Num {tr : List Event} (h : Transition.Run kmod Transition.anyStep tr σ) (tp : Nat)
    (side : Ros2Side) :
    (σ.topicStructs tp).ros2Num side = (lastNumber (ros2Writes side tp tr)).getD 0 := by
  refine h.history (P := fun tr σ =>
    (σ.topicStructs tp).ros2Num side = (lastNumber (ros2Writes side tp tr)).getD 0) ?_ ?_
  · rintro σ ⟨num, start, gb, m, _, rfl⟩
    cases side <;> rfl
  · intro tr σ i hrun ih _
    have hr : Reachable σ := hrun.reachable
    refine (step_ros2Num hr i tp side).trans ?_
    unfold ros2Writes
    rw [List.filterMap_cons]
    cases hwrite : ros2Write side σ i.call tp with
    | none => exact ih
    | some write => rfl

/-! ## What a domain's endpoints are -/

/-- The subscribers of a domain, as a caller can tell them apart. -/
def TopicStruct.subscribersOf (t : TopicStruct) (domainId : Nat) : List (Pid × Bool) :=
  (t.subInfoHtable.filter fun s => s.domainId = domainId).map fun s => (s.pid, s.isBridge)

/-- The publishers of a domain, likewise. -/
def TopicStruct.publishersOf (t : TopicStruct) (domainId : Nat) : List (Pid × Bool) :=
  (t.pubInfoHtable.filter fun p => p.domainId = domainId).map fun p => (p.pid, p.isBridge)

/-- Two runs agree on a domain's share of a topic, which lies at `tp` in the one and at
`tp'` in the other: its endpoints, and what its processes set last. -/
structure AgreesOn (domainId : Nat) (tr : List Event) (σ : Kmod) (tp : Nat)
    (tr' : List Event) (σ' : Kmod) (tp' : Nat) : Prop where
  subs : ((σ.topicStructs tp).subscribersOf domainId).Perm
    ((σ'.topicStructs tp').subscribersOf domainId)
  pubs : ((σ.topicStructs tp).publishersOf domainId).Perm
    ((σ'.topicStructs tp').publishersOf domainId)
  numbers : ∀ side, lastNumberOf domainId (ros2Writes side tp tr) =
    lastNumberOf domainId (ros2Writes side tp' tr')

/-- The counts of subscribers agree in all but those of the other domain. -/
def SameSubscriberNum (r r' : SubscriberNum) : Prop :=
  { r with otherDomainSubscriberNum := 0 } = { r' with otherDomainSubscriberNum := 0 }

/-- The other domain is not seen: the queries answer the same in both states. -/
def Separated (σ σ' : Kmod) (current : Pid) (topicName : Name) (ipcNs : IpcNs) (pid : Pid) : Prop :=
  SameSubscriberNum (getSubscriberNum σ current topicName ipcNs pid)
    (getSubscriberNum σ' current topicName ipcNs pid) ∧
  getPublisherNum σ current topicName ipcNs = getPublisherNum σ' current topicName ipcNs

/-- A bridge of the domain, or one of another domain. -/
def HasBridge (l : List (Pid × Bool)) : Prop := ∃ e ∈ l, e.2 = true

/-- A bridge publisher of another domain is in the topic. -/
def ForeignBridgePublisher (t : TopicStruct) (domainId : Nat) : Prop :=
  ∃ p ∈ t.pubInfoHtable, p.domainId ≠ domainId ∧ p.isBridge = true

/-- A bridge subscriber of another domain is in the topic. -/
def ForeignBridgeSubscriber (t : TopicStruct) (domainId : Nat) : Prop :=
  ∃ s ∈ t.subInfoHtable, s.domainId ≠ domainId ∧ s.isBridge = true

/-- The runs differ in nothing of the other domain that leaks: the numbers last set by
anybody are the same, and bridges of the other domain are there in both or in neither,
unless the domain has a bridge of that kind itself. -/
structure Undisturbed (domainId : Nat) (tr : List Event) (σ : Kmod) (tp : Nat)
    (tr' : List Event) (σ' : Kmod) (tp' : Nat) : Prop where
  numbers : ∀ side, (lastNumber (ros2Writes side tp tr)).getD 0 =
    (lastNumber (ros2Writes side tp' tr')).getD 0
  publishers : HasBridge ((σ.topicStructs tp).publishersOf domainId) ∨
    (ForeignBridgePublisher (σ.topicStructs tp) domainId ↔
      ForeignBridgePublisher (σ'.topicStructs tp') domainId)
  subscribers : HasBridge ((σ.topicStructs tp).subscribersOf domainId) ∨
    (ForeignBridgeSubscriber (σ.topicStructs tp) domainId ↔
      ForeignBridgeSubscriber (σ'.topicStructs tp') domainId)

theorem HasBridge.perm {l l' : List (Pid × Bool)} (h : l.Perm l') : HasBridge l ↔ HasBridge l' :=
  exists_congr fun _ => and_congr_left fun _ => h.mem_iff

/-- The two flags that look at the caller's domain only. -/
private theorem own_flags (t : TopicStruct) (domainId : Nat) :
    ((t.subInfoHtable.any fun s => s.domainId = domainId ∧ s.isBridge) = true ↔
      HasBridge (t.subscribersOf domainId)) ∧
    ((t.pubInfoHtable.any fun p => p.domainId = domainId ∧ p.isBridge) = true ↔
      HasBridge (t.publishersOf domainId)) := by
  constructor <;>
  · simp only [List.any_eq_true, decide_eq_true_eq, HasBridge, TopicStruct.subscribersOf,
      TopicStruct.publishersOf, List.mem_map, List.mem_filter]
    constructor
    · rintro ⟨e, he, hdom, hbridge⟩
      exact ⟨_, ⟨e, ⟨he, hdom⟩, rfl⟩, hbridge⟩
    · rintro ⟨_, ⟨e, ⟨he, hdom⟩, rfl⟩, hbridge⟩
      exact ⟨e, he, hdom, hbridge⟩

/-- The two flags that look at all domains: the caller's, and the other ones. -/
private theorem leaky_flags (t : TopicStruct) (domainId : Nat) :
    ((t.subInfoHtable.any fun s => s.isBridge) = true ↔
      HasBridge (t.subscribersOf domainId) ∨ ForeignBridgeSubscriber t domainId) ∧
    ((t.pubInfoHtable.any fun p => p.isBridge) = true ↔
      HasBridge (t.publishersOf domainId) ∨ ForeignBridgePublisher t domainId) := by
  rw [← (own_flags t domainId).1, ← (own_flags t domainId).2]
  simp only [List.any_eq_true, decide_eq_true_eq, ForeignBridgeSubscriber, ForeignBridgePublisher,
    ← exists_or]
  constructor <;>
  · refine exists_congr fun e => ?_
    by_cases hdom : e.domainId = domainId <;> simp [hdom]

/-- So the counts of a domain's endpoints do not depend on their order. -/
private theorem countP_subscribersOf {domainId : Nat}
    (h : (t.subscribersOf domainId).Perm (t'.subscribersOf domainId)) (q : Pid → Prop)
    [DecidablePred q] : (t.subInfoHtable.countP fun s => s.domainId = domainId ∧ q s.pid) =
      t'.subInfoHtable.countP fun s => s.domainId = domainId ∧ q s.pid := by
  have hview : ∀ t : TopicStruct,
      (t.subInfoHtable.countP fun s => s.domainId = domainId ∧ q s.pid) =
        (t.subscribersOf domainId).countP fun e => q e.1 := by
    intro t
    unfold TopicStruct.subscribersOf
    rw [List.countP_map, List.countP_filter]
    refine List.countP_congr fun s _ => ?_
    simp [and_comm]
  rw [hview, hview]
  exact h.countP_eq _

private theorem countP_publishersOf {domainId : Nat}
    (h : (t.publishersOf domainId).Perm (t'.publishersOf domainId)) :
    (t.pubInfoHtable.countP fun p => p.domainId = domainId) =
      t'.pubInfoHtable.countP fun p => p.domainId = domainId := by
  have hview : ∀ t : TopicStruct, (t.pubInfoHtable.countP fun p => p.domainId = domainId) =
      (t.publishersOf domainId).length := by
    intro t
    unfold TopicStruct.publishersOf
    rw [List.length_map, List.countP_eq_length_filter]
  rw [hview, hview]
  exact h.length_eq

/-! ## Two runs -/

/-- What is left to agree on for the counts of subscribers. -/
private theorem sameSubscriberNum_iff {σ σ' : Kmod} {w w' : TopicWrapper}
    (hdom : w'.domainId = w.domainId)
    (hsubs : ((σ.topicStructs w.topic).subscribersOf w.domainId).Perm
      ((σ'.topicStructs w'.topic).subscribersOf w.domainId)) (pid : Pid) :
    SameSubscriberNum (subscriberNumOf σ w pid) (subscriberNumOf σ' w' pid) ↔
      (σ.topicStructs w.topic).ros2SubscriberNum = (σ'.topicStructs w'.topic).ros2SubscriberNum ∧
      ((σ.topicStructs w.topic).pubInfoHtable.any fun p => p.isBridge) =
        (σ'.topicStructs w'.topic).pubInfoHtable.any fun p => p.isBridge := by
  have hother := countP_subscribersOf hsubs (· ≠ pid)
  have hsame := countP_subscribersOf hsubs (· = pid)
  have ha2r := Bool.eq_iff_iff.mpr ((own_flags (σ.topicStructs w.topic) w.domainId).1.trans
    ((HasBridge.perm hsubs).trans (own_flags (σ'.topicStructs w'.topic) w.domainId).1.symm))
  unfold SameSubscriberNum subscriberNumOf
  simp only [hdom]
  rw [hother, hsame, ha2r]
  simp only [SubscriberNum.mk.injEq, true_and]

/-- And for the counts of publishers. -/
private theorem samePublisherNum_iff {σ σ' : Kmod} {w w' : TopicWrapper}
    (hdom : w'.domainId = w.domainId)
    (hpubs : ((σ.topicStructs w.topic).publishersOf w.domainId).Perm
      ((σ'.topicStructs w'.topic).publishersOf w.domainId)) :
    publisherNumOf σ w = publisherNumOf σ' w' ↔
      (σ.topicStructs w.topic).ros2PublisherNum = (σ'.topicStructs w'.topic).ros2PublisherNum ∧
      ((σ.topicStructs w.topic).subInfoHtable.any fun s => s.isBridge) =
        (σ'.topicStructs w'.topic).subInfoHtable.any fun s => s.isBridge := by
  have hnum := countP_publishersOf hpubs
  have hr2a := Bool.eq_iff_iff.mpr ((own_flags (σ.topicStructs w.topic) w.domainId).2.trans
    ((HasBridge.perm hpubs).trans (own_flags (σ'.topicStructs w'.topic) w.domainId).2.symm))
  unfold publisherNumOf
  simp only [hdom]
  rw [hnum, hr2a]
  simp only [PublisherNum.mk.injEq, true_and]

/-- **The counts are separated exactly if nothing leaks.** -/
theorem counts_separated_iff {tr tr' : List Event} {σ σ' : Kmod}
    (hrun : Transition.Run kmod Transition.anyStep tr σ)
    (hrun' : Transition.Run kmod Transition.anyStep tr' σ') {current : Pid} {topicName : Name}
    {ipcNs : IpcNs} {w w' : TopicWrapper}
    (hw : findTopicForCurrent σ current topicName ipcNs = some w)
    (hw' : findTopicForCurrent σ' current topicName ipcNs = some w')
    (hdom : w'.domainId = w.domainId)
    (hagree : AgreesOn w.domainId tr σ w.topic tr' σ' w'.topic) (pid : Pid) :
    Separated σ σ' current topicName ipcNs pid ↔
      Undisturbed w.domainId tr σ w.topic tr' σ' w'.topic := by
  -- a bridge of the own domain hides what the other domain has
  have hpubs : ((σ.topicStructs w.topic).pubInfoHtable.any fun p => p.isBridge) =
      ((σ'.topicStructs w'.topic).pubInfoHtable.any fun p => p.isBridge) ↔
      HasBridge ((σ.topicStructs w.topic).publishersOf w.domainId) ∨
        (ForeignBridgePublisher (σ.topicStructs w.topic) w.domainId ↔
          ForeignBridgePublisher (σ'.topicStructs w'.topic) w.domainId) := by
    rw [Bool.eq_iff_iff, (leaky_flags _ w.domainId).2, (leaky_flags _ w.domainId).2,
      ← HasBridge.perm hagree.pubs]
    tauto
  have hsubs : ((σ.topicStructs w.topic).subInfoHtable.any fun s => s.isBridge) =
      ((σ'.topicStructs w'.topic).subInfoHtable.any fun s => s.isBridge) ↔
      HasBridge ((σ.topicStructs w.topic).subscribersOf w.domainId) ∨
        (ForeignBridgeSubscriber (σ.topicStructs w.topic) w.domainId ↔
          ForeignBridgeSubscriber (σ'.topicStructs w'.topic) w.domainId) := by
    rw [Bool.eq_iff_iff, (leaky_flags _ w.domainId).1, (leaky_flags _ w.domainId).1,
      ← HasBridge.perm hagree.subs]
    tauto
  -- the numbers are what the run has set last
  have hnum := fun side => (run_ros2Num hrun w.topic side).symm
  have hnum' := fun side => (run_ros2Num hrun' w'.topic side).symm
  unfold Separated getSubscriberNum getPublisherNum
  simp only [hw, hw']
  rw [sameSubscriberNum_iff hdom hagree.subs, samePublisherNum_iff hdom hagree.pubs, hpubs, hsubs]
  constructor
  · rintro ⟨⟨hsub, hpub⟩, hpubNum, hsubFlag⟩
    refine ⟨fun side => ?_, hpub, hsubFlag⟩
    rw [hnum, hnum']
    cases side with
    | subscribers => exact hsub
    | publishers => exact hpubNum
  · rintro ⟨hnumbers, hpub, hsub⟩
    have hfield : ∀ side, (σ.topicStructs w.topic).ros2Num side =
        (σ'.topicStructs w'.topic).ros2Num side := by
      intro side
      rw [← hnum, ← hnum']
      exact hnumbers side
    exact ⟨⟨hfield .subscribers, hpub⟩, hfield .publishers, hsub⟩

/-- Two states that differ in a plain subscriber of the other domain. -/
theorem subscriber_is_not_seen :
    let shared := [.addDomainBridge ['/', 't'] ['/', 't'] 1 2 0, .addProcess 1 0 0 1,
      .addProcess 2 0 0 2, .addPublisher ['/', 't'] 0 ⟨[], 1, 1, false, false⟩,
      .addPublisher ['/', 't'] 0 ⟨[], 2, 1, false, false⟩]
    let r := runOf 3 shared
    let r' := runOf 3 (shared ++
      [.addSubscriber ['/', 't'] 0 ⟨[], 2, 1, false, true, false, false, false⟩ 7])
    Separated r.2 r'.2 1 ['/', 't'] 0 1 ∧
      (getSubscriberNum r.2 1 ['/', 't'] 0 1).otherDomainSubscriberNum = 0 ∧
      (getSubscriberNum r'.2 1 ['/', 't'] 0 1).otherDomainSubscriberNum = 1 := by
  refine ⟨?_, by decide, by decide⟩
  let w : TopicWrapper := ⟨0, 1, ['/', 't'], 0⟩
  refine (@counts_separated_iff _ _ _ _
    (run_runOf (by decide) (by decide) (kmod.guarded_anyStep _ _))
    (run_runOf (by decide) (by decide) (kmod.guarded_anyStep _ _)) _ _ _ w w (by decide)
    (by decide) rfl
    ⟨.of_eq (by decide), .of_eq (by decide), fun side => by cases side <;> decide⟩ 1).mpr
    ⟨fun side => by cases side <;> decide, .inr ?_, .inr ?_⟩
  · unfold ForeignBridgePublisher
    decide
  · unfold ForeignBridgeSubscriber
    decide

/-- The topic is shared: a wrapper of another domain leads to it too. -/
def SharedTopic (σ : Kmod) (w : TopicWrapper) : Prop :=
  ∃ w' ∈ σ.topicHashtable, w'.topic = w.topic ∧ w'.domainId ≠ w.domainId

/-- **A bridge flag leaks**: a bridge publisher of domain 2 joins the topic, and a process
of domain 1 is told that a bridge from ROS 2 exists. -/
theorem bridge_flag_leaks :
    ¬ ∀ (tr tr' : List Event) (σ σ' : Kmod), Transition.Run kmod Transition.anyStep tr σ →
      Transition.Run kmod Transition.anyStep tr' σ' →
      ∀ current topicName ipcNs w w', findTopicForCurrent σ current topicName ipcNs = some w →
        findTopicForCurrent σ' current topicName ipcNs = some w' → w'.domainId = w.domainId →
        SharedTopic σ w → SharedTopic σ' w' →
        AgreesOn w.domainId tr σ w.topic tr' σ' w'.topic →
        ∀ pid, Separated σ σ' current topicName ipcNs pid := by
  intro h
  have hrun := run_runOf (n := 3) (by decide) (by decide) (kmod.guarded_anyStep _
    ([.addDomainBridge ['/', 't'] ['/', 't'] 1 2 0, .addProcess 1 0 0 1, .addProcess 2 0 0 2,
      .addPublisher ['/', 't'] 0 ⟨[], 1, 1, false, false⟩,
      .addSubscriber ['/', 't'] 0 ⟨[], 2, 1, false, true, false, false, false⟩ 7].map
        fun call => ⟨.smooth, call⟩))
  have hrun' := run_runOf (n := 3) (by decide) (by decide) (kmod.guarded_anyStep _
    ([.addDomainBridge ['/', 't'] ['/', 't'] 1 2 0, .addProcess 1 0 0 1, .addProcess 2 0 0 2,
      .addPublisher ['/', 't'] 0 ⟨[], 1, 1, false, false⟩,
      .addSubscriber ['/', 't'] 0 ⟨[], 2, 1, false, true, false, false, false⟩ 7,
      .addPublisher ['/', 't'] 0 ⟨[], 2, 1, false, true⟩].map fun call => ⟨.smooth, call⟩))
  have hsame := h _ _ _ _ hrun hrun' 1 ['/', 't'] 0 ⟨0, 1, ['/', 't'], 0⟩ ⟨0, 1, ['/', 't'], 0⟩
    (by decide) (by decide) rfl ⟨⟨0, 2, ['/', 't'], 0⟩, by decide, by decide, by decide⟩
    ⟨⟨0, 2, ['/', 't'], 0⟩, by decide, by decide, by decide⟩
    ⟨.of_eq (by decide), .of_eq (by decide), fun side => by cases side <;> decide⟩ 1
  exact absurd (congrArg SubscriberNum.r2aBridgeExist hsame.1) (by decide)

end Agnocast
