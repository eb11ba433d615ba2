import Agnocast.Store.Moves

/-!
# The store — every step in moves (proof)

`step_moves`: whatever a call does to a well-formed state is one change of the
rules or some moves. One lemma per ioctl, named after it; the exit cleanup is an
induction over the wrappers it visits. From it follow the two rules for
invariants of reachable states.
-/

namespace Agnocast

open Relation

variable {σ : Kmod} {A : Nat → Action → Prop}

/-! ## What a call is entitled to -/

/-- The subscriber that a receive or a take is issued for, with the caller's
wrapper of the topic. -/
def fetchTarget (σ : Kmod) : Call → Option (TopicWrapper × SubscriberInfo)
  | .receiveMsg current topicName ipcNs subscriberId _
  | .takeMsg current topicName ipcNs subscriberId _ _ =>
    match findTopicForCurrent σ current topicName ipcNs with
    | none => none
    | some w => (findSubscriberInfo (σ.topicStructs w.topic) subscriberId).map fun s => (w, s)
  | _ => none

/-- The actions of a call on the topic at `tp`: a publication of a registered
process into its pool, the report to the subscriber that fetches, and the
references that the arguments name. -/
def Permits (σ : Kmod) (call : Call) (tp : Nat) : Action → Prop
  | .publish p addr => ∃ current topicName ipcNs w procInfo,
      call = .publishMsg current topicName ipcNs p.id addr ∧
      findTopicForCurrent σ current topicName ipcNs = some w ∧ w.topic = tp ∧
      findPublisherInfo (σ.topicStructs tp) p.id = some p ∧
      findProcessInfo σ p.pid = some procInfo ∧
      (σ.mem.mempoolEntries procInfo.mempoolEntry).addr ≤ addr ∧
      addr < (σ.mem.mempoolEntries procInfo.mempoolEntry).addr + σ.mem.mempoolSizeBytes
  | .report id => ∃ w s, fetchTarget σ call = some (w, s) ∧ w.topic = tp ∧ s.id = id
  | .release id entryId => ∃ current topicName ipcNs w,
      call = .releaseMessageEntryReference current topicName ipcNs id entryId ∧
      findTopicForCurrent σ current topicName ipcNs = some w ∧ w.topic = tp
  | .leave id => ∃ current topicName ipcNs w,
      call = .removeSubscriber current topicName ipcNs id ∧
      findTopicForCurrent σ current topicName ipcNs = some w ∧ w.topic = tp
  | .exit pid => call = .processExitCleanup pid ∧ (findProcessInfo σ pid).isSome

private theorem world_moves {σ' : Kmod} (h : SameTopics σ σ') : Moves A σ σ' := .single (.world h)

private theorem topic_moves {w : TopicWrapper} (hw : w ∈ σ.topicHashtable) {t' : TopicStruct}
    (h : TopicMoves (A w.topic) σ w.domainId (σ.topicStructs w.topic) t') :
    Moves A σ (σ.setTopic w.topic t') := .single (.topic hw h)

/-! ## Topics -/

/-- **How `add_topic` ends**: with an error and nothing changed, with the existing
wrapper of the cell, or with a new wrapper that joins or creates a topic. -/
theorem addTopic_cases (env : Env) (c : Cell) :
    (∃ e, findTopic σ c = none ∧ addTopic σ env c = (.error e, σ)) ∨
    (∃ w, findTopic σ c = some w ∧ addTopic σ env c = (.ok w, σ)) ∨
    (∃ tp, findTopic σ c = none ∧ findGroupedTopicStruct σ c = some tp ∧
      addTopic σ env c = (.ok (c.wrapper tp), σ.joinTopic (env.place .topic) c tp)) ∨
    (findTopic σ c = none ∧ findGroupedTopicStruct σ c = none ∧
      addTopic σ env c =
        (.ok (c.wrapper σ.nextTopicPtr), σ.createTopic (env.place .topic) c)) := by
  unfold addTopic
  split
  · next w hw => exact .inr (.inl ⟨w, hw, rfl⟩)
  · next hnew =>
    split
    · exact .inl ⟨_, hnew, rfl⟩
    split
    · exact .inl ⟨_, hnew, rfl⟩
    split
    · next tp hg => exact .inr (.inr (.inl ⟨tp, hnew, hg, rfl⟩))
    · next hg =>
      split
      · exact .inl ⟨_, hnew, rfl⟩
      · exact .inr (.inr (.inr ⟨hnew, hg, rfl⟩))

/-- The wrapper that `add_topic` returns stands for the cell. -/
theorem addTopic_moves (env : Env) (c : Cell) :
    Moves A σ (addTopic σ env c).2 ∧ ∀ w, (addTopic σ env c).1 = .ok w →
      w ∈ (addTopic σ env c).2.topicHashtable ∧ w.cell = c := by
  rcases addTopic_cases (σ := σ) env c with ⟨e, _, heq⟩ | ⟨w, hw, heq⟩ | ⟨tp, hnew, hg, heq⟩ |
    ⟨hnew, hg, heq⟩ <;> rw [heq]
  · exact ⟨.refl, fun w h => by cases h⟩
  · refine ⟨.refl, fun w' h => ?_⟩
    cases h
    exact findTopic_mem hw
  · refine ⟨.single (.join _ hnew hg), fun w' h => ?_⟩
    cases h
    exact ⟨HTable.mem_hashAdd.mpr (.inl rfl), rfl⟩
  · refine ⟨.single (.create _ hnew hg), fun w' h => ?_⟩
    cases h
    exact ⟨HTable.mem_hashAdd.mpr (.inl rfl), rfl⟩

private theorem releaseIfEmpty_moves {w : TopicWrapper} (hw : w ∈ σ.topicHashtable) :
    Moves A σ (releaseIfEmpty σ w) := by
  unfold releaseIfEmpty
  split
  · exact .refl
  · next hempty => exact .single (.release hw (by simpa using hempty))

theorem findTopicForCurrent_mem {current : Pid} {topicName : Name} {ipcNs : IpcNs}
    {w : TopicWrapper} (h : findTopicForCurrent σ current topicName ipcNs = some w) :
    w ∈ σ.topicHashtable ∧ w.domainId = getProcessDomainId σ current := by
  obtain ⟨hw, hc⟩ := findTopic_mem h
  exact ⟨hw, congrArg Cell.domainId hc⟩

/-! ## Endpoints -/

/-- **How ADD_SUBSCRIBER ends**: without a trace because the eventfd or the topic is
missing, or with whatever the insertion into the topic answers. -/
theorem addSubscriber_cases (env : Env) (topicName : Name) (ipcNs : IpcNs) (args : SubscriberArgs)
    (eventfd : Int) :
    ((∃ e, addSubscriber σ env topicName ipcNs args eventfd = (.error e, σ)) ∧
      ((args.isTakeSub = false ∧ ∃ e, env.eventfdGet eventfd = .error e) ∨
        ∃ e, addTopic σ env ⟨topicName, ipcNs, getProcessDomainId σ args.pid⟩ = (.error e, σ))) ∨
    (∃ ctx w σ₁, (ctx = none ↔ args.isTakeSub = true) ∧
      (args.isTakeSub = false → ∃ fd, env.eventfdGet eventfd = .ok fd) ∧
      addTopic σ env ⟨topicName, ipcNs, getProcessDomainId σ args.pid⟩ = (.ok w, σ₁) ∧
      addSubscriber σ env topicName ipcNs args eventfd =
        ((insertSubscriberInfo σ₁ env (σ₁.topicStructs w.topic) w.domainId args ctx).1,
          σ₁.setTopic w.topic
            (insertSubscriberInfo σ₁ env (σ₁.topicStructs w.topic) w.domainId args ctx).2)) := by
  unfold addSubscriber
  split
  -- no eventfd
  · next e hctx =>
    left
    split at hctx
    · cases hctx
    · next htake =>
      cases hfd : env.eventfdGet eventfd with
      | error e => exact ⟨⟨_, rfl⟩, .inl ⟨by simpa using htake, e, rfl⟩⟩
      | ok fd => rw [hfd] at hctx; cases hctx
  · next ctx hctx =>
    have htake : (ctx = none ↔ args.isTakeSub = true) ∧
        (args.isTakeSub = false → ∃ fd, env.eventfdGet eventfd = .ok fd) := by
      split at hctx
      · next htake => cases hctx; simp [htake]
      · next htake =>
        cases hfd : env.eventfdGet eventfd with
        | error e => rw [hfd] at hctx; cases hctx
        | ok fd => rw [hfd] at hctx; cases hctx; simp [htake]
    split
    -- no topic
    · next e σ₁ heq =>
      rcases addTopic_cases (σ := σ) env ⟨topicName, ipcNs, getProcessDomainId σ args.pid⟩ with
        ⟨e', _, hadd⟩ | ⟨w, _, hadd⟩ | ⟨tp, _, _, hadd⟩ | ⟨_, _, hadd⟩ <;>
        rw [hadd] at heq <;> cases heq
      exact .inl ⟨⟨_, rfl⟩, .inr ⟨_, hadd⟩⟩
    · next w σ₁ heq => exact .inr ⟨ctx, w, σ₁, htake.1, htake.2, heq, rfl⟩

private theorem addSubscriber_moves (env : Env) (topicName : Name) (ipcNs : IpcNs)
    (args : SubscriberArgs) (eventfd : Int) :
    Moves A σ (addSubscriber σ env topicName ipcNs args eventfd).2 := by
  rcases addSubscriber_cases (σ := σ) env topicName ipcNs args eventfd with
    ⟨⟨e, heq⟩, _⟩ | ⟨ctx, w, σ₁, htake, _, hadd, heq⟩
  · rw [heq]
  · rw [heq]
    have hmoves := addTopic_moves (σ := σ) (A := A) env
      ⟨topicName, ipcNs, getProcessDomainId σ args.pid⟩
    rw [hadd] at hmoves
    exact hmoves.1.trans
      (topic_moves (hmoves.2 w rfl).1 (.single (.insertSubscriber env args ctx htake)))

/-- **How ADD_PUBLISHER ends**: without a trace because the topic is missing, or
with whatever the insertion into the topic answers. -/
theorem addPublisher_cases (env : Env) (topicName : Name) (ipcNs : IpcNs) (args : PublisherArgs) :
    (∃ e, addPublisher σ env topicName ipcNs args = (.error e, σ) ∧
      addTopic σ env ⟨topicName, ipcNs, getProcessDomainId σ args.pid⟩ = (.error e, σ)) ∨
    (∃ w σ₁, addTopic σ env ⟨topicName, ipcNs, getProcessDomainId σ args.pid⟩ = (.ok w, σ₁) ∧
      ((∃ e t, insertPublisherInfo σ₁ env (σ₁.topicStructs w.topic) w.domainId args =
          (.error e, t) ∧
        addPublisher σ env topicName ipcNs args = (.error e, σ₁.setTopic w.topic t)) ∨
      (∃ id t, insertPublisherInfo σ₁ env (σ₁.topicStructs w.topic) w.domainId args =
          (.ok id, t) ∧
        addPublisher σ env topicName ipcNs args =
          (.ok id, σ₁.setTopic w.topic t.requestMmapUpdate)))) := by
  unfold addPublisher
  split
  · next e σ₁ heq =>
    rcases addTopic_cases (σ := σ) env ⟨topicName, ipcNs, getProcessDomainId σ args.pid⟩ with
      ⟨e', _, hadd⟩ | ⟨w, _, hadd⟩ | ⟨tp, _, _, hadd⟩ | ⟨_, _, hadd⟩ <;>
      rw [hadd] at heq <;> cases heq
    exact .inl ⟨_, rfl, hadd⟩
  · next w σ₁ heq =>
    refine .inr ⟨w, σ₁, heq, ?_⟩
    split
    · next e t hret => exact .inl ⟨e, t, hret, rfl⟩
    · next id t hret => exact .inr ⟨id, t, hret, rfl⟩

private theorem addPublisher_moves (env : Env) (topicName : Name) (ipcNs : IpcNs)
    (args : PublisherArgs) : Moves A σ (addPublisher σ env topicName ipcNs args).2 := by
  have hmoves := addTopic_moves (σ := σ) (A := A) env
    ⟨topicName, ipcNs, getProcessDomainId σ args.pid⟩
  rcases addPublisher_cases (σ := σ) env topicName ipcNs args with
    ⟨e, heq, _⟩ | ⟨w, σ₁, hadd, ⟨e, t, hret, heq⟩ | ⟨id, t, hret, heq⟩⟩
  · rw [heq]
  all_goals
    rw [heq]
    rw [hadd] at hmoves
    have hinsert : TopicMove (A w.topic) σ₁ w.domainId (σ₁.topicStructs w.topic) _ :=
      .insertPublisher env args
    rw [hret] at hinsert
    exact hmoves.1.trans (topic_moves (hmoves.2 w rfl).1 (.single hinsert))

private theorem removeSubscriber_moves (h : σ.WellFormed) (current : Pid) (topicName : Name)
    (ipcNs : IpcNs) (subscriberId : Int)
    (hA : ∀ w, findTopicForCurrent σ current topicName ipcNs = some w →
      A w.topic (.leave subscriberId)) :
    Moves A σ (removeSubscriber σ current topicName ipcNs subscriberId).2 := by
  unfold removeSubscriber
  split
  · exact .refl
  · next w hw =>
    have hA := hA w hw
    obtain ⟨hw, _⟩ := findTopicForCurrent_mem hw
    simp only
    split
    · exact .refl
    · next s hs =>
      obtain ⟨hmem, rfl⟩ := HTable.mem_of_lookup hs
      rw [if_neg (not_not.mpr ((h.store w.topic).sub_inRange hmem))]
      have hmove : TopicMove (A w.topic) σ w.domainId (σ.topicStructs w.topic) _ :=
        .removeSubscriber hmem hA
      exact (topic_moves hw (.single hmove)).trans (releaseIfEmpty_moves hw)

private theorem removePublisher_moves (current : Pid) (topicName : Name) (ipcNs : IpcNs)
    (publisherId : Int) : Moves A σ (removePublisher σ current topicName ipcNs publisherId).2 := by
  unfold removePublisher
  split
  · exact .refl
  · next w hw =>
    obtain ⟨hw, _⟩ := findTopicForCurrent_mem hw
    simp only
    split
    · exact .refl
    · next p hp =>
      exact (topic_moves hw (.single (.removePublisher (HTable.mem_of_lookup hp).1))).trans
        (releaseIfEmpty_moves hw)

/-! ## Messages -/

/-- **How PUBLISH_MSG ends**: refused with nothing changed, or carried out for a
publisher of a registered process, with an address inside the process's pool. -/
theorem publishMsg_cases (env : Env) (current : Pid) (topicName : Name) (ipcNs : IpcNs)
    (publisherId : Int) (addr : Nat) :
    (∃ e, publishMsg σ env current topicName ipcNs publisherId addr = (.error e, σ)) ∨
    (∃ w p procInfo, findTopicForCurrent σ current topicName ipcNs = some w ∧
      findPublisherInfo (σ.topicStructs w.topic) publisherId = some p ∧
      findProcessInfo σ p.pid = some procInfo ∧
      (σ.mem.mempoolEntries procInfo.mempoolEntry).addr ≤ addr ∧
      addr < (σ.mem.mempoolEntries procInfo.mempoolEntry).addr + σ.mem.mempoolSizeBytes ∧
      publishMsg σ env current topicName ipcNs publisherId addr =
        ((publishMsgCore env (σ.topicStructs w.topic) p addr).1,
          σ.setTopic w.topic (publishMsgCore env (σ.topicStructs w.topic) p addr).2)) := by
  unfold publishMsg
  split
  · exact .inl ⟨_, rfl⟩
  · next w hw =>
    simp only
    split
    · exact .inl ⟨_, rfl⟩
    · next p hp =>
      split
      · exact .inl ⟨_, rfl⟩
      · next procInfo hproc =>
        split
        · exact .inl ⟨_, rfl⟩
        · next hrange =>
          rw [not_or, not_lt, not_le] at hrange
          exact .inr ⟨w, p, procInfo, hw, hp, hproc, hrange.1, hrange.2, rfl⟩

private theorem publishMsg_moves (env : Env) (current : Pid) (topicName : Name) (ipcNs : IpcNs)
    (publisherId : Int) (addr : Nat) :
    Moves (Permits σ (.publishMsg current topicName ipcNs publisherId addr)) σ
      (publishMsg σ env current topicName ipcNs publisherId addr).2 := by
  rcases publishMsg_cases (σ := σ) env current topicName ipcNs publisherId addr with
    ⟨e, heq⟩ | ⟨w, p, procInfo, hw, hp, hproc, hlo, hhi, heq⟩
  · rw [heq]
  · rw [heq]
    obtain ⟨hmem, rfl⟩ := HTable.mem_of_lookup hp
    exact topic_moves (findTopicForCurrent_mem hw).1 (.single (.publish env hmem addr
      ⟨current, topicName, ipcNs, w, procInfo, rfl, hw, rfl, hp, hproc, hlo, hhi⟩))

/-- Reporting the pools at most clears the flag of the subscriber. -/
private theorem reportPublisherShm_moves {A : Action → Prop} (env : Env) (w : TopicWrapper)
    (t : TopicStruct) (s : SubscriberInfo) (size : Nat) (domainId : Nat) (hA : A (.report s.id)) :
    TopicMoves A σ domainId t (reportPublisherShm σ env w t s size).2.1 := by
  unfold reportPublisherShm
  split
  · exact .refl
  · split
    · exact .refl
    · exact .single (.mapped s.id hA)

/-- **How RECEIVE_MSG and TAKE_MSG end** when their core cannot fail: refused with
nothing changed, or the core is carried out and the pools are reported. -/
theorem fetchMsg_cases {α : Type} (env : Env) (current : Pid) (topicName : Name) (ipcNs : IpcNs)
    (subscriberId : Int) (size : Nat)
    (core : TopicStruct → SubscriberInfo → Except Errno α × TopicStruct)
    (hcore : ∀ w ∈ σ.topicHashtable, ∀ s ∈ (σ.topicStructs w.topic).subInfoHtable,
      s.id = subscriberId → ∃ a t, core (σ.topicStructs w.topic) s = (.ok a, t)) :
    (fetchMsg σ env current topicName ipcNs subscriberId size core = (.error .EINVAL, σ) ∧
      ∀ w, findTopicForCurrent σ current topicName ipcNs = some w →
        findSubscriberInfo (σ.topicStructs w.topic) subscriberId = none) ∨
    (∃ w s a t, findTopicForCurrent σ current topicName ipcNs = some w ∧
      findSubscriberInfo (σ.topicStructs w.topic) subscriberId = some s ∧
      core (σ.topicStructs w.topic) s = (.ok a, t) ∧
      fetchMsg σ env current topicName ipcNs subscriberId size core =
        let r := reportPublisherShm σ env w t s size
        (r.1.map fun infos => (a, infos), (σ.setTopic w.topic r.2.1).setMem r.2.2)) := by
  unfold fetchMsg
  split
  · next hw => exact .inl ⟨rfl, fun w hw' => by rw [hw] at hw'; cases hw'⟩
  · next w hw =>
    simp only
    split
    · next hs =>
      refine .inl ⟨rfl, fun w' hw' => ?_⟩
      rw [hw] at hw'
      cases hw'
      exact hs
    · next s hs =>
      obtain ⟨hmem, hid⟩ := HTable.mem_of_lookup hs
      obtain ⟨a, t, hret⟩ := hcore w (findTopicForCurrent_mem hw).1 s hmem hid
      exact .inr ⟨w, s, a, t, hw, hs, hret, by rw [hret]⟩

/-- On a consistent topic the core of RECEIVE_MSG cannot fail, nor that of TAKE_MSG. -/
theorem receiveMsgCore_ok (h : σ.WellFormed) {subscriberId : Int} :
    ∀ w ∈ σ.topicHashtable, ∀ s ∈ (σ.topicStructs w.topic).subInfoHtable, s.id = subscriberId →
      ∃ a t, receiveMsgCore σ (σ.topicStructs w.topic) s subscriberId = (.ok a, t) := by
  rintro w _ s hs rfl
  exact ⟨_, _, receiveMsgCore_eq (h.store w.topic) hs⟩

theorem takeMsgCore_ok (h : σ.WellFormed) {subscriberId : Int} (allow : Bool) :
    ∀ w ∈ σ.topicHashtable, ∀ s ∈ (σ.topicStructs w.topic).subInfoHtable, s.id = subscriberId →
      ∃ a t, takeMsgCore σ (σ.topicStructs w.topic) s subscriberId allow = (.ok a, t) := by
  rintro w _ s hs rfl
  rw [takeMsgCore_eq (h.store w.topic) hs]
  cases (deliveryWindow σ (σ.topicStructs w.topic) s (takeFrom s allow)).head? <;>
    exact ⟨_, _, rfl⟩

theorem fetchMsg_moves {α : Type} (env : Env) (current : Pid) (topicName : Name) (ipcNs : IpcNs)
    (subscriberId : Int) (size : Nat)
    (core : TopicStruct → SubscriberInfo → Except Errno α × TopicStruct)
    (hcore : ∀ w ∈ σ.topicHashtable, ∀ s ∈ (σ.topicStructs w.topic).subInfoHtable,
      s.id = subscriberId → ∃ a t, core (σ.topicStructs w.topic) s = (.ok a, t))
    (hmove : ∀ (A : Action → Prop) domainId t s, s ∈ t.subInfoHtable → s.id = subscriberId →
      TopicMove A σ domainId t (core t s).2)
    (hA : ∀ w s, findTopicForCurrent σ current topicName ipcNs = some w →
      findSubscriberInfo (σ.topicStructs w.topic) subscriberId = some s →
        A w.topic (.report subscriberId)) :
    Moves A σ (fetchMsg σ env current topicName ipcNs subscriberId size core).2 := by
  rcases fetchMsg_cases env current topicName ipcNs subscriberId size core hcore with
    ⟨heq, _⟩ | ⟨w, s, a, t, hw, hs, hret, heq⟩
  · rw [heq]
  · rw [heq]
    have hA := hA w s hw hs
    obtain ⟨hs, hid⟩ := HTable.mem_of_lookup hs
    have hmove := hmove (A w.topic) w.domainId _ s hs hid
    rw [hret] at hmove
    have hreport := reportPublisherShm_moves (σ := σ) env w t s size w.domainId (hid ▸ hA)
    exact .tail (topic_moves (findTopicForCurrent_mem hw).1 (.head hmove hreport))
      (.world ⟨rfl, rfl, rfl, rfl, rfl, rfl⟩)

private theorem releaseMessageEntryReference_moves (current : Pid) (topicName : Name)
    (ipcNs : IpcNs) (pubsubId entryId : Int)
    (hA : ∀ w, findTopicForCurrent σ current topicName ipcNs = some w →
      A w.topic (.release pubsubId entryId)) :
    Moves A σ (releaseMessageEntryReference σ current topicName ipcNs pubsubId entryId).2 := by
  unfold releaseMessageEntryReference
  split
  · exact .refl
  · next w hw =>
    have hA := hA w hw
    obtain ⟨hw, _⟩ := findTopicForCurrent_mem hw
    simp only
    split
    · exact .refl
    · next en hen =>
      obtain ⟨hmem, rfl⟩ := HTable.mem_of_lookup hen
      split
      · exact .refl
      split
      · exact .refl
      · exact topic_moves hw (.single (.clearBit hmem pubsubId hA))

private theorem setRos2Num_moves (current : Pid) (topicName : Name) (ipcNs : IpcNs)
    (set : TopicStruct → TopicStruct)
    (hset : ∀ (A : Action → Prop) domainId t, TopicMove A σ domainId t (set t)) :
    Moves A σ (setRos2Num σ current topicName ipcNs set).2 := by
  unfold setRos2Num
  split
  · exact .refl
  · next w hw => exact topic_moves (findTopicForCurrent_mem hw).1 (.single (hset _ _ _))

/-! ## Processes -/

theorem addProcess_sameTopics (env : Env) (pid : Pid) (ipcNs : IpcNs) (role domainId : Nat) :
    SameTopics σ (addProcess σ env pid ipcNs role domainId).2 := by
  have hrefl : SameTopics σ σ := ⟨rfl, rfl, rfl, rfl, rfl, rfl⟩
  unfold addProcess
  split
  · exact hrefl
  split
  · exact hrefl
  split
  · exact hrefl
  simp only
  split
  · exact hrefl
  split
  · exact hrefl
  split
  · exact hrefl
  split <;> exact ⟨rfl, rfl, rfl, rfl, rfl, rfl⟩

/-- Visiting one wrapper keeps every other wrapper. -/
theorem mem_cleanupTopic {pid : Pid} {w w' : TopicWrapper} (hw' : w' ∈ σ.topicHashtable)
    (hne : w'.cell ≠ w.cell) : w' ∈ (cleanupTopic pid σ w).topicHashtable := by
  unfold cleanupTopic releaseIfEmpty
  simp only
  split
  · exact hw'
  · exact HTable.mem_hashDel.mpr ⟨hw', hne⟩

theorem cleanupTopic_moves (h : σ.WellFormed) (pid : Pid) {w : TopicWrapper}
    (hw : w ∈ σ.topicHashtable) (hA : A w.topic (.exit pid)) : Moves A σ (cleanupTopic pid σ w) :=
  (topic_moves hw (.tail (preHandlerPublisherExit_moves (h.store w.topic) pid)
    (.subscriberExit pid hA))).trans (releaseIfEmpty_moves hw)

/-- The visit of all wrappers, one after the other. -/
private theorem cleanupTopics_moves (pid : Pid) (hA : ∀ tp, A tp (.exit pid))
    (l : List TopicWrapper) : ∀ σ : Kmod, σ.WellFormed → (l.map TopicWrapper.cell).Nodup →
      (∀ w ∈ l, w ∈ σ.topicHashtable) → Moves A σ (l.foldl (cleanupTopic pid) σ) := by
  induction l with
  | nil => exact fun σ _ _ _ => .refl
  | cons w l ih =>
    intro σ h hnd hmem
    obtain ⟨hw, hnd⟩ := List.nodup_cons.mp hnd
    have hmove := cleanupTopic_moves h pid (hmem w List.mem_cons_self) (hA w.topic)
    refine hmove.trans (ih _ (h.moves hmove) hnd fun w' hw' => ?_)
    exact mem_cleanupTopic (hmem w' (List.mem_cons_of_mem _ hw'))
      fun hc => hw (hc ▸ List.mem_map_of_mem hw')

/-- What the exit cleanup does before it visits the topics. -/
def exitProcess (σ : Kmod) (pid : Pid) (procInfo : ProcessInfo) : Kmod :=
  let σ := markExited (removeDiscoveryAgentByPid σ pid) procInfo
  σ.setMem (freeMemory pid σ.mem)

/-- The exit cleanup of a registered process, and of any other. -/
theorem processExitCleanup_eq (pid : Pid) :
    processExitCleanup σ pid =
      match findProcessInfo σ pid with
      | none => removeDiscoveryAgentByPid σ pid
      | some procInfo =>
        let σ₁ := exitProcess σ pid procInfo
        let σ₂ := σ₁.topicHashtable.foldl (cleanupTopic pid) σ₁
        { σ₂ with bridgeHtable := σ₂.bridgeHtable.filter fun b => b.pid ≠ pid } := rfl

theorem processGone_iff {pid : Pid} : processGone σ pid = true ↔
    ∀ procInfo, findProcessInfo σ pid = some procInfo → procInfo.exited = true := by
  unfold processGone
  cases findProcessInfo σ pid <;> simp

/-- A process that was marked exited, or taken out of the table, is gone. -/
theorem processGone_exitProcess {pid : Pid} {procInfo : ProcessInfo}
    (hproc : findProcessInfo σ pid = some procInfo) :
    processGone (exitProcess σ pid procInfo) pid = true := by
  obtain ⟨_, rfl⟩ := HTable.mem_of_lookup hproc
  rw [processGone_iff]
  unfold exitProcess markExited findProcessInfo
  intro p hp
  split at hp
  · obtain ⟨hmem, hid⟩ := HTable.mem_of_lookup hp
    exact absurd hid (HTable.mem_hashDel.mp hmem).2
  · obtain ⟨hmem, hid⟩ := HTable.mem_of_lookup hp
    obtain ⟨q, _, rfl⟩ := HTable.mem_modify.mp hmem
    split at hid
    · next hq => rw [if_pos hq]
    · next hq => exact absurd hid hq

/-- **Who is gone after the exit cleanup**: the process itself, and whoever was before. -/
theorem processGone_exitProcess_iff {pid q : Pid} {procInfo : ProcessInfo}
    (hproc : findProcessInfo σ pid = some procInfo) :
    processGone (exitProcess σ pid procInfo) q = true ↔ q = pid ∨ processGone σ q = true := by
  by_cases hq : q = pid
  · rw [hq]
    exact ⟨fun _ => .inl rfl, fun _ => processGone_exitProcess hproc⟩
  have hpid : procInfo.globalPid = pid := (HTable.mem_of_lookup hproc).2
  have hfind : findProcessInfo (exitProcess σ pid procInfo) q = findProcessInfo σ q := by
    unfold exitProcess markExited findProcessInfo
    simp only [hpid]
    split
    · exact HTable.lookup_hashDel_of_ne hq σ.procInfoHtable
    · refine (HTable.lookup_modify ?_ _).trans (if_neg hq)
      exact fun _ => rfl
  unfold processGone
  rw [hfind]
  exact ⟨.inr, fun h => h.resolve_left hq⟩

theorem exitProcess_sameTopics (pid : Pid) (procInfo : ProcessInfo) :
    SameTopics σ (exitProcess σ pid procInfo) := by
  unfold exitProcess markExited
  simp only
  split <;> exact ⟨rfl, rfl, rfl, rfl, rfl, rfl⟩

private theorem processExitCleanup_moves (h : σ.WellFormed) (pid : Pid)
    (hA : (findProcessInfo σ pid).isSome → ∀ tp, A tp (.exit pid)) :
    Moves A σ (processExitCleanup σ pid) := by
  rw [processExitCleanup_eq]
  split
  · exact world_moves ⟨rfl, rfl, rfl, rfl, rfl, rfl⟩
  · next procInfo hproc =>
    have hexit := world_moves (A := A) (exitProcess_sameTopics (σ := σ) pid procInfo)
    have h₁ := h.moves hexit
    exact (hexit.trans (cleanupTopics_moves pid (hA (by rw [hproc]; rfl)) _ _ h₁ h₁.cells fun _ hw => hw)).tail
      (.world ⟨rfl, rfl, rfl, rfl, rfl, rfl⟩)

theorem commitExitProcess_sameTopics (ipcNs : IpcNs) (globalPid callerPid : Pid) :
    SameTopics σ (commitExitProcess σ ipcNs globalPid callerPid).2 := by
  have hdrop : SameTopics σ (if globalPid ≥ 0 then σ.dropProcess globalPid else σ) := by
    split <;> exact ⟨rfl, rfl, rfl, rfl, rfl, rfl⟩
  unfold commitExitProcess
  simp only
  generalize (if globalPid ≥ 0 then σ.dropProcess globalPid else σ) = σ₁ at hdrop ⊢
  split
  · unfold deregisterDaemon
    split
    · exact hdrop
    · split
      · exact ⟨hdrop.1, hdrop.2, hdrop.3, hdrop.4, hdrop.5, hdrop.6⟩
      · exact hdrop
  · exact hdrop

/-! ## Bridges and discovery agents -/

theorem addBridge_sameTopics (env : Env) (topicName : Name) (pid : Pid) (isR2a : Bool)
    (ipcNs : IpcNs) : SameTopics σ (addBridge σ env topicName pid isR2a ipcNs).2 := by
  unfold addBridge
  split
  · split <;> exact ⟨rfl, rfl, rfl, rfl, rfl, rfl⟩
  · split
    · exact ⟨rfl, rfl, rfl, rfl, rfl, rfl⟩
    · split <;> exact ⟨rfl, rfl, rfl, rfl, rfl, rfl⟩

theorem removeBridge_sameTopics (topicName : Name) (pid : Pid) (isR2a : Bool)
    (ipcNs : IpcNs) : SameTopics σ (removeBridge σ topicName pid isR2a ipcNs).2 := by
  unfold removeBridge
  split
  · exact ⟨rfl, rfl, rfl, rfl, rfl, rfl⟩
  · split <;> exact ⟨rfl, rfl, rfl, rfl, rfl, rfl⟩

theorem checkAndRequestBridgeShutdown_sameTopics (pid : Pid) (ipcNs : IpcNs) :
    SameTopics σ (checkAndRequestBridgeShutdown σ pid ipcNs).2 := by
  unfold checkAndRequestBridgeShutdown
  split <;> exact ⟨rfl, rfl, rfl, rfl, rfl, rfl⟩

theorem addDiscoveryAgent_sameTopics (env : Env) (pid : Pid) (ipcNs : IpcNs)
    (domainId : Nat) : SameTopics σ (addDiscoveryAgent σ env pid ipcNs domainId).2 := by
  unfold addDiscoveryAgent
  split
  · exact ⟨rfl, rfl, rfl, rfl, rfl, rfl⟩
  · split <;> exact ⟨rfl, rfl, rfl, rfl, rfl, rfl⟩

theorem discoveryAgentShouldExit_sameTopics (pid : Pid) (ipcNs : IpcNs) (domainId : Nat)
    (commit : Bool) : SameTopics σ (discoveryAgentShouldExit σ pid ipcNs domainId commit).2 := by
  unfold discoveryAgentShouldExit
  simp only
  split <;> exact ⟨rfl, rfl, rfl, rfl, rfl, rfl⟩

/-! ## Every call -/

theorem fetchTarget_receiveMsg {current : Pid} {topicName : Name} {ipcNs : IpcNs} {id : Int}
    {size : Nat} {w : TopicWrapper} {s : SubscriberInfo}
    (hw : findTopicForCurrent σ current topicName ipcNs = some w)
    (hs : findSubscriberInfo (σ.topicStructs w.topic) id = some s) :
    fetchTarget σ (.receiveMsg current topicName ipcNs id size) = some (w, s) := by
  simp only [fetchTarget, hw, hs, Option.map_some]

theorem fetchTarget_takeMsg {current : Pid} {topicName : Name} {ipcNs : IpcNs} {id : Int}
    {allow : Bool} {size : Nat} {w : TopicWrapper} {s : SubscriberInfo}
    (hw : findTopicForCurrent σ current topicName ipcNs = some w)
    (hs : findSubscriberInfo (σ.topicStructs w.topic) id = some s) :
    fetchTarget σ (.takeMsg current topicName ipcNs id allow size) = some (w, s) := by
  simp only [fetchTarget, hw, hs, Option.map_some]

/-- **Every step** is a change of the rules or made of moves that the call is
entitled to. -/
theorem step_moves (h : σ.WellFormed) (i : Input) :
    RuleChange σ (step σ i).2 ∨ Moves (Permits σ i.call) σ (step σ i).2 := by
  obtain ⟨env, call⟩ := i
  cases call with
  | addDomainBridge nameFrom nameTo fromDomain toDomain ipcNs =>
    exact .inl (addDomainBridge_change env nameFrom nameTo fromDomain toDomain ipcNs)
  | addDomainBridgePrefix pre fromDomain toDomain ipcNs =>
    exact .inl (addDomainBridgePrefix_change env pre fromDomain toDomain ipcNs)
  -- calls on the world beside the topics move nothing in a topic
  | addProcess pid ipcNs role domainId =>
    exact .inr (world_moves (addProcess_sameTopics env pid ipcNs role domainId))
  | addSubscriber topicName ipcNs args eventfd =>
    exact .inr (addSubscriber_moves env topicName ipcNs args eventfd)
  | addPublisher topicName ipcNs args => exact .inr (addPublisher_moves env topicName ipcNs args)
  | publishMsg current topicName ipcNs publisherId addr =>
    exact .inr (publishMsg_moves env current topicName ipcNs publisherId addr)
  | receiveMsg current topicName ipcNs subscriberId size =>
    refine .inr (fetchMsg_moves env current topicName ipcNs subscriberId size _
      (receiveMsgCore_ok h) ?_ fun w s hw hs => ?_)
    · rintro A domainId t s hs rfl
      exact .receive hs
    · exact ⟨w, s, fetchTarget_receiveMsg hw hs, rfl, (HTable.mem_of_lookup hs).2⟩
  | takeMsg current topicName ipcNs subscriberId allow size =>
    refine .inr (fetchMsg_moves env current topicName ipcNs subscriberId size _
      (takeMsgCore_ok h allow) ?_ fun w s hw hs => ?_)
    · rintro A domainId t s hs rfl
      exact .take hs allow
    · exact ⟨w, s, fetchTarget_takeMsg hw hs, rfl, (HTable.mem_of_lookup hs).2⟩
  | releaseMessageEntryReference current topicName ipcNs pubsubId entryId =>
    exact .inr (releaseMessageEntryReference_moves current topicName ipcNs pubsubId entryId
      fun w hw => ⟨current, topicName, ipcNs, w, rfl, hw, rfl⟩)
  | removeSubscriber current topicName ipcNs subscriberId =>
    exact .inr (removeSubscriber_moves h current topicName ipcNs subscriberId
      fun w hw => ⟨current, topicName, ipcNs, w, rfl, hw, rfl⟩)
  | removePublisher current topicName ipcNs publisherId =>
    exact .inr (removePublisher_moves current topicName ipcNs publisherId)
  | setRos2SubscriberNum current topicName ipcNs count =>
    exact .inr (setRos2Num_moves current topicName ipcNs _
      fun _ _ t => .ros2Num count t.ros2PublisherNum)
  | setRos2PublisherNum current topicName ipcNs count =>
    exact .inr (setRos2Num_moves current topicName ipcNs _
      fun _ _ t => .ros2Num t.ros2SubscriberNum count)
  | processExitCleanup pid =>
    exact .inr (processExitCleanup_moves h pid fun hsome _ => ⟨rfl, hsome⟩)
  | getExitProcess ipcNs => exact .inr .refl
  | commitExitProcess ipcNs globalPid callerPid =>
    exact .inr (world_moves (commitExitProcess_sameTopics ipcNs globalPid callerPid))
  | addBridge topicName pid isR2a ipcNs =>
    exact .inr (world_moves (addBridge_sameTopics env topicName pid isR2a ipcNs))
  | removeBridge topicName pid isR2a ipcNs =>
    exact .inr (world_moves (removeBridge_sameTopics topicName pid isR2a ipcNs))
  | notifyBridgeShutdown pid => exact .inr (world_moves ⟨rfl, rfl, rfl, rfl, rfl, rfl⟩)
  | checkAndRequestBridgeShutdown pid ipcNs =>
    exact .inr (world_moves (checkAndRequestBridgeShutdown_sameTopics pid ipcNs))
  | addDiscoveryAgent pid ipcNs domainId =>
    exact .inr (world_moves (addDiscoveryAgent_sameTopics env pid ipcNs domainId))
  | discoveryAgentShouldExit pid ipcNs domainId commit =>
    exact .inr (world_moves (discoveryAgentShouldExit_sameTopics pid ipcNs domainId commit))

/-! ## Reachable states -/

/-- The states the module can reach from module load by any calls. -/
abbrev Reachable (σ : Kmod) : Prop := Transition.Reachable kmod σ

theorem Kmod.WellFormed.step (h : σ.WellFormed) (i : Input) : (step σ i).2.WellFormed := by
  rcases step_moves h i with hr | hm
  · exact h.ruleChange hr
  · exact h.moves hm

theorem Reachable.wellFormed (h : Reachable σ) : σ.WellFormed := by
  refine Transition.Reachable.invariant (T := kmod) ?_ (fun σ i _ hσ => hσ.step i) h
  rintro _ ⟨_, _, _, m, _, rfl⟩
  exact .loaded m

/-- **The rule for invariants of topics, wrappers and rules**: what holds after
module load and is kept by every move and every change of the rules holds in every
reachable state. -/
theorem Reachable.of_moves {P : Kmod → Prop} (hinit : ∀ m, P (.loaded m))
    (hmove : ∀ A σ σ', σ.WellFormed → P σ → Move A σ σ' → P σ')
    (hrules : ∀ σ σ', σ.WellFormed → P σ → RuleChange σ σ' → P σ') (h : Reachable σ) : P σ := by
  refine Transition.Reachable.invariant (T := kmod) ?_ (fun σ i hr hσ => ?_) h
  · rintro _ ⟨_, _, _, m, _, rfl⟩
    exact hinit m
  · have hwf := Reachable.wellFormed hr
    rcases step_moves hwf i with hr | hm
    · exact hrules _ _ hwf hσ hr
    · have hmoves : ∀ σ', Moves (Permits σ i.call) σ σ' → σ'.WellFormed ∧ P σ' := by
        intro σ' hm
        induction hm with
        | refl => exact ⟨hwf, hσ⟩
        | tail _ hm ih => exact ⟨ih.1.move hm, hmove _ _ _ ih.1 ih.2 hm⟩
      exact (hmoves _ hm).2

/-- Where calls lead in a module in which nothing fails is reachable. -/
theorem reachable_runOf {n : Nat} (hpos : 0 < n) (hn : n < 2 ^ 34) (calls : List Call) :
    Reachable (runOf n calls).2 :=
  ⟨_, run_runOf hpos hn (kmod.guarded_anyStep _ _)⟩

/-! ## The store is consistent -/

/-- What it takes for the store of a topic to be consistent:

1. entries are keyed by distinct ids, all given out already;
2. every entry's publisher is in the table, and counts its entries;
3. every set bit is a subscriber in the table;
4. ids are distinct, given out already and inside the bitmap;
5. a subscriber's watermark has reached every entry it references, and no entry
   that is still to come. -/
structure StoreConsistent (t : TopicStruct) : Prop where
  keyed : (t.entries.map EntryNode.entryId).Nodup ∧
    ∀ en ∈ t.entries, en.entryId < t.currentEntryId
  counted : (∀ en ∈ t.entries, ∃ p ∈ t.pubInfoHtable, p.id = en.publisherId) ∧
    ∀ p ∈ t.pubInfoHtable, p.entriesNum = t.entries.countP fun en => en.publisherId = p.id
  referenced : ∀ en ∈ t.entries, ∀ b ∈ en.referencingSubscribers.bits,
    ∃ s ∈ t.subInfoHtable, s.id = b
  ids : (t.pubInfoHtable.map PublisherInfo.id ++ t.subInfoHtable.map SubscriberInfo.id).Nodup ∧
    (∀ p ∈ t.pubInfoHtable, p.id < t.currentPubsubId) ∧
    (∀ s ∈ t.subInfoHtable, s.id < t.currentPubsubId) ∧ t.currentPubsubId ≤ maxTopicLocalId
  watermark : ∀ s ∈ t.subInfoHtable, s.latestReceivedEntryId < t.currentEntryId ∧
    ∀ en ∈ t.entries, s.id ∈ en.referencingSubscribers.bits →
      en.entryId ≤ s.latestReceivedEntryId

/-- **The store of every topic is consistent** in every reachable state. -/
theorem reachable_store_consistent (h : Reachable σ) (tp : Nat) :
    StoreConsistent (σ.topicStructs tp) := by
  have hc : (σ.topicStructs tp).Consistent [] := h.wellFormed.store tp
  refine ⟨⟨hc.entries_nodup, hc.entry_lt⟩, ⟨hc.publisher, hc.counted⟩, fun en hen b hb => ?_,
    ⟨hc.ids_nodup, fun p hp => (hc.pub_id p hp).2, fun s hs => (hc.sub_id s hs).2,
      hc.pubsubId_le.2⟩,
    fun s hs => ⟨(hc.watermark s hs).2, fun en hen hb => hc.bit_le hen hs hb⟩⟩
  rcases hc.holder en hen b hb with hb | ⟨s, hs, hid, _⟩
  · cases hb
  · exact ⟨s, hs, hid⟩

/-- A publisher, a subscriber that received its first entry, and a publisher exit
that leaves the entry in place. -/
theorem store_consistent_after_exit :
    let σ := (runOf 2 [.addProcess 1 0 0 0, .addProcess 2 0 0 0,
      .addPublisher ['/', 't'] 0 ⟨[], 1, 1, false, false⟩,
      .addSubscriber ['/', 't'] 0 ⟨[], 2, 1, false, true, false, false, false⟩ 7,
      .publishMsg 1 ['/', 't'] 0 0 16, .receiveMsg 2 ['/', 't'] 0 1 8, .processExitCleanup 1]).2
    (σ.topicStructs 0).entries.length = 1 ∧ StoreConsistent (σ.topicStructs 0) :=
  ⟨by decide, reachable_store_consistent (reachable_runOf (by decide) (by decide) _) 0⟩

end Agnocast
