import Agnocast.Store.Lifetime

/-!
# The store — what a call makes of one topic

`step_moves` says which kinds of operations a step consists of. What an invariant of
endpoints and references needs is more: which call it was, with which arguments, and
which processes were gone meanwhile. `TopicStep` lists that, one constructor for each
call that changes a topic; every other call leaves the topic as it is, up to what
belongs to its wrappers (`SameStore`).

* `step_topicStep`  — every step of the module makes of every topic what one
  `TopicStep` does.
* `exit_topicStep`  — for the exit cleanup that is one visit, however many wrappers
  share the topic.
-/

namespace Agnocast

variable {σ σ' : Kmod} {t t' : TopicStruct}

/-! ## Up to the wrappers -/

/-- The topics agree in everything but what belongs to their wrappers. -/
structure SameStore (t t' : TopicStruct) : Prop extends SameContent t t' where
  pubsubId : t'.currentPubsubId = t.currentPubsubId
  entryId : t'.currentEntryId = t.currentEntryId
  ros2SubscriberNum : t'.ros2SubscriberNum = t.ros2SubscriberNum
  ros2PublisherNum : t'.ros2PublisherNum = t.ros2PublisherNum

theorem SameStore.refl (t : TopicStruct) : SameStore t t := ⟨.refl t, rfl, rfl, rfl, rfl⟩

theorem SameStore.trans {t'' : TopicStruct} (h : SameStore t t') (h' : SameStore t' t'') :
    SameStore t t'' :=
  ⟨⟨h'.entries.trans h.entries, h'.pubs.trans h.pubs, h'.subs.trans h.subs⟩,
    h'.pubsubId.trans h.pubsubId, h'.entryId.trans h.entryId,
    h'.ros2SubscriberNum.trans h.ros2SubscriberNum, h'.ros2PublisherNum.trans h.ros2PublisherNum⟩

theorem SameStore.consistent {leaving : List Int} (h : SameStore t t')
    (hc : t.Consistent leaving) : t'.Consistent leaving :=
  hc.of_same h.entries (by rw [h.pubs]) (by rw [h.subs]) h.pubsubId h.entryId

/-- `add_topic` changes nothing of what a topic stores. -/
theorem addTopic_sameStore (hfresh : σ.Fresh) {env : Env} {c : Cell} {w : TopicWrapper}
    {σ₁ : Kmod} (hadd : addTopic σ env c = (.ok w, σ₁)) (tp : Nat) :
    SameStore (σ.topicStructs tp) (σ₁.topicStructs tp) := by
  rcases addTopic_cases (σ := σ) env c with ⟨e, _, heq⟩ | ⟨w₀, _, heq⟩ | ⟨tp₀, _, _, heq⟩ |
    ⟨_, _, heq⟩ <;> rw [heq] at hadd
  · cases (Prod.mk.inj hadd).1
  · obtain ⟨_, rfl⟩ := Prod.mk.inj hadd
    exact .refl _
  · obtain ⟨_, rfl⟩ := Prod.mk.inj hadd
    by_cases htp : tp = tp₀
    · have hset : (σ.joinTopic (env.place .topic) c tp₀).topicStructs tp₀ = _ :=
        Kmod.setTopic_self ..
      rw [htp, hset]
      exact ⟨⟨rfl, rfl, rfl⟩, rfl, rfl, rfl, rfl⟩
    · have hset : (σ.joinTopic (env.place .topic) c tp₀).topicStructs tp = σ.topicStructs tp :=
        Kmod.setTopic_of_ne _ _ _ htp
      rw [hset]
      exact .refl _
  · obtain ⟨_, rfl⟩ := Prod.mk.inj hadd
    by_cases htp : tp = σ.nextTopicPtr
    · -- the pointer was not given out yet, so what lay there was blank
      have hset : (σ.createTopic (env.place .topic) c).topicStructs σ.nextTopicPtr = _ :=
        Kmod.setTopic_self ..
      rw [htp, hset, hfresh _ le_rfl]
      exact ⟨⟨rfl, rfl, rfl⟩, rfl, rfl, rfl, rfl⟩
    · have hset : (σ.createTopic (env.place .topic) c).topicStructs tp = σ.topicStructs tp :=
        Kmod.setTopic_of_ne _ _ _ htp
      rw [hset]
      exact .refl _

theorem releaseIfEmpty_sameStore (hwf : σ.WellFormed) {w : TopicWrapper}
    (hw : w ∈ σ.topicHashtable) (tp : Nat) :
    SameStore (σ.topicStructs tp) ((releaseIfEmpty σ w).topicStructs tp) := by
  refine ⟨releaseIfEmpty_content hwf hw tp, ?_, ?_, ?_, ?_⟩ <;>
  · unfold releaseIfEmpty
    split
    · rfl
    by_cases htp : tp = w.topic
    · have hdrop : (releaseTopicWrapper σ w).topicStructs w.topic =
          (σ.topicStructs w.topic).dropRef := Kmod.setTopic_self ..
      rw [htp, hdrop]
      unfold TopicStruct.dropRef
      simp only
      split <;> rfl
    · have hsame : (releaseTopicWrapper σ w).topicStructs tp = σ.topicStructs tp :=
        Kmod.setTopic_of_ne _ _ _ htp
      rw [hsame]

/-! ## The steps of a topic -/

/-- What the call `i` makes of the topic at `tp` when it stores what `t` does.
`σ₁` stands for the module in the middle of the call. -/
inductive TopicStep (σ : Kmod) (i : Input) (tp : Nat) (t : TopicStruct) : TopicStruct → Prop
  | same : TopicStep σ i tp t t
  | addSubscriber {topicName : Name} {ipcNs : IpcNs} {args : SubscriberArgs} {eventfd : Int}
      (hcall : i.call = .addSubscriber topicName ipcNs args eventfd) (σ₁ : Kmod)
      (ctx : Option EventfdCtx) :
      TopicStep σ i tp t
        (insertSubscriberInfo σ₁ i.env t (getProcessDomainId σ args.pid) args ctx).2
  | addPublisher {topicName : Name} {ipcNs : IpcNs} {args : PublisherArgs}
      (hcall : i.call = .addPublisher topicName ipcNs args) (σ₁ : Kmod) :
      TopicStep σ i tp t
        (match insertPublisherInfo σ₁ i.env t (getProcessDomainId σ args.pid) args with
        | (.error _, t') => t'
        | (.ok _, t') => t'.requestMmapUpdate)
  | publishMsg {p : PublisherInfo} (hp : p ∈ t.pubInfoHtable) {addr : Nat}
      (hA : Permits σ i.call tp (.publish p addr)) :
      TopicStep σ i tp t (publishMsgCore i.env t p addr).2
  | fetchMsg {w : TopicWrapper} {s : SubscriberInfo} {batch : List EntryNode}
      {ret : Except Errno (List PublisherShmInfo)} {t' : TopicStruct} {m : MemoryAllocator}
      (ht : t = σ.topicStructs tp) (hcall : i.call.isFetch = true) (htp : w.topic = tp)
      (hf : Fetched σ i w s batch ret t' m) : TopicStep σ i tp t t'
  | releaseReference {en : EntryNode} (hen : en ∈ t.entries) {b : Int}
      (hA : Permits σ i.call tp (.release b en.entryId)) :
      TopicStep σ i tp t (t.setEntry (en.clearBit b))
  | removeSubscriber {s : SubscriberInfo} (hs : s ∈ t.subInfoHtable)
      (hA : Permits σ i.call tp (.leave s.id)) :
      TopicStep σ i tp t (clearSubscriberReferences σ (unlinkSubscriberInfo σ t s) s.id)
  | removePublisher {p : PublisherInfo} (hp : p ∈ t.pubInfoHtable) {current : Pid}
      {topicName : Name} {ipcNs : IpcNs} {w : TopicWrapper}
      (hcall : i.call = .removePublisher current topicName ipcNs p.id)
      (hw : findTopicForCurrent σ current topicName ipcNs = some w) (htp : w.topic = tp) :
      TopicStep σ i tp t (dropPublisher t p)
  | setRos2SubscriberNum {current : Pid} {topicName : Name} {ipcNs : IpcNs} {count : Nat}
      {w : TopicWrapper} (hcall : i.call = .setRos2SubscriberNum current topicName ipcNs count)
      (hw : findTopicForCurrent σ current topicName ipcNs = some w) (htp : w.topic = tp) :
      TopicStep σ i tp t { t with ros2SubscriberNum := count }
  | setRos2PublisherNum {current : Pid} {topicName : Name} {ipcNs : IpcNs} {count : Nat}
      {w : TopicWrapper} (hcall : i.call = .setRos2PublisherNum current topicName ipcNs count)
      (hw : findTopicForCurrent σ current topicName ipcNs = some w) (htp : w.topic = tp) :
      TopicStep σ i tp t { t with ros2PublisherNum := count }
  | processExit {pid : Pid} {p : ProcessInfo} (hcall : i.call = .processExitCleanup pid)
      (hp : findProcessInfo σ pid = some p) (σ₁ : Kmod)
      (hprocs : σ₁.procInfoHtable = (step σ i).2.procInfoHtable) :
      TopicStep σ i tp t (preHandlerSubscriberExit σ₁ (preHandlerPublisherExit t pid) pid)

/-- What the call makes of the topic at `tp`, from one state to the next. -/
def TopicChange (σ : Kmod) (i : Input) (tp : Nat) : Prop :=
  ∃ t t', SameStore (σ.topicStructs tp) t ∧ TopicStep σ i tp t t' ∧
    SameStore t' ((step σ i).2.topicStructs tp)

/-! ## Every call -/

private theorem change_same {i : Input} {tp : Nat}
    (h : SameStore (σ.topicStructs tp) ((step σ i).2.topicStructs tp)) : TopicChange σ i tp :=
  ⟨_, _, .refl _, .same, h⟩

private theorem change_of_sameTopics {i : Input} {tp : Nat} (h : SameTopics σ (step σ i).2) :
    TopicChange σ i tp :=
  change_same (by rw [h.topicStructs]; exact .refl _)

/-- The call rewrites one topic; what the wrappers do meanwhile is not seen. -/
private theorem change_setTopic {i : Input} {tp₀ tp : Nat} {t t' : TopicStruct}
    (ht : SameStore (σ.topicStructs tp₀) t) (hstep : TopicStep σ i tp₀ t t')
    (hself : SameStore t' ((step σ i).2.topicStructs tp₀))
    (hother : tp ≠ tp₀ → SameStore (σ.topicStructs tp) ((step σ i).2.topicStructs tp)) :
    TopicChange σ i tp := by
  by_cases htp : tp = tp₀
  · rw [htp]
    exact ⟨t, t', ht, hstep, hself⟩
  · exact change_same (hother htp)

private theorem addSubscriber_change (hfresh : σ.Fresh) (env : Env) (topicName : Name)
    (ipcNs : IpcNs) (args : SubscriberArgs) (eventfd : Int) (tp : Nat) :
    TopicChange σ ⟨env, .addSubscriber topicName ipcNs args eventfd⟩ tp := by
  have hafter : (step σ ⟨env, .addSubscriber topicName ipcNs args eventfd⟩).2 =
    (addSubscriber σ env topicName ipcNs args eventfd).2 := rfl
  rcases addSubscriber_cases (σ := σ) env topicName ipcNs args eventfd with
    ⟨⟨e, heq⟩, _⟩ | ⟨ctx, w, σ₁, _, _, hadd, heq⟩ <;> rw [heq] at hafter
  · refine change_same ?_
    rw [hafter]
    exact .refl _
  have hdom : w.domainId = getProcessDomainId σ args.pid := by
    have hcell := (addTopic_moves (A := fun _ _ => True) (σ := σ) env
      ⟨topicName, ipcNs, getProcessDomainId σ args.pid⟩).2
    rw [hadd] at hcell
    exact congrArg Cell.domainId (hcell w rfl).2
  rw [hdom] at hafter
  refine change_setTopic (addTopic_sameStore hfresh hadd w.topic) (.addSubscriber rfl σ₁ ctx) ?_
    fun htp => ?_
  · rw [hafter, Kmod.setTopic_self]
    exact .refl _
  · rw [hafter, Kmod.setTopic_of_ne _ _ _ htp]
    exact addTopic_sameStore hfresh hadd tp

private theorem addPublisher_change (hfresh : σ.Fresh) (env : Env) (topicName : Name)
    (ipcNs : IpcNs) (args : PublisherArgs) (tp : Nat) :
    TopicChange σ ⟨env, .addPublisher topicName ipcNs args⟩ tp := by
  have hafter : (step σ ⟨env, .addPublisher topicName ipcNs args⟩).2 =
    (addPublisher σ env topicName ipcNs args).2 := rfl
  rcases addPublisher_cases (σ := σ) env topicName ipcNs args with
    ⟨e, heq, _⟩ | ⟨w, σ₁, hadd, hinsert⟩
  · refine change_same ?_
    rw [hafter, heq]
    exact .refl _
  have hdom : w.domainId = getProcessDomainId σ args.pid := by
    have hcell := (addTopic_moves (A := fun _ _ => True) (σ := σ) env
      ⟨topicName, ipcNs, getProcessDomainId σ args.pid⟩).2
    rw [hadd] at hcell
    exact congrArg Cell.domainId (hcell w rfl).2
  rw [hdom] at hinsert
  refine change_setTopic (addTopic_sameStore hfresh hadd w.topic) (.addPublisher rfl σ₁) ?_
    fun htp => ?_
  · rcases hinsert with ⟨e, t, hret, heq⟩ | ⟨id, t, hret, heq⟩ <;>
    · rw [hafter, heq, Kmod.setTopic_self]
      simp only
      rw [hret]
      exact .refl _
  · rcases hinsert with ⟨e, t, _, heq⟩ | ⟨id, t, _, heq⟩ <;>
    · rw [hafter, heq, Kmod.setTopic_of_ne _ _ _ htp]
      exact addTopic_sameStore hfresh hadd tp

private theorem publishMsg_change (env : Env) (current : Pid) (topicName : Name) (ipcNs : IpcNs)
    (publisherId : Int) (addr tp : Nat) :
    TopicChange σ ⟨env, .publishMsg current topicName ipcNs publisherId addr⟩ tp := by
  have hafter : (step σ ⟨env, .publishMsg current topicName ipcNs publisherId addr⟩).2 =
    (publishMsg σ env current topicName ipcNs publisherId addr).2 := rfl
  rcases publishMsg_cases (σ := σ) env current topicName ipcNs publisherId addr with
    ⟨e, heq⟩ | ⟨w, p, procInfo, hw, hp, hproc, hlo, hhi, heq⟩ <;> rw [heq] at hafter
  · refine change_same ?_
    rw [hafter]
    exact .refl _
  obtain ⟨hmem, rfl⟩ := HTable.mem_of_lookup hp
  refine change_setTopic (.refl _) (.publishMsg hmem
    ⟨current, topicName, ipcNs, w, procInfo, rfl, hw, rfl, hp, hproc, hlo, hhi⟩) ?_ fun htp => ?_
  · rw [hafter, Kmod.setTopic_self]
    exact .refl _
  · rw [hafter, Kmod.setTopic_of_ne _ _ _ htp]
    exact .refl _

private theorem fetch_change (h : σ.WellFormed) {i : Input} (hcall : i.call.isFetch = true)
    (tp : Nat) : TopicChange σ i tp := by
  cases ht : fetchTarget σ i.call with
  | none =>
    refine change_same ?_
    rw [(fetch_refused h i hcall ht).1]
    exact .refl _
  | some target =>
    obtain ⟨batch, ret, t', m, hf⟩ := fetch_cases h i ht
    refine change_setTopic (.refl _) (.fetchMsg rfl hcall rfl hf) ?_ fun htp => ?_
    · rw [hf.after, Kmod.setMem_topicStructs, Kmod.setTopic_self]
      exact .refl _
    · rw [hf.after, Kmod.setMem_topicStructs, Kmod.setTopic_of_ne _ _ _ htp]
      exact .refl _

private theorem release_change (current : Pid) (topicName : Name) (ipcNs : IpcNs)
    (pubsubId entryId : Int) (env : Env) (tp : Nat) :
    TopicChange σ ⟨env, .releaseMessageEntryReference current topicName ipcNs pubsubId entryId⟩
      tp := by
  have hafter : (step σ ⟨env, .releaseMessageEntryReference current topicName ipcNs pubsubId
      entryId⟩).2 =
    (releaseMessageEntryReference σ current topicName ipcNs pubsubId entryId).2 := rfl
  have hsame : (releaseMessageEntryReference σ current topicName ipcNs pubsubId entryId).2 = σ →
      TopicChange σ ⟨env, .releaseMessageEntryReference current topicName ipcNs pubsubId entryId⟩
        tp := by
    intro heq
    refine change_same ?_
    rw [hafter, heq]
    exact .refl _
  revert hafter hsame
  unfold releaseMessageEntryReference
  split
  · exact fun _ hsame => hsame rfl
  next w hw =>
  simp only
  split
  · exact fun _ hsame => hsame rfl
  next en hen =>
  obtain ⟨hmem, rfl⟩ := HTable.mem_of_lookup hen
  split
  · exact fun _ hsame => hsame rfl
  split
  · exact fun _ hsame => hsame rfl
  intro hafter _
  refine change_setTopic (.refl _) (.releaseReference hmem
    ⟨current, topicName, ipcNs, w, rfl, hw, rfl⟩) ?_ fun htp => ?_
  · rw [hafter, Kmod.setTopic_self]
    exact .refl _
  · rw [hafter, Kmod.setTopic_of_ne _ _ _ htp]
    exact .refl _

/-- A removal rewrites the topic and ends in the re-check of its wrapper. -/
private theorem change_removal {i : Input} {w : TopicWrapper}
    (hw : w ∈ σ.topicHashtable) (hstep : TopicStep σ i w.topic (σ.topicStructs w.topic) t')
    (hset : (σ.setTopic w.topic t').WellFormed)
    (hafter : (step σ i).2 = releaseIfEmpty (σ.setTopic w.topic t') w) (tp : Nat) :
    TopicChange σ i tp := by
  have hcontent := releaseIfEmpty_sameStore hset (w := w) hw
  refine change_setTopic (.refl _) hstep ?_ fun htp => ?_
  · have hself := hcontent w.topic
    rw [Kmod.setTopic_self] at hself
    rw [hafter]
    exact hself
  · have hother := hcontent tp
    rw [Kmod.setTopic_of_ne _ _ _ htp] at hother
    rw [hafter]
    exact hother

private theorem removeSubscriber_change (h : σ.WellFormed) (current : Pid) (topicName : Name)
    (ipcNs : IpcNs) (id : Int) (env : Env) (tp : Nat) :
    TopicChange σ ⟨env, .removeSubscriber current topicName ipcNs id⟩ tp := by
  have hafter : (step σ ⟨env, .removeSubscriber current topicName ipcNs id⟩).2 =
    (removeSubscriber σ current topicName ipcNs id).2 := rfl
  unfold removeSubscriber at hafter
  split at hafter
  · exact change_same (by rw [hafter]; exact .refl _)
  next w hfind =>
  obtain ⟨hw, _⟩ := findTopicForCurrent_mem hfind
  simp only at hafter
  split at hafter
  · exact change_same (by rw [hafter]; exact .refl _)
  next s hs =>
  obtain ⟨hmem, rfl⟩ := HTable.mem_of_lookup hs
  have hc := h.store w.topic
  rw [if_neg (not_not.mpr (hc.sub_inRange hmem))] at hafter
  have hmove : TopicMove (fun _ => True) σ w.domainId (σ.topicStructs w.topic) _ :=
    .removeSubscriber hmem trivial
  exact change_removal hw (.removeSubscriber hmem ⟨current, topicName, ipcNs, w, rfl, hfind, rfl⟩)
    (h.setTopic hw (hmove.consistent hc) (hmove.evolves hc) (hmove.sameOwner hc)) hafter tp

/-- A removal of a publisher that is found drops it from the topic. -/
theorem removePublisher_topicStep (h : σ.WellFormed) {current : Pid} {topicName : Name}
    {ipcNs : IpcNs} {w : TopicWrapper} {p : PublisherInfo}
    (hfind : findTopicForCurrent σ current topicName ipcNs = some w)
    (hp : p ∈ (σ.topicStructs w.topic).pubInfoHtable) :
    SameStore (dropPublisher (σ.topicStructs w.topic) p)
        ((removePublisher σ current topicName ipcNs p.id).2.topicStructs w.topic) ∧
      ∀ tp ≠ w.topic, SameStore (σ.topicStructs tp)
        ((removePublisher σ current topicName ipcNs p.id).2.topicStructs tp) := by
  obtain ⟨hw, _⟩ := findTopicForCurrent_mem hfind
  have hc := h.store w.topic
  have hlookup : findPublisherInfo (σ.topicStructs w.topic) p.id = some p :=
    HTable.lookup_self hc.pubs_nodup hp
  have hmove : TopicMove (fun _ => True) σ w.domainId (σ.topicStructs w.topic) _ :=
    .removePublisher hp
  have hset := h.setTopic hw (hmove.consistent hc) (hmove.evolves hc) (hmove.sameOwner hc)
  have hcontent := releaseIfEmpty_sameStore hset (w := w) hw
  unfold removePublisher
  rw [hfind]
  simp only
  rw [hlookup]
  refine ⟨?_, fun tp htp => ?_⟩
  · have hself := hcontent w.topic
    rwa [Kmod.setTopic_self] at hself
  · have hother := hcontent tp
    rwa [Kmod.setTopic_of_ne _ _ _ htp] at hother

private theorem removePublisher_change (h : σ.WellFormed) (current : Pid) (topicName : Name)
    (ipcNs : IpcNs) (id : Int) (env : Env) (tp : Nat) :
    TopicChange σ ⟨env, .removePublisher current topicName ipcNs id⟩ tp := by
  have hsame : (removePublisher σ current topicName ipcNs id).2 = σ →
      TopicChange σ ⟨env, .removePublisher current topicName ipcNs id⟩ tp := by
    intro heq
    refine change_same ?_
    show SameStore _ ((removePublisher σ current topicName ipcNs id).2.topicStructs tp)
    rw [heq]
    exact .refl _
  cases hfind : findTopicForCurrent σ current topicName ipcNs with
  | none => exact hsame (by unfold removePublisher; rw [hfind])
  | some w =>
    cases hp : findPublisherInfo (σ.topicStructs w.topic) id with
    | none =>
      refine hsame ?_
      unfold removePublisher
      rw [hfind]
      simp only
      rw [hp]
    | some p =>
      obtain ⟨hmem, rfl⟩ := HTable.mem_of_lookup hp
      obtain ⟨hself, hother⟩ := removePublisher_topicStep h hfind hmem
      exact change_setTopic (.refl _) (.removePublisher hmem rfl hfind rfl) hself (hother tp)

private theorem setRos2Num_change {i : Input} {current : Pid} {topicName : Name} {ipcNs : IpcNs}
    {set : TopicStruct → TopicStruct}
    (hstep : ∀ w, findTopicForCurrent σ current topicName ipcNs = some w →
      TopicStep σ i w.topic (σ.topicStructs w.topic) (set (σ.topicStructs w.topic)))
    (hafter : (step σ i).2 = (setRos2Num σ current topicName ipcNs set).2) (tp : Nat) :
    TopicChange σ i tp := by
  unfold setRos2Num at hafter
  cases hfind : findTopicForCurrent σ current topicName ipcNs with
  | none =>
    rw [hfind] at hafter
    refine change_same ?_
    rw [hafter]
    exact .refl _
  | some w =>
    rw [hfind] at hafter
    refine change_setTopic (.refl _) (hstep w hfind) ?_ fun htp => ?_
    · rw [hafter, Kmod.setTopic_self]
      exact .refl _
    · rw [hafter, Kmod.setTopic_of_ne _ _ _ htp]
      exact .refl _

/-! ## The exit cleanup -/

/-- One visit of a topic. -/
def visitTopic (σ : Kmod) (pid : Pid) (t : TopicStruct) : TopicStruct :=
  preHandlerSubscriberExit σ (preHandlerPublisherExit t pid) pid

private theorem cleanupTopic_of_ne (pid : Pid) {w : TopicWrapper} {tp : Nat} (htp : tp ≠ w.topic) :
    (cleanupTopic pid σ w).topicStructs tp = σ.topicStructs tp := by
  unfold cleanupTopic releaseIfEmpty
  simp only
  split
  · exact Kmod.setTopic_of_ne _ _ _ htp
  · exact (Kmod.setTopic_of_ne _ _ _ htp).trans (Kmod.setTopic_of_ne _ _ _ htp)

private theorem cleanupTopic_self (h : σ.WellFormed) (pid : Pid) {w : TopicWrapper}
    (hw : w ∈ σ.topicHashtable) :
    SameStore (visitTopic σ pid (σ.topicStructs w.topic))
      ((cleanupTopic pid σ w).topicStructs w.topic) := by
  have hc := h.store w.topic
  have hmoves : TopicMoves (fun _ => True) σ w.domainId (σ.topicStructs w.topic)
      (visitTopic σ pid (σ.topicStructs w.topic)) :=
    .tail (preHandlerPublisherExit_moves hc pid) (.subscriberExit pid trivial)
  have hset := h.setTopic hw (hmoves.consistent hc) (hmoves.evolves hc) (hmoves.sameOwner hc)
  have hsame := releaseIfEmpty_sameStore hset (w := w) hw w.topic
  rw [Kmod.setTopic_self] at hsame
  exact hsame

/-- The visit of all wrappers, for one topic: the first wrapper over it does the work,
and every later one finds it cleaned. -/
private theorem cleanupTopics_store {pid : Pid} (tp : Nat) (l : List TopicWrapper) : ∀ σ : Kmod,
    σ.WellFormed → processGone σ pid = true → (l.map TopicWrapper.cell).Nodup →
    (∀ w ∈ l, w ∈ σ.topicHashtable) →
    ((∀ w ∈ l, w.topic ≠ tp) ∧
      (l.foldl (cleanupTopic pid) σ).topicStructs tp = σ.topicStructs tp) ∨
    ∃ σ₁ : Kmod, σ₁.procInfoHtable = σ.procInfoHtable ∧
      SameStore (visitTopic σ₁ pid (σ.topicStructs tp))
        ((l.foldl (cleanupTopic pid) σ).topicStructs tp) := by
  induction l with
  | nil => exact fun σ _ _ _ _ => .inl ⟨by simp, rfl⟩
  | cons w l ih =>
    intro σ h hgone hnd hmem
    obtain ⟨hnot, hnd⟩ := List.nodup_cons.mp hnd
    have hw := hmem w List.mem_cons_self
    have hprocs := cleanupTopic_procInfoHtable (σ := σ) pid w
    have hgone' : processGone (cleanupTopic pid σ w) pid = true := by
      unfold processGone findProcessInfo
      rw [hprocs]
      exact hgone
    have hwf := h.moves (cleanupTopic_moves (A := fun _ _ => True) h pid hw trivial)
    have hrest := ih _ hwf hgone' hnd fun w' hw' =>
      mem_cleanupTopic (hmem w' (List.mem_cons_of_mem _ hw'))
        fun hc => hnot (hc ▸ List.mem_map_of_mem hw')
    rw [List.foldl_cons]
    by_cases htp : tp = w.topic
    · subst htp
      have hself := cleanupTopic_self h pid hw
      refine .inr ⟨σ, rfl, ?_⟩
      -- this wrapper is over the topic
      rcases hrest with ⟨_, heq⟩ | ⟨σ₁, _, hsame⟩
      · rw [heq]
        exact hself
      · -- a second visit finds nothing to do
        have hclean := (visit_cleaned (h.store w.topic) hgone).of_content hself.toSameContent
        have hagain : visitTopic σ₁ pid ((cleanupTopic pid σ w).topicStructs w.topic) = _ :=
          hclean.revisit (hwf.store w.topic)
        rw [hagain] at hsame
        exact hself.trans hsame
    · rw [cleanupTopic_of_ne pid htp] at hrest
      rcases hrest with ⟨hnone, heq⟩ | ⟨σ₁, hprocs₁, hsame⟩
      · refine .inl ⟨fun w' hw' => ?_, heq⟩
        rcases List.mem_cons.mp hw' with rfl | hw'
        · exact fun heq => htp heq.symm
        · exact hnone w' hw'
      · exact .inr ⟨σ₁, hprocs₁.trans hprocs, hsame⟩

/-- A topic without endpoints has nothing to clean. -/
private theorem visitTopic_of_empty {pid : Pid} (hpubs : t.pubInfoHtable = [])
    (hsubs : t.subInfoHtable = []) : visitTopic σ pid t = t := by
  have hpub : preHandlerPublisherExit t pid = t := by
    unfold preHandlerPublisherExit
    rw [hpubs]
    rfl
  unfold visitTopic preHandlerSubscriberExit
  rw [hpub, hsubs]
  rfl

/-- The visit of the topics leaves the process table alone. -/
theorem exit_procs {pid : Pid} {p : ProcessInfo} (hp : findProcessInfo σ pid = some p) :
    (processExitCleanup σ pid).procInfoHtable = (exitProcess σ pid p).procInfoHtable := by
  have hfold : ∀ (l : List TopicWrapper) (σ : Kmod),
      (l.foldl (cleanupTopic pid) σ).procInfoHtable = σ.procInfoHtable := by
    intro l
    induction l with
    | nil => exact fun _ => rfl
    | cons w l ih => exact fun σ => (ih _).trans (cleanupTopic_procInfoHtable pid w)
  rw [processExitCleanup_eq, hp]
  exact hfold _ _

/-- Who is gone for the visits of the topics. -/
theorem processGone_of_exit {σ₁ : Kmod} {pid q : Pid} {p : ProcessInfo}
    (hp : findProcessInfo σ pid = some p)
    (hprocs : σ₁.procInfoHtable = (processExitCleanup σ pid).procInfoHtable) :
    processGone σ₁ q = true ↔ q = pid ∨ processGone σ q = true := by
  rw [← processGone_exitProcess_iff hp]
  unfold processGone findProcessInfo
  rw [hprocs, exit_procs hp]

/-- **The exit cleanup of a registered process** visits every topic once, under the
process table that it leaves. -/
theorem exit_topicStep (h : σ.WellFormed) {pid : Pid} {p : ProcessInfo}
    (hp : findProcessInfo σ pid = some p) (tp : Nat) :
    ∃ σ₁ : Kmod, σ₁.procInfoHtable = (processExitCleanup σ pid).procInfoHtable ∧
      SameStore (visitTopic σ₁ pid (σ.topicStructs tp))
        ((processExitCleanup σ pid).topicStructs tp) := by
  have hsame := exitProcess_sameTopics (σ := σ) pid p
  have hexit : (exitProcess σ pid p).WellFormed := h.move (A := fun _ _ => True) (.world hsame)
  have hvisit := cleanupTopics_store tp (exitProcess σ pid p).topicHashtable _ hexit
    (processGone_exitProcess hp) hexit.cells fun _ hw => hw
  have htopics : (processExitCleanup σ pid).topicStructs =
      ((exitProcess σ pid p).topicHashtable.foldl (cleanupTopic pid)
        (exitProcess σ pid p)).topicStructs := by
    rw [processExitCleanup_eq, hp]
  rw [htopics, exit_procs hp]
  rcases hvisit with ⟨hnone, heq⟩ | ⟨σ₁, hprocs, hsame₁⟩
  · -- no wrapper stands for the topic, so it has no endpoint
    have hpubs : (σ.topicStructs tp).pubInfoHtable = [] := by
      refine List.eq_nil_iff_forall_not_mem.mpr fun q hq => ?_
      obtain ⟨w, hw, htp, _⟩ := h.pub_domain tp q hq
      exact hnone w (hsame.topicHashtable ▸ hw) htp
    have hsubs : (σ.topicStructs tp).subInfoHtable = [] := by
      refine List.eq_nil_iff_forall_not_mem.mpr fun s hs => ?_
      obtain ⟨w, hw, htp, _⟩ := h.sub_domain tp s hs
      exact hnone w (hsame.topicHashtable ▸ hw) htp
    refine ⟨_, rfl, ?_⟩
    rw [visitTopic_of_empty hpubs hsubs, heq, hsame.topicStructs]
    exact .refl _
  · rw [hsame.topicStructs] at hsame₁
    exact ⟨σ₁, hprocs, hsame₁⟩

private theorem processExitCleanup_change (h : σ.WellFormed) (pid : Pid) (env : Env) (tp : Nat) :
    TopicChange σ ⟨env, .processExitCleanup pid⟩ tp := by
  have hafter : (step σ ⟨env, .processExitCleanup pid⟩).2 = processExitCleanup σ pid := rfl
  cases hp : findProcessInfo σ pid with
  | none =>
    refine change_same ?_
    rw [hafter, processExitCleanup_eq, hp]
    exact .refl _
  | some p =>
    obtain ⟨σ₁, hprocs, hsame⟩ := exit_topicStep h hp tp
    exact ⟨_, _, .refl _, .processExit rfl hp σ₁ hprocs, hsame⟩

/-! ## One step -/

/-- **What a step makes of a topic**: one `TopicStep`, whatever the call. -/
theorem step_topicStep (hr : Reachable σ) (i : Input) (tp : Nat) : TopicChange σ i tp := by
  have h := hr.wellFormed
  have hfetch : i.call.isFetch = true → TopicChange σ i tp := fun hcall => fetch_change h hcall tp
  -- a rule changes no topic
  have hrules : RuleChange σ (step σ i).2 → TopicChange σ i tp := by
    intro hchange
    refine change_same ?_
    generalize (step σ i).2 = σ' at hchange
    cases hchange <;> exact .refl _
  obtain ⟨env, call⟩ := i
  cases call with
  | addDomainBridge nameFrom nameTo fromDomain toDomain ipcNs =>
    exact hrules (addDomainBridge_change env nameFrom nameTo fromDomain toDomain ipcNs)
  | addDomainBridgePrefix pre fromDomain toDomain ipcNs =>
    exact hrules (addDomainBridgePrefix_change env pre fromDomain toDomain ipcNs)
  | addProcess pid ipcNs role domainId =>
    exact change_of_sameTopics (addProcess_sameTopics env pid ipcNs role domainId)
  | addSubscriber topicName ipcNs args eventfd =>
    exact addSubscriber_change hr.fresh env topicName ipcNs args eventfd tp
  | addPublisher topicName ipcNs args =>
    exact addPublisher_change hr.fresh env topicName ipcNs args tp
  | publishMsg current topicName ipcNs publisherId addr =>
    exact publishMsg_change env current topicName ipcNs publisherId addr tp
  | receiveMsg | takeMsg => exact hfetch rfl
  | releaseMessageEntryReference current topicName ipcNs pubsubId entryId =>
    exact release_change current topicName ipcNs pubsubId entryId env tp
  | removeSubscriber current topicName ipcNs id =>
    exact removeSubscriber_change h current topicName ipcNs id env tp
  | removePublisher current topicName ipcNs id =>
    exact removePublisher_change h current topicName ipcNs id env tp
  | setRos2SubscriberNum current topicName ipcNs count =>
    exact setRos2Num_change (fun w hw => .setRos2SubscriberNum rfl hw rfl) rfl tp
  | setRos2PublisherNum current topicName ipcNs count =>
    exact setRos2Num_change (fun w hw => .setRos2PublisherNum rfl hw rfl) rfl tp
  | processExitCleanup pid => exact processExitCleanup_change h pid env tp
  | getExitProcess | notifyBridgeShutdown => exact change_same (.refl _)
  | commitExitProcess ipcNs globalPid callerPid =>
    exact change_of_sameTopics (commitExitProcess_sameTopics ipcNs globalPid callerPid)
  | addBridge topicName pid isR2a ipcNs =>
    exact change_of_sameTopics (addBridge_sameTopics env topicName pid isR2a ipcNs)
  | removeBridge topicName pid isR2a ipcNs =>
    exact change_of_sameTopics (removeBridge_sameTopics topicName pid isR2a ipcNs)
  | checkAndRequestBridgeShutdown pid ipcNs =>
    exact change_of_sameTopics (checkAndRequestBridgeShutdown_sameTopics pid ipcNs)
  | addDiscoveryAgent pid ipcNs domainId =>
    exact change_of_sameTopics (addDiscoveryAgent_sameTopics env pid ipcNs domainId)
  | discoveryAgentShouldExit pid ipcNs domainId commit =>
    exact change_of_sameTopics (discoveryAgentShouldExit_sameTopics pid ipcNs domainId commit)

/-! ## Where endpoints come from -/

theorem Fetched.evolves {i : Input} {w : TopicWrapper} {s : SubscriberInfo}
    {batch : List EntryNode} {ret : Except Errno (List PublisherShmInfo)} {m : MemoryAllocator}
    (hf : Fetched σ i w s batch ret t' m) (h : σ.WellFormed) (D : Nat → Prop) :
    (σ.topicStructs w.topic).Evolves D t' := by
  have hhand : (σ.topicStructs w.topic).Evolves D
      ((σ.topicStructs w.topic).handOut s.id (batch.map EntryNode.entryId)) := by
    refine .handOut (h.store w.topic) hf.subscriber fun id hid => ?_
    obtain ⟨en, hen, rfl⟩ := List.mem_map.mp hid
    exact hf.watermark en hen
  obtain ⟨size, hr⟩ := hf.reported
  rcases reportPublisherShm_topic hr with rfl | rfl
  · exact hhand
  · exact hhand.trans (.mapped _ s.id false)

/-- The call adds an endpoint. -/
def Call.adds : Call → Bool
  | .addSubscriber .. | .addPublisher .. => true
  | _ => false

/-- Any other call makes of a topic what needs no new endpoint. -/
theorem TopicStep.evolves {i : Input} {tp : Nat} (hstep : TopicStep σ i tp t t')
    (h : σ.WellFormed) (hc : t.Consistent []) (hadds : i.call.adds = false) :
    t.Evolves (fun _ => False) t' := by
  cases hstep with
  | same => exact .refl t
  | addSubscriber hcall => rw [hcall] at hadds; cases hadds
  | addPublisher hcall => rw [hcall] at hadds; cases hadds
  | publishMsg hp _ => exact .publishMsgCore hc hp i.env _
  | fetchMsg ht _ htp hf =>
    subst htp ht
    exact hf.evolves h _
  | releaseReference hen _ => exact .clearBit hc hen _
  | @removeSubscriber s hs _ =>
    exact (TopicStruct.Evolves.unlinkSubscriberInfo t s).trans
      (.clearSubscriberReferences (hc.unlinkSubscriberInfo s) s.id)
  | removePublisher hp => exact .dropPublisher hc hp
  | setRos2SubscriberNum => exact .ros2Num t _ t.ros2PublisherNum
  | setRos2PublisherNum => exact .ros2Num t t.ros2SubscriberNum _
  | @processExit pid p _ _ σ₁ _ =>
    have hmoves : TopicMoves (fun _ => True) σ₁ 0 t (preHandlerPublisherExit t pid) :=
      preHandlerPublisherExit_moves hc pid
    have hpubs : t.Evolves (fun _ => False) (preHandlerPublisherExit t pid) :=
      preHandlerPublisherExit_rec (P := t.Evolves fun _ => False) hc (.refl t)
        fun _ _ ht hp _ he => he.trans (.dropPublisher ht hp)
    exact hpubs.trans (.preHandlerSubscriberExit (hmoves.consistent hc) pid)

/-- What a call that adds an endpoint can do to a topic. -/
theorem TopicStep.of_adds {i : Input} {tp : Nat} (hstep : TopicStep σ i tp t t')
    (hadds : i.call.adds = true) : t' = t ∨
    (∃ topicName ipcNs args eventfd σ₁ ctx,
      i.call = .addSubscriber topicName ipcNs args eventfd ∧
      t' = (insertSubscriberInfo σ₁ i.env t (getProcessDomainId σ args.pid) args ctx).2) ∨
    ∃ topicName ipcNs args σ₁, i.call = .addPublisher topicName ipcNs args ∧
      t' = match insertPublisherInfo σ₁ i.env t (getProcessDomainId σ args.pid) args with
        | (.error _, t') => t'
        | (.ok _, t') => t'.requestMmapUpdate := by
  have hother : ∀ call, i.call = call → call.adds = false → False := by
    rintro _ rfl hno
    rw [hadds] at hno
    cases hno
  cases hstep with
  | same => exact .inl rfl
  | addSubscriber hcall σ₁ ctx => exact .inr (.inl ⟨_, _, _, _, σ₁, ctx, hcall, rfl⟩)
  | addPublisher hcall σ₁ => exact .inr (.inr ⟨_, _, _, σ₁, hcall, rfl⟩)
  | publishMsg _ hA =>
    obtain ⟨_, _, _, _, _, hcall, _⟩ := hA
    exact (hother _ hcall rfl).elim
  | fetchMsg _ hcall =>
    obtain ⟨env, call⟩ := i
    cases call with
    | addSubscriber | addPublisher => exact Bool.noConfusion hcall
    | _ => exact Bool.noConfusion hadds
  | releaseReference _ hA | removeSubscriber _ hA =>
    obtain ⟨_, _, _, _, hcall, _⟩ := hA
    exact (hother _ hcall rfl).elim
  | removePublisher _ hcall => exact (hother _ hcall rfl).elim
  | setRos2SubscriberNum hcall | setRos2PublisherNum hcall => exact (hother _ hcall rfl).elim
  | processExit hcall => exact (hother _ hcall rfl).elim

/-- **Where a subscriber comes from**: it was there before, or the call adds it in the domain
of the process it names. -/
theorem TopicStep.sub_origin {i : Input} {tp : Nat} (hstep : TopicStep σ i tp t t')
    (h : σ.WellFormed) (hc : t.Consistent []) {s' : SubscriberInfo}
    (hs' : s' ∈ t'.subInfoHtable) : (∃ s ∈ t.subInfoHtable, SameSubscriber s s') ∨
      ∃ topicName ipcNs args eventfd ctx, i.call = .addSubscriber topicName ipcNs args eventfd ∧
        s' = newSubscriberInfo t (getProcessDomainId σ args.pid) args ctx := by
  by_cases hadds : i.call.adds = false
  · rcases (hstep.evolves h hc hadds).sub s' hs' with ⟨s, hs, hsame, _⟩ | ⟨_, hno, _⟩
    · exact .inl ⟨s, hs, hsame⟩
    · exact hno.elim
  rcases hstep.of_adds (by simpa using hadds) with
    rfl | ⟨topicName, ipcNs, args, eventfd, σ₁, ctx, hcall, rfl⟩ |
    ⟨topicName, ipcNs, args, σ₁, hcall, rfl⟩
  · exact .inl ⟨s', hs', .refl s'⟩
  · rcases insertSubscriberInfo_subs (σ := σ₁) i.env t (getProcessDomainId σ args.pid) args ctx with
      heq | heq <;> rw [heq] at hs'
    · exact .inl ⟨s', hs', .refl s'⟩
    · rcases HTable.mem_hashAdd.mp hs' with rfl | hs'
      · exact .inr ⟨topicName, ipcNs, args, eventfd, ctx, hcall, rfl⟩
      · exact .inl ⟨s', hs', .refl s'⟩
  · rcases insertPublisherInfo_cases (σ := σ₁) i.env t (getProcessDomainId σ args.pid) args with
      ⟨e, heq⟩ | ⟨e, _, heq⟩ | ⟨capacity, _, _, heq⟩ <;> rw [heq] at hs'
    · exact .inl ⟨s', hs', .refl s'⟩
    · exact .inl ⟨s', hs', .refl s'⟩
    · obtain ⟨s, hs, rfl⟩ := List.mem_map.mp hs'
      exact .inl ⟨s, hs, rfl⟩

theorem TopicStep.sub_from {i : Input} {tp : Nat} (hstep : TopicStep σ i tp t t')
    (h : σ.WellFormed) (hc : t.Consistent []) {s' : SubscriberInfo}
    (hs' : s' ∈ t'.subInfoHtable) : (∃ s ∈ t.subInfoHtable, SameSubscriber s s') ∨
      ∃ topicName ipcNs args eventfd, i.call = .addSubscriber topicName ipcNs args eventfd ∧
        s'.pid = args.pid :=
  (hstep.sub_origin h hc hs').imp_right fun ⟨topicName, ipcNs, args, eventfd, _, hcall, hs'⟩ =>
    ⟨topicName, ipcNs, args, eventfd, hcall, hs' ▸ rfl⟩

/-- **Where a publisher comes from**: likewise. -/
theorem TopicStep.pub_origin {i : Input} {tp : Nat} (hstep : TopicStep σ i tp t t')
    (h : σ.WellFormed) (hc : t.Consistent []) {p' : PublisherInfo}
    (hp' : p' ∈ t'.pubInfoHtable) : (∃ p ∈ t.pubInfoHtable, SamePublisher p p') ∨
      ∃ topicName ipcNs args capacity, i.call = .addPublisher topicName ipcNs args ∧
        SamePublisher (newPublisherInfo t (getProcessDomainId σ args.pid) args capacity) p' := by
  by_cases hadds : i.call.adds = false
  · rcases (hstep.evolves h hc hadds).pub p' hp' with ⟨p, hp, hsame⟩ | ⟨_, hno⟩
    · exact .inl ⟨p, hp, hsame⟩
    · exact hno.elim
  rcases hstep.of_adds (by simpa using hadds) with
    rfl | ⟨topicName, ipcNs, args, eventfd, σ₁, ctx, hcall, rfl⟩ |
    ⟨topicName, ipcNs, args, σ₁, hcall, rfl⟩
  · exact .inl ⟨p', hp', .refl p'⟩
  · obtain ⟨p, hp, hsame⟩ := HTable.exists_of_forall₂ (insertSubscriberInfo_pubs ..) hp'
    exact .inl ⟨p, hp, hsame.same⟩
  · rcases insertPublisherInfo_cases (σ := σ₁) i.env t (getProcessDomainId σ args.pid) args with
      ⟨e, heq⟩ | ⟨e, _, heq⟩ | ⟨capacity, _, _, heq⟩ <;> rw [heq] at hp'
    · exact .inl ⟨p', hp', .refl p'⟩
    · exact .inl ⟨p', hp', .refl p'⟩
    · rcases HTable.mem_hashAdd.mp hp' with rfl | hp'
      · exact .inr ⟨topicName, ipcNs, args, capacity, hcall, rfl⟩
      · exact .inl ⟨p', hp', .refl p'⟩

theorem TopicStep.pub_from {i : Input} {tp : Nat} (hstep : TopicStep σ i tp t t')
    (h : σ.WellFormed) (hc : t.Consistent []) {p' : PublisherInfo}
    (hp' : p' ∈ t'.pubInfoHtable) : (∃ p ∈ t.pubInfoHtable, SamePublisher p p') ∨
      ∃ topicName ipcNs args, i.call = .addPublisher topicName ipcNs args ∧
        p'.id = t.currentPubsubId ∧ p'.pid = args.pid :=
  (hstep.pub_origin h hc hp').imp_right fun ⟨topicName, ipcNs, args, _, hcall, hsame⟩ =>
    ⟨topicName, ipcNs, args, hcall, hsame.id_eq, hsame.pid_eq⟩

end Agnocast
