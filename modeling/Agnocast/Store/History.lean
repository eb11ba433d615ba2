import Agnocast.Store.Steps

/-!
# The store — one topic through a run

A topic pointer is given out once, and the ids of a topic are given out once, so
what a run says about an id of a topic keeps its meaning.

* `Reachable.evolves` — a step makes of every topic only what `Evolves` allows,
  whether the topic is in use, was torn down or is yet to be created.
* `handouts`          — what an event of a run hands out, and to whom.
* `fetch_cases`       — what a receive or a take does, whether it reports success
  or not (`Fetched`).
-/

namespace Agnocast

open Relation

variable {σ σ' : Kmod} {A : Nat → Action → Prop}

/-! ## Topic pointers -/

/-- No topic lies at a pointer that was not given out yet. -/
def Kmod.Fresh (σ : Kmod) : Prop := ∀ tp, σ.nextTopicPtr ≤ tp → σ.topicStructs tp = .blank

theorem Move.nextTopicPtr_le (hm : Move A σ σ') : σ.nextTopicPtr ≤ σ'.nextTopicPtr := by
  cases hm with
  | create place hnew hg => exact Nat.le_succ _
  | world h => rw [h.nextTopicPtr]
  | _ => exact le_rfl

theorem Kmod.Fresh.move (hwf : σ.WellFormed) (h : σ.Fresh) (hm : Move A σ σ') : σ'.Fresh := by
  intro tp htp
  have hle := hm.nextTopicPtr_le
  refine hm.topicStruct (P := fun t => t = .blank) hwf tp (h tp (hle.trans htp)) ?_ ?_
    fun _ _ hlt => absurd hlt (by omega)
  · rintro w hw rfl
    exact absurd (hwf.topic_lt w hw) (by omega)
  · rintro w hw rfl
    exact absurd (hwf.topic_lt w hw) (by omega)

theorem Reachable.fresh (h : Reachable σ) : σ.Fresh :=
  h.of_moves (fun _ _ _ => rfl) (fun _ _ _ hwf hσ hm => hσ.move hwf hm)
    fun _ _ _ hσ hr => by cases hr <;> exact hσ

/-- What holds of the topic at `tp` and is kept by every operation holds of it
after any moves. -/
theorem Moves.topicStruct {P : TopicStruct → Prop} (hwf : σ.WellFormed) (hfresh : σ.Fresh)
    (tp : Nat) (h : P (σ.topicStructs tp))
    (hmove : ∀ σ₁ domainId t t', t.Consistent [] → P t → TopicMove (A tp) σ₁ domainId t t' → P t')
    (hrefcnt : ∀ t n, P t → P { t with wrapperRefcnt := n })
    (hnew : ∀ rule, P .blank → P (.new rule)) (hm : Moves A σ σ') :
    σ'.WellFormed ∧ σ'.Fresh ∧ P (σ'.topicStructs tp) := by
  induction hm with
  | refl => exact ⟨hwf, hfresh, h⟩
  | tail _ hm ih =>
    obtain ⟨hwf, hfresh, h⟩ := ih
    refine ⟨hwf.move hm, hfresh.move hwf hm, hm.topicStruct hwf tp h (fun w _ _ t' hm => ?_)
      (fun _ _ _ n => hrefcnt _ n h) fun rule hnext _ => hnew rule (hfresh tp hnext.ge ▸ h)⟩
    exact (hm.rec_consistent h (hwf.store tp) fun _ _ hc hP hm => hmove _ _ _ _ hc hP hm).1

/-- **The rule for one topic and one step**, for operations the call is entitled to. -/
theorem Reachable.step_topic {P : TopicStruct → Prop} (hr : Reachable σ) (i : Input) (tp : Nat)
    (h : P (σ.topicStructs tp))
    (hmove : ∀ σ₁ domainId t t', t.Consistent [] → P t →
      TopicMove (Permits σ i.call tp) σ₁ domainId t t' → P t')
    (hrefcnt : ∀ t n, P t → P { t with wrapperRefcnt := n })
    (hnew : ∀ rule, P .blank → P (.new rule)) : P ((step σ i).2.topicStructs tp) := by
  rcases step_moves hr.wellFormed i with hchange | hm
  · generalize (step σ i).2 = σ' at hchange
    cases hchange <;> exact h
  · exact (hm.topicStruct hr.wellFormed hr.fresh tp h hmove hrefcnt hnew).2.2

private theorem evolves_new {t : TopicStruct} {D : Nat → Prop} (h : t.Evolves D .blank)
    (rule : Option Nat) : t.Evolves D (.new rule) :=
  ⟨h.pubsubId, h.entryId, h.entry, h.pub, h.sub⟩

theorem Moves.evolves (hwf : σ.WellFormed) (hfresh : σ.Fresh) (hm : Moves A σ σ') (tp : Nat) :
    (σ.topicStructs tp).Evolves (fun _ => True) (σ'.topicStructs tp) :=
  (hm.topicStruct hwf hfresh tp (.refl _)
    (fun _ _ _ _ hc h hm => h.trans ((hm.evolves hc).mono fun _ _ => trivial))
    (fun t n h => h.trans (.withRefcnt t n)) fun rule h => evolves_new h rule).2.2

/-- **A step makes of a topic** only what `Evolves` allows. -/
theorem Reachable.evolves (h : Reachable σ) (i : Input) (tp : Nat) :
    (σ.topicStructs tp).Evolves (fun _ => True) ((step σ i).2.topicStructs tp) :=
  h.step_topic i tp (.refl _)
    (fun _ _ _ _ hc h hm => h.trans ((hm.evolves hc).mono fun _ _ => trivial))
    (fun t n h => h.trans (.withRefcnt t n)) fun rule h => evolves_new h rule

/-! ## Receive and take as calls -/

/-- The entries that one RECEIVE_MSG hands out. -/
def receiveBatch (σ : Kmod) (t : TopicStruct) (s : SubscriberInfo) : List EntryNode :=
  (deliveryWindow σ t s (s.latestReceivedEntryId + 1)).take maxReceiveNum

/-- **RECEIVE_MSG in a well-formed state**: refused, or the batch is handed out and
the pools are reported. -/
theorem receiveMsg_cases (h : σ.WellFormed) (env : Env) (current : Pid) (topicName : Name)
    (ipcNs : IpcNs) (subscriberId : Int) (size : Nat) :
    (receiveMsg σ env current topicName ipcNs subscriberId size = (.error .EINVAL, σ) ∧
      ∀ w, findTopicForCurrent σ current topicName ipcNs = some w →
        findSubscriberInfo (σ.topicStructs w.topic) subscriberId = none) ∨
    (∃ w s ret t' m, findTopicForCurrent σ current topicName ipcNs = some w ∧
      findSubscriberInfo (σ.topicStructs w.topic) subscriberId = some s ∧
      reportPublisherShm σ env w ((σ.topicStructs w.topic).handOut s.id
        ((receiveBatch σ (σ.topicStructs w.topic) s).map EntryNode.entryId)) s size =
          (ret, t', m) ∧
      receiveMsg σ env current topicName ipcNs subscriberId size =
        (ret.map fun infos =>
          (⟨(receiveBatch σ (σ.topicStructs w.topic) s).map fun en =>
              (en.entryId, en.msgVirtualAddress),
            decide (maxReceiveNum < (deliveryWindow σ (σ.topicStructs w.topic) s
              (s.latestReceivedEntryId + 1)).length)⟩, infos),
          (σ.setTopic w.topic t').setMem m)) := by
  unfold receiveMsg
  rcases fetchMsg_cases env current topicName ipcNs subscriberId size
    (fun t s => receiveMsgCore σ t s subscriberId) (receiveMsgCore_ok h) with
    heq | ⟨w, s, a, t, hw, hs, hret, heq⟩
  · exact .inl heq
  · obtain ⟨hmem, rfl⟩ := HTable.mem_of_lookup hs
    rw [receiveMsgCore_eq (h.store w.topic) hmem] at hret
    cases hret
    exact .inr ⟨w, s, _, _, _, hw, hs, rfl, heq⟩

/-- The entry that one TAKE_MSG hands out, if any. -/
def takeEntry (σ : Kmod) (t : TopicStruct) (s : SubscriberInfo) (allowSameMessage : Bool) :
    Option EntryNode :=
  (deliveryWindow σ t s (takeFrom s allowSameMessage)).head?

/-- **TAKE_MSG in a well-formed state**: refused, or the entry, if there is one, is
handed out and the pools are reported. -/
theorem takeMsg_cases (h : σ.WellFormed) (env : Env) (current : Pid) (topicName : Name)
    (ipcNs : IpcNs) (subscriberId : Int) (allow : Bool) (size : Nat) :
    (takeMsg σ env current topicName ipcNs subscriberId allow size = (.error .EINVAL, σ) ∧
      ∀ w, findTopicForCurrent σ current topicName ipcNs = some w →
        findSubscriberInfo (σ.topicStructs w.topic) subscriberId = none) ∨
    (∃ w s ret t' m, findTopicForCurrent σ current topicName ipcNs = some w ∧
      findSubscriberInfo (σ.topicStructs w.topic) subscriberId = some s ∧
      reportPublisherShm σ env w ((σ.topicStructs w.topic).handOut s.id
        ((takeEntry σ (σ.topicStructs w.topic) s allow).toList.map EntryNode.entryId)) s size =
          (ret, t', m) ∧
      takeMsg σ env current topicName ipcNs subscriberId allow size =
        (ret.map fun infos => ((takeEntry σ (σ.topicStructs w.topic) s allow).map fun en =>
            (en.entryId, en.msgVirtualAddress), infos),
          (σ.setTopic w.topic t').setMem m)) := by
  unfold takeMsg
  rcases fetchMsg_cases env current topicName ipcNs subscriberId size
    (fun t s => takeMsgCore σ t s subscriberId allow) (takeMsgCore_ok h allow) with
    heq | ⟨w, s, a, t, hw, hs, hret, heq⟩
  · exact .inl heq
  · obtain ⟨hmem, rfl⟩ := HTable.mem_of_lookup hs
    rw [takeMsgCore_eq (h.store w.topic) hmem] at hret
    refine .inr ⟨w, s, _, _, _, hw, hs, rfl, ?_⟩
    unfold takeEntry
    cases hentry : (deliveryWindow σ (σ.topicStructs w.topic) s (takeFrom s allow)).head? with
    | none =>
      rw [hentry] at hret
      cases hret
      exact heq
    | some en =>
      rw [hentry] at hret
      cases hret
      exact heq

/-! ## What a run hands out -/

/-- An entry handed out to a subscriber. -/
structure Handout where
  topic : Nat
  subscriberId : Int
  entryId : Int
  addr : Nat
  deriving DecidableEq, Repr

/-- One event of a run of the module. -/
abbrev Event := Transition.Event Kmod Input Reply

/-- The event of a step. -/
def eventOf (σ : Kmod) (i : Input) : Event := ⟨σ, i, (step σ i).1⟩

/-- What the event hands out: the entries in a successful reply to a receive or a
take. -/
def handouts (ev : Event) : List Handout :=
  match ev.input.call, ev.output with
  | .receiveMsg current topicName ipcNs subscriberId _, .received (.ok (reply, _)) =>
    match findTopicForCurrent ev.pre current topicName ipcNs with
    | none => []
    | some w => reply.entries.map fun e => ⟨w.topic, subscriberId, e.1, e.2⟩
  | .takeMsg current topicName ipcNs subscriberId _ _, .taken (.ok (some e, _)) =>
    match findTopicForCurrent ev.pre current topicName ipcNs with
    | none => []
    | some w => [⟨w.topic, subscriberId, e.1, e.2⟩]
  | _, _ => []

/-- The pools that a reply tells the caller to map. -/
def shmInfos : Reply → List PublisherShmInfo
  | .received (.ok (_, infos)) => infos
  | .taken (.ok (_, infos)) => infos
  | _ => []

/-- The call is a TAKE_MSG. -/
def Call.isTake : Call → Bool
  | .takeMsg .. => true
  | _ => false

/-- A receive or a take for subscriber `s` grants `batch` and ends with `ret`, the
topic `t'` and the allocator `m`. -/
structure Fetched (σ : Kmod) (i : Input) (w : TopicWrapper) (s : SubscriberInfo)
    (batch : List EntryNode) (ret : Except Errno (List PublisherShmInfo)) (t' : TopicStruct)
    (m : MemoryAllocator) : Prop where
  wrapper : w ∈ σ.topicHashtable
  subscriber : s ∈ (σ.topicStructs w.topic).subInfoHtable
  sublist : batch.Sublist (σ.topicStructs w.topic).entries
  accepted : ∀ en ∈ batch, accepts σ (σ.topicStructs w.topic) s en = true
  watermark : ∀ en ∈ batch, s.latestReceivedEntryId ≤ en.entryId
  reported : ∃ size, reportPublisherShm σ i.env w
    ((σ.topicStructs w.topic).handOut s.id (batch.map EntryNode.entryId)) s size = (ret, t', m)
  after : (step σ i).2 = (σ.setTopic w.topic t').setMem m
  infos : shmInfos (step σ i).1 = ret.toOption.getD []
  handed : handouts (eventOf σ i) =
    if ret.isOk then batch.map fun en => ⟨w.topic, s.id, en.entryId, en.msgVirtualAddress⟩ else []
  received : i.call.isTake = false → batch = receiveBatch σ (σ.topicStructs w.topic) s

theorem fetchTarget_eq_none {current : Pid} {topicName : Name} {ipcNs : IpcNs} {id : Int}
    (size : Nat) (h : ∀ w, findTopicForCurrent σ current topicName ipcNs = some w →
      findSubscriberInfo (σ.topicStructs w.topic) id = none) :
    fetchTarget σ (.receiveMsg current topicName ipcNs id size) = none := by
  simp only [fetchTarget]
  split
  · rfl
  · next w hw => rw [h w hw]; rfl

/-- **A receive or take with a target** is carried out for it, and answered with what the
report of the pools came to. -/
theorem fetch_answered (h : σ.WellFormed) (i : Input) {w : TopicWrapper} {s : SubscriberInfo}
    (ht : fetchTarget σ i.call = some (w, s)) :
    ∃ batch ret t' m, Fetched σ i w s batch ret t' m ∧ (step σ i).1.isOk = ret.isOk := by
  obtain ⟨env, call⟩ := i
  cases call with
  | receiveMsg current topicName ipcNs id size =>
    rcases receiveMsg_cases h env current topicName ipcNs id size with
      ⟨_, hnone⟩ | ⟨w', s', ret, t', m, hw, hs, hr, heq⟩
    · rw [fetchTarget_eq_none size hnone] at ht
      cases ht
    obtain ⟨rfl, rfl⟩ := Prod.mk.inj (Option.some.inj ((fetchTarget_receiveMsg hw hs).symm.trans ht))
    obtain ⟨hmem, rfl⟩ := HTable.mem_of_lookup hs
    have hstep := congrArg (answer Reply.received) heq
    -- what is handed out and the answer are both read off the one outcome
    have hhanded := congrArg (fun o => handouts
      ⟨σ, ⟨env, .receiveMsg current topicName ipcNs s'.id size⟩, Prod.fst o⟩) hstep
    refine ⟨_, ret, t', m, ⟨(findTopicForCurrent_mem hw).1, hmem,
      (List.take_sublist _ _).trans (deliveryWindow_sublist _), fun en hen => ?_, fun en hen => ?_,
      ⟨size, hr⟩, congrArg Prod.snd hstep,
      (congrArg (fun o => shmInfos (Prod.fst o)) hstep).trans ?_, hhanded.trans ?_,
      fun _ => rfl⟩, (congrArg (fun o => Reply.isOk (Prod.fst o)) hstep).trans ?_⟩
    · exact (mem_deliveryWindow (List.mem_of_mem_take hen)).2.2
    · have := (mem_deliveryWindow (List.mem_of_mem_take hen)).2.1
      omega
    · cases ret <;> rfl
    · cases ret with
      | error e => rfl
      | ok infos =>
        simp only [handouts, answer, Except.map, hw, List.map_map]
        rfl
    · cases ret <;> rfl
  | takeMsg current topicName ipcNs id allow size =>
    rcases takeMsg_cases h env current topicName ipcNs id allow size with
      ⟨_, hnone⟩ | ⟨w', s', ret, t', m, hw, hs, hr, heq⟩
    · have := (fetchTarget_eq_none size hnone).symm.trans ht
      cases this
    obtain ⟨rfl, rfl⟩ := Prod.mk.inj
      (Option.some.inj ((fetchTarget_takeMsg hw hs).symm.trans ht))
    obtain ⟨hmem, rfl⟩ := HTable.mem_of_lookup hs
    have hstep := congrArg (answer Reply.taken) heq
    have hhanded := congrArg (fun o => handouts
      ⟨σ, ⟨env, .takeMsg current topicName ipcNs s'.id allow size⟩, Prod.fst o⟩) hstep
    -- a take hands out the head of its window
    have hentry : ∀ en ∈ (takeEntry σ (σ.topicStructs w'.topic) s' allow).toList,
        en ∈ deliveryWindow σ (σ.topicStructs w'.topic) s' (takeFrom s' allow) :=
      fun en hen => List.mem_of_mem_head? (Option.mem_toList.mp hen)
    refine ⟨_, ret, t', m, ⟨(findTopicForCurrent_mem hw).1, hmem, ?_, fun en hen => ?_,
      fun en hen => ?_, ⟨size, hr⟩, congrArg Prod.snd hstep,
      (congrArg (fun o => shmInfos (Prod.fst o)) hstep).trans ?_, hhanded.trans ?_,
      fun hno => Bool.noConfusion hno⟩,
      (congrArg (fun o => Reply.isOk (Prod.fst o)) hstep).trans ?_⟩
    · cases he : takeEntry σ (σ.topicStructs w'.topic) s' allow with
      | none => exact List.nil_sublist _
      | some en =>
        exact List.singleton_sublist.mpr
          (mem_deliveryWindow (hentry en (by simp [he]))).1
    · exact (mem_deliveryWindow (hentry en hen)).2.2
    · exact (takeFrom_ge s' allow).trans (mem_deliveryWindow (hentry en hen)).2.1
    · cases ret <;> rfl
    · cases ret with
      | error e => rfl
      | ok infos =>
        cases takeEntry σ (σ.topicStructs w'.topic) s' allow <;>
          simp [handouts, answer, Except.map, hw, Except.isOk, Except.toBool]
    · cases ret <;> rfl
  | _ => cases ht

/-- **A receive or take with a target** is carried out for it. -/
theorem fetch_cases (h : σ.WellFormed) (i : Input) {w : TopicWrapper} {s : SubscriberInfo}
    (ht : fetchTarget σ i.call = some (w, s)) :
    ∃ batch ret t' m, Fetched σ i w s batch ret t' m := by
  obtain ⟨batch, ret, t', m, hf, _⟩ := fetch_answered h i ht
  exact ⟨batch, ret, t', m, hf⟩

/-- The call is a RECEIVE_MSG or a TAKE_MSG. -/
def Call.isFetch : Call → Bool
  | .receiveMsg .. => true
  | .takeMsg .. => true
  | _ => false

/-- A receive or a take without a target is refused. -/
theorem fetch_refused (h : σ.WellFormed) (i : Input) (hfetch : i.call.isFetch = true)
    (ht : fetchTarget σ i.call = none) : (step σ i).2 = σ ∧ (step σ i).1.isOk = false := by
  obtain ⟨env, call⟩ := i
  cases call with
  | receiveMsg current topicName ipcNs id size =>
    rcases receiveMsg_cases h env current topicName ipcNs id size with
      ⟨heq, _⟩ | ⟨w, s, ret, t', m, hw, hs, _⟩
    · have hstep := congrArg (answer Reply.received) heq
      exact ⟨congrArg Prod.snd hstep, congrArg (fun o => Reply.isOk (Prod.fst o)) hstep⟩
    · rw [fetchTarget_receiveMsg hw hs] at ht
      cases ht
  | takeMsg current topicName ipcNs id allow size =>
    rcases takeMsg_cases h env current topicName ipcNs id allow size with
      ⟨heq, _⟩ | ⟨w, s, ret, t', m, hw, hs, _⟩
    · have hstep := congrArg (answer Reply.taken) heq
      exact ⟨congrArg Prod.snd hstep, congrArg (fun o => Reply.isOk (Prod.fst o)) hstep⟩
    · have := (fetchTarget_takeMsg hw hs).symm.trans ht
      cases this
  | _ => cases hfetch

/-- Only a receive or a take with a target hands out anything. -/
theorem handouts_eq_nil (h : σ.WellFormed) (i : Input) (ht : fetchTarget σ i.call = none) :
    handouts (eventOf σ i) = [] := by
  obtain ⟨env, call⟩ := i
  cases call with
  | receiveMsg current topicName ipcNs id size =>
    rcases receiveMsg_cases h env current topicName ipcNs id size with
      ⟨heq, _⟩ | ⟨w, s, ret, t', m, hw, hs, _⟩
    · exact congrArg (fun o => handouts ⟨σ, ⟨env, _⟩, Prod.fst (answer Reply.received o)⟩) heq
    · rw [fetchTarget_receiveMsg hw hs] at ht
      cases ht
  | takeMsg current topicName ipcNs id allow size =>
    rcases takeMsg_cases h env current topicName ipcNs id allow size with
      ⟨heq, _⟩ | ⟨w, s, ret, t', m, hw, hs, _⟩
    · exact congrArg (fun o => handouts ⟨σ, ⟨env, _⟩, Prod.fst (answer Reply.taken o)⟩) heq
    · have := (fetchTarget_takeMsg hw hs).symm.trans ht
      cases this
  | _ => rfl

/-- What is handed out was handed out by a receive or a take with a target. -/
theorem handout_cases (h : σ.WellFormed) {i : Input} {ho : Handout}
    (hho : ho ∈ handouts (eventOf σ i)) :
    ∃ w s batch infos t' m, fetchTarget σ i.call = some (w, s) ∧
      Fetched σ i w s batch (.ok infos) t' m ∧
      ∃ en ∈ batch, ho = ⟨w.topic, s.id, en.entryId, en.msgVirtualAddress⟩ := by
  cases ht : fetchTarget σ i.call with
  | none =>
    rw [handouts_eq_nil h i ht] at hho
    cases hho
  | some target =>
    obtain ⟨w, s⟩ := target
    obtain ⟨batch, ret, t', m, hf⟩ := fetch_cases h i ht
    rw [hf.handed] at hho
    cases ret with
    | error e => cases hho
    | ok infos =>
      obtain ⟨en, hen, rfl⟩ := List.mem_map.mp hho
      exact ⟨w, s, batch, infos, t', m, rfl, hf, en, hen, rfl⟩

/-- Reporting the pools changes nothing in the topic but at most the subscriber's
flag. -/
theorem reportPublisherShm_topic {env : Env} {w : TopicWrapper} {t t' : TopicStruct}
    {s : SubscriberInfo} {size : Nat} {ret : Except Errno (List PublisherShmInfo)}
    {m : MemoryAllocator} (h : reportPublisherShm σ env w t s size = (ret, t', m)) :
    t' = t ∨ t' = t.modifySubscriber s.id fun s => { s with needMmapUpdate := false } := by
  unfold reportPublisherShm at h
  split at h
  · exact .inl (Prod.mk.inj (Prod.mk.inj h).2).1.symm
  · split at h
    · exact .inl (Prod.mk.inj (Prod.mk.inj h).2).1.symm
    · exact .inr (Prod.mk.inj (Prod.mk.inj h).2).1.symm

theorem TopicStruct.handOut_entries (t : TopicStruct) (b : Int) (ids : List Int) :
    (t.handOut b ids).entries = (t.grant b ids).entries := by
  unfold TopicStruct.handOut
  cases h : ids.getLast? with
  | none => rw [List.getLast?_eq_none_iff.mp h, TopicStruct.grant_nil]
  | some last => rfl

namespace Fetched

variable {i : Input} {w : TopicWrapper} {s : SubscriberInfo} {batch : List EntryNode}
  {ret : Except Errno (List PublisherShmInfo)} {t' : TopicStruct} {m : MemoryAllocator}

theorem handed_ok {infos : List PublisherShmInfo} (hf : Fetched σ i w s batch (.ok infos) t' m) :
    handouts (eventOf σ i) = batch.map fun en =>
      ⟨w.topic, s.id, en.entryId, en.msgVirtualAddress⟩ := hf.handed

theorem topic (hf : Fetched σ i w s batch ret t' m) :
    (step σ i).2.topicStructs w.topic = t' := by
  rw [hf.after]
  exact Kmod.setTopic_self ..

theorem entries (hf : Fetched σ i w s batch ret t' m) :
    t'.entries = ((σ.topicStructs w.topic).grant s.id (batch.map EntryNode.entryId)).entries := by
  obtain ⟨size, hr⟩ := hf.reported
  rw [← TopicStruct.handOut_entries]
  rcases reportPublisherShm_topic hr with rfl | rfl <;> rfl

/-- Everything granted carries the subscriber's bit afterwards. -/
theorem granted (hf : Fetched σ i w s batch ret t' m) (h : σ.WellFormed) {en : EntryNode}
    (hen : en ∈ batch) : ∃ en' ∈ t'.entries, SameEntry en en' ∧
      s.id ∈ en'.referencingSubscribers.bits := by
  refine ⟨en.setBit s.id, ?_, en.setBit_same s.id, ?_⟩
  · rw [hf.entries]
    refine List.mem_map.mpr ⟨en, hf.sublist.subset hen, if_pos ?_⟩
    exact List.mem_map_of_mem hen
  · rw [EntryNode.setBit_bits en ((h.store w.topic).sub_inRange hf.subscriber)]
    exact Finset.mem_insert_self ..

end Fetched

/-! ## What a run publishes -/

/-- An entry published by a process. -/
structure Publication where
  topic : Nat
  entryId : Int
  pid : Pid
  deriving DecidableEq, Repr

/-- What the event publishes: the entry of a successful PUBLISH_MSG, with the
process of its publisher. -/
def publications (ev : Event) : List Publication :=
  match ev.input.call, ev.output with
  | .publishMsg current topicName ipcNs publisherId _, .published (.ok reply) =>
    match findTopicForCurrent ev.pre current topicName ipcNs with
    | none => []
    | some w =>
      match findPublisherInfo (ev.pre.topicStructs w.topic) publisherId with
      | none => []
      | some p => [⟨w.topic, reply.entryId, p.pid⟩]
  | _, _ => []

/-- **What a publication is**: the next entry id of the topic, appended to the tree. -/
theorem publication_cases (h : σ.WellFormed) {i : Input} {pb : Publication}
    (hpb : pb ∈ publications (eventOf σ i)) :
    ∃ w ∈ σ.topicHashtable, ∃ p ∈ (σ.topicStructs w.topic).pubInfoHtable, ∃ procInfo addr r,
      findProcessInfo σ p.pid = some procInfo ∧
      pb = ⟨w.topic, (σ.topicStructs w.topic).currentEntryId, p.pid⟩ ∧
      ReleaseSpec p.id ((σ.topicStructs w.topic).entries ++
        [newEntryNode (σ.topicStructs w.topic) p addr]) 0 [] r ∧
      (step σ i).2 = σ.setTopic w.topic ((σ.topicStructs w.topic).published p r.entries) := by
  obtain ⟨env, call⟩ := i
  cases call with
  | publishMsg current topicName ipcNs publisherId addr =>
    rcases publishMsg_cases (σ := σ) env current topicName ipcNs publisherId addr with
      ⟨e, heq⟩ | ⟨w, p, procInfo, hw, hp, hproc, _, _, heq⟩ <;>
      have hstep := congrArg (answer Reply.published) heq <;>
      have hpb := congrArg (fun o => publications
        ⟨σ, ⟨env, .publishMsg current topicName ipcNs publisherId addr⟩, Prod.fst o⟩) hstep ▸ hpb
    · cases hpb
    obtain ⟨hmem, rfl⟩ := HTable.mem_of_lookup hp
    rcases publishMsgCore_cases (h.store w.topic) hmem env addr with
      ⟨e, hcore⟩ | ⟨r, hr, ⟨e, hcore⟩ | hcore⟩ <;> rw [hcore] at hpb hstep
    · cases hpb
    · cases hpb
    · simp only [publications, answer, hw, hp, List.mem_singleton] at hpb
      exact ⟨w, (findTopicForCurrent_mem hw).1, p, hmem, procInfo, addr, r, hproc, hpb, hr,
        congrArg Prod.snd hstep⟩
  | _ => cases hpb

end Agnocast
