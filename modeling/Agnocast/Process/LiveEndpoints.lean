import Agnocast.Process.ExitCleanup
import Agnocast.Rules.NodeNames

/-!
# The processes — endpoints of a running process

A process keeps the ids of its endpoints and names them in later calls. As long as it runs and
nobody else removes them, it finds the same endpoints under them.

* `keeps_publisher_step`      — a publisher of a live process stays.
* `publisher_origin_step`     — a new publisher comes from ADD_PUBLISHER for its cell.
* `addPublisher_answered`, `addSubscriber_answered` — what the process finds under the id that it is
  answered.
* `one_wrapper`, `names_step` — a topic has one wrapper for a domain, and keeps its namespace.
-/

namespace Agnocast

open Relation

variable {σ σ' : Kmod} {t t' : TopicStruct} {i : Input} {tp : Nat}

/-! ## Wrappers of a topic -/

/-- **A topic has one wrapper** for a domain. -/
theorem one_wrapper (hr : Reachable σ) {w w' : TopicWrapper} (hw : w ∈ σ.topicHashtable)
    (hw' : w' ∈ σ.topicHashtable) (htopic : w.topic = w'.topic)
    (hdomain : w.domainId = w'.domainId) : w = w' := by
  rcases (hr.grouped.shared w hw w' hw').mp htopic with rfl | ⟨r, -, hpairs⟩
  · rfl
  · -- a rule pairs cells of different domains
    have hlt := (σ.domainRules r).canonical
    have hpartner := hpairs.2
    unfold DomainBridgeRule.partnerCell at hpartner
    split at hpartner
    · next hdom =>
      have hother := congrArg Cell.domainId (Option.some.inj hpartner)
      have hself : w.domainId = (σ.domainRules r).domainA := hdom
      have hother : (σ.domainRules r).domainB = w'.domainId := hother
      omega
    · split at hpartner
      · next hdom =>
        have hother := congrArg Cell.domainId (Option.some.inj hpartner)
        have hself : w.domainId = (σ.domainRules r).domainB := hdom
        have hother : (σ.domainRules r).domainA = w'.domainId := hother
        omega
      · cases hpartner

/-- `f` gives the namespace of every topic that has a wrapper. -/
def NamesTopics (f : Nat → IpcNs) (σ : Kmod) : Prop :=
  ∀ w ∈ σ.topicHashtable, f w.topic = w.ipcNs

/-- A partner cell is of the same namespace. -/
private theorem partnerCell_ipcNs {rule : DomainBridgeRule} {c partner : Cell}
    (h : rule.partnerCell c = some partner) : partner.ipcNs = c.ipcNs := by
  unfold DomainBridgeRule.partnerCell at h
  split at h
  · exact (congrArg Cell.ipcNs (Option.some.inj h)).symm
  · split at h
    · exact (congrArg Cell.ipcNs (Option.some.inj h)).symm
    · cases h

private theorem names_move {A : Nat → Action → Prop} (hwf : σ.WellFormed) (hm : Move A σ σ')
    {f : Nat → IpcNs} (h : NamesTopics f σ) :
    ∃ f', (∀ tp < σ.nextTopicPtr, f' tp = f tp) ∧ NamesTopics f' σ' := by
  cases hm with
  | topic => exact ⟨f, fun _ _ => rfl, h⟩
  | @join place c tp hnew hg =>
    refine ⟨f, fun _ _ => rfl, fun w hw => ?_⟩
    rcases HTable.mem_hashAdd.mp hw with rfl | hw
    · obtain ⟨r, partner, w', hr, hpartner, hw', rfl⟩ := findGroupedTopicStruct_mem hg
      obtain ⟨hmem, rfl⟩ := findTopic_mem hw'
      exact (h w' hmem).trans (partnerCell_ipcNs hpartner)
    · exact h w hw
  | @create place c hnew hg =>
    refine ⟨Function.update f σ.nextTopicPtr c.ipcNs,
      fun tp htp => Function.update_of_ne (Nat.ne_of_lt htp) _ _, fun w hw => ?_⟩
    rcases HTable.mem_hashAdd.mp hw with rfl | hw
    · exact Function.update_self _ _ _
    · rw [Function.update_of_ne (Nat.ne_of_lt (hwf.topic_lt w hw))]
      exact h w hw
  | release => exact ⟨f, fun _ _ => rfl, fun w hw => h w (HTable.mem_hashDel.mp hw).1⟩
  | world hsame => exact ⟨f, fun _ _ => rfl, fun w hw => h w (hsame.topicHashtable ▸ hw)⟩

/-- **A topic keeps its namespace.** -/
theorem names_step (hr : Reachable σ) (i : Input) {f : Nat → IpcNs} (h : NamesTopics f σ) :
    ∃ f', (∀ tp < σ.nextTopicPtr, f' tp = f tp) ∧ NamesTopics f' (step σ i).2 := by
  rcases step_moves hr.wellFormed i with hrule | hm
  · refine ⟨f, fun _ _ => rfl, ?_⟩
    generalize (step σ i).2 = σ' at hrule
    cases hrule <;> exact h
  · generalize (step σ i).2 = σ' at hm
    induction hm with
    | refl => exact ⟨f, fun _ _ => rfl, h⟩
    | @tail σ₁ σ₂ hms hm ih =>
      obtain ⟨f₁, hold, h₁⟩ := ih
      have hle : σ.nextTopicPtr ≤ σ₁.nextTopicPtr := by
        clear hold h₁ hm
        induction hms with
        | refl => exact le_rfl
        | tail _ hm ih => exact ih.trans hm.nextTopicPtr_le
      obtain ⟨f₂, hold', h₂⟩ := names_move (hr.wellFormed.moves hms) hm h₁
      exact ⟨f₂, fun tp htp => (hold' tp (htp.trans_le hle)).trans (hold tp htp), h₂⟩

/-! ## Publishers -/

/-- The call leaves the publisher `id` of the topic alone. -/
def LeavesPublisher (σ : Kmod) (call : Call) (tp : Nat) (id : Int) : Prop :=
  ∀ current topicName ipcNs w, call = .removePublisher current topicName ipcNs id →
    findTopicForCurrent σ current topicName ipcNs = some w → w.topic ≠ tp

/-- **A publisher stays** while its process is alive and nobody removes it. -/
theorem TopicStep.keeps_publisher (hstep : TopicStep σ i tp t t') (hc : t.Consistent [])
    {p : PublisherInfo} (hp : p ∈ t.pubInfoHtable) (hlive : processGone σ p.pid = false)
    (hleaves : LeavesPublisher σ i.call tp p.id) (hexit : i.call ≠ .processExitCleanup p.pid) :
    ∃ p' ∈ t'.pubInfoHtable, p'.id = p.id := by
  cases hstep with
  | same => exact ⟨p, hp, rfl⟩
  | addSubscriber =>
    obtain ⟨p', hp', hsame⟩ := HTable.exists_of_forall₂ (insertSubscriberInfo_pubs ..).flip hp
    have hsame : Renotified p p' := hsame
    exact ⟨p', hp', hsame.same.id_eq⟩
  | @addPublisher topicName ipcNs args hcall σ₁ =>
    rcases insertPublisherInfo_cases (σ := σ₁) i.env t (getProcessDomainId σ args.pid) args with
      ⟨e, heq⟩ | ⟨e, _, heq⟩ | ⟨capacity, _, _, heq⟩ <;> rw [heq]
    · exact ⟨p, hp, rfl⟩
    · exact ⟨p, hp, rfl⟩
    · exact ⟨p, HTable.mem_hashAdd.mpr (.inr hp), rfl⟩
  | @publishMsg q hq addr hA =>
    -- publishing counts the entry at its publisher and keeps the table otherwise
    have hpublished : ∀ r : ReleaseLoop, ∃ p' ∈ (t.published q r.entries).pubInfoHtable,
        p'.id = p.id := by
      intro r
      by_cases hid : p.id = q.id
      · exact ⟨_, HTable.mem_modify_of_eq hp hid, rfl⟩
      · exact ⟨p, HTable.mem_modify_of_ne hp hid, rfl⟩
    rcases publishMsgCore_cases hc hq i.env addr with ⟨e, heq⟩ | ⟨r, _, ⟨e, heq⟩ | heq⟩ <;> rw [heq]
    · exact ⟨p, hp, rfl⟩
    · exact hpublished r
    · exact hpublished r
  | fetchMsg ht _ htp hf =>
    subst htp ht
    exact ⟨p, hf.pubs.1 ▸ hp, rfl⟩
  | releaseReference => exact ⟨p, hp, rfl⟩
  | @removeSubscriber s hs hA =>
    obtain ⟨-, -, hframe⟩ := unlinkSubscriberInfo_frame (σ := σ) t s
    obtain ⟨p₁, hp₁, hsame, -⟩ := hframe p hp
    refine ⟨p₁, clear_keeps_live (hc.unlinkSubscriberInfo s) s.id hp₁ ?_, hsame.id_eq⟩
    exact hsame.pid_eq.symm ▸ hlive
  | @removePublisher q hq current topicName ipcNs w hcall hw htp =>
    have hne : p.id ≠ q.id := fun heq => hleaves current topicName ipcNs w (heq ▸ hcall) hw htp
    exact ⟨p, (hc.mem_dropPublisher hq).mpr (.inl ⟨hp, hne⟩), rfl⟩
  | setRos2SubscriberNum => exact ⟨p, hp, rfl⟩
  | setRos2PublisherNum => exact ⟨p, hp, rfl⟩
  | @processExit pid q hcall hq σ₁ hprocs =>
    -- the exit takes publishers of its own process only, or of processes gone before
    have hne : p.pid ≠ pid := fun heq => hexit (heq ▸ hcall)
    rw [show (step σ i).2 = processExitCleanup σ pid by rw [step, hcall]] at hprocs
    refine visitTopic_keeps_live hc hp hne (Bool.not_eq_true _ ▸ fun hgone => ?_)
    rcases (processGone_of_exit hq hprocs).mp hgone with heq | hgone
    · exact hne heq
    · rw [hlive] at hgone
      cases hgone

theorem keeps_publisher_step (hr : Reachable σ) (i : Input) {p : PublisherInfo}
    (hp : p ∈ (σ.topicStructs tp).pubInfoHtable) (hlive : processGone σ p.pid = false)
    (hleaves : LeavesPublisher σ i.call tp p.id) (hexit : i.call ≠ .processExitCleanup p.pid) :
    ∃ p' ∈ ((step σ i).2.topicStructs tp).pubInfoHtable, SamePublisher p p' := by
  obtain ⟨t, t', hbefore, hstep, hafter⟩ := step_topicStep hr i tp
  have hc := hbefore.consistent (hr.wellFormed.store tp)
  have hp : p ∈ t.pubInfoHtable := hbefore.pubs ▸ hp
  obtain ⟨p', hp', hid⟩ := hstep.keeps_publisher hc hp hlive hleaves hexit
  refine ⟨p', hafter.pubs ▸ hp', ?_⟩
  -- the id was given out before the step, so it is still the same publisher
  rcases hstep.pub_from hr.wellFormed hc hp' with ⟨p₀, hp₀, hsame⟩ | ⟨_, _, _, _, hnew, _⟩
  · rwa [HTable.eq_of_key_eq hc.pubs_nodup hp hp₀ (hid.symm.trans hsame.id_eq)]
  · exact absurd (hc.pub_id p hp).2 (by omega)

/-- ADD_PUBLISHER answers with an id: its cell has a wrapper, and the publisher is in the topic
under that id; whatever else is there was there before. -/
theorem addPublisher_answered {env : Env} {topicName : Name} {ipcNs : IpcNs} {args : PublisherArgs}
    {id : Int} (h : (addPublisher σ env topicName ipcNs args).1 = .ok id) :
    ∃ w ∈ (addPublisher σ env topicName ipcNs args).2.topicHashtable,
      w.cell = ⟨topicName, ipcNs, getProcessDomainId σ args.pid⟩ ∧
      ∃ p ∈ ((addPublisher σ env topicName ipcNs args).2.topicStructs w.topic).pubInfoHtable,
        p.id = id ∧ p.pid = args.pid ∧ p.isBridge = args.isBridge ∧ p.domainId = w.domainId := by
  rcases addPublisher_cases (σ := σ) env topicName ipcNs args with
    ⟨e, heq, _⟩ | ⟨w, σ₁, hadd, ⟨e, t, hret, heq⟩ | ⟨id', t, hret, heq⟩⟩ <;> rw [heq] at h ⊢
  · cases h
  · cases h
  · obtain rfl : id' = id := Except.ok.inj h
    have hw := (addTopic_moves (σ := σ) (A := fun _ _ => True) env
      ⟨topicName, ipcNs, getProcessDomainId σ args.pid⟩).2 w (by rw [hadd])
    rw [hadd] at hw
    refine ⟨w, hw.1, hw.2, ?_⟩
    rw [Kmod.setTopic_self]
    rcases insertPublisherInfo_cases (σ := σ₁) env (σ₁.topicStructs w.topic) w.domainId args with
      ⟨e, hins⟩ | ⟨e, _, hins⟩ | ⟨capacity, _, _, hins⟩ <;> rw [hins] at hret <;> cases hret
    exact ⟨_, HTable.mem_hashAdd.mpr (.inl rfl), rfl, rfl, rfl, rfl⟩

/-- ADD_SUBSCRIBER answers with an id: likewise. -/
theorem addSubscriber_answered {env : Env} {topicName : Name} {ipcNs : IpcNs}
    {args : SubscriberArgs} {eventfd id : Int}
    (h : (addSubscriber σ env topicName ipcNs args eventfd).1 = .ok id) :
    ∃ w ∈ (addSubscriber σ env topicName ipcNs args eventfd).2.topicHashtable,
      w.cell = ⟨topicName, ipcNs, getProcessDomainId σ args.pid⟩ ∧
      ∃ s ∈ ((addSubscriber σ env topicName ipcNs args eventfd).2.topicStructs
          w.topic).subInfoHtable,
        s.id = id ∧ s.pid = args.pid ∧ s.isBridge = args.isBridge ∧ s.domainId = w.domainId ∧
          s.ignoreLocalPublications = args.ignoreLocalPublications := by
  rcases addSubscriber_cases (σ := σ) env topicName ipcNs args eventfd with
    ⟨⟨e, heq⟩, _⟩ | ⟨ctx, w, σ₁, _, _, hadd, heq⟩ <;> rw [heq] at h ⊢
  · cases h
  -- the wrapper is the one of the cell
  · have hw := (addTopic_moves (σ := σ) (A := fun _ _ => True) env
      ⟨topicName, ipcNs, getProcessDomainId σ args.pid⟩).2 w (by rw [hadd])
    rw [hadd] at hw
    refine ⟨w, hw.1, hw.2, ?_⟩
    rw [Kmod.setTopic_self]
    rcases insertSubscriberInfo_cases (σ := σ₁) env (σ₁.topicStructs w.topic) w.domainId args ctx
      with ⟨e, pubs, _, hins⟩ | ⟨pubs, _, _, _, _, hins⟩ <;> rw [hins] at h ⊢
    · cases h
    · obtain rfl : _ = id := Except.ok.inj h
      have hmem : newSubscriberInfo (σ₁.topicStructs w.topic) w.domainId args ctx ∈
          HTable.hashAdd (env.place .subInfo) (σ₁.topicStructs w.topic).subInfoHtable
            (newSubscriberInfo (σ₁.topicStructs w.topic) w.domainId args ctx) :=
        HTable.mem_hashAdd.mpr (.inl rfl)
      refine ⟨newSubscriberInfo (σ₁.topicStructs w.topic) w.domainId args ctx, ?_, rfl, rfl, rfl,
        rfl, rfl⟩
      simp only
      split <;> exact hmem

/-- **Where a publisher of a topic comes from**: it was there under the same wrapper, or the call
adds it to the wrapper's cell. -/
theorem publisher_origin_step (hr : Reachable σ) {i : Input} {w : TopicWrapper}
    (hw : w ∈ (step σ i).2.topicHashtable) {p' : PublisherInfo}
    (hp' : p' ∈ ((step σ i).2.topicStructs w.topic).pubInfoHtable)
    (hdomain : p'.domainId = w.domainId) :
    (w ∈ σ.topicHashtable ∧ ∃ p ∈ (σ.topicStructs w.topic).pubInfoHtable, SamePublisher p p') ∨
    ∃ topicName ipcNs args, i.call = .addPublisher topicName ipcNs args ∧
      w.cell = ⟨topicName, ipcNs, getProcessDomainId σ args.pid⟩ ∧
      p'.id = (σ.topicStructs w.topic).currentPubsubId ∧ p'.pid = args.pid ∧
      p'.isBridge = args.isBridge := by
  have hr' : Reachable (step σ i).2 := Transition.Reachable.step hr i
  obtain ⟨t, t', hbefore, hstep, hafter⟩ := step_topicStep hr i w.topic
  have hc := hbefore.consistent (hr.wellFormed.store w.topic)
  rcases hstep.pub_origin hr.wellFormed hc (hafter.pubs ▸ hp') with
    ⟨p, hp, hsame⟩ | ⟨topicName, ipcNs, args, capacity, hcall, hnew⟩
  · -- an old publisher keeps its wrapper, and the topic has no other one for the domain
    have hp : p ∈ (σ.topicStructs w.topic).pubInfoHtable := hbefore.pubs ▸ hp
    obtain ⟨w₀, hw₀, htopic, hdom₀⟩ := hr.wellFormed.pub_domain w.topic p hp
    have hkept : w₀ ∈ (step σ i).2.topicHashtable :=
      keeps_publisher_wrapper_step hr i hw₀ (htopic.symm ▸ hp) (htopic.symm ▸ hp') hsame hdom₀.symm
    have hdom : w₀.domainId = w.domainId :=
      hdom₀.trans (hsame.domainId_eq.symm.trans hdomain)
    obtain rfl := one_wrapper hr' hkept hw htopic hdom
    exact .inl ⟨hw₀, p, hp, hsame⟩
  · -- a new one is in the topic that ADD_PUBLISHER found or made for its cell
    have hid : p'.id = (σ.topicStructs w.topic).currentPubsubId :=
      hnew.id_eq.trans hbefore.pubsubId
    have hnot : p' ∉ (σ.topicStructs w.topic).pubInfoHtable := fun hp =>
      absurd ((hr.wellFormed.store w.topic).pub_id p' hp).2 (by omega)
    obtain ⟨env, call⟩ := i
    obtain rfl : call = _ := hcall
    have hafter : (step σ ⟨env, .addPublisher topicName ipcNs args⟩).2 =
      (addPublisher σ env topicName ipcNs args).2 := rfl
    -- the wrapper of the cell is the one whose topic the new publisher is in
    have hcell : ∀ w₁ σ₁ t₁, addTopic σ env ⟨topicName, ipcNs, getProcessDomainId σ args.pid⟩ =
        (.ok w₁, σ₁) → (addPublisher σ env topicName ipcNs args).2 = σ₁.setTopic w₁.topic t₁ →
        w.cell = ⟨topicName, ipcNs, getProcessDomainId σ args.pid⟩ := by
      intro w₁ σ₁ t₁ hadd heq
      have hw₁ := (addTopic_moves (σ := σ) (A := fun _ _ => True) env
        ⟨topicName, ipcNs, getProcessDomainId σ args.pid⟩).2 w₁ (by rw [hadd])
      rw [hadd] at hw₁
      rw [hafter, heq] at hr' hw hp'
      by_cases htopic : w.topic = w₁.topic
      · have hdom : w.domainId = w₁.domainId :=
          hdomain.symm.trans (hnew.domainId_eq.trans (congrArg Cell.domainId hw₁.2).symm)
        rw [one_wrapper hr' hw hw₁.1 htopic hdom]
        exact hw₁.2
      · rw [Kmod.setTopic_of_ne _ _ _ htopic,
          (addTopic_sameStore hr.fresh hadd w.topic).pubs] at hp'
        exact absurd hp' hnot
    refine .inr ⟨topicName, ipcNs, args, rfl, ?_, hid, hnew.pid_eq, hnew.isBridge_eq⟩
    rcases addPublisher_cases (σ := σ) env topicName ipcNs args with
      ⟨e, heq, _⟩ | ⟨w₁, σ₁, hadd, ⟨e, t₁, _, heq⟩ | ⟨id, t₁, _, heq⟩⟩
    · rw [hafter, heq] at hp'
      exact absurd hp' hnot
    · exact hcell w₁ σ₁ t₁ hadd (by rw [heq])
    · exact hcell w₁ σ₁ _ hadd (by rw [heq])

end Agnocast
