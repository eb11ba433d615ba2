import Agnocast.Agnocastlib.SubscriptionEvents
import Agnocast.Lib.Bag

/-!
# The client library — subscriptions, numbers and the kernel agree

What every step of a subscriber process keeps, whatever the wake-ups do: the kernel has the
subscriber of a subscription that has not removed it, the registry holds infos of registered
subscriptions, the number of an open subscription is that of its own eventfd, and an epoll
watches what was prepared.

* `…_cases`    — how each function of the process ends.
* `Stands`     — the subscriber of a subscription.
* `Sound`      — the invariant.
* `Sound.step` — every step keeps it, as long as the others leave the process alone.
-/

namespace Agnocast

variable {pid : Pid} {ipcNs : IpcNs} {σ : Kmod} {x : SubscriberProcess} {c : Nat}

/-! ## The subscriber in the kernel -/

/-- The process finds the topic of the subscription, and in it the subscriber `s` that was
added for the subscription. -/
structure CallbackSubscription.Stands (pid : Pid) (ipcNs : IpcNs) (sub : CallbackSubscription)
    (w : TopicWrapper) (s : SubscriberInfo) (σ : Kmod) : Prop where
  wrapper : findTopicForCurrent σ pid sub.topicName ipcNs = some w
  subscriber : s ∈ (σ.topicStructs w.topic).subInfoHtable
  id : s.id = sub.id
  pid : s.pid = pid
  domain : s.domainId = w.domainId
  notifyCtx : s.notifyCtx = some sub.eventfd

/-- Only a REMOVE_SUBSCRIBER takes a subscriber out. -/
theorem not_permits_leave {call : Call} {tp : Nat} {id : Int}
    (h : ∀ current topicName ns id', call ≠ .removeSubscriber current topicName ns id') :
    ¬ Permits σ call tp (.leave id) := by
  rintro ⟨_, _, _, _, heq, _⟩
  exact h _ _ _ _ heq

/-- The fields of a subscription that never change. -/
def SameSubscription (sub sub' : CallbackSubscription) : Prop :=
  sub' = { sub with callbackInfoId := sub'.callbackInfoId, stage := sub'.stage }

section

variable {sub sub' : CallbackSubscription} {w w' : TopicWrapper} {s s' : SubscriberInfo}

theorem SameSubscription.refl (sub : CallbackSubscription) : SameSubscription sub sub := rfl

theorem SameSubscription.topicName_eq (h : SameSubscription sub sub') :
    sub'.topicName = sub.topicName := by rw [h]
theorem SameSubscription.id_eq (h : SameSubscription sub sub') : sub'.id = sub.id := by rw [h]
theorem SameSubscription.notifyEventfd_eq (h : SameSubscription sub sub') :
    sub'.notifyEventfd = sub.notifyEventfd := by rw [h]
theorem SameSubscription.eventfd_eq (h : SameSubscription sub sub') :
    sub'.eventfd = sub.eventfd := by rw [h]
theorem SameSubscription.isTransientLocal_eq (h : SameSubscription sub sub') :
    sub'.isTransientLocal = sub.isTransientLocal := by rw [h]

namespace CallbackSubscription

theorem Stands.same (h : sub.Stands pid ipcNs w s σ) (hsame : SameSubscription sub sub') :
    sub'.Stands pid ipcNs w s σ :=
  ⟨hsame.topicName_eq ▸ h.wrapper, h.subscriber, h.id.trans hsame.id_eq.symm, h.pid, h.domain,
    hsame.eventfd_eq ▸ h.notifyCtx⟩

theorem Stands.of_same (h : sub'.Stands pid ipcNs w s σ) (hsame : SameSubscription sub sub') :
    sub.Stands pid ipcNs w s σ :=
  ⟨hsame.topicName_eq ▸ h.wrapper, h.subscriber, h.id.trans hsame.id_eq, h.pid, h.domain,
    hsame.eventfd_eq ▸ h.notifyCtx⟩

/-- There is one such subscriber. -/
theorem Stands.unique (hr : Reachable σ) (h : sub.Stands pid ipcNs w s σ)
    (h' : sub.Stands pid ipcNs w' s' σ) : w = w' ∧ s = s' := by
  obtain rfl : w = w' := Option.some.inj (h.wrapper.symm.trans h'.wrapper)
  exact ⟨rfl, HTable.eq_of_key_eq (hr.wellFormed.store w.topic).subs_nodup h.subscriber
    h'.subscriber (h.id.trans h'.id.symm)⟩

/-- It stays when nobody removes it and the process stays registered. -/
theorem Stands.step (h : sub.Stands pid ipcNs w s σ) (hr : Reachable σ) {i : Input}
    (hprocess : ∃ p, findProcessInfo σ pid = some p ∧ p.role ≠ .unlinkDaemon)
    (hexit : i.call ≠ .processExitCleanup pid)
    (hcommit : ∀ ns callerPid, i.call ≠ .commitExitProcess ns pid callerPid)
    (hleave : ¬ Permits σ i.call w.topic (.leave sub.id)) :
    ∃ s', sub.Stands pid ipcNs w s' (Agnocast.step σ i).2 ∧ SameSubscriber s s' := by
  have hspare : SparesSubscriber σ i.call w.topic s := ⟨h.id ▸ hleave, h.pid ▸ hexit⟩
  obtain ⟨s', hs', hsame⟩ := keeps_subscriber_step hr i h.subscriber hspare
  have hdomain := (process_stays hr hprocess hexit hcommit).2
  refine ⟨s', ⟨finds_topic_step hr i h.wrapper hdomain h.subscriber hs' hsame h.domain, hs',
    hsame.id_eq.trans h.id, hsame.pid_eq.trans h.pid, hsame.domainId_eq.trans h.domain, ?_⟩, hsame⟩
  exact hsame.notifyCtx_eq.trans h.notifyCtx

end CallbackSubscription

end

/-! ## The infos -/

/-- The info was made for the subscription. -/
structure CallbackInfo.MadeFor (info : CallbackInfo) (sub : CallbackSubscription) : Prop where
  topicName : info.topicName = sub.topicName
  id : info.subscriberId = sub.id
  notifyEventfd : info.notifyEventfd = sub.notifyEventfd
  isTransientLocal : info.isTransientLocal = sub.isTransientLocal

/-- The info that a work carries. -/
def ReceiveWork.info? : ReceiveWork → Option CallbackInfo
  | .event _ => none
  | .copied _ info | .drained _ info | .executable _ info | .received _ info _ _ => some info

theorem CallbackInfo.MadeFor.same {info : CallbackInfo} {sub sub' : CallbackSubscription}
    (h : info.MadeFor sub) (hsame : SameSubscription sub sub') : info.MadeFor sub' :=
  ⟨h.topicName.trans hsame.topicName_eq.symm, h.id.trans hsame.id_eq.symm,
    h.notifyEventfd.trans hsame.notifyEventfd_eq.symm,
    h.isTransientLocal.trans hsame.isTransientLocal_eq.symm⟩

namespace SubscriberProcess

/-! ## How the functions end -/

/-- **How `register_callback` ends**: it throws before the registry is written, or it
writes. -/
theorem registerCallback_cases (c : Nat) :
    x.registerCallback c = x ∨
    ∃ sub next, x.subscriptions c = some sub ∧ sub.stage = .initialized ∧
      (x.registerCallback c =
        { x.setSubscription c { sub with stage := .unregistered } with nextCallbackInfoId := next } ∨
      ∃ id info sub', sub' = { sub with callbackInfoId := id, stage := .registered } ∧
        info.callback = c ∧ info.MadeFor sub ∧ info.needEpollUpdate = true ∧
        x.registerCallback c =
          { x.setSubscription c sub' with
            nextCallbackInfoId := next
            id2CallbackInfo := Function.update x.id2CallbackInfo id (some info) }) := by
  unfold SubscriberProcess.registerCallback
  cases hsub : x.subscriptions c with
  | none => exact .inl rfl
  | some sub =>
    dsimp only
    by_cases hstage : sub.stage ≠ .initialized
    · exact .inl (if_pos hstage)
    rw [if_neg hstage]
    refine .inr ⟨sub, (x.nextCallbackInfoId + 1) % 2 ^ 32, rfl, not_not.mp hstage, ?_⟩
    split
    · exact .inl rfl
    · exact .inr ⟨x.nextCallbackInfoId, _, _, rfl, rfl, ⟨rfl, rfl, rfl, rfl⟩, rfl, rfl⟩

theorem eraseCallbackInfo_cases (c : Nat) :
    x.eraseCallbackInfo c = x ∨
    ∃ sub, x.subscriptions c = some sub ∧ sub.stage = .registered ∧ x.eraseCallbackInfo c =
      { x.setSubscription c { sub with stage := .unregistered } with
        id2CallbackInfo := Function.update x.id2CallbackInfo sub.callbackInfoId none } := by
  unfold SubscriberProcess.eraseCallbackInfo
  cases hsub : x.subscriptions c with
  | none => exact .inl rfl
  | some sub =>
    by_cases hstage : sub.stage = .registered
    · exact .inr ⟨sub, rfl, hstage, if_pos hstage⟩
    · exact .inl (if_neg hstage)

variable (pid ipcNs) in
theorem removeSubscriber_cases (c : Nat) :
    x.removeSubscriber pid ipcNs c = x ∨
    ∃ sub, x.subscriptions c = some sub ∧ sub.stage = .unregistered ∧
      x.removeSubscriber pid ipcNs c =
        ((x.setSubscription c { sub with stage := .removed }).ioctl
          (removeSubscriberInput pid ipcNs sub)).2 := by
  unfold SubscriberProcess.removeSubscriber
  cases hsub : x.subscriptions c with
  | none => exact .inl rfl
  | some sub =>
    by_cases hstage : sub.stage = .unregistered
    · exact .inr ⟨sub, rfl, hstage, if_pos hstage⟩
    · exact .inl (if_neg hstage)

theorem closeNotifyEventfd_cases (c : Nat) :
    x.closeNotifyEventfd c = x ∨
    ∃ sub, x.subscriptions c = some sub ∧ sub.stage = .removed ∧ x.closeNotifyEventfd c =
      { x.setSubscription c { sub with stage := .closed } with
        eventfds := Function.update x.eventfds sub.notifyEventfd none
        interest := x.interest.filter fun p => x.eventfds sub.notifyEventfd ≠ some p.1 } := by
  unfold SubscriberProcess.closeNotifyEventfd
  cases hsub : x.subscriptions c with
  | none => exact .inl rfl
  | some sub =>
    by_cases hstage : sub.stage = .removed
    · exact .inr ⟨sub, rfl, hstage, if_pos hstage⟩
    · exact .inl (if_neg hstage)

/-- The handler finds the number closed, or the counter at zero, or it drains it. -/
theorem readEventfd_cases (id : Nat) (info : CallbackInfo) :
    x.readEventfd id info = x.exit ∨
    ∃ ctx, x.eventfds info.notifyEventfd = some ctx ∧
      (x.counters ctx = 0 ∧ x.readEventfd id info = x.replaceWork (.copied id info) [] ∨
        x.readEventfd id info =
          { x.replaceWork (.copied id info) [.drained id info] with
            counters := Function.update x.counters ctx 0 }) := by
  unfold SubscriberProcess.readEventfd
  cases hctx : x.eventfds info.notifyEventfd with
  | none => exact .inl rfl
  | some ctx =>
    refine .inr ⟨ctx, rfl, ?_⟩
    by_cases hzero : x.counters ctx = 0
    · exact .inl ⟨hzero, if_pos hzero⟩
    · exact .inr (if_neg hzero)

variable (pid ipcNs) in
/-- The ioctl of an executable fails, or the thread goes into its loop. -/
theorem receiveMsg_cases (env : Env) (id : Nat) (info : CallbackInfo) :
    let y := (x.ioctl (receiveMsgInput pid ipcNs env info)).2
    x.receiveMsg pid ipcNs env id info = y.exit ∨
    ∃ reply infos, Agnocast.receiveMsg x.kmod env pid info.topicName ipcNs info.subscriberId
        maxPublisherNum = (.ok (reply, infos), y.kmod) ∧
      x.receiveMsg pid ipcNs env id info =
        y.replaceWork (.executable id info)
          [.received id info reply.entries reply.callAgain] := by
  intro y
  unfold SubscriberProcess.receiveMsg
  cases hcall : Agnocast.receiveMsg x.kmod env pid info.topicName ipcNs info.subscriberId
    maxPublisherNum with
  | mk ret σ' =>
    obtain rfl : σ' = y.kmod := (congrArg Prod.snd hcall).symm
    have hreply : x.ioctl (receiveMsgInput pid ipcNs env info) = (.received ret, y) :=
      Prod.ext (congrArg (fun r => (answer Reply.received r).1) hcall) rfl
    rw [hreply]
    cases ret with
    | error e => exact .inl rfl
    | ok out => exact .inr ⟨out.1, out.2, rfl, rfl⟩

/-! ## The invariant -/

/-- The registry, the objects, the numbers and the kernel agree. -/
structure Sound (pid : Pid) (ipcNs : IpcNs) (x : SubscriberProcess) : Prop where
  reachable : Reachable x.kmod
  process : ∃ p, findProcessInfo x.kmod pid = some p ∧ p.role ≠ .unlinkDaemon
  fresh : ∀ c sub, x.subscriptions c = some sub →
    c < x.nextSubscription ∧ sub.eventfd < x.nextEventfd
  distinct : ∀ c c' sub sub', x.subscriptions c = some sub → x.subscriptions c' = some sub' →
    sub.eventfd = sub'.eventfd → c = c'
  stands : ∀ c sub, x.subscriptions c = some sub → sub.inKernel →
    ∃ w s, sub.Stands pid ipcNs w s x.kmod
  opened : ∀ c sub, x.subscriptions c = some sub → sub.stage ≠ .closed →
    x.eventfds sub.notifyEventfd = some sub.eventfd
  registered : ∀ id info, x.id2CallbackInfo id = some info →
    ∃ sub, x.subscriptions info.callback = some sub ∧ info.MadeFor sub ∧
      sub.stage = .registered ∧ sub.callbackInfoId = id
  working : ∀ wk ∈ x.work, ∀ info, wk.info? = some info →
    ∃ sub, x.subscriptions info.callback = some sub ∧ info.MadeFor sub ∧ sub.stage ≠ .initialized
  watched : ∀ id info, x.id2CallbackInfo id = some info → info.needEpollUpdate = false →
    x.Armed id info
  /-- What is watched was prepared. -/
  prepared : ∀ p ∈ x.interest, ∃ c sub, x.subscriptions c = some sub ∧ sub.eventfd = p.1 ∧
    sub.stage ≠ .initialized ∧
      ∀ id info, x.id2CallbackInfo id = some info → info.callback = c → info.needEpollUpdate = false

theorem Sound.idle (hr : Reachable σ)
    (hprocess : ∃ p, findProcessInfo σ pid = some p ∧ p.role ≠ .unlinkDaemon) :
    (SubscriberProcess.idle σ).Sound pid ipcNs := by
  refine ⟨hr, hprocess, ?_, ?_, ?_, ?_, ?_, ?_, ?_, ?_⟩
  · exact fun c sub hsub => by cases hsub
  · exact fun c c' sub sub' hsub => by cases hsub
  · exact fun c sub hsub => by cases hsub
  · exact fun c sub hsub => by cases hsub
  · exact fun id info hinfo => by cases hinfo
  · exact fun wk hwk => by cases hwk
  · exact fun id info hinfo => by cases hinfo
  · exact fun p hp => by cases hp

namespace Sound

variable (h : x.Sound pid ipcNs)
include h

/-- Only a registered subscription is in the registry. -/
theorem not_in_registry {sub : CallbackSubscription} (hsub : x.subscriptions c = some sub)
    (hstage : sub.stage ≠ .registered) {id : Nat} {info : CallbackInfo}
    (hid : x.id2CallbackInfo id = some info) : info.callback ≠ c := by
  intro hc
  obtain ⟨e, he, _, hregistered, _⟩ := h.registered id info hid
  obtain rfl : sub = e := Option.some.inj (hsub.symm.trans (hc ▸ he))
  exact hstage hregistered

/-- The subscriber that the kernel removes is that of the subscription. -/
theorem leaves {sub sub' : CallbackSubscription} {c' : Nat} (hsub : x.subscriptions c = some sub)
    (hin : sub.inKernel) (hsub' : x.subscriptions c' = some sub') (hin' : sub'.inKernel)
    {w' : TopicWrapper} (hw' : findTopicForCurrent x.kmod pid sub'.topicName ipcNs = some w')
    (hleave : Permits x.kmod (removeSubscriberInput pid ipcNs sub).call w'.topic (.leave sub'.id)) :
    c = c' := by
  obtain ⟨w, s, hs⟩ := h.stands c sub hsub hin
  obtain ⟨v', s', hs'⟩ := h.stands c' sub' hsub' hin'
  obtain ⟨current, topicName, ns, v, hcall, hv, htopic⟩ := hleave
  injection hcall with hcurrent hname hns hid
  subst hcurrent hname hns
  obtain rfl : w = v := Option.some.inj (hs.wrapper.symm.trans hv)
  obtain rfl : w' = v' := Option.some.inj (hw'.symm.trans hs'.wrapper)
  have hmem := hs.subscriber
  rw [htopic] at hmem
  -- one subscriber of the topic has this id, and its context says whose it is
  have heq := HTable.eq_of_key_eq (h.reachable.wellFormed.store w'.topic).subs_nodup hmem
    hs'.subscriber (hs.id.trans (hid.trans hs'.id.symm))
  have hctx := hs.notifyCtx.symm.trans (heq ▸ hs'.notifyCtx)
  exact h.distinct c c' sub sub' hsub hsub' (Option.some.inj hctx)

/-- A call that ends neither the process nor a subscriber of it. -/
theorem ioctl {i : Input} (hexit : i.call ≠ .processExitCleanup pid)
    (hcommit : ∀ ns callerPid, i.call ≠ .commitExitProcess ns pid callerPid)
    (hleave : ∀ c sub, x.subscriptions c = some sub → sub.inKernel →
      ∀ w, findTopicForCurrent x.kmod pid sub.topicName ipcNs = some w →
        ¬ Permits x.kmod i.call w.topic (.leave sub.id)) :
    (x.ioctl i).2.Sound pid ipcNs :=
  { h with
    reachable := h.reachable.step i
    process := (process_stays h.reachable h.process hexit hcommit).1
    stands := fun c sub hsub hin => by
      obtain ⟨w, s, hs⟩ := h.stands c sub hsub hin
      obtain ⟨s', hs', _⟩ := hs.step h.reachable h.process hexit hcommit
        (hleave c sub hsub hin w hs.wrapper)
      exact ⟨w, s', hs'⟩ }

/-- Neither the queues nor the counters are looked at, apart from the infos in them. -/
theorem withWork (ws : List ReceiveWork) (hws : ∀ wk ∈ ws, ∀ info, wk.info? = some info →
      (∃ wk' ∈ x.work, wk'.info? = some info) ∨ ∃ id, x.id2CallbackInfo id = some info)
    (counters : EventfdCtx → Nat) (exited : Bool) :
    { x with work := ws, counters := counters, exited := exited }.Sound pid ipcNs :=
  { h with
    working := fun wk hwk info hinfo => by
      rcases hws wk hwk info hinfo with ⟨wk', hwk', hinfo'⟩ | ⟨id, hid⟩
      · exact h.working wk' hwk' info hinfo'
      · obtain ⟨sub, hsub, hmade, hstage, _⟩ := h.registered id info hid
        exact ⟨sub, hsub, hmade, by rw [hstage]; exact fun heq => by cases heq⟩ }

theorem exit : x.exit.Sound pid ipcNs :=
  h.withWork x.work (fun wk hwk _ hinfo => .inl ⟨wk, hwk, hinfo⟩) x.counters true

/-- A subscription goes on, and is not in the registry unless it is registered there. -/
theorem setSubscription {sub : CallbackSubscription} (sub' : CallbackSubscription)
    (hsub : x.subscriptions c = some sub) (hsame : SameSubscription sub sub') (hkernel : sub'.inKernel → sub.inKernel)
    (hopen : sub.stage ≠ .closed) (hinit : sub'.stage ≠ .initialized)
    (hregistered : ∀ id info, x.id2CallbackInfo id = some info → info.callback = c →
      sub'.stage = .registered ∧ sub'.callbackInfoId = id) :
    (x.setSubscription c sub').Sound pid ipcNs := by
  -- what is true of all subscriptions comes from the one before, and of the others as it is
  have hold : ∀ d e, (x.setSubscription c sub').subscriptions d = some e →
      ∃ e₀, x.subscriptions d = some e₀ ∧ SameSubscription e₀ e ∧
        (e.inKernel → e₀.inKernel) ∧ (e.stage ≠ .closed → e₀.stage ≠ .closed) := by
    intro d e he
    by_cases hd : d = c
    · subst hd
      obtain rfl : sub' = e := by simpa [SubscriberProcess.setSubscription] using he
      exact ⟨sub, hsub, hsame, hkernel, fun _ => hopen⟩
    · have he : x.subscriptions d = some e := by
        simpa [SubscriberProcess.setSubscription, Function.update_of_ne hd] using he
      exact ⟨e, he, .refl e, id, id⟩
  have hnew : ∀ d e, x.subscriptions d = some e → d ≠ c →
      (x.setSubscription c sub').subscriptions d = some e := fun d e he hd => by
    simpa [SubscriberProcess.setSubscription, Function.update_of_ne hd] using he
  have hself : (x.setSubscription c sub').subscriptions c = some sub' := by
    simp [SubscriberProcess.setSubscription]
  refine { h with
    fresh := ?_, distinct := ?_, stands := ?_, opened := ?_, registered := ?_, working := ?_
    prepared := ?_ }
  · intro d e he
    obtain ⟨e₀, he₀, hsame₀, _⟩ := hold d e he
    exact hsame₀.eventfd_eq ▸ h.fresh d e₀ he₀
  · intro d d' e e' he he' heq
    obtain ⟨e₀, he₀, hsame₀, _⟩ := hold d e he
    obtain ⟨e₁, he₁, hsame₁, _⟩ := hold d' e' he'
    exact h.distinct d d' e₀ e₁ he₀ he₁ (by rw [← hsame₀.eventfd_eq, heq, hsame₁.eventfd_eq])
  · intro d e he hin
    obtain ⟨e₀, he₀, hsame₀, hk, _⟩ := hold d e he
    obtain ⟨w, s, hs⟩ := h.stands d e₀ he₀ (hk hin)
    exact ⟨w, s, hs.same hsame₀⟩
  · intro d e he hstage
    obtain ⟨e₀, he₀, hsame₀, _, ho⟩ := hold d e he
    rw [hsame₀.eventfd_eq, hsame₀.notifyEventfd_eq]
    exact h.opened d e₀ he₀ (ho hstage)
  · intro id info hid
    obtain ⟨e, he, hmade, hstage⟩ := h.registered id info hid
    by_cases hc : info.callback = c
    · obtain rfl : sub = e := Option.some.inj (hsub.symm.trans (hc ▸ he))
      exact ⟨sub', hc ▸ hself, hmade.same hsame, hregistered id info hid hc⟩
    · exact ⟨e, hnew _ e he hc, hmade, hstage⟩
  · intro wk hwk info hinfo
    obtain ⟨e, he, hmade, hstage⟩ := h.working wk hwk info hinfo
    by_cases hc : info.callback = c
    · obtain rfl : sub = e := Option.some.inj (hsub.symm.trans (hc ▸ he))
      exact ⟨sub', hc ▸ hself, hmade.same hsame, hinit⟩
    · exact ⟨e, hnew _ e he hc, hmade, hstage⟩
  · intro p hp
    obtain ⟨d, e, he, hctx, hstage, hall⟩ := h.prepared p hp
    by_cases hc : d = c
    · subst hc
      obtain rfl : sub = e := Option.some.inj (hsub.symm.trans he)
      exact ⟨d, sub', hself, hsame.eventfd_eq.trans hctx, hinit, hall⟩
    · exact ⟨d, e, hnew d e he hc, hctx, hstage, hall⟩

theorem openEventfd {fd : Int} (hfd : x.eventfds fd = none) :
    (x.openEventfd fd).Sound pid ipcNs := by
  have hkeep : ∀ fd' ctx, x.eventfds fd' = some ctx → (x.openEventfd fd).eventfds fd' = some ctx := by
    intro fd' ctx hctx
    have hne : fd' ≠ fd := fun heq => by rw [heq, hfd] at hctx; cases hctx
    simpa [SubscriberProcess.openEventfd, Function.update_of_ne hne] using hctx
  exact { h with
    fresh := fun c sub hsub => ⟨(h.fresh c sub hsub).1, Nat.lt_succ_of_lt (h.fresh c sub hsub).2⟩
    opened := fun c sub hsub hstage => hkeep _ _ (h.opened c sub hsub hstage)
    watched := fun id info hid hneed => by
      obtain ⟨ctx, hctx, hmem⟩ := h.watched id info hid hneed
      exact ⟨ctx, hkeep _ _ hctx, hmem⟩ }

/-- A subscription that nobody has heard of, over the eventfd that was opened last. -/
theorem newSubscription {sub : CallbackSubscription} (hstage : sub.stage = .initialized)
    (hlast : ∀ c' sub', x.subscriptions c' = some sub' → sub'.eventfd < sub.eventfd)
    (hlt : sub.eventfd < x.nextEventfd) (hstands : ∃ w s, sub.Stands pid ipcNs w s x.kmod)
    (hopen : x.eventfds sub.notifyEventfd = some sub.eventfd) :
    { x.setSubscription x.nextSubscription sub with
      nextSubscription := x.nextSubscription + 1 }.Sound pid ipcNs := by
  -- the number is new, so every other subscription is as before
  have hold : ∀ d e, (x.setSubscription x.nextSubscription sub).subscriptions d = some e →
      d = x.nextSubscription ∧ e = sub ∨ x.subscriptions d = some e := by
    intro d e he
    by_cases hd : d = x.nextSubscription
    · subst hd
      refine .inl ⟨rfl, ?_⟩
      simpa [SubscriberProcess.setSubscription] using he.symm
    · refine .inr ?_
      simpa [SubscriberProcess.setSubscription, Function.update_of_ne hd] using he
  have hkeep : ∀ d e, x.subscriptions d = some e →
      (x.setSubscription x.nextSubscription sub).subscriptions d = some e := by
    intro d e he
    simpa [SubscriberProcess.setSubscription, Function.update_of_ne (h.fresh d e he).1.ne] using he
  refine { h with
    fresh := ?_, distinct := ?_, stands := ?_, opened := ?_, registered := ?_, working := ?_
    prepared := ?_ }
  · intro d e he
    rcases hold d e he with ⟨rfl, rfl⟩ | he
    · exact ⟨Nat.lt_succ_self _, hlt⟩
    · exact ⟨Nat.lt_succ_of_lt (h.fresh d e he).1, (h.fresh d e he).2⟩
  · intro d d' e e' he he' heq
    rcases hold d e he with ⟨rfl, rfl⟩ | hold₁ <;> rcases hold d' e' he' with ⟨rfl, rfl⟩ | hold₂
    · rfl
    · exact absurd heq (hlast d' e' hold₂).ne'
    · exact absurd heq (hlast d e hold₁).ne
    · exact h.distinct d d' e e' hold₁ hold₂ heq
  · intro d e he hin
    rcases hold d e he with ⟨rfl, rfl⟩ | he
    · exact hstands
    · exact h.stands d e he hin
  · intro d e he hd
    rcases hold d e he with ⟨rfl, rfl⟩ | he
    · exact hopen
    · exact h.opened d e he hd
  · intro id info hid
    obtain ⟨e, he, hrest⟩ := h.registered id info hid
    exact ⟨e, hkeep _ e he, hrest⟩
  · intro wk hwk info hinfo
    obtain ⟨e, he, hrest⟩ := h.working wk hwk info hinfo
    exact ⟨e, hkeep _ e he, hrest⟩
  · intro p hp
    obtain ⟨d, e, he, hrest⟩ := h.prepared p hp
    exact ⟨d, e, hkeep d e he, hrest⟩

/-- **How `initialize` ends**: before the ioctl, with an error of it, or with a subscription
over a new eventfd, whose subscriber has nothing undelivered if it is volatile. -/
theorem initializeSubscription_cases (env : Env) (topicName : Name) (args : SubscriberArgs)
    (fd : Int) :
    x.initializeSubscription pid ipcNs env topicName args fd = x ∨
    x.eventfds fd = none ∧
      let y := x.openEventfd fd
      let i := y.addSubscriberInput pid ipcNs env topicName args fd
      let z := (y.ioctl i).2
      x.initializeSubscription pid ipcNs env topicName args fd = z.exit ∨
      ∃ sub w s, sub.stage = .initialized ∧ sub.notifyEventfd = fd ∧ sub.eventfd = x.nextEventfd ∧
        sub.Stands pid ipcNs w s z.kmod ∧
        (sub.isTransientLocal = false → undelivered z.kmod (z.kmod.topicStructs w.topic) s = []) ∧
        x.initializeSubscription pid ipcNs env topicName args fd =
          { z.setSubscription z.nextSubscription sub with
            nextSubscription := z.nextSubscription + 1 } := by
  unfold SubscriberProcess.initializeSubscription
  split
  · exact .inl rfl
  next hfd =>
  -- `eventfd` gives a number that the process does not use
  have hfree : x.eventfds fd = none := by
    cases hctx : x.eventfds fd with
    | none => rfl
    | some ctx => exact absurd (.inr (by simp [hctx])) hfd
  refine .inr ⟨hfree, ?_⟩
  dsimp only
  -- `y` has the eventfd open, `z` is after the ioctl
  generalize hy : x.openEventfd fd = y
  have hopened : y.eventfdGet fd = .ok x.nextEventfd := by
    simp [← hy, SubscriberProcess.openEventfd, eventfdGet]
  have hreachable : Reachable y.kmod := by
    rw [← hy]
    exact h.reachable
  generalize hz : (y.ioctl (y.addSubscriberInput pid ipcNs env topicName args fd)).2 = z
  cases hadd : addSubscriber y.kmod { env with eventfdGet := y.eventfdGet } topicName ipcNs
    { args with pid := pid, isTakeSub := false } fd with
  | mk ret σ' =>
    obtain rfl : σ' = z.kmod := by
      rw [← hz]
      exact (congrArg Prod.snd hadd).symm
    have hreply : y.ioctl (y.addSubscriberInput pid ipcNs env topicName args fd) =
        (.endpointAdded ret, z) :=
      Prod.ext (congrArg (fun r => (answer Reply.endpointAdded r).1) hadd) hz
    rw [hreply]
    cases ret with
    -- `initialize` exits when the ioctl fails
    | error e => exact .inl rfl
    | ok id =>
      obtain ⟨w, s, hw, hs, hid, hpid, hdomain, hctx, hvolatile⟩ :=
        addSubscriber_ok hreachable rfl hopened hadd
      exact .inr ⟨⟨topicName, id, args.qosIsTransientLocal, fd, x.nextEventfd, 0, .initialized⟩, w,
        s, rfl, rfl, rfl, ⟨hw, hs, hid, hpid, hdomain, hctx⟩, hvolatile, rfl⟩

theorem addSubscriberInput (env : Env) (topicName : Name) (args : SubscriberArgs) (fd : Int) :
    (x.ioctl (x.addSubscriberInput pid ipcNs env topicName args fd)).2.Sound pid ipcNs :=
  h.ioctl (fun heq => by cases heq) (fun _ _ heq => by cases heq)
    fun _ _ _ _ _ _ => not_permits_leave fun _ _ _ _ heq => by cases heq

theorem initializeSubscription (env : Env) (topicName : Name) (args : SubscriberArgs) (fd : Int) :
    (x.initializeSubscription pid ipcNs env topicName args fd).Sound pid ipcNs := by
  rcases h.initializeSubscription_cases env topicName args fd with heq | ⟨hfree, hcases⟩
  · rw [heq]
    exact h
  have hz := (h.openEventfd hfree).addSubscriberInput env topicName args fd
  rcases hcases with heq | ⟨sub, w, s, hstage, hnumber, hctx, hstands, _, heq⟩ <;> rw [heq]
  · exact hz.exit
  · refine hz.newSubscription hstage (fun c' sub' hsub' => ?_) ?_ ⟨w, s, hstands⟩ ?_
    · exact hctx ▸ (h.fresh c' sub' hsub').2
    · exact hctx ▸ Nat.lt_succ_self _
    · rw [hnumber, hctx]
      simp [SubscriberProcess.ioctl, SubscriberProcess.openEventfd]

theorem erase (id : Nat) :
    { x with id2CallbackInfo := Function.update x.id2CallbackInfo id none }.Sound pid ipcNs := by
  have hold : ∀ id' info, Function.update x.id2CallbackInfo id none id' = some info →
      x.id2CallbackInfo id' = some info := by
    intro id' info hinfo
    by_cases hid : id' = id
    · subst hid
      simp at hinfo
    · rwa [Function.update_of_ne hid] at hinfo
  exact { h with
    registered := fun id' info hinfo => h.registered id' info (hold id' info hinfo)
    watched := fun id' info hinfo => h.watched id' info (hold id' info hinfo)
    prepared := fun p hp => by
      obtain ⟨d, e, he, hctx, hstage, hall⟩ := h.prepared p hp
      exact ⟨d, e, he, hctx, hstage, fun id' info hinfo => hall id' info (hold id' info hinfo)⟩ }

/-- The registry gets the info of a subscription that no epoll watches. -/
theorem insert (sub : CallbackSubscription) (info : CallbackInfo)
    (hsub : x.subscriptions info.callback = some sub) (hmade : info.MadeFor sub)
    (hneed : info.needEpollUpdate = true) (hstage : sub.stage = .registered)
    (hunwatched : ∀ p ∈ x.interest, p.1 ≠ sub.eventfd) :
    { x with id2CallbackInfo :=
        Function.update x.id2CallbackInfo sub.callbackInfoId (some info) }.Sound pid ipcNs := by
  have hold : ∀ id' info', Function.update x.id2CallbackInfo sub.callbackInfoId (some info) id' =
      some info' → id' = sub.callbackInfoId ∧ info' = info ∨ x.id2CallbackInfo id' = some info' := by
    intro id' info' hinfo
    by_cases hid : id' = sub.callbackInfoId
    · subst hid
      exact .inl ⟨rfl, by simpa using hinfo.symm⟩
    · rw [Function.update_of_ne hid] at hinfo
      exact .inr hinfo
  refine { h with registered := ?_, watched := ?_, prepared := ?_ }
  · intro id' info' hinfo
    rcases hold id' info' hinfo with ⟨rfl, rfl⟩ | hinfo
    · exact ⟨sub, hsub, hmade, hstage, rfl⟩
    · exact h.registered id' info' hinfo
  · intro id' info' hinfo hneed'
    rcases hold id' info' hinfo with ⟨rfl, rfl⟩ | hinfo
    · rw [hneed] at hneed'
      cases hneed'
    · exact h.watched id' info' hinfo hneed'
  · intro p hp
    obtain ⟨d, e, he, hctx, hstage', hall⟩ := h.prepared p hp
    refine ⟨d, e, he, hctx, hstage', fun id' info' hinfo hd => ?_⟩
    rcases hold id' info' hinfo with ⟨rfl, rfl⟩ | hinfo
    · obtain rfl : sub = e := Option.some.inj (hsub.symm.trans (hd ▸ he))
      exact absurd hctx.symm (hunwatched p hp)
    · exact hall id' info' hinfo hd

/-- The number of a removed subscription is given back. -/
theorem close {sub : CallbackSubscription} (hsub : x.subscriptions c = some sub)
    (hstage : sub.stage = .removed) :
    { x.setSubscription c { sub with stage := .closed } with
      eventfds := Function.update x.eventfds sub.notifyEventfd none
      interest := x.interest.filter fun p => x.eventfds sub.notifyEventfd ≠ some p.1 }.Sound
        pid ipcNs := by
  have hfile := h.opened c sub hsub (by simp [hstage])
  have hy := h.setSubscription { sub with stage := .closed } hsub rfl
    (by simp [CallbackSubscription.inKernel]) (by simp [hstage]) (by simp)
    fun _ _ hid hc => absurd hc (h.not_in_registry hsub (by simp [hstage]) hid)
  have hself : (x.setSubscription c { sub with stage := .closed }).subscriptions c =
      some { sub with stage := .closed } := by simp [SubscriberProcess.setSubscription]
  -- the file of another open subscription is another one, and so is its number
  have hother : ∀ d e, (x.setSubscription c { sub with stage := .closed }).subscriptions d = some e →
      e.stage ≠ .closed → e.eventfd ≠ sub.eventfd ∧ e.notifyEventfd ≠ sub.notifyEventfd := by
    intro d e he hopen
    have hne : e.eventfd ≠ sub.eventfd := fun heq => by
      obtain rfl := hy.distinct d c e _ he hself heq
      rw [Option.some.inj (he.symm.trans hself)] at hopen
      exact hopen rfl
    refine ⟨hne, fun heq => hne ?_⟩
    have := hy.opened d e he hopen
    rw [heq] at this
    exact (Option.some.inj (hfile.symm.trans this)).symm
  refine { hy with opened := ?_, watched := ?_, prepared := ?_ }
  · intro d e he hopen
    exact (Function.update_of_ne (hother d e he hopen).2 _ _).trans (hy.opened d e he hopen)
  · intro id info hid hneed
    obtain ⟨e, he, hmade, hregistered, _⟩ := hy.registered id info hid
    obtain ⟨hne, hnumber⟩ := hother _ e he (by simp [hregistered])
    obtain ⟨ctx, hctx, hmem⟩ := hy.watched id info hid hneed
    have hopened := hy.opened _ e he (by simp [hregistered])
    rw [← hmade.notifyEventfd] at hopened hnumber
    obtain rfl : ctx = e.eventfd := Option.some.inj (hctx.symm.trans hopened)
    refine ⟨e.eventfd, (Function.update_of_ne hnumber _ _).trans hctx, ?_⟩
    exact List.mem_filter.mpr ⟨hmem, by simpa [hfile] using hne.symm⟩
  · intro p hp
    exact hy.prepared p (List.mem_filter.mp hp).1

/-- **An info that is not prepared can be armed**: its number is open, and no epoll watches
the file behind it. -/
theorem prepareEpoll_eq {id : Nat} {info : CallbackInfo} (hid : x.id2CallbackInfo id = some info)
    (hneed : info.needEpollUpdate = true) : ∃ sub, x.subscriptions info.callback = some sub ∧
      info.MadeFor sub ∧ sub.callbackInfoId = id ∧
      x.eventfds info.notifyEventfd = some sub.eventfd ∧ x.prepareEpoll id true =
        { x with
          id2CallbackInfo :=
            Function.update x.id2CallbackInfo id (some { info with needEpollUpdate := false })
          interest := (sub.eventfd, id) :: x.interest
          work := if info.isTransientLocal then .executable id info :: x.work else x.work } := by
  obtain ⟨sub, hsub, hmade, hstage, hcid⟩ := h.registered id info hid
  have hopened := h.opened _ sub hsub (by simp [hstage])
  rw [← hmade.notifyEventfd] at hopened
  have hunwatched : sub.eventfd ∉ x.interest.map Prod.fst := by
    intro hmem
    obtain ⟨p, hp, hctx⟩ := List.mem_map.mp hmem
    obtain ⟨d, e, he, heq, _, hall⟩ := h.prepared p hp
    obtain rfl := h.distinct d info.callback e sub he hsub (heq.trans hctx)
    have := hall id info hid rfl
    rw [hneed] at this
    cases this
  refine ⟨sub, hsub, hmade, hcid, hopened, ?_⟩
  unfold SubscriberProcess.prepareEpoll
  rw [hid]
  dsimp only
  rw [if_neg (by simp [hneed]), if_neg (by simp), hopened]
  exact if_neg hunwatched

/-- **How an entry of `prepare_epoll` ends**: passed over, or armed. -/
theorem prepareEpoll_cases (id : Nat) (validated : Bool) :
    x.prepareEpoll id validated = x ∨
    ∃ info sub, x.id2CallbackInfo id = some info ∧ info.needEpollUpdate = true ∧
      x.subscriptions info.callback = some sub ∧ info.MadeFor sub ∧ sub.callbackInfoId = id ∧
      x.eventfds info.notifyEventfd = some sub.eventfd ∧
      x.prepareEpoll id validated =
        { x with
          id2CallbackInfo :=
            Function.update x.id2CallbackInfo id (some { info with needEpollUpdate := false })
          interest := (sub.eventfd, id) :: x.interest
          work := if info.isTransientLocal then .executable id info :: x.work else x.work } := by
  cases hid : x.id2CallbackInfo id with
  | none =>
    left
    unfold SubscriberProcess.prepareEpoll
    rw [hid]
  | some info =>
    cases hneed : info.needEpollUpdate with
    | false =>
      left
      unfold SubscriberProcess.prepareEpoll
      rw [hid]
      exact if_pos hneed
    | true =>
      cases validated with
      | false =>
        left
        unfold SubscriberProcess.prepareEpoll
        rw [hid]
        exact (if_neg (by simp [hneed])).trans (if_pos rfl)
      | true =>
        obtain ⟨sub, hsub, hmade, hcid, hopened, heq⟩ := h.prepareEpoll_eq hid hneed
        exact .inr ⟨info, sub, rfl, hneed, hsub, hmade, hcid, hopened, heq⟩

theorem prepareEpoll (id : Nat) (validated : Bool) :
    (x.prepareEpoll id validated).Sound pid ipcNs := by
  rcases h.prepareEpoll_cases id validated with heq |
    ⟨info, sub, hid, hneed, hsub, hmade, hcid, hfile, heq⟩ <;> rw [heq]
  · exact h
  -- only the flag of this info has changed
  have hold : ∀ id' info', Function.update x.id2CallbackInfo id
      (some { info with needEpollUpdate := false }) id' = some info' →
        id' = id ∧ info' = { info with needEpollUpdate := false } ∨
          id' ≠ id ∧ x.id2CallbackInfo id' = some info' := by
    intro id' info' hinfo
    by_cases hne : id' = id
    · subst hne
      exact .inl ⟨rfl, by simpa using hinfo.symm⟩
    · rw [Function.update_of_ne hne] at hinfo
      exact .inr ⟨hne, hinfo⟩
  have hstage : sub.stage = .registered := by
    obtain ⟨e, he, _, hstage, _⟩ := h.registered id info hid
    rwa [Option.some.inj (hsub.symm.trans he)]
  refine { h with registered := ?_, working := ?_, watched := ?_, prepared := ?_ }
  · intro id' info' hinfo
    rcases hold id' info' hinfo with ⟨rfl, rfl⟩ | ⟨_, hinfo⟩
    · exact ⟨sub, hsub, ⟨hmade.1, hmade.2, hmade.3, hmade.4⟩, hstage, hcid⟩
    · exact h.registered id' info' hinfo
  · intro wk hwk info' hinfo
    by_cases htransient : info.isTransientLocal = true
    · rw [if_pos htransient] at hwk
      rcases List.mem_cons.mp hwk with rfl | hwk
      · obtain rfl : info = info' := Option.some.inj hinfo
        exact ⟨sub, hsub, hmade, by simp [hstage]⟩
      · exact h.working wk hwk info' hinfo
    · rw [if_neg htransient] at hwk
      exact h.working wk hwk info' hinfo
  · intro id' info' hinfo hneed'
    rcases hold id' info' hinfo with ⟨rfl, rfl⟩ | ⟨_, hinfo⟩
    · exact ⟨sub.eventfd, hfile, List.mem_cons_self⟩
    · obtain ⟨ctx, hctx, hmem⟩ := h.watched id' info' hinfo hneed'
      exact ⟨ctx, hctx, List.mem_cons_of_mem _ hmem⟩
  · intro p hp
    rcases List.mem_cons.mp hp with rfl | hp
    · refine ⟨info.callback, sub, hsub, rfl, by simp [hstage], fun id' info' hinfo hcallback => ?_⟩
      rcases hold id' info' hinfo with ⟨_, rfl⟩ | ⟨hne, hinfo⟩
      · rfl
      · -- the subscription is in the registry under one id
        obtain ⟨e, he, _, _, hcid'⟩ := h.registered id' info' hinfo
        obtain rfl : sub = e := Option.some.inj (hsub.symm.trans (hcallback ▸ he))
        exact absurd (hcid'.symm.trans hcid) hne
    · obtain ⟨d, e, he, hctx, hstage', hall⟩ := h.prepared p hp
      refine ⟨d, e, he, hctx, hstage', fun id' info' hinfo hcallback => ?_⟩
      rcases hold id' info' hinfo with ⟨_, rfl⟩ | ⟨_, hinfo⟩
      · rfl
      · exact hall id' info' hinfo hcallback

/-- A work is replaced by others with its info. -/
theorem replaceWork {wk : ReceiveWork} {ws : List ReceiveWork} (hws : ∀ wk' ∈ ws, ∀ info,
      wk'.info? = some info → (∃ wk'' ∈ x.work, wk''.info? = some info) ∨
        ∃ id, x.id2CallbackInfo id = some info) (counters : EventfdCtx → Nat) :
    { x.replaceWork wk ws with counters := counters }.Sound pid ipcNs :=
  h.withWork (Bag.replace x.work wk ws) (fun wk' hwk' info hinfo => by
    rcases Bag.mem_replace hwk' with hwk' | hwk'
    · exact hws wk' hwk' info hinfo
    · exact .inl ⟨wk', hwk', hinfo⟩) counters x.exited

/-- A step on a work passes its info on. -/
theorem passOn (wk : ReceiveWork) {ws : List ReceiveWork} (hmem : wk ∈ x.work)
    (hws : ∀ wk' ∈ ws, wk'.info? = wk.info?) (counters : EventfdCtx → Nat) :
    { x.replaceWork wk ws with counters := counters }.Sound pid ipcNs :=
  h.replaceWork (fun wk' hwk' _ hinfo => .inl ⟨wk, hmem, hws wk' hwk' ▸ hinfo⟩) counters

theorem registerCallback (c : Nat) : (x.registerCallback c).Sound pid ipcNs := by
  rcases x.registerCallback_cases c with heq | ⟨sub, next, hsub, hstage, hcases⟩
  · rwa [heq]
  -- it is not in the registry, and no epoll watches its file
  have hnone : ∀ id info, x.id2CallbackInfo id = some info → info.callback ≠ c :=
    fun _ _ hid => h.not_in_registry hsub (by simp [hstage]) hid
  have hunwatched : ∀ p ∈ x.interest, p.1 ≠ sub.eventfd := by
    intro p hp hctx
    obtain ⟨d, e, he, heq, hne, _⟩ := h.prepared p hp
    obtain rfl := h.distinct d c e sub he hsub (heq.trans hctx)
    exact hne (Option.some.inj (hsub.symm.trans he) ▸ hstage)
  rcases hcases with heq | ⟨id, info, sub', rfl, rfl, hmade, hneed, heq⟩ <;> rw [heq]
  · have := h.setSubscription { sub with stage := .unregistered } hsub rfl
      (fun _ => .inl hstage) (by simp [hstage]) (by simp) fun id info' hid hc =>
        absurd hc (hnone id info' hid)
    exact { this with }
  · have hset := h.setSubscription { sub with callbackInfoId := id, stage := .registered } hsub rfl
      (fun _ => .inl hstage) (by simp [hstage]) (by simp) fun id info' hid hc =>
        absurd hc (hnone id info' hid)
    have := hset.insert { sub with callbackInfoId := id, stage := .registered } info
      (by simp [SubscriberProcess.setSubscription]) (hmade.same rfl) hneed rfl hunwatched
    exact { this with }

theorem eraseCallbackInfo (c : Nat) : (x.eraseCallbackInfo c).Sound pid ipcNs := by
  rcases x.eraseCallbackInfo_cases c with heq | ⟨sub, hsub, hstage, heq⟩ <;> rw [heq]
  · exact h
  refine (h.erase sub.callbackInfoId).setSubscription { sub with stage := .unregistered } hsub rfl (fun _ => .inr (.inl hstage))
    (by simp [hstage]) (by simp) fun id info hid hc => ?_
  have hne : id ≠ sub.callbackInfoId := fun heq => by simp [heq] at hid
  obtain ⟨e, he, _, _, hcid⟩ := (h.erase sub.callbackInfoId).registered id info hid
  obtain rfl : sub = e := Option.some.inj (hsub.symm.trans (hc ▸ he))
  exact absurd hcid.symm hne

theorem closeNotifyEventfd (c : Nat) : (x.closeNotifyEventfd c).Sound pid ipcNs := by
  rcases x.closeNotifyEventfd_cases c with heq | ⟨sub, hsub, hstage, heq⟩ <;> rw [heq]
  · exact h
  · exact h.close hsub hstage

/-- The subscription that is to be removed is out of the kernel's account before the ioctl,
which removes none of the others. -/
theorem removing {sub : CallbackSubscription} (hsub : x.subscriptions c = some sub)
    (hstage : sub.stage = .unregistered) :
    let y := x.setSubscription c { sub with stage := .removed }
    y.Sound pid ipcNs ∧ ∀ d e, y.subscriptions d = some e → e.inKernel →
      ∀ w, findTopicForCurrent y.kmod pid e.topicName ipcNs = some w →
        ¬ Permits y.kmod (removeSubscriberInput pid ipcNs sub).call w.topic (.leave e.id) := by
  intro y
  have hin : sub.inKernel := .inr (.inr hstage)
  refine ⟨h.setSubscription { sub with stage := .removed } hsub rfl
    (by simp [CallbackSubscription.inKernel]) (by simp [hstage]) (by simp) fun _ _ hid hc =>
      absurd hc (h.not_in_registry hsub (by simp [hstage]) hid), fun d e he hin' w hw hleave => ?_⟩
  by_cases hd : d = c
  · subst hd
    obtain rfl : _ = e := by simpa [y, SubscriberProcess.setSubscription] using he
    simp [CallbackSubscription.inKernel] at hin'
  · have he : x.subscriptions d = some e := by
      simpa [y, SubscriberProcess.setSubscription, Function.update_of_ne hd] using he
    exact hd (h.leaves hsub hin he hin' hw hleave).symm

theorem removeSubscriber (c : Nat) : (x.removeSubscriber pid ipcNs c).Sound pid ipcNs := by
  rcases x.removeSubscriber_cases pid ipcNs c with heq |
    ⟨sub, hsub, hstage, heq⟩ <;> rw [heq]
  · exact h
  obtain ⟨hy, hleave⟩ := h.removing hsub hstage
  exact hy.ioctl (fun heq => by cases heq) (fun _ _ heq => by cases heq) hleave

theorem handle {id : Nat} : (x.handle id).Sound pid ipcNs := by
  unfold SubscriberProcess.handle
  split
  · exact h.replaceWork (fun _ hwk => by cases hwk) x.counters
  · next info hid =>
    refine h.replaceWork (fun wk hwk info' hinfo => ?_) x.counters
    obtain rfl := List.mem_singleton.mp hwk
    obtain rfl : info = info' := Option.some.inj hinfo
    exact .inr ⟨id, hid⟩

theorem readEventfd {id : Nat} {info : CallbackInfo} (hmem : .copied id info ∈ x.work) :
    (x.readEventfd id info).Sound pid ipcNs := by
  rcases x.readEventfd_cases id info with heq | ⟨ctx, hctx, ⟨_, heq⟩ | heq⟩ <;> rw [heq]
  · exact h.exit
  · exact h.passOn _ hmem (fun _ hwk => by cases hwk) x.counters
  · refine h.passOn _ hmem (fun wk hwk => ?_) _
    rw [List.mem_singleton.mp hwk]
    rfl

theorem receiveMsgInput (env : Env) (info : CallbackInfo) :
    (x.ioctl (receiveMsgInput pid ipcNs env info)).2.Sound pid ipcNs :=
  h.ioctl (fun heq => by cases heq) (fun _ _ heq => by cases heq)
    fun _ _ _ _ _ _ => not_permits_leave fun _ _ _ _ heq => by cases heq

theorem receiveMsg (env : Env) {id : Nat} {info : CallbackInfo}
    (hmem : .executable id info ∈ x.work) :
    (x.receiveMsg pid ipcNs env id info).Sound pid ipcNs := by
  have hy := h.receiveMsgInput env info
  rcases x.receiveMsg_cases pid ipcNs env id info with heq |
    ⟨reply, infos, _, heq⟩ <;> rw [heq]
  · exact hy.exit
  · refine hy.passOn (.executable id info) hmem (fun wk hwk => ?_) x.counters
    rw [List.mem_singleton.mp hwk]
    rfl

/-- **A step of a thread of the process.** -/
theorem act (input : SubscriberInput) : (x.act pid ipcNs input).Sound pid ipcNs := by
  unfold SubscriberProcess.act
  cases input with
  | kernel i | signal p => exact h
  | initializeSubscription env topicName args fd =>
    exact h.initializeSubscription env topicName args fd
  | registerCallback c => exact h.registerCallback c
  | eraseCallbackInfo c => exact h.eraseCallbackInfo c
  | removeSubscriber c => exact h.removeSubscriber c
  | closeNotifyEventfd c => exact h.closeNotifyEventfd c
  | prepareEpoll id validated => exact h.prepareEpoll id validated
  | epollWait id =>
    dsimp only
    split
    -- a wait for events makes work that is about no subscription yet
    · refine h.withWork (.event id :: x.work) (fun wk hwk info hinfo => ?_) x.counters x.exited
      rcases List.mem_cons.mp hwk with rfl | hwk
      · cases hinfo
      · exact .inl ⟨wk, hwk, hinfo⟩
    · exact h
  | handle id =>
    dsimp only
    split
    · exact h.handle
    · exact h
  | readEventfd id info =>
    dsimp only
    split
    · next hmem => exact h.readEventfd hmem
    · exact h
  | enqueueReceiveAndExecute id info =>
    dsimp only
    split
    · next hmem =>
      refine h.passOn _ hmem (fun wk hwk => ?_) x.counters
      rw [List.mem_singleton.mp hwk]
      rfl
    · exact h
  | receiveMsg env id info =>
    dsimp only
    split
    · next hmem => exact h.receiveMsg env hmem
    · exact h
  | callback id info entry rest callAgain =>
    dsimp only
    split
    · next hmem =>
      refine h.passOn _ hmem (fun wk hwk => ?_) x.counters
      rw [List.mem_singleton.mp hwk]
      rfl
    · exact h
  | finish id info callAgain =>
    dsimp only
    split
    · next hmem =>
      refine h.passOn _ hmem (fun wk hwk => ?_) x.counters
      -- what is handed out again is the executable itself
      cases callAgain with
      | false => cases hwk
      | true =>
        rw [List.mem_singleton.mp hwk]
        rfl
    · exact h

theorem step {input : SubscriberInput} (hothers : OthersApart pid ipcNs x input) :
    (x.step pid ipcNs input).Sound pid ipcNs := by
  unfold SubscriberProcess.step
  split
  · exact h.ioctl hothers.exit hothers.commit hothers.leave
  · split
    · unfold SubscriberProcess.signal
      split <;> exact { h with }
    · exact h
  · split
    · exact h
    · exact h.act input

end Sound

end SubscriberProcess

end Agnocast
