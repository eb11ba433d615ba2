import Agnocast.Agnocastlib.SubscriptionSteps

/-!
# The client library — no wake-up is lost (proof)

A wake-up is passed on: from the signal loop to the counter, from the counter to the handler
that drains it, from the handler to the executable that it queues, and from an executable
that was told to call again to the next one. `Prompted` is whoever has it, `Awake` says that
for every entry a subscription could receive somebody does.

* `Awake`           — the invariant of one subscription.
* `wakeup_not_lost` — every run in which the others leave the process alone and no handler
  reads the eventfd of the subscription for another one.
* `wakeup_between_steps`, `reused_eventfd_drained` — between the steps there is a time
  without any of the four wake-ups; a number that is given away again loses one.
-/

namespace Agnocast

variable {pid : Pid} {ipcNs : IpcNs} {x y : SubscriberProcess} {c : Nat}

/-! ## Who wakes the subscription -/

/-- The work leads to a RECEIVE_MSG of the subscription. -/
def ReceiveWork.WillReceive (c : Nat) : ReceiveWork → Prop
  | .event _ | .copied _ _ => False
  | .drained _ info | .executable _ info => info.callback = c
  | .received _ info _ callAgain => info.callback = c ∧ callAgain = true

namespace SubscriberProcess

/-- A transient-local subscription whose executable is still to be queued by
`prepare_epoll`. -/
def Unprepared (x : SubscriberProcess) (c : Nat) (sub : CallbackSubscription) : Prop :=
  sub.isTransientLocal = true ∧
    ∀ id info, x.id2CallbackInfo id = some info → info.callback = c → info.needEpollUpdate = true

/-- The subscription will receive, or its counter is positive. -/
def Prompted (x : SubscriberProcess) (c : Nat) (sub : CallbackSubscription) : Prop :=
  0 < x.counters sub.eventfd ∨ (∃ wk ∈ x.work, wk.WillReceive c) ∨ x.Unprepared c sub

/-- Likewise, or the publication of the entry has not signalled the subscription. -/
def Covered (x : SubscriberProcess) (c : Nat) (sub : CallbackSubscription) (tp : Nat)
    (entryId : Int) : Prop :=
  (∃ p ∈ x.publishing, p.topic = tp ∧ p.entryId = entryId ∧ sub.eventfd ∈ p.notifyCtxs) ∨
  (tp, entryId) ∈ x.unsignalled ∨ x.Prompted c sub

/-- The subscription is about to be registered, or is. -/
def Listening (x : SubscriberProcess) (c : Nat) (sub : CallbackSubscription) : Prop :=
  sub.stage = .initialized ∨ ∃ id info, x.id2CallbackInfo id = some info ∧ info.callback = c

/-- Every entry that the subscription could receive is covered. -/
def Awake (pid : Pid) (ipcNs : IpcNs) (x : SubscriberProcess) (c : Nat) : Prop :=
  ∀ sub w s, x.subscriptions c = some sub → x.Listening c sub → sub.Stands pid ipcNs w s x.kmod →
    0 < s.qosDepth → ∀ en ∈ undelivered x.kmod (x.kmod.topicStructs w.topic) s,
      x.Covered c sub w.topic en.entryId

section

variable {sub sub' : CallbackSubscription} {tp : Nat} {entryId : Int}

theorem Covered.mono (h : x.Covered c sub tp entryId) (hsame : SameSubscription sub sub')
    (hpub : ∀ p ∈ x.publishing, p ∈ y.publishing) (hun : ∀ u ∈ x.unsignalled, u ∈ y.unsignalled)
    (hprompted : x.Prompted c sub → y.Prompted c sub') : y.Covered c sub' tp entryId := by
  rcases h with ⟨p, hp, htopic, hid, hctx⟩ | hfailed | h
  · exact .inl ⟨p, hpub p hp, htopic, hid, hsame.eventfd_eq ▸ hctx⟩
  · exact .inr (.inl (hun _ hfailed))
  · exact .inr (.inr (hprompted h))

end

theorem Listening.inKernel {sub : CallbackSubscription} (hlisten : x.Listening c sub)
    (hsound : x.Sound pid ipcNs) (hsub : x.subscriptions c = some sub) : sub.inKernel := by
  rcases hlisten with hstage | ⟨id, info, hid, rfl⟩
  · exact .inl hstage
  · obtain ⟨e, he, _, hstage, _⟩ := hsound.registered id info hid
    exact .inr (.inl (Option.some.inj (hsub.symm.trans he) ▸ hstage))

namespace Awake

variable (h : x.Awake pid ipcNs c)
include h

/-- A step that is not seen by the kernel, takes no publication and no prompt away and
registers nobody. -/
theorem mono (hkmod : y.kmod = x.kmod) (hpub : ∀ p ∈ x.publishing, p ∈ y.publishing)
    (hun : ∀ u ∈ x.unsignalled, u ∈ y.unsignalled)
    (hsub : ∀ sub', y.subscriptions c = some sub' → y.Listening c sub' →
      ∃ sub, x.subscriptions c = some sub ∧ x.Listening c sub ∧ SameSubscription sub sub' ∧
        (x.Prompted c sub → y.Prompted c sub')) : y.Awake pid ipcNs c := by
  intro sub' w s hsub' hlisten hstands hdepth en hen
  obtain ⟨sub, hsub, hlisten, hsame, hprompted⟩ := hsub sub' hsub' hlisten
  rw [hkmod] at hstands hen
  exact (h sub w s hsub hlisten (hstands.of_same hsame) hdepth en hen).mono hsame hpub hun hprompted

/-- A step on the queues and the counters. -/
theorem withWork (ws : List ReceiveWork) (counters : EventfdCtx → Nat) (exited : Bool)
    (hkeep : ∀ sub, x.subscriptions c = some sub →
      (0 < x.counters sub.eventfd ∨ ∃ wk ∈ x.work, wk.WillReceive c) →
        0 < counters sub.eventfd ∨ ∃ wk ∈ ws, wk.WillReceive c) :
    { x with work := ws, counters := counters, exited := exited }.Awake pid ipcNs c := by
  refine h.mono rfl (fun _ hp => hp) (fun _ hu => hu) fun sub hsub hlisten =>
    ⟨sub, hsub, hlisten, .refl sub, ?_⟩
  rintro (hcounter | hwork | hunprepared)
  · exact (hkeep sub hsub (.inl hcounter)).imp_right .inl
  · exact (hkeep sub hsub (.inr hwork)).imp_right .inl
  · exact .inr (.inr hunprepared)

theorem exit : x.exit.Awake pid ipcNs c :=
  h.withWork x.work x.counters true fun _ _ hprompted => hprompted

/-- A work that leads to a RECEIVE_MSG is replaced by one that does. -/
theorem replaceWork {wk : ReceiveWork} {ws : List ReceiveWork}
    (hpass : wk.WillReceive c → ∃ wk' ∈ ws, wk'.WillReceive c) :
    (x.replaceWork wk ws).Awake pid ipcNs c := by
  refine h.withWork (Bag.replace x.work wk ws) x.counters x.exited
    fun sub _ hprompted => hprompted.imp_right fun hwill => ?_
  exact Bag.exists_replace hwill (fun _ => id) hpass

/-- **A call of anybody**, that leaves the subscriber of the subscription: whatever it
publishes is to be signalled. -/
theorem ioctl (hsound : x.Sound pid ipcNs) {i : Input}
    (hregisters : ∀ tp, RegistersUnlisted x.kmod i.call tp)
    (hexit : i.call ≠ .processExitCleanup pid)
    (hcommit : ∀ ns callerPid, i.call ≠ .commitExitProcess ns pid callerPid)
    (hleave : ∀ sub, x.subscriptions c = some sub → sub.inKernel →
      ∀ w, findTopicForCurrent x.kmod pid sub.topicName ipcNs = some w →
        ¬ Permits x.kmod i.call w.topic (.leave sub.id)) :
    (x.ioctl i).2.Awake pid ipcNs c := by
  intro sub w' s' hsub hlisten hstands' hdepth' en' hen'
  have hin : sub.inKernel := Listening.inKernel (x := x) hlisten hsound hsub
  obtain ⟨w, s, hstands⟩ := hsound.stands c sub hsub hin
  obtain ⟨s₁, hstands₁, hsame⟩ := hstands.step hsound.reachable hsound.process hexit hcommit
    (hleave sub hsub hin w hstands.wrapper)
  obtain ⟨rfl, rfl⟩ := hstands₁.unique (hsound.reachable.step i) hstands'
  have hdepth : 0 < s.qosDepth := by
    have : s₁.qosDepth = s.qosDepth := by rw [hsame]
    rwa [this] at hdepth'
  rcases undelivered_step hsound.reachable (hregisters w.topic) hstands.subscriber
    hstands₁.subscriber hsame hen' with ⟨en, hen, hid⟩ | ⟨r, hr, htopic, hid, hctx⟩ | hfailed
  · have hold := h sub w s hsub hlisten hstands hdepth en hen
    rw [hid] at hold
    exact hold.mono (.refl sub) (fun p hp => List.mem_append_right _ hp)
      (fun u hu => List.mem_append_right _ hu) id
  · refine .inl ⟨r, List.mem_append_left _ ?_, htopic, hid, hctx _ hstands.notifyCtx⟩
    exact Option.mem_toList.mpr hr
  · exact .inr (.inl (List.mem_append_left _ (Option.mem_toList.mpr hfailed)))

/-- **A round of a signal loop** turns what was to be signalled into a positive counter. -/
theorem signal (p : Publishing) : (x.signal p).Awake pid ipcNs c := by
  intro sub w s hsub hlisten hstands hdepth en hen
  unfold SubscriberProcess.signal at hsub hlisten hstands hen ⊢
  cases hctxs : p.notifyCtxs with
  | nil =>
    rw [hctxs] at hsub hlisten hstands hen
    rcases h sub w s hsub hlisten hstands hdepth en hen with ⟨r, hr, htopic, hid, hctx⟩ | hrest
    · have hne : r ≠ p := fun heq => by simp [heq, hctxs] at hctx
      exact .inl ⟨r, (List.mem_erase_of_ne hne).mpr hr, htopic, hid, hctx⟩
    · exact .inr hrest
  | cons ctx rest =>
    rw [hctxs] at hsub hlisten hstands hen
    have hcounter : ∀ ctx', 0 < x.counters ctx' →
        0 < Function.update x.counters ctx (x.counters ctx + 1) ctx' := by
      intro ctx' hpos
      by_cases heq : ctx' = ctx
      · simp [heq]
      · rwa [Function.update_of_ne heq]
    rcases h sub w s hsub hlisten hstands hdepth en hen with
      ⟨r, hr, htopic, hid, hctx⟩ | hfailed | hprompted
    · by_cases heq : r = p
      · subst heq
        rw [hctxs] at hctx
        rcases List.mem_cons.mp hctx with rfl | hctx
        · exact .inr (.inr (.inl (by simp)))
        · exact .inl ⟨_, List.mem_cons_self, htopic, hid, hctx⟩
      · exact .inl ⟨r, List.mem_cons_of_mem _ ((List.mem_erase_of_ne heq).mpr hr), htopic, hid, hctx⟩
    · exact .inr (.inl hfailed)
    · exact .inr (.inr (hprompted.imp_left (hcounter sub.eventfd)))

/-- **A new subscription**: a volatile one has nothing to receive, a transient-local one waits
for `prepare_epoll`. -/
theorem initializeSubscription (hsound : x.Sound pid ipcNs) (env : Env) (topicName : Name)
    (args : SubscriberArgs) (fd : Int) :
    (x.initializeSubscription pid ipcNs env topicName args fd).Awake pid ipcNs c := by
  rcases hsound.initializeSubscription_cases env topicName args fd with heq | ⟨hfree, hcases⟩
  · rwa [heq]
  have hy : (x.openEventfd fd).Awake pid ipcNs c := by
    refine h.mono rfl (fun _ hp => hp) (fun _ hu => hu) fun sub hsub hlisten =>
      ⟨sub, hsub, hlisten, .refl sub, Or.imp_left fun hcounter => ?_⟩
    have hne : sub.eventfd ≠ x.nextEventfd := (hsound.fresh c sub hsub).2.ne
    simpa [SubscriberProcess.openEventfd, Function.update_of_ne hne] using hcounter
  have hysound := hsound.openEventfd hfree
  have hz : ((x.openEventfd fd).ioctl ((x.openEventfd fd).addSubscriberInput pid ipcNs env
      topicName args fd)).2.Awake pid ipcNs c :=
    hy.ioctl hysound (fun _ _ _ _ _ heq => by cases heq) (fun heq => by cases heq)
      (fun _ _ heq => by cases heq) fun _ _ _ _ _ =>
        not_permits_leave fun _ _ _ _ heq => by cases heq
  have hzsound := hysound.addSubscriberInput env topicName args fd
  rcases hcases with heq | ⟨sub, w, s, hstage, hnumber, hctx, hstands, hvolatile, heq⟩ <;> rw [heq]
  · exact hz.exit
  by_cases hc : c = x.nextSubscription
  · subst hc
    intro sub' w' s' hsub' hlisten hstands' hdepth en hen
    obtain rfl : sub = sub' := by
      simpa [SubscriberProcess.setSubscription, SubscriberProcess.ioctl,
        SubscriberProcess.openEventfd] using hsub'
    obtain ⟨rfl, rfl⟩ := hstands.unique hzsound.reachable hstands'
    cases htransient : sub.isTransientLocal with
    | false => exact absurd hen (List.eq_nil_iff_forall_not_mem.mp (hvolatile htransient) en)
    | true =>
      refine .inr (.inr (.inr (.inr ⟨htransient, fun id info hid hcallback => ?_⟩)))
      -- the registry has nothing of it
      obtain ⟨e, he, _⟩ := hsound.registered id info hid
      exact absurd hcallback (hsound.fresh _ e he).1.ne
  · refine hz.mono rfl (fun _ hp => hp) (fun _ hu => hu) fun sub' hsub' hlisten =>
      ⟨sub', ?_, hlisten, .refl sub', id⟩
    simpa [SubscriberProcess.setSubscription, SubscriberProcess.ioctl,
      SubscriberProcess.openEventfd, Function.update_of_ne hc] using hsub'

/-- A step on another subscription: what the registry has of this one it had before. -/
theorem other {c' : Nat} (sub' : CallbackSubscription) (hne : c ≠ c') (hkmod : y.kmod = x.kmod)
    (hpub : y.publishing = x.publishing) (hun : y.unsignalled = x.unsignalled)
    (hcounters : y.counters = x.counters) (hwork : y.work = x.work)
    (hset : y.subscriptions = (x.setSubscription c' sub').subscriptions)
    (hregistry : ∀ id info, y.id2CallbackInfo id = some info → info.callback = c →
      x.id2CallbackInfo id = some info) : y.Awake pid ipcNs c := by
  refine h.mono hkmod (fun _ hp => hpub ▸ hp) (fun _ hu => hun ▸ hu) fun sub hsub hlisten =>
    ⟨sub, ?_, ?_, .refl sub, ?_⟩
  · rw [hset] at hsub
    simpa [SubscriberProcess.setSubscription, Function.update_of_ne hne] using hsub
  · refine hlisten.imp_right ?_
    rintro ⟨id, info, hid, hc⟩
    exact ⟨id, info, hregistry id info hid hc, hc⟩
  · intro hprompted
    refine hprompted.imp (fun hpos => hcounters ▸ hpos) (Or.imp (fun hwill => hwork ▸ hwill) ?_)
    exact fun hun => ⟨hun.1, fun id info hid hc => hun.2 id info (hregistry id info hid hc) hc⟩

theorem registerCallback (hsound : x.Sound pid ipcNs) (c' : Nat) :
    (x.registerCallback c').Awake pid ipcNs c := by
  have hafter := hsound.registerCallback c'
  rcases x.registerCallback_cases c' with heq | ⟨sub, next, hsub, hstage, hcases⟩
  · rwa [heq]
  by_cases hne : c = c'
  · subst hne
    -- it is not in the registry yet
    have hnone : ∀ id info, x.id2CallbackInfo id = some info → info.callback ≠ c :=
      fun _ _ hid => hsound.not_in_registry hsub (by simp [hstage]) hid
    rcases hcases with heq | ⟨id, info, sub', rfl, rfl, hmade, hneed, heq⟩ <;> rw [heq] at hafter ⊢
    · -- nothing of it gets into the registry
      refine h.mono rfl (fun _ hp => hp) (fun _ hu => hu) fun e he hlisten => ?_
      obtain rfl : _ = e := by simpa [SubscriberProcess.setSubscription] using he
      rcases hlisten with hstage' | ⟨id, info, hid, hc⟩
      · cases hstage'
      · exact absurd hc (hnone id info hid)
    · refine h.mono rfl (fun _ hp => hp) (fun _ hu => hu) fun e he _ => ?_
      obtain rfl : _ = e := by simpa [SubscriberProcess.setSubscription] using he
      refine ⟨sub, hsub, .inl hstage, rfl, ?_⟩
      -- it is woken up as before; what is new is that its epoll update is pending
      rintro (hcounter | hwork | hunprepared)
      · exact .inl hcounter
      · exact .inr (.inl hwork)
      · refine .inr (.inr ⟨hunprepared.1, fun id' info' hid hc => ?_⟩)
        by_cases heq : id' = id
        · subst heq
          obtain rfl : info = info' := by simpa using hid
          exact hneed
        · exact absurd hc (hnone id' info' (by simpa [Function.update_of_ne heq] using hid))
  · rcases hcases with heq | ⟨id, info, sub', rfl, rfl, hmade, hneed, heq⟩ <;> rw [heq]
    · exact h.other { sub with stage := .unregistered } hne rfl rfl rfl rfl rfl rfl
        fun _ _ hid _ => hid
    · refine h.other { sub with callbackInfoId := id, stage := .registered } hne rfl rfl rfl
        rfl rfl rfl fun id' info' hid hc => ?_
      by_cases heq : id' = id
      · subst heq
        obtain rfl : info = info' := by simpa using hid
        exact absurd hc.symm hne
      · simpa [Function.update_of_ne heq] using hid

theorem eraseCallbackInfo (hsound : x.Sound pid ipcNs) (c' : Nat) :
    (x.eraseCallbackInfo c').Awake pid ipcNs c := by
  rcases x.eraseCallbackInfo_cases c' with heq | ⟨sub, hsub, hstage, heq⟩ <;> rw [heq]
  · exact h
  have hold : ∀ id info, Function.update x.id2CallbackInfo sub.callbackInfoId none id = some info →
      id ≠ sub.callbackInfoId ∧ x.id2CallbackInfo id = some info := by
    intro id info hid
    by_cases hne : id = sub.callbackInfoId
    · simp [hne] at hid
    · exact ⟨hne, by rwa [Function.update_of_ne hne] at hid⟩
  by_cases hne : c = c'
  · subst hne
    -- the registry has it no more
    refine h.mono rfl (fun _ hp => hp) (fun _ hu => hu) fun e he hlisten => ?_
    obtain rfl : _ = e := by simpa [SubscriberProcess.setSubscription] using he
    rcases hlisten with hstage' | ⟨id, info, hid, hc⟩
    · cases hstage'
    · obtain ⟨hne, hid⟩ := hold id info hid
      obtain ⟨e, he, _, _, hcid⟩ := hsound.registered id info hid
      obtain rfl : sub = e := Option.some.inj (hsub.symm.trans (hc ▸ he))
      exact absurd hcid.symm hne
  · exact h.other { sub with stage := .unregistered } hne rfl rfl rfl rfl rfl rfl
      fun id info hid _ => (hold id info hid).2

/-- A subscription that is past the registry has nothing in it any more. -/
theorem leave (hsound : x.Sound pid ipcNs) {c' : Nat} {sub : CallbackSubscription}
    (hsub : x.subscriptions c' = some sub) (hstage : sub.stage ≠ .registered)
    (stage : SubscriptionStage) (hstage' : stage ≠ .initialized) :
    (x.setSubscription c' { sub with stage := stage }).Awake pid ipcNs c := by
  by_cases hne : c = c'
  · subst hne
    refine h.mono rfl (fun _ hp => hp) (fun _ hu => hu) fun e he hlisten => ?_
    obtain rfl : _ = e := by simpa [SubscriberProcess.setSubscription] using he
    rcases hlisten with hinit | ⟨id, info, hid, hc⟩
    · exact absurd hinit hstage'
    · exact absurd hc (hsound.not_in_registry hsub hstage hid)
  · exact h.other { sub with stage := stage } hne rfl rfl rfl rfl rfl rfl
      fun _ _ hid _ => hid

theorem closeNotifyEventfd (hsound : x.Sound pid ipcNs) (c' : Nat) :
    (x.closeNotifyEventfd c').Awake pid ipcNs c := by
  rcases x.closeNotifyEventfd_cases c' with heq | ⟨sub, hsub, hstage, heq⟩ <;> rw [heq]
  · exact h
  · have := h.leave hsound hsub (by simp [hstage]) .closed (by simp)
    exact this.mono rfl (fun _ hp => hp) (fun _ hu => hu) fun e he hlisten =>
      ⟨e, he, hlisten, .refl e, id⟩

theorem removeSubscriber (hsound : x.Sound pid ipcNs) (c' : Nat) :
    (x.removeSubscriber pid ipcNs c').Awake pid ipcNs c := by
  rcases x.removeSubscriber_cases pid ipcNs c' with heq |
    ⟨sub, hsub, hstage, heq⟩ <;> rw [heq]
  · exact h
  obtain ⟨hy, hleave⟩ := hsound.removing hsub hstage
  exact (h.leave hsound hsub (by simp [hstage]) .removed (by simp)).ioctl hy
    (fun _ _ _ _ _ heq => by cases heq) (fun heq => by cases heq) (fun _ _ heq => by cases heq)
    (hleave c)

/-- **An entry of `prepare_epoll`**: a transient-local subscription that is armed has an
executable from then on. -/
theorem prepareEpoll (hsound : x.Sound pid ipcNs) (id : Nat) (validated : Bool) :
    (x.prepareEpoll id validated).Awake pid ipcNs c := by
  rcases hsound.prepareEpoll_cases id validated with heq |
    ⟨info, e, hid, hneed, he, hmade, hcid, hfile, heq⟩ <;> rw [heq]
  · exact h
  refine h.mono rfl (fun _ hp => hp) (fun _ hu => hu) fun sub hsub hlisten =>
    ⟨sub, hsub, ?_, .refl sub, ?_⟩
  · refine hlisten.imp_right ?_
    rintro ⟨id', info', hid', hc⟩
    by_cases heq : id' = id
    · subst heq
      obtain rfl : _ = info' := by simpa using hid'
      exact ⟨id', info, hid, hc⟩
    · exact ⟨id', info', by simpa [Function.update_of_ne heq] using hid', hc⟩
  rintro (hcounter | ⟨wk, hwk, hwill⟩ | ⟨htransient, hall⟩)
  · exact .inl hcounter
  · refine .inr (.inl ⟨wk, ?_, hwill⟩)
    dsimp only
    split
    · exact List.mem_cons_of_mem _ hwk
    · exact hwk
  by_cases hc : info.callback = c
  · -- it is this one that is armed
    obtain rfl : e = sub := Option.some.inj (he.symm.trans (hc ▸ hsub))
    refine .inr (.inl ⟨.executable id info, ?_, hc⟩)
    dsimp only
    rw [if_pos (hmade.isTransientLocal.trans htransient)]
    exact List.mem_cons_self
  · refine .inr (.inr ⟨htransient, fun id' info' hid' hc' => ?_⟩)
    by_cases heq : id' = id
    · subst heq
      obtain rfl : _ = info' := by simpa using hid'
      exact absurd hc' hc
    · exact hall id' info' (by simpa [Function.update_of_ne heq] using hid') hc'

/-- **A read of an eventfd** that is not that of the subscription, or whose handler then
queues its executable. -/
theorem readEventfd {id : Nat} {info : CallbackInfo}
    (hown : info.callback ≠ c → ∀ sub, x.subscriptions c = some sub →
      x.eventfds info.notifyEventfd ≠ some sub.eventfd) :
    (x.readEventfd id info).Awake pid ipcNs c := by
  rcases x.readEventfd_cases id info with heq | ⟨ctx, hctx, ⟨_, heq⟩ | heq⟩ <;> rw [heq]
  · exact h.exit
  · exact h.replaceWork fun hwill => hwill.elim
  refine h.withWork _ _ x.exited fun sub hsub hprompted => ?_
  by_cases hc : info.callback = c
  · exact .inr ⟨.drained id info, List.mem_append_left _ List.mem_cons_self, hc⟩
  · have hne : sub.eventfd ≠ ctx := fun heq => hown hc sub hsub (heq ▸ hctx)
    rcases hprompted with hcounter | ⟨wk, hwk, hwill⟩
    · left
      rwa [Function.update_of_ne hne]
    · have hwk' : wk ≠ .copied id info := fun heq => by
        subst heq
        exact hwill
      exact .inr ⟨wk, List.mem_append_right _ ((List.mem_erase_of_ne hwk').mpr hwk), hwill⟩

/-- **A RECEIVE_MSG** that is not told to call again leaves nothing to receive. -/
theorem receiveMsg (hsound : x.Sound pid ipcNs) (env : Env) {id : Nat} {info : CallbackInfo}
    (hmem : .executable id info ∈ x.work) : (x.receiveMsg pid ipcNs env id info).Awake pid ipcNs c := by
  have hy : (x.ioctl (receiveMsgInput pid ipcNs env info)).2.Awake pid ipcNs c :=
    h.ioctl hsound (fun _ _ _ _ _ heq => by cases heq) (fun heq => by cases heq)
      (fun _ _ heq => by cases heq) fun _ _ _ _ _ =>
        not_permits_leave fun _ _ _ _ heq => by cases heq
  rcases x.receiveMsg_cases pid ipcNs env id info with heq |
    ⟨reply, infos, hok, heq⟩ <;> rw [heq]
  · exact hy.exit
  by_cases hlast : info.callback = c ∧ reply.callAgain = false
  · obtain ⟨rfl, hagain⟩ := hlast
    obtain ⟨sub, hsub, hmade, _⟩ := hsound.working _ hmem info rfl
    intro sub' w s hsub' hlisten hstands hdepth en hen
    obtain rfl : sub = sub' := Option.some.inj (hsub.symm.trans hsub')
    obtain ⟨w₀, s₀, hstands₀⟩ :=
      hsound.stands _ sub hsub (Listening.inKernel (x := x) hlisten hsound hsub)
    obtain ⟨s₁, hstands₁, _⟩ := hstands₀.step (i := receiveMsgInput pid ipcNs env info)
      hsound.reachable hsound.process (fun heq => by cases heq) (fun _ _ heq => by cases heq)
      (not_permits_leave fun _ _ _ _ heq => by cases heq)
    obtain ⟨rfl, rfl⟩ := hstands₁.unique (hsound.reachable.step _) hstands
    have hnil := receive_leaves_nothing hsound.reachable hok hagain
      (hmade.topicName ▸ hstands₀.wrapper) hstands.subscriber (hstands.id.trans hmade.id.symm) hdepth
    exact absurd hen (List.eq_nil_iff_forall_not_mem.mp hnil en)
  · refine hy.replaceWork fun hwill => ⟨_, List.mem_cons_self, hwill, ?_⟩
    exact Bool.eq_true_of_not_eq_false fun hagain => hlast ⟨hwill, hagain⟩

/-- **A step of a thread of the process.** -/
theorem act (hsound : x.Sound pid ipcNs) (input : SubscriberInput) (hown : OwnReads c x input) :
    (x.act pid ipcNs input).Awake pid ipcNs c := by
  unfold SubscriberProcess.act
  cases input with
  | kernel i | signal p => exact h
  | initializeSubscription env topicName args fd =>
    exact h.initializeSubscription hsound env topicName args fd
  | registerCallback c' => exact h.registerCallback hsound c'
  | eraseCallbackInfo c' => exact h.eraseCallbackInfo hsound c'
  | removeSubscriber c' => exact h.removeSubscriber hsound c'
  | closeNotifyEventfd c' => exact h.closeNotifyEventfd hsound c'
  | prepareEpoll id validated => exact h.prepareEpoll hsound id validated
  | epollWait id =>
    dsimp only
    split
    · refine h.withWork _ x.counters x.exited fun _ _ => Or.imp_right ?_
      -- the work that will wake it up is still there, behind the new one
      rintro ⟨wk, hwk, hwill⟩
      exact ⟨wk, List.mem_cons_of_mem _ hwk, hwill⟩
    · exact h
  | handle id =>
    dsimp only
    split
    · unfold SubscriberProcess.handle
      split <;> exact h.replaceWork fun hwill => hwill.elim
    · exact h
  | readEventfd id info =>
    dsimp only
    split
    · exact h.readEventfd hown
    · exact h
  | enqueueReceiveAndExecute id info =>
    dsimp only
    split
    · exact h.replaceWork fun hwill => ⟨_, List.mem_cons_self, hwill⟩
    · exact h
  | receiveMsg env id info =>
    dsimp only
    split
    · next hmem => exact h.receiveMsg hsound env hmem
    · exact h
  | callback id info entry rest callAgain =>
    dsimp only
    split
    · exact h.replaceWork fun hwill => ⟨_, List.mem_cons_self, hwill⟩
    · exact h
  | finish id info callAgain =>
    dsimp only
    split
    · refine h.replaceWork fun hwill => ⟨.executable id info, ?_, hwill.1⟩
      rw [if_pos hwill.2]
      exact List.mem_cons_self
    · exact h

theorem step (hsound : x.Sound pid ipcNs) {input : SubscriberInput}
    (hothers : OthersApart pid ipcNs x input) (hown : OwnReads c x input) :
    (x.step pid ipcNs input).Awake pid ipcNs c := by
  unfold SubscriberProcess.step
  split
  · exact h.ioctl hsound hothers.registers hothers.exit hothers.commit (hothers.leave c)
  · split
    · exact h.signal _
    · exact h
  · split
    · exact h
    · exact h.act hsound input hown

end Awake

end SubscriberProcess

/-! ## Every run -/

namespace SubscriberProcess

/-- What the invariants give for a subscription in the registry. -/
theorem Awake.wakeable (h : x.Awake pid ipcNs c) (hsound : x.Sound pid ipcNs) :
    x.Wakeable pid ipcNs c := by
  refine ⟨?_, ?_, fun id info hid _ hneed => hsound.watched id info hid hneed⟩
  · rintro id info hid rfl tp en ⟨w, s, hw, rfl, hs, hen, hdepth⟩
    obtain ⟨sub, hsub, hmade, hstage, _⟩ := hsound.registered id info hid
    have hopened := hsound.opened _ sub hsub (by simp [hstage])
    rw [← hmade.notifyEventfd] at hopened
    have hlisten : x.Listening info.callback sub := .inr ⟨id, info, hid, rfl⟩
    -- the subscriber that RECEIVE_MSG would find is that of the subscription
    obtain ⟨w', s', hstands⟩ := hsound.stands _ sub hsub (.inr (.inl hstage))
    rw [hmade.topicName] at hw
    obtain rfl : w = w' := Option.some.inj (hw.symm.trans hstands.wrapper)
    obtain ⟨hmem, hsid⟩ := HTable.mem_of_lookup hs
    obtain rfl := HTable.eq_of_key_eq (hsound.reachable.wellFormed.store w.topic).subs_nodup hmem
      hstands.subscriber (hsid.trans (hmade.id.trans hstands.id.symm))
    rcases h sub w s hsub hlisten hstands hdepth en hen with
      ⟨p, hp, htopic, hentry, hctx⟩ | hfailed | hcounter | ⟨wk, hwk, hwill⟩ | hunprepared
    · exact .inl (.inl (.inl ⟨p, hp, htopic, hentry, sub.eventfd, hctx, hopened⟩))
    · exact .inl (.inl (.inr hfailed))
    · exact .inl (.inr (.inl ⟨sub.eventfd, hopened, hcounter⟩))
    · cases wk with
      | event id' | copied id' info' => exact hwill.elim
      | drained id' info' => exact .inr ⟨id', info', hwill, .inl hwk⟩
      | executable id' info' => exact .inl (.inr (.inr (.inr ⟨id', info', hwk, hwill⟩)))
      | received id' info' entries callAgain =>
        obtain ⟨hc, rfl⟩ := hwill
        exact .inr ⟨id', info', hc, .inr ⟨entries, hwk⟩⟩
    · exact .inl (.inr (.inr (.inl (hunprepared.2 id info hid rfl))))
  · rintro id info hid rfl hneed hexited
    obtain ⟨sub, _, _, _, hopened, heq⟩ := hsound.prepareEpoll_eq hid hneed
    have hstep : x.step pid ipcNs (.prepareEpoll id true) = x.prepareEpoll id true :=
      if_neg (by simp [hexited])
    rw [hstep, heq]
    refine ⟨by simp, ⟨sub.eventfd, hopened, List.mem_cons_self⟩, fun htransient => ?_⟩
    refine ⟨id, info, ?_, rfl⟩
    dsimp only
    rw [if_pos htransient]
    exact List.mem_cons_self

end SubscriberProcess

/-- **No wake-up is lost**, in any state of a run in which the others leave the process alone
and no handler of another subscription reads the eventfd. -/
theorem wakeup_not_lost {tr : List SubscriberEvent} (hrun : Transition.Run
      (subscriberProcess pid ipcNs)
      (fun x input => OthersApart pid ipcNs x input ∧ OwnReads c x input) tr x) :
    x.Wakeable pid ipcNs c := by
  have h : x.Sound pid ipcNs ∧ x.Awake pid ipcNs c := by
    refine hrun.invariant (P := fun x => x.Sound pid ipcNs ∧ x.Awake pid ipcNs c) ?_ ?_
    · rintro _ ⟨σ, hr, hprocess, rfl⟩
      exact ⟨.idle hr hprocess, fun sub w s hsub => by cases hsub⟩
    · rintro y input ⟨hsound, hawake⟩ ⟨hothers, hown⟩
      exact ⟨hsound.step hothers, hawake.step hsound hothers hown⟩
  exact h.2.wakeable h.1

/-! ## The time between the steps -/

/-- A process 10 that will subscribe, and a publisher of process 20 that has published `n`
messages in the topic. -/
private def publishedBefore (n : Nat) : Kmod :=
  (runOf 2 ([.addProcess 10 1 0 0, .addProcess 20 1 0 0,
      .addPublisher ['t'] 1 ⟨['p'], 20, 12, true, false⟩] ++
    (List.range n).map fun k => .publishMsg 20 ['t'] 1 0 (1024 ^ 3 + k))).2

private theorem init_publishedBefore (n : Nat) (h : findProcessInfo (publishedBefore n) 10 =
      some ⟨false, .application, 10, 10, 0, 1, 0⟩) :
    (subscriberProcess 10 1).init (.idle (publishedBefore n)) :=
  ⟨publishedBefore n, reachable_runOf (by decide) (by decide) _, ⟨_, h, by decide⟩, rfl⟩

/-- The info of the subscription that is created first, and of its executable. -/
private def firstInfo (isTransientLocal needEpollUpdate : Bool) : CallbackInfo :=
  ⟨['t'], 1, isTransientLocal, 5, 0, needEpollUpdate⟩

/-- A transient-local subscription receives ten of eleven entries and is told to call again. -/
private def betweenCalls : List SubscriberInput :=
  [.initializeSubscription .smooth ['t'] ⟨['s'], 0, 12, true, true, false, false, false⟩ 5,
    .registerCallback 0, .prepareEpoll 0 true, .receiveMsg .smooth 0 (firstInfo true true)]

private def stateBetweenCalls : SubscriberProcess :=
  ((subscriberProcess 10 1).exec (.idle (publishedBefore 11)) [] betweenCalls).2

private theorem run_betweenCalls : Transition.Run (subscriberProcess 10 1)
    (fun x input => OthersApart 10 1 x input ∧ OwnReads 0 x input)
    ((subscriberProcess 10 1).exec (.idle (publishedBefore 11)) [] betweenCalls).1
    stateBetweenCalls :=
  (Transition.Run.init (init_publishedBefore 11 (by decide +kernel))).exec
    ⟨⟨trivial, trivial⟩, ⟨trivial, trivial⟩, ⟨trivial, trivial⟩, ⟨trivial, trivial⟩, trivial⟩

private theorem couldReceive_betweenCalls :
    ∃ en, stateBetweenCalls.CouldReceive 10 1 (firstInfo true false) 0 en := by
  have hs : findSubscriberInfo (stateBetweenCalls.kmod.topicStructs 0) 1 =
      some ⟨1, 0, 10, 12, true, true, 9, ['s'], false, false, false, false, some 0⟩ := by
    decide +kernel
  have hen : undelivered stateBetweenCalls.kmod (stateBetweenCalls.kmod.topicStructs 0)
      ⟨1, 0, 10, 12, true, true, 9, ['s'], false, false, false, false, some 0⟩ ≠ [] := by
    decide +kernel
  obtain ⟨en, hmem⟩ := List.exists_mem_of_ne_nil _ hen
  exact ⟨en, ⟨1, 0, ['t'], 0⟩, _, by decide +kernel, rfl, hs, hmem, by decide⟩

/-- The last of eleven entries, while the executable is in its loop over the first ten. -/
theorem wakeup_not_lost_between_calls : stateBetweenCalls.Wakeable 10 1 0 ∧
    stateBetweenCalls.id2CallbackInfo 0 = some (firstInfo true false) ∧
    ∃ en, stateBetweenCalls.CouldReceive 10 1 (firstInfo true false) 0 en :=
  ⟨wakeup_not_lost run_betweenCalls, by decide +kernel, couldReceive_betweenCalls⟩

/-- Nothing is to be signalled, the counter is at zero and the epoll up to date: what is left
is an executable. -/
private theorem queued_of_pending {info : CallbackInfo} {tp : Nat} {en : EntryNode}
    (ctx : EventfdCtx) (h : x.WakeupPending info tp en)
    (hpub : ∀ p ∈ x.publishing, p.notifyCtxs = []) (hun : x.unsignalled = [])
    (hctx : x.eventfds info.notifyEventfd = some ctx) (hcounter : x.counters ctx = 0)
    (hneed : info.needEpollUpdate = false) : x.Queued info := by
  rcases h with (⟨p, hp, _, _, ctx', hmem, _⟩ | hfailed) | ⟨ctx', hctx', hpos⟩ | hneed' | hqueued
  · rw [hpub p hp] at hmem
    cases hmem
  · rw [hun] at hfailed
    cases hfailed
  · obtain rfl : ctx = ctx' := Option.some.inj (hctx.symm.trans hctx')
    omega
  · rw [hneed] at hneed'
    cases hneed'
  · exact hqueued

/-- **Between two RECEIVE_MSGs of one wake-up** none of the four wake-ups is there: the
executable is in its loop, and queues the next only after it. -/
theorem wakeup_between_steps : ¬ ∀ (pid : Pid) (ipcNs : IpcNs) (c : Nat) (tr : List SubscriberEvent)
    (x : SubscriberProcess), Transition.Run (subscriberProcess pid ipcNs)
      (fun x input => OthersApart pid ipcNs x input ∧ OwnReads c x input) tr x →
    ∀ id info, x.id2CallbackInfo id = some info → info.callback = c →
      ∀ tp en, x.CouldReceive pid ipcNs info tp en → x.WakeupPending info tp en := by
  intro h
  obtain ⟨en, hcould⟩ := couldReceive_betweenCalls
  have hpending := h 10 1 0 _ _ run_betweenCalls 0 (firstInfo true false) (by decide +kernel) rfl 0
    en hcould
  obtain ⟨id, info, hmem, _⟩ := queued_of_pending 0 hpending (by decide +kernel)
    (by decide +kernel) (by decide +kernel) (by decide +kernel) rfl
  have hwork : stateBetweenCalls.work = [.received 0 (firstInfo true true)
      ((List.range 10).map fun k : Nat => (Int.ofNat k, 1024 ^ 3 + k)) true] := by decide +kernel
  rw [hwork] at hmem
  cases List.mem_singleton.mp hmem

/-! ## A number that is given away again -/

/-- A handler holds the info of the first subscription while that is destroyed; the second one
gets its number, and the handler drains the counter of the second. -/
private def reusedNumber : List SubscriberInput :=
  let args : SubscriberArgs := ⟨['s'], 0, 12, false, true, false, false, false⟩
  [.initializeSubscription .smooth ['t'] args 5, .registerCallback 0, .prepareEpoll 0 true,
    .kernel ⟨.smooth, .publishMsg 20 ['t'] 1 0 (1024 ^ 3)⟩, .signal ⟨0, 1, [0]⟩, .epollWait 0,
    .handle 0, .eraseCallbackInfo 0, .removeSubscriber 0, .closeNotifyEventfd 0,
    .initializeSubscription .smooth ['t'] args 5, .registerCallback 1, .prepareEpoll 1 true,
    .kernel ⟨.smooth, .publishMsg 20 ['t'] 1 0 (1024 ^ 3 + 1)⟩, .signal ⟨0, 3, [1]⟩,
    .readEventfd 0 (firstInfo false false)]

private def stateReusedNumber : SubscriberProcess :=
  ((subscriberProcess 10 1).exec (.idle (publishedBefore 0)) [] reusedNumber).2

private theorem publish_othersApart {x : SubscriberProcess} {env : Env} {current : Pid}
    {topicName : Name} {ns : IpcNs} {publisherId : Int} {addr : Nat} : OthersApart pid ipcNs x
      (.kernel ⟨env, .publishMsg current topicName ns publisherId addr⟩) :=
  { registers := fun _ _ _ _ _ heq => by cases heq
    exit := fun heq => by cases heq
    commit := fun _ _ heq => by cases heq
    leave := fun _ _ _ _ _ _ => not_permits_leave fun _ _ _ _ heq => by cases heq }

private theorem run_reusedNumber : Transition.Run (subscriberProcess 10 1) (OthersApart 10 1)
    ((subscriberProcess 10 1).exec (.idle (publishedBefore 0)) [] reusedNumber).1
    stateReusedNumber :=
  (Transition.Run.init (init_publishedBefore 0 (by decide +kernel))).exec
    ⟨trivial, trivial, trivial, publish_othersApart, trivial, trivial, trivial, trivial, trivial,
      trivial, trivial, trivial, trivial, publish_othersApart, trivial, trivial, trivial⟩

/-- **A number that is given away again loses a wake-up**: without the assumption on the reads
the second subscription sleeps over an entry. -/
theorem reused_eventfd_drained : ¬ ∀ (pid : Pid) (ipcNs : IpcNs) (c : Nat) (tr : List SubscriberEvent)
    (x : SubscriberProcess), Transition.Run (subscriberProcess pid ipcNs) (OthersApart pid ipcNs) tr x →
      x.Wakeable pid ipcNs c := by
  intro h
  have hs : findSubscriberInfo (stateReusedNumber.kmod.topicStructs 0) 2 =
      some ⟨2, 0, 10, 12, false, true, 2, ['s'], false, false, true, false, some 1⟩ := by
    decide +kernel
  have hen : undelivered stateReusedNumber.kmod (stateReusedNumber.kmod.topicStructs 0)
      ⟨2, 0, 10, 12, false, true, 2, ['s'], false, false, true, false, some 1⟩ ≠ [] := by
    decide +kernel
  obtain ⟨en, hmem⟩ := List.exists_mem_of_ne_nil _ hen
  have hwork : stateReusedNumber.work = [.drained 0 (firstInfo false false)] := by decide +kernel
  -- the second subscription is in the registry under one
  have hpending := (h 10 1 1 _ _ run_reusedNumber).pending 1 ⟨['t'], 2, false, 5, 1, false⟩
    (by decide +kernel) rfl 0 en ⟨⟨1, 0, ['t'], 0⟩, _, by decide +kernel, rfl, hs, hmem, by decide⟩
  rcases hpending with hpending | ⟨id, info, hc, hdrained | ⟨entries, hreceived⟩⟩
  · obtain ⟨id, info, hexecutable, _⟩ := queued_of_pending 1 hpending (by decide +kernel)
      (by decide +kernel) (by decide +kernel) (by decide +kernel) rfl
    rw [hwork] at hexecutable
    cases List.mem_singleton.mp hexecutable
  · rw [hwork] at hdrained
    cases List.mem_singleton.mp hdrained
    cases hc
  · rw [hwork] at hreceived
    cases List.mem_singleton.mp hreceived

end Agnocast
