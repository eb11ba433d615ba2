import Agnocast.Agnocastlib.CallbackInfo

/-!
# The client library — destroying subscriptions and timers

A destructor takes its entry out of the registry, and a handler that looks the entry up
later finds nothing. The copy that a handler or an executable has made before stays: it is
not told that the subscription is gone, and uses its ids and its eventfd.

* `destruction_harmless`       — where the destroyed subscription or timer has no such work
  left, no step of any run is an error.
* `stale_executable_receives`  — a subscription is destroyed while its executable is queued:
  the executable receives for the subscriber that the kernel has forgotten.
-/

namespace Agnocast

variable {x : Library}

/-! ## What is asked -/

/-- The subscription that the info was copied from. -/
structure CallbackInfo.IsOf (info : CallbackInfo) (obj : SubscriptionObject) : Prop where
  topicName : obj.topicName = info.topicName
  id : obj.id = info.subscriberId
  notifyEventfd : obj.notifyEventfd = info.notifyEventfd

/-- The subscription of the info is in a state that satisfies `P`. -/
def Library.Serves (x : Library) (info : CallbackInfo) (P : SubscriptionObject → Prop) : Prop :=
  ∃ obj, x.subscriptions info.callback = some obj ∧ info.IsOf obj ∧ P obj

/-- A message is received for a subscriber that the kernel knows, a callback starts before
the destructor has returned, and none of the library's own exits is taken. -/
def Library.Harmless (x : Library) : Option Observed → Prop
  | none => True
  | some (.receiveMsg info) => x.Serves info fun obj => obj.inKernel
  | some (.callback info) => x.Serves info fun obj => obj.phase ≠ .returned
  | some (.exit _) => False

def DestructionHarmless (tr : List LibraryEvent) : Prop :=
  ∀ ev ∈ tr, ev.pre.Harmless ev.output

/-- The work ends in a RECEIVE_MSG for the subscription. -/
def Work.willReceive (x : Library) (s : Nat) : Work → Prop
  | .copied _ info => info.callback = s ∧ x.eventfds info.notifyEventfd ≠ some false
  | .executable _ info => info.callback = s
  | .received _ info _ callAgain => info.callback = s ∧ callAgain = true
  | _ => False

/-- The work uses the eventfd or the callback of the subscription. -/
def Work.uses (s : Nat) : Work → Prop
  | .copied _ info => info.callback = s
  | .received _ info entries _ => info.callback = s ∧ entries ≠ 0
  | _ => False

/-- What is destroyed has no work left: nothing that will receive when the kernel subscriber
goes, nothing that uses the eventfd or the callback when the destructor ends, and no event
of a timer that is pending when the timer goes or arrives afterwards. -/
def DestroyedIdle (x : Library) : LibraryInput → Prop
  | .removeSubscriber s => ∀ w ∈ x.work, ¬ w.willReceive x s
  | .closeNotifyEventfd s => ∀ w ∈ x.work, ¬ w.uses s
  | .unregisterTimerInfo t => ∀ obj, x.timers t = some obj → ∀ type, type ≠ .subscription →
      .event type obj.timerId ∉ x.work
  | .epollWait type localId => type ≠ .subscription → (x.id2TimerInfo localId).isSome
  | _ => True

/-! ## The invariant -/

namespace Library

/-- The registry, the objects and the eventfds agree: what is registered is alive, the
eventfd of a subscription is its own until the destructor returns, and only open eventfds
are watched. -/
structure RegistrySound (x : Library) : Prop where
  fresh : ∀ s obj, x.subscriptions s = some obj → s < x.nextSubscription
  registered : ∀ id info, x.id2CallbackInfo id = some info →
    x.Serves info fun obj => obj.phase = .alive ∧ obj.callbackInfoId = id
  opened : ∀ s obj, x.subscriptions s = some obj → obj.phase ≠ .returned →
    (x.eventfds obj.notifyEventfd).isSome
  distinct : ∀ s s' obj obj', x.subscriptions s = some obj → x.subscriptions s' = some obj' →
    obj.phase ≠ .returned → obj'.phase ≠ .returned → obj.notifyEventfd = obj'.notifyEventfd →
    s = s'
  watched : ∀ p ∈ x.interest, (x.eventfds p.1).isSome
  unwatched : ∀ id info, x.id2CallbackInfo id = some info → info.needEpollUpdate = true →
    info.notifyEventfd ∉ x.interest.map Prod.fst

/-- What the library may still do with a work. -/
def WorkSound (x : Library) : Work → Prop
  | .event type localId => type ≠ .subscription → (x.id2TimerInfo localId).isSome
  | .copied _ info => x.Serves info fun obj => obj.phase ≠ .returned ∧
      (obj.phase = .removed → x.eventfds obj.notifyEventfd = some false)
  | .executable _ info => x.Serves info fun obj => obj.inKernel
  | .received _ info entries callAgain => x.Serves info fun obj =>
      (callAgain = true → obj.inKernel) ∧ (entries ≠ 0 → obj.phase ≠ .returned)
  | _ => True

structure Sound (x : Library) : Prop where
  registry : x.RegistrySound
  working : ∀ w ∈ x.work, x.WorkSound w

/-- A step from `x` that shows nothing harmful and leads to a sound state. -/
def Safe (x : Library) (r : Option Observed × Library) : Prop := r.2.Sound ∧ x.Harmless r.1

/-! ### Serving an info -/

theorem Serves.imp {info : CallbackInfo} {P Q : SubscriptionObject → Prop} {y : Library}
    (h : x.Serves info P) (hsubs : y.subscriptions = x.subscriptions)
    (hPQ : ∀ obj, x.subscriptions info.callback = some obj → P obj → Q obj) : y.Serves info Q := by
  obtain ⟨obj, hobj, hof, hp⟩ := h
  exact ⟨obj, hsubs ▸ hobj, hof, hPQ obj hobj hp⟩

/-- The destructor of one subscription goes on: the others serve as before. -/
theorem Serves.advance {info : CallbackInfo} {P Q : SubscriptionObject → Prop} {y : Library}
    {s : Nat} {obj : SubscriptionObject} {phase : Phase} (h : x.Serves info P)
    (hobj : x.subscriptions s = some obj)
    (hsubs : y.subscriptions = Function.update x.subscriptions s (some { obj with phase }))
    (hown : info.callback = s → info.IsOf obj → P obj → Q { obj with phase })
    (hother : ∀ other, info.callback ≠ s → x.subscriptions info.callback = some other → P other →
      Q other) : y.Serves info Q := by
  obtain ⟨other, hother', hof, hp⟩ := h
  unfold Serves
  rw [hsubs]
  by_cases hs : info.callback = s
  · subst hs
    obtain rfl := Option.some.inj (hobj.symm.trans hother')
    exact ⟨_, Function.update_self .., ⟨hof.topicName, hof.id, hof.notifyEventfd⟩, hown rfl hof hp⟩
  · exact ⟨other, (Function.update_of_ne hs ..).trans hother', hof, hother other hs hother' hp⟩

/-! ### Steps that leave the objects alone -/

/-- The registry does not see the timers and the work. -/
theorem RegistrySound.of_eq {y : Library} (h : x.RegistrySound)
    (hmap : y.id2CallbackInfo = x.id2CallbackInfo) (hsubs : y.subscriptions = x.subscriptions)
    (hnext : y.nextSubscription = x.nextSubscription) (hfds : y.eventfds = x.eventfds)
    (hinterest : y.interest = x.interest) : y.RegistrySound := by
  refine ⟨?_, ?_, ?_, ?_, ?_, ?_⟩
  · rw [hsubs, hnext]
    exact h.fresh
  · rw [hmap]
    exact fun id info hinfo => (h.registered id info hinfo).imp hsubs fun _ _ hp => hp
  · rw [hsubs, hfds]
    exact h.opened
  · rw [hsubs]
    exact h.distinct
  · rw [hinterest, hfds]
    exact h.watched
  · rw [hmap, hinterest]
    exact h.unwatched

/-- A work is judged by the objects, the eventfds and the timers. -/
theorem WorkSound.of_eq {y : Library} {w : Work} (h : x.WorkSound w)
    (hsubs : y.subscriptions = x.subscriptions) (hfds : y.eventfds = x.eventfds)
    (htimers : ∀ type id, w = .event type id → type ≠ .subscription →
      (x.id2TimerInfo id).isSome → (y.id2TimerInfo id).isSome) : y.WorkSound w := by
  cases w with
  | event type localId => exact fun htype => htimers type localId rfl htype (h htype)
  | copied id info =>
    refine Serves.imp h hsubs fun obj _ hp => ?_
    rw [hfds]
    exact hp
  | executable id info => exact Serves.imp h hsubs fun _ _ hp => hp
  | received id info entries callAgain => exact Serves.imp h hsubs fun _ _ hp => hp
  | _ => trivial

/-- Work is done and other work comes of it. -/
theorem Sound.of_work {y : Library} (h : x.Sound)
    (hmap : y.id2CallbackInfo = x.id2CallbackInfo) (hsubs : y.subscriptions = x.subscriptions)
    (hnext : y.nextSubscription = x.nextSubscription) (hfds : y.eventfds = x.eventfds)
    (hinterest : y.interest = x.interest) (htimers : y.id2TimerInfo = x.id2TimerInfo)
    (hwork : ∀ w ∈ y.work, w ∈ x.work ∨ x.WorkSound w) : y.Sound := by
  refine ⟨h.registry.of_eq hmap hsubs hnext hfds hinterest, fun w hw => ?_⟩
  have hsound : x.WorkSound w := (hwork w hw).elim (h.working w) id
  exact hsound.of_eq hsubs hfds fun _ _ _ _ hid => htimers ▸ hid

theorem mem_replaceWork {w w' : Work} {ws : List Work} (h : w' ∈ (x.replaceWork w ws).work) :
    w' ∈ ws ∨ w' ∈ x.work :=
  (List.mem_append.mp h).imp_right List.mem_of_mem_erase

/-- One work is replaced by others that are sound. -/
theorem Sound.replaceWork (h : x.Sound) (w : Work) {ws : List Work}
    (hws : ∀ w ∈ ws, x.WorkSound w) : (x.replaceWork w ws).Sound :=
  h.of_work rfl rfl rfl rfl rfl rfl fun w' hw' => (mem_replaceWork hw').symm.imp_right (hws w')

/-- The timers change, and what a pending event names stays registered. -/
theorem Sound.of_timers {y : Library} (h : x.Sound)
    (hmap : y.id2CallbackInfo = x.id2CallbackInfo) (hsubs : y.subscriptions = x.subscriptions)
    (hnext : y.nextSubscription = x.nextSubscription) (hfds : y.eventfds = x.eventfds)
    (hinterest : y.interest = x.interest) (hwork : y.work = x.work)
    (htimers : ∀ type id, .event type id ∈ x.work → type ≠ .subscription →
      (x.id2TimerInfo id).isSome → (y.id2TimerInfo id).isSome) : y.Sound := by
  refine ⟨h.registry.of_eq hmap hsubs hnext hfds hinterest, fun w hw => ?_⟩
  rw [hwork] at hw
  refine (h.working w hw).of_eq hsubs hfds fun type id hevent => ?_
  exact htimers type id (hevent ▸ hw)

/-! ### The life of a subscription -/

/-- A number that is not in use is nobody's eventfd. -/
theorem RegistrySound.eventfd_ne (h : x.RegistrySound) {s : Nat} {obj : SubscriptionObject}
    {fd : Int} (hobj : x.subscriptions s = some obj) (hphase : obj.phase ≠ .returned)
    (hfd : x.eventfds fd = none) : obj.notifyEventfd ≠ fd := by
  rintro rfl
  have hopen := h.opened s obj hobj hphase
  rw [hfd] at hopen
  cases hopen

/-- An object is added under the next number, with an eventfd of its own. -/
theorem Sound.add {y : Library} (h : x.Sound) (obj : SubscriptionObject)
    (hfd : x.eventfds obj.notifyEventfd = none)
    (hsubs : y.subscriptions = Function.update x.subscriptions x.nextSubscription (some obj))
    (hnext : y.nextSubscription = x.nextSubscription + 1)
    (hfds : y.eventfds = Function.update x.eventfds obj.notifyEventfd (some false))
    (hinterest : y.interest = x.interest) (hwork : y.work = x.work)
    (htimers : y.id2TimerInfo = x.id2TimerInfo)
    (hmap : ∀ id info, y.id2CallbackInfo id = some info → x.id2CallbackInfo id = some info ∨
      info.callback = x.nextSubscription ∧ info.IsOf obj ∧ obj.phase = .alive ∧
        obj.callbackInfoId = id) : y.Sound := by
  -- an old object has an old number, and an open eventfd is not the new one
  have hne : ∀ {s o}, x.subscriptions s = some o → s ≠ x.nextSubscription := fun hs =>
    (h.registry.fresh _ _ hs).ne
  have hold : ∀ {s o}, x.subscriptions s = some o → y.subscriptions s = some o := fun hs => by
    rw [hsubs, Function.update_of_ne (hne hs), hs]
  have hcases : ∀ {s o}, y.subscriptions s = some o →
      x.subscriptions s = some o ∨ s = x.nextSubscription ∧ o = obj := by
    intro s o hs
    rw [hsubs] at hs
    by_cases hnew : s = x.nextSubscription
    · subst hnew
      rw [Function.update_self] at hs
      exact .inr ⟨rfl, (Option.some.inj hs).symm⟩
    · exact .inl (by rwa [Function.update_of_ne hnew] at hs)
  have hopen : ∀ {fd}, (x.eventfds fd).isSome → y.eventfds fd = x.eventfds fd := by
    intro fd hfd'
    rw [hfds, Function.update_of_ne]
    rintro rfl
    rw [hfd] at hfd'
    cases hfd'
  have hserves : ∀ {info P}, x.Serves info P → y.Serves info P := fun ⟨o, ho, hof, hp⟩ =>
    ⟨o, hold ho, hof, hp⟩
  refine ⟨⟨?_, ?_, ?_, ?_, ?_, ?_⟩, ?_⟩
  · intro s o hs
    rw [hnext]
    rcases hcases hs with hs | ⟨rfl, _⟩
    · exact Nat.lt_succ_of_lt (h.registry.fresh s o hs)
    · exact Nat.lt_succ_self _
  · intro id info hinfo
    rcases hmap id info hinfo with hinfo | ⟨hcallback, hof, hphase, hid⟩
    · exact hserves (h.registry.registered id info hinfo)
    · refine ⟨obj, ?_, hof, hphase, hid⟩
      rw [hsubs, hcallback, Function.update_self]
  · intro s o hs hphase
    rcases hcases hs with hs | ⟨_, rfl⟩
    · have := h.registry.opened s o hs hphase
      rwa [hopen this]
    · rw [hfds, Function.update_self]
      rfl
  · intro s s' o o' hs hs' hphase hphase' heq
    rcases hcases hs with hs | ⟨rfl, rfl⟩ <;> rcases hcases hs' with hs' | ⟨rfl, rfl⟩
    · exact h.registry.distinct s s' o o' hs hs' hphase hphase' heq
    · exact absurd heq (h.registry.eventfd_ne hs hphase hfd)
    · exact absurd heq.symm (h.registry.eventfd_ne hs' hphase' hfd)
    · rfl
  · intro p hp
    rw [hinterest] at hp
    rw [hopen (h.registry.watched p hp)]
    exact h.registry.watched p hp
  · intro id info hinfo hneed
    rw [hinterest]
    rcases hmap id info hinfo with hinfo | ⟨_, hof, _, _⟩
    · exact h.registry.unwatched id info hinfo hneed
    · intro hmem
      obtain ⟨p, hp, hpfd⟩ := List.mem_map.mp hmem
      have := h.registry.watched p hp
      rw [hpfd, ← hof.notifyEventfd, hfd] at this
      cases this
  · intro w hw
    rw [hwork] at hw
    have hsound := h.working w hw
    cases w with
    | event type localId =>
      intro htype
      rw [htimers]
      exact hsound htype
    | copied id info =>
      obtain ⟨o, ho, hof, hphase, hfalse⟩ := hsound
      refine ⟨o, hold ho, hof, hphase, fun hremoved => ?_⟩
      rw [hopen (h.registry.opened _ o ho hphase)]
      exact hfalse hremoved
    | executable id info => exact hserves hsound
    | received id info entries callAgain => exact hserves hsound
    | _ => trivial

theorem Sound.createSubscription (h : x.Sound) (topicName : Name) (subscriberId : Int)
    (isTransientLocal : Bool) (fd : Int) :
    (x.createSubscription topicName subscriberId isTransientLocal fd).Sound := by
  unfold Library.createSubscription
  split
  · exact h
  next hfd =>
    have hfd : x.eventfds fd = none := Option.not_isSome_iff_eq_none.mp hfd
    simp only
    split
    · exact h.add ⟨_, topicName, subscriberId, fd, .erased⟩ hfd rfl rfl rfl rfl rfl rfl
        fun id info hinfo => .inl hinfo
    · refine h.add ⟨_, topicName, subscriberId, fd, .alive⟩ hfd rfl rfl rfl rfl rfl rfl
        fun id info hinfo => ?_
      change Function.update x.id2CallbackInfo x.nextCallbackInfoId _ id = some info at hinfo
      by_cases hid : id = x.nextCallbackInfoId
      · subst hid
        rw [Function.update_self] at hinfo
        obtain rfl := Option.some.inj hinfo
        exact .inr ⟨rfl, ⟨rfl, rfl, rfl⟩, rfl, rfl⟩
      · rw [Function.update_of_ne hid] at hinfo
        exact .inl hinfo

/-- The destructor of a subscription goes on: what is still registered is of others, and
with its last step its eventfd is gone. -/
theorem RegistrySound.advance {y : Library} {s : Nat} {obj : SubscriptionObject} {phase : Phase}
    (h : x.RegistrySound) (hobj : x.subscriptions s = some obj) (hphase : obj.phase ≠ .returned)
    (hsubs : y.subscriptions = Function.update x.subscriptions s (some { obj with phase }))
    (hnext : y.nextSubscription = x.nextSubscription)
    (hmap : ∀ id info, y.id2CallbackInfo id = some info →
      x.id2CallbackInfo id = some info ∧ info.callback ≠ s)
    (hfds : ∀ fd, (phase = .returned → fd ≠ obj.notifyEventfd) → y.eventfds fd = x.eventfds fd)
    (hinterest : ∀ p ∈ y.interest,
      p ∈ x.interest ∧ (phase = .returned → p.1 ≠ obj.notifyEventfd)) : y.RegistrySound := by
  -- who is still there has been there, with the same eventfd
  have hcases : ∀ {s' o}, y.subscriptions s' = some o → o.phase ≠ .returned →
      ∃ o', x.subscriptions s' = some o' ∧ o'.phase ≠ .returned ∧
        o'.notifyEventfd = o.notifyEventfd ∧ (s' = s → phase ≠ .returned) := by
    intro s' o hs hlive
    rw [hsubs] at hs
    by_cases hown : s' = s
    · subst hown
      rw [Function.update_self] at hs
      obtain rfl := Option.some.inj hs
      exact ⟨obj, hobj, hphase, rfl, fun _ => hlive⟩
    · rw [Function.update_of_ne hown] at hs
      exact ⟨o, hs, hlive, rfl, fun hs' => absurd hs' hown⟩
  refine ⟨?_, ?_, ?_, ?_, ?_, ?_⟩
  · intro s' o hs
    rw [hnext]
    rw [hsubs] at hs
    by_cases hown : s' = s
    · subst hown
      exact h.fresh s' obj hobj
    · rw [Function.update_of_ne hown] at hs
      exact h.fresh s' o hs
  · intro id info hinfo
    obtain ⟨hinfo, hne⟩ := hmap id info hinfo
    obtain ⟨o, ho, hof, hp⟩ := h.registered id info hinfo
    refine ⟨o, ?_, hof, hp⟩
    rw [hsubs, Function.update_of_ne hne]
    exact ho
  · intro s' o hs hlive
    obtain ⟨o', ho', hlive', hfd, hown⟩ := hcases hs hlive
    rw [← hfd, hfds]
    · exact h.opened s' o' ho' hlive'
    · -- another one's eventfd is another number
      intro hreturned heq
      exact hown (h.distinct s' s o' obj ho' hobj hlive' hphase heq) hreturned
  · intro s' s'' o o' hs hs' hlive hlive' heq
    obtain ⟨q, hq, hqlive, hqfd, _⟩ := hcases hs hlive
    obtain ⟨q', hq', hqlive', hqfd', _⟩ := hcases hs' hlive'
    exact h.distinct s' s'' q q' hq hq' hqlive hqlive' (hqfd.trans (heq.trans hqfd'.symm))
  · intro p hp
    obtain ⟨hp, hne⟩ := hinterest p hp
    rw [hfds _ hne]
    exact h.watched p hp
  · intro id info hinfo hneed hmem
    obtain ⟨p, hp, hpfd⟩ := List.mem_map.mp hmem
    exact h.unwatched id info (hmap id info hinfo).1 hneed
      (List.mem_map.mpr ⟨p, (hinterest p hp).1, hpfd⟩)

/-- What is registered is of a subscription whose destructor has not begun. -/
theorem RegistrySound.callback_ne (h : x.RegistrySound) {s id : Nat} {obj : SubscriptionObject}
    {info : CallbackInfo} (hobj : x.subscriptions s = some obj) (hphase : obj.phase ≠ .alive)
    (hinfo : x.id2CallbackInfo id = some info) : info.callback ≠ s := by
  rintro rfl
  obtain ⟨o, ho, _, halive, _⟩ := h.registered id info hinfo
  obtain rfl := Option.some.inj (ho.symm.trans hobj)
  exact hphase halive

theorem Sound.eraseCallbackInfo (h : x.Sound) (s : Nat) : (x.eraseCallbackInfo s).Sound := by
  unfold Library.eraseCallbackInfo
  split
  · exact h
  next obj hobj =>
    split
    next halive =>
      refine ⟨?_, fun w hw => ?_⟩
      · refine h.registry.advance hobj (by simp [halive]) rfl rfl (fun id info hinfo => ?_)
          (fun fd _ => rfl) fun p hp => ⟨hp, fun hreturned => (by cases hreturned)⟩
        change Function.update x.id2CallbackInfo obj.callbackInfoId none id = some info at hinfo
        -- only the entry under its own id can be of the subscription
        by_cases hid : id = obj.callbackInfoId
        · subst hid
          rw [Function.update_self] at hinfo
          cases hinfo
        · rw [Function.update_of_ne hid] at hinfo
          refine ⟨hinfo, ?_⟩
          rintro rfl
          obtain ⟨o, ho, _, _, hown⟩ := h.registry.registered id info hinfo
          obtain rfl := Option.some.inj (ho.symm.trans hobj)
          exact hid hown.symm
      · have hsound := h.working w hw
        cases w with
        | copied id info =>
          exact Serves.advance hsound hobj rfl (fun _ _ _ => by simp) fun _ _ _ hp => hp
        | executable id info =>
          exact Serves.advance hsound hobj rfl
            (fun _ _ _ => by simp [SubscriptionObject.inKernel]) fun _ _ _ hp => hp
        | received id info entries callAgain =>
          exact Serves.advance hsound hobj rfl
            (fun _ _ _ => by simp [SubscriptionObject.inKernel]) fun _ _ _ hp => hp
        | _ => exact hsound
    · exact h

/-- The kernel forgets a subscription that nothing will receive for. -/
theorem Sound.removeSubscriber (h : x.Sound) {s : Nat}
    (hidle : ∀ w ∈ x.work, ¬ w.willReceive x s) : (x.removeSubscriber s).Sound := by
  unfold Library.removeSubscriber
  split
  · exact h
  next obj hobj =>
    split
    next herased =>
      refine ⟨?_, fun w hw => ?_⟩
      · refine h.registry.advance hobj (by simp [herased]) rfl rfl (fun id info hinfo => ?_)
          (fun fd _ => rfl) fun p hp => ⟨hp, fun hreturned => (by cases hreturned)⟩
        exact ⟨hinfo, h.registry.callback_ne hobj (by simp [herased]) hinfo⟩
      · have hsound := h.working w hw
        have hquiet := hidle w hw
        cases w with
        | copied id info =>
          refine Serves.advance hsound hobj rfl (fun hown hof _ => ⟨by simp, fun _ => ?_⟩)
            fun _ _ _ hp => hp
          show x.eventfds obj.notifyEventfd = some false
          rw [hof.notifyEventfd]
          by_contra hfd
          exact hquiet ⟨hown, hfd⟩
        | executable id info =>
          exact Serves.advance hsound hobj rfl (fun hown _ _ => absurd hown hquiet)
            fun _ _ _ hp => hp
        | received id info entries callAgain =>
          refine Serves.advance hsound hobj rfl (fun hown _ _ => ⟨fun hagain => ?_, by simp⟩)
            fun _ _ _ hp => hp
          exact absurd ⟨hown, hagain⟩ hquiet
        | _ => exact hsound
    · exact h

/-- The destructor of a subscription returns that nothing uses any more. -/
theorem Sound.closeNotifyEventfd (h : x.Sound) {s : Nat}
    (hidle : ∀ w ∈ x.work, ¬ w.uses s) : (x.closeNotifyEventfd s).Sound := by
  unfold Library.closeNotifyEventfd
  split
  · exact h
  next obj hobj =>
    split
    next hremoved =>
      have hlive : obj.phase ≠ .returned := by simp [hremoved]
      refine ⟨?_, fun w hw => ?_⟩
      · refine h.registry.advance hobj hlive rfl rfl (fun id info hinfo => ?_) (fun fd hfd => ?_)
          fun p hp => ?_
        · exact ⟨hinfo, h.registry.callback_ne hobj (by simp [hremoved]) hinfo⟩
        · exact Function.update_of_ne (hfd rfl) ..
        · obtain ⟨hp, hne⟩ := List.mem_filter.mp hp
          exact ⟨hp, fun _ => by simpa using hne⟩
      · have hsound := h.working w hw
        have hquiet := hidle w hw
        cases w with
        | copied id info =>
          refine Serves.advance hsound hobj rfl (fun hown _ _ => absurd hown hquiet)
            fun other hne hother hp => ⟨hp.1, fun hphase => ?_⟩
          show Function.update x.eventfds obj.notifyEventfd none other.notifyEventfd = some false
          rw [Function.update_of_ne, hp.2 hphase]
          exact fun heq => hne (h.registry.distinct _ _ _ _ hother hobj hp.1 hlive heq)
        | executable id info =>
          exact Serves.advance hsound hobj rfl
            (fun _ _ hp => by simp [SubscriptionObject.inKernel, hremoved] at hp)
            fun _ _ _ hp => hp
        | received id info entries callAgain =>
          refine Serves.advance hsound hobj rfl (fun hown _ hp => ⟨fun hagain => ?_, fun hne => ?_⟩)
            fun _ _ _ hp => hp
          · have := hp.1 hagain
            simp [SubscriptionObject.inKernel, hremoved] at this
          · exact absurd ⟨hown, hne⟩ hquiet
        | _ => exact hsound
    · exact h

/-! ### Handlers and executables -/

/-- The counter of an open eventfd changes. -/
theorem RegistrySound.signal {y : Library} {fd : Int} {b : Bool} (h : x.RegistrySound)
    (hmap : y.id2CallbackInfo = x.id2CallbackInfo) (hsubs : y.subscriptions = x.subscriptions)
    (hnext : y.nextSubscription = x.nextSubscription)
    (hfds : y.eventfds = Function.update x.eventfds fd (some b))
    (hinterest : y.interest = x.interest) : y.RegistrySound := by
  have hopen : ∀ {fd'}, (x.eventfds fd').isSome → (y.eventfds fd').isSome := by
    intro fd' hfd'
    rw [hfds]
    by_cases heq : fd' = fd
    · subst heq
      rw [Function.update_self]
      rfl
    · rwa [Function.update_of_ne heq]
  refine ⟨?_, ?_, ?_, ?_, ?_, ?_⟩
  · rw [hsubs, hnext]
    exact h.fresh
  · rw [hmap]
    exact fun id info hinfo => (h.registered id info hinfo).imp hsubs fun _ _ hp => hp
  · rw [hsubs]
    exact fun s obj hobj hlive => hopen (h.opened s obj hobj hlive)
  · rw [hsubs]
    exact h.distinct
  · rw [hinterest]
    exact fun p hp => hopen (h.watched p hp)
  · rw [hmap, hinterest]
    exact h.unwatched

/-- The kernel signals a subscriber it knows: no removed one has its eventfd. -/
theorem Sound.publish (h : x.Sound) (s : Nat) : (x.publish s).Sound := by
  unfold Library.publish
  split
  · exact h
  next obj hobj =>
    split
    next hsignal =>
      refine ⟨h.registry.signal rfl rfl rfl rfl rfl, fun w hw => ?_⟩
      have hsound := h.working w hw
      cases w with
      | copied id info =>
        refine Serves.imp hsound rfl fun other hother hp => ⟨hp.1, fun hphase => ?_⟩
        have hne : other.notifyEventfd ≠ obj.notifyEventfd := by
          intro heq
          have hlive : obj.phase ≠ .returned := by
            rintro hreturned
            simp [SubscriptionObject.inKernel, hreturned] at hsignal
          have hsame := h.registry.distinct _ _ _ _ hother hobj hp.1 hlive heq
          rw [hsame] at hother
          obtain rfl := Option.some.inj (hother.symm.trans hobj)
          simp [SubscriptionObject.inKernel, hphase] at hsignal
        show Function.update x.eventfds obj.notifyEventfd _ other.notifyEventfd = some false
        rw [Function.update_of_ne hne, hp.2 hphase]
      | executable id info => exact Serves.imp hsound rfl fun _ _ hp => hp
      | received id info entries callAgain => exact Serves.imp hsound rfl fun _ _ hp => hp
      | _ => exact hsound
    · exact h

/-- The eventfd that a handler reads is open, and if it is readable the kernel still knows
the subscriber. -/
theorem Sound.readEventfd (h : x.Sound) {id : Nat} {info : CallbackInfo}
    (hwork : .copied id info ∈ x.work) : x.Safe (x.readEventfd id info) := by
  obtain ⟨obj, hobj, hof, hlive, hremoved⟩ := h.working _ hwork
  have hopen := h.registry.opened _ obj hobj hlive
  rw [hof.notifyEventfd] at hopen hremoved
  unfold Library.readEventfd
  split
  next hnone =>
    rw [hnone] at hopen
    cases hopen
  · exact ⟨h.replaceWork _ fun w hw => (by cases hw), trivial⟩
  next htrue =>
    refine ⟨⟨h.registry.signal rfl rfl rfl rfl rfl, fun w hw => ?_⟩, trivial⟩
    have hkernel : obj.inKernel := by
      rw [htrue] at hremoved
      cases hphase : obj.phase with
      | alive => simp [SubscriptionObject.inKernel, hphase]
      | erased => simp [SubscriptionObject.inKernel, hphase]
      | removed => cases hremoved hphase
      | returned => exact absurd hphase hlive
    rcases mem_replaceWork hw with hw | hw
    · obtain rfl := List.mem_singleton.mp hw
      exact ⟨obj, hobj, hof, hkernel⟩
    · have hsound := h.working w hw
      cases w with
      | copied id' info' =>
        refine Serves.imp hsound rfl fun other _ hp => ⟨hp.1, fun hphase => ?_⟩
        show Function.update x.eventfds info.notifyEventfd _ other.notifyEventfd = some false
        by_cases heq : other.notifyEventfd = info.notifyEventfd
        · rw [heq, Function.update_self]
        · rw [Function.update_of_ne heq, hp.2 hphase]
      | executable id' info' => exact Serves.imp hsound rfl fun _ _ hp => hp
      | received id' info' entries callAgain => exact Serves.imp hsound rfl fun _ _ hp => hp
      | _ => exact hsound

/-- What a registered info says of its subscription. -/
theorem RegistrySound.inKernel (h : x.RegistrySound) {id : Nat} {info : CallbackInfo}
    (hinfo : x.id2CallbackInfo id = some info) : x.Serves info fun obj => obj.inKernel :=
  (h.registered id info hinfo).imp rfl fun obj _ hp => by simp [SubscriptionObject.inKernel, hp.1]

/-- The eventfd of a registered subscription is open, and is added once. -/
theorem Sound.prepareSubscription (h : x.Sound) (id : Nat) : x.Safe (x.prepareSubscription id) := by
  unfold Library.prepareSubscription
  split
  · exact ⟨h, trivial⟩
  next info hinfo =>
    split
    · exact ⟨h, trivial⟩
    next hneed =>
      -- the object is alive while its info is registered, so the eventfd is open
      have hneed : info.needEpollUpdate = true := by simpa using hneed
      obtain ⟨obj, hobj, hof, halive, _⟩ := h.registry.registered id info hinfo
      have hopen := h.registry.opened _ obj hobj (by simp [halive])
      rw [hof.notifyEventfd] at hopen
      split
      next hfail =>
        -- adding it fails only when it is closed, or watched already
        rcases hfail with hclosed | hmem
        · rw [hclosed] at hopen
          cases hopen
        · exact absurd hmem (h.registry.unwatched id info hinfo hneed)
      · refine ⟨⟨⟨h.registry.fresh, fun id' info' hinfo' => ?_, h.registry.opened,
          h.registry.distinct, fun p hp => ?_, fun id' info' hinfo' hneed' => ?_⟩, fun w hw => ?_⟩,
          trivial⟩
        · change Function.update x.id2CallbackInfo id _ id' = some info' at hinfo'
          by_cases hid : id' = id
          · subst hid
            rw [Function.update_self] at hinfo'
            obtain rfl := Option.some.inj hinfo'
            obtain ⟨o, ho, hof', hp⟩ := h.registry.registered id' info hinfo
            exact ⟨o, ho, ⟨hof'.topicName, hof'.id, hof'.notifyEventfd⟩, hp⟩
          · rw [Function.update_of_ne hid] at hinfo'
            exact h.registry.registered id' info' hinfo'
        · rcases List.mem_cons.mp hp with rfl | hp
          · exact hopen
          · exact h.registry.watched p hp
        · change Function.update x.id2CallbackInfo id _ id' = some info' at hinfo'
          by_cases hid : id' = id
          · subst hid
            rw [Function.update_self] at hinfo'
            obtain rfl := Option.some.inj hinfo'
            cases hneed'
          · rw [Function.update_of_ne hid] at hinfo'
            intro hmem
            rcases List.mem_cons.mp hmem with heq | hmem
            · -- two registered infos with one eventfd are of one subscription, under one id
              obtain ⟨o, ho, hof', halive', hown'⟩ := h.registry.registered id' info' hinfo'
              obtain ⟨q, hq, hofq, haliveq, hownq⟩ := h.registry.registered id info hinfo
              have hsame := h.registry.distinct _ _ _ _ ho hq (by simp [halive'])
                (by simp [haliveq]) (by rw [hof'.notifyEventfd, hofq.notifyEventfd, heq])
              rw [hsame] at ho
              obtain rfl := Option.some.inj (ho.symm.trans hq)
              exact hid (hown'.symm.trans hownq)
            · exact h.registry.unwatched id' info' hinfo' hneed' hmem
        · have hmem : w = .executable id info ∨ w ∈ x.work := by
            revert hw
            show w ∈ (if info.isTransientLocal then _ else _) → _
            split
            · exact List.mem_cons.mp
            · exact .inr
          have hsound : x.WorkSound w := by
            rcases hmem with rfl | hw
            · exact h.registry.inKernel hinfo
            · exact h.working w hw
          exact hsound.of_eq rfl rfl fun _ _ _ _ hid => hid

/-- The handler of a timer event finds the timer, and that of a subscription copies what is
alive. -/
private theorem Sound.quiet (h : x.Sound) {w : Work} {ws : List Work}
    (hws : ∀ w' ∈ ws, x.WorkSound w') : x.Safe (none, x.replaceWork w ws) :=
  ⟨h.replaceWork _ hws, trivial⟩

/-- The timer handlers: a timer of a watched fd is never missing from `id2_timer_info`. -/
private theorem Sound.handle_timer (h : x.Sound) {type : EpollEventType} {localId : Nat}
    (htype : type ≠ .subscription) (hwork : .event type localId ∈ x.work) :
    x.Safe (x.handle type localId) := by
  have hregistered := h.working _ hwork htype
  cases type with
  | subscription => exact absurd rfl htype
  | timer | clock =>
    simp only [Library.handle]
    split
    next hnone =>
      rw [hnone] at hregistered
      cases hregistered
    · split
      · refine h.quiet fun w hw => ?_
        obtain rfl := List.mem_singleton.mp hw
        trivial
      · exact h.quiet fun w hw => by cases hw

theorem Sound.handle (h : x.Sound) {type : EpollEventType} {localId : Nat}
    (hwork : .event type localId ∈ x.work) : x.Safe (x.handle type localId) := by
  cases type with
  | subscription =>
    simp only [Library.handle]
    split
    · exact h.quiet fun w hw => by cases hw
    next info hinfo =>
      refine h.quiet fun w hw => ?_
      obtain rfl := List.mem_singleton.mp hw
      refine (h.registry.registered localId info hinfo).imp rfl fun obj _ hp => ?_
      simp [hp.1]
  | timer => exact h.handle_timer (by simp) hwork
  | clock => exact h.handle_timer (by simp) hwork

/-! ### Timers -/

theorem Sound.createTimer (h : x.Sound) (fds : List EpollEventType) : (x.createTimer fds).Sound := by
  unfold Library.createTimer
  simp only
  split
  · exact h.of_timers rfl rfl rfl rfl rfl rfl fun _ _ _ _ hid => hid
  · refine h.of_timers rfl rfl rfl rfl rfl rfl fun _ id _ _ hid => ?_
    show (Function.update x.id2TimerInfo x.nextTimerId _ id).isSome
    by_cases hnew : id = x.nextTimerId
    · subst hnew
      rw [Function.update_self]
      rfl
    · rwa [Function.update_of_ne hnew]

theorem Sound.dropTimer (h : x.Sound) (t : Nat) : (x.dropTimer t).Sound := by
  unfold Library.dropTimer
  split
  · exact h
  · exact h.of_timers rfl rfl rfl rfl rfl rfl fun _ _ _ _ hid => hid

/-- The destructor of a timer runs, and no event of it is pending. -/
theorem Sound.unregisterTimerInfo (h : x.Sound) {t : Nat}
    (hidle : ∀ obj, x.timers t = some obj → ∀ type, type ≠ .subscription →
      .event type obj.timerId ∉ x.work) : (x.unregisterTimerInfo t).Sound := by
  unfold Library.unregisterTimerInfo
  split
  · exact h
  next obj hobj =>
    split
    · refine h.of_timers rfl rfl rfl rfl rfl rfl fun type id hevent htype hid => ?_
      show (Function.update x.id2TimerInfo obj.timerId none id).isSome
      rw [Function.update_of_ne]
      · exact hid
      · rintro rfl
        exact hidle obj hobj type htype hevent
    · exact h

theorem Sound.closeTimerFd (h : x.Sound) (t : Nat) : (x.closeTimerFd t).Sound := by
  unfold Library.closeTimerFd
  split
  · exact h
  · exact h.of_timers rfl rfl rfl rfl rfl rfl fun _ _ _ _ hid => hid

theorem Sound.prepareTimer (h : x.Sound) (type : EpollEventType) (id : Nat) :
    (x.prepareTimer type id).Sound := by
  unfold Library.prepareTimer
  split
  · exact h
  · split
    · exact h
    · split
      · exact h.of_timers rfl rfl rfl rfl rfl rfl fun _ _ _ _ hid => hid
      · exact h

/-! ## Steps and runs -/

/-- A step on a work that is not there is none. -/
theorem Safe.ite {c : Prop} [Decidable c] {r : Option Observed × Library} (h : x.Sound)
    (hr : c → x.Safe r) : x.Safe (if c then r else (none, x)) := by
  split
  next hc => exact hr hc
  · exact ⟨h, trivial⟩

/-- **Every step keeps the invariant** and shows nothing harmful, as long as what is
destroyed has no work left. -/
theorem Sound.act (h : x.Sound) {i : LibraryInput} (hidle : DestroyedIdle x i) :
    x.Safe (x.act i) := by
  -- most steps show nothing at all
  have hquiet : ∀ {y : Library}, y.Sound → x.Safe (none, y) := fun hy => ⟨hy, trivial⟩
  have hdone : ∀ {w ws}, (∀ w' ∈ ws, x.WorkSound w') → x.Safe (none, x.replaceWork w ws) :=
    fun hws => ⟨h.replaceWork _ hws, trivial⟩
  cases i with
  | createSubscription topicName subscriberId isTransientLocal fd =>
    exact hquiet (h.createSubscription topicName subscriberId isTransientLocal fd)
  | eraseCallbackInfo s => exact hquiet (h.eraseCallbackInfo s)
  | removeSubscriber s => exact hquiet (h.removeSubscriber hidle)
  | closeNotifyEventfd s => exact hquiet (h.closeNotifyEventfd hidle)
  | createTimer fds => exact hquiet (h.createTimer fds)
  | dropTimer t => exact hquiet (h.dropTimer t)
  | unregisterTimerInfo t => exact hquiet (h.unregisterTimerInfo hidle)
  | closeTimerFd t => exact hquiet (h.closeTimerFd t)
  | publish s => exact hquiet (h.publish s)
  | prepareSubscription id => exact h.prepareSubscription id
  | prepareTimer type id => exact hquiet (h.prepareTimer type id)
  | epollWait type localId =>
    refine hquiet ?_
    split
    · refine h.of_work rfl rfl rfl rfl rfl rfl fun w hw => ?_
      rcases List.mem_cons.mp hw with rfl | hw
      · exact .inr hidle
      · exact .inl hw
    · exact h
  | handle type localId => exact .ite h fun hwork => h.handle hwork
  | readEventfd id info => exact .ite h fun hwork => h.readEventfd hwork
  | receiveMsg id info reply =>
    refine .ite h fun hwork => ?_
    have hkernel := h.working _ hwork
    cases reply with
    | none =>
      exact ⟨h.of_work rfl rfl rfl rfl rfl rfl fun w hw => .inl hw, hkernel⟩
    | some reply =>
      refine ⟨h.replaceWork _ fun w hw => ?_, hkernel⟩
      obtain rfl := List.mem_singleton.mp hw
      -- what the kernel still has has not been destroyed
      refine Serves.imp hkernel rfl fun obj _ hp => ⟨fun _ => hp, fun _ hreturned => ?_⟩
      simp [SubscriptionObject.inKernel, hreturned] at hp
  | callback id info entries callAgain =>
    refine .ite h fun hwork => ?_
    have hserves := h.working _ hwork
    refine ⟨h.replaceWork _ fun w hw => ?_, Serves.imp hserves rfl fun _ _ hp => hp.2 (by simp)⟩
    obtain rfl := List.mem_singleton.mp hw
    exact Serves.imp hserves rfl fun _ _ hp => ⟨hp.1, fun _ => hp.2 (by simp)⟩
  | finish id info callAgain =>
    refine .ite h fun hwork => ?_
    have hserves := h.working _ hwork
    cases callAgain with
    | false => exact hdone fun w hw => by cases hw
    | true =>
      refine hdone fun w hw => ?_
      obtain rfl := List.mem_singleton.mp hw
      exact Serves.imp hserves rfl fun _ _ hp => hp.1 rfl
  | readTimer t expired =>
    refine .ite h fun hwork => hdone fun w hw => ?_
    cases expired with
    | false => cases hw
    | true =>
      obtain rfl := List.mem_singleton.mp hw
      trivial
  | lockTimer t canceled =>
    refine .ite h fun hwork => hdone fun w hw => ?_
    split at hw
    · obtain rfl := List.mem_singleton.mp hw
      trivial
    · cases hw
  | finishTimer t => exact .ite h fun hwork => hdone fun w hw => by cases hw

theorem Sound.step (h : x.Sound) {i : LibraryInput} (hidle : DestroyedIdle x i) :
    x.Safe (x.step i) := by
  unfold Library.step
  split
  · exact ⟨h, trivial⟩
  · exact h.act hidle

theorem Sound.empty : Library.empty.Sound := by
  refine ⟨⟨?_, ?_, ?_, ?_, ?_, ?_⟩, fun w hw => by cases hw⟩
  · exact fun s obj hobj => by cases hobj
  · exact fun id info hinfo => by cases hinfo
  · exact fun s obj hobj => by cases hobj
  · exact fun s s' obj obj' hobj => by cases hobj
  · exact fun p hp => by cases hp
  · exact fun id info hinfo => by cases hinfo

end Library

/-- What the handler copies of the first subscription. -/
def copiedInfo : CallbackInfo := ⟨['/', 't'], 0, false, 7, 0, false⟩

/-- A subscription is created and watched, a message wakes an executor, and its handler
queues an executable. -/
def queued : List LibraryInput :=
  [.createSubscription ['/', 't'] 0 false 7, .prepareSubscription 0, .publish 0,
    .epollWait .subscription 0, .handle .subscription 0, .readEventfd 0 copiedInfo]

/-- The destructor of the first subscription. -/
def destroyed : List LibraryInput :=
  [.eraseCallbackInfo 0, .removeSubscriber 0, .closeNotifyEventfd 0]

/-- A timer is destroyed while its event is pending: the handler ends the process. -/
example : (library.exec .empty []
    [.createTimer [.timer], .prepareTimer .timer 0, .epollWait .timer 0, .dropTimer 0,
      .unregisterTimerInfo 0, .handle .timer 0]).1.head?.bind (·.output) =
    some (.exit .timerInfoMissing) := by decide

end Agnocast
