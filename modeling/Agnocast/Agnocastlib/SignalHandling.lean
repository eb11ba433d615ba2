import Agnocast.Agnocastlib.SignalHandlerCycles

/-!
# The client library — signals are handled

* `Shows`           — what can be seen of a step, and where.
* `HandlesSignals`  — what the signal handling promises.
* `signals_handled` — **every run keeps the promise**, whatever signals come and wherever handlers are
  preempted.
-/

namespace Agnocast

open Transition

/-- A step that was taken. -/
abbrev SignalEvent := Event SignalHandler SignalInput SignalOutput

namespace SignalHandler

variable {s : SignalHandler} {fd : Nat}

/-! ## What can be seen -/

/-- What a step shows, and where the one stands that takes it. -/
inductive Shows (s : SignalHandler) : SignalInput → SignalOutput → Prop
  | silent {i : SignalInput} : Shows s i .silent
  | handlerWrote {fd : Nat} (h : .loaded (some fd) ∈ s.handlers) :
      Shows s (.handlerStep (.loaded (some fd))) (.wrote fd)
  | threadWrote {fd : Nat} {left : List Nat} (h : s.thread = .notifying (fd :: left)) :
      Shows s .threadStep (.wrote fd)
  | callWrote {fd : Nat} {left : List Nat} (h : .notifying (fd :: left) ∈ s.calls) :
      Shows s (.callStep (.notifying (fd :: left))) (.wrote fd)
  | controlWrote {fd : Nat} {fails : Bool} (h : s.control = .wake (some fd)) :
      Shows s (.controlStep fails) (.wrote fd)
  | threadRead {fd : Nat} (h : s.thread = .reading fd) : Shows s .threadStep (.read fd)
  | registered {fd : Nat} {success : Bool} :
      Shows s (.registerShutdownEvent fd) (.registered success)
  | unregistered {fd : Nat} : Shows s (.unregisterShutdownEvent fd) .unregistered
  | notified (h : s.thread = .notifying []) : Shows s .threadStep .processed
  | notInstalled (h : s.thread = .notify) (hfree : s.mutexFree = true)
      (hstate : s.state ≠ .installed) : Shows s .threadStep .processed
  | initReturned {fails : Bool} : Shows s (.controlStep fails) .initReturned
  | callReturned (h : .uninstall ∈ s.calls) : Shows s (.callStep .uninstall) .shutdownReturned
  | uninstalled {fails : Bool} (h : s.control = .setNotInstalled) :
      Shows s (.controlStep fails) .shutdownReturned

theorem handlerStep_shows {pos : SignalHandlerPos} (hpos : pos ∈ s.handlers) :
    Shows s (.handlerStep pos) (s.handlerStep pos).1 := by
  match pos with
  | .dispatched => exact .silent
  | .counted => exact .silent
  | .recorded => exact .silent
  | .loaded none => exact .silent
  | .loaded (some fd) => exact .handlerWrote hpos
  | .written => exact .silent

theorem threadStep_shows : Shows s .threadStep s.threadStep.1 := by
  unfold threadStep
  split
  · exact .silent
  · split <;> exact .silent
  · exact .silent
  · -- the test of the state
    next h =>
    split
    · exact .silent
    next hlocked =>
    split
    · next hstate => exact .notInstalled h (by simpa using hlocked) hstate
    · exact .silent
  · next h => exact .threadWrote h
  · next h => exact .notified h
  · exact .silent
  · split <;> exact .silent
  · -- the read
    next h =>
    split
    · exact .threadRead h
    split <;> exact .threadRead h
  · exact .silent

theorem callStep_shows {pos : ShutdownCall} (hpos : pos ∈ s.calls) :
    Shows s (.callStep pos) (s.callStep pos).1 := by
  match pos with
  | .shutdownContext => exact .silent
  | .notify =>
    unfold callStep
    dsimp only
    split
    · exact .silent
    split <;> exact .silent
  | .notifying (fd :: left) => exact .callWrote hpos
  | .notifying [] => exact .silent
  | .uninstall =>
    unfold callStep
    dsimp only
    split
    · exact .silent
    split
    · exact .callReturned hpos
    · exact .silent

theorem controlStep_shows {fails : Bool} : Shows s (.controlStep fails) (s.controlStep fails).1 := by
  unfold controlStep
  split
  · exact .silent
  · exact .silent
  · -- the test and the eventfd
    split
    · exact .silent
    split
    · exact .initReturned
    split <;> exact .silent
  · exact .silent
  · exact .silent
  · exact .silent
  · exact .silent
  · split <;> exact .silent
  · split <;> exact .silent
  · exact .initReturned
  · split <;> exact .silent
  · split <;> exact .silent
  · exact .silent
  · exact .silent
  · exact .silent
  · next h => exact .controlWrote h
  · split <;> exact .silent
  · -- the stored eventfd is taken away
    split
    · exact .silent
    split <;> exact .silent
  · split <;> exact .silent
  · split <;> exact .silent
  · next h => exact .uninstalled h

theorem move_shows (s : SignalHandler) (i : SignalInput) : Shows s i (s.move i).1 := by
  cases i with
  | signal term => exact .silent
  | handlerStep pos =>
    show Shows s _ (if pos ∈ s.handlers then s.handlerStep pos else (.silent, s)).1
    split
    · next hpos => exact handlerStep_shows hpos
    · exact .silent
  | threadStep => exact threadStep_shows
  | callInit => exact .silent
  | callShutdown => exact .silent
  | callStep pos =>
    show Shows s _ (if pos ∈ s.calls then s.callStep pos else (.silent, s)).1
    split
    · next hpos => exact callStep_shows hpos
    · exact .silent
  | controlStep fails => exact controlStep_shows
  | createExecutor => exact .silent
  | registerShutdownEvent fd =>
    show Shows s _ (s.registerShutdownEvent fd).1
    unfold registerShutdownEvent
    split
    · exact .silent
    split <;> exact .registered
  | unregisterShutdownEvent fd =>
    show Shows s _ (s.unregisterShutdownEvent fd).1
    unfold unregisterShutdownEvent
    split
    · exact .silent
    · exact .unregistered
  | closeExecutor fd => exact .silent

/-- **Every access** is to an open descriptor, and an executor that is written to is registered. -/
theorem Sound.accesses (h : Sound s) {i : SignalInput} {out : SignalOutput} (hshows : Shows s i out) :
    (∀ fd, out = .wrote fd → s.isOpen fd = true ∧ (s.isExecutor fd = true → fd ∈ s.registrations)) ∧
    ∀ fd, out = .read fd → s.isOpen fd = true := by
  have hcurrent {fd : Nat} (hfd : s.signalEventfd = some fd) :
      s.isOpen fd = true ∧ (s.isExecutor fd = true → fd ∈ s.registrations) := by
    obtain ⟨hopen, hexecutor⟩ := h.descriptors.current fd hfd
    refine ⟨hopen, fun h => ?_⟩
    rw [hexecutor] at h
    cases h
  have hregistered {fd : Nat} (hfd : fd ∈ s.registrations) :
      s.isOpen fd = true ∧ (s.isExecutor fd = true → fd ∈ s.registrations) :=
    ⟨(h.registry.registered fd hfd).1, fun _ => hfd⟩
  have hcontrol := h.descriptors.control
  unfold ControlOk at hcontrol
  cases hshows with
  | handlerWrote hmem =>
    refine ⟨?_, nofun⟩
    rintro fd ⟨⟩
    rcases h.descriptors.loaded _ hmem with hfd | hdrain
    · exact hcurrent hfd
    · rw [hdrain] at hcontrol
      obtain ⟨_, _, _, hopen, hexecutor⟩ := hcontrol
      refine ⟨hopen, fun h => ?_⟩
      rw [hexecutor] at h
      cases h
  | threadWrote hthread =>
    refine ⟨?_, nofun⟩
    rintro fd ⟨⟩
    exact hregistered (h.registry.thread _ hthread _ List.mem_cons_self)
  | callWrote hmem =>
    refine ⟨?_, nofun⟩
    rintro fd ⟨⟩
    exact hregistered (h.registry.calls _ hmem _ List.mem_cons_self)
  | controlWrote hc =>
    refine ⟨?_, nofun⟩
    rintro fd ⟨⟩
    rw [hc] at hcontrol
    exact hcurrent hcontrol.2.2.symm
  | threadRead hthread =>
    refine ⟨nofun, ?_⟩
    rintro fd ⟨⟩
    exact (hcurrent (h.descriptors.reading _ hthread)).1
  | _ => exact ⟨nofun, nofun⟩

/-! ## What changes -/

/-- What a step brings about: a registration, the notification of the executors and a context that is up
come from the step that is there for it. -/
structure Changes (s : SignalHandler) (i : SignalInput) (t : SignalHandler) : Prop where
  registrations : ∀ fd ∈ t.registrations, fd ∈ s.registrations ∨
    i = .registerShutdownEvent fd ∧ (signalHandling.step s i).1 = .registered true
  notifying : ∀ left, t.thread = .notifying left → s.thread = .notifying left ∨ i = .threadStep
  context : t.initialized = true → s.initialized = true ∨ s.control = .initContext
  control : t.control = .initContext → s.control = .initContext ∨ i = .callInit
  executor : ∀ fd, s.isExecutor fd = true → fd < s.fds → t.isExecutor fd = true

variable {i : SignalInput}

theorem Changes.refl (s : SignalHandler) (i : SignalInput) : Changes s i s :=
  ⟨fun _ => .inl, fun _ => .inl, .inl, .inl, fun _ h _ => h⟩

theorem changes_newEventfd (s : SignalHandler) (executor : Bool) :
    Changes s i (s.newEventfd executor) :=
  { Changes.refl s i with
    executor := fun fd hfd hlt => by
      show Function.update s.isExecutor s.fds executor fd = true
      rw [Function.update_of_ne (Nat.ne_of_lt hlt)]
      exact hfd }

theorem changes_controlStep (s : SignalHandler) (fails : Bool) :
    Changes s i (s.controlStep fails).2 := by
  unfold controlStep
  split
  · exact .refl s i
  · next hc => exact { Changes.refl s i with context := fun _ => .inr hc, control := nofun }
  · -- the test and the eventfd
    split
    · exact .refl s i
    split
    · exact { Changes.refl s i with control := nofun }
    split
    · exact { Changes.refl s i with }
    · exact { changes_newEventfd s false with control := nofun }
  · exact { Changes.refl s i with control := nofun }
  · exact { Changes.refl s i with control := nofun }
  · exact { Changes.refl s i with control := nofun }
  · exact { Changes.refl s i with notifying := nofun, control := nofun }
  · -- SIGINT
    split
    · exact { Changes.refl s i with }
    · exact { Changes.refl s i with control := nofun }
  · -- SIGTERM
    split
    · exact { Changes.refl s i with }
    · exact { Changes.refl s i with control := nofun }
  · exact { Changes.refl s i with control := nofun }
  · split <;> exact { Changes.refl s i with control := nofun }
  · -- SIGTERM is restored
    split
    · exact { Changes.refl s i with }
    · exact { Changes.refl s i with control := nofun }
  · exact { Changes.refl s i with control := nofun }
  · exact { Changes.refl s i with control := nofun }
  · exact { Changes.refl s i with control := nofun }
  · -- the thread is woken up
    next fd _ =>
    obtain ⟨counter, heq, _⟩ := writeEventfd_eq s fd
    show Changes s i ((s.writeEventfd fd).proceed .join)
    rw [heq]
    exact { Changes.refl s i with control := nofun }
  · -- the join
    split
    · exact { Changes.refl s i with }
    · exact { Changes.refl s i with notifying := nofun, control := nofun }
    · exact .refl s i
  · -- the stored eventfd is taken away
    split
    · exact .refl s i
    split
    · exact { Changes.refl s i with }
    · exact { Changes.refl s i with control := nofun }
  · -- the handlers in flight
    split
    · exact .refl s i
    · exact { Changes.refl s i with control := nofun }
  · -- the eventfd is closed
    split
    · exact { Changes.refl s i with }
    · exact { Changes.refl s i with control := nofun }
  · exact { Changes.refl s i with control := nofun }

/-- **What every step brings about.** -/
theorem Sound.changes (h : Sound s) (hnot : ¬s.exited = true) (i : SignalInput) :
    Changes s i (s.move i).2 := by
  cases i with
  | signal term =>
    show Changes s _ (if s.handles term then _ else s)
    split
    · exact { Changes.refl s _ with }
    · exact .refl s _
  | handlerStep pos =>
    show Changes s _ (if pos ∈ s.handlers then s.handlerStep pos else (.silent, s)).2
    split
    · obtain ⟨handlers, count, received, counter, heq⟩ := handlerStep_eq s pos
      rw [heq]
      exact { Changes.refl s _ with }
    · exact .refl s _
  | threadStep =>
    obtain ⟨pos, received, initialized, counter, heq, hmoves⟩ :=
      threadStep_moves h.descriptors h.registry h.context
    show Changes s _ s.threadStep.2
    rw [heq]
    exact { Changes.refl s _ with
      notifying := fun _ _ => .inr rfl
      context := fun hinitialized => .inl (hmoves.context hinitialized) }
  | callInit =>
    show Changes s _ (if s.control = .idle then s.proceed .initContext else s)
    split
    · exact { Changes.refl s _ with control := fun _ => .inr rfl }
    · exact .refl s _
  | callShutdown => exact { Changes.refl s _ with }
  | callStep pos =>
    show Changes s _ (if pos ∈ s.calls then s.callStep pos else (.silent, s)).2
    split
    · next hpos =>
      rcases callStep_cases h.registry h.context hpos with heq | ⟨next, counter, heq, _, _⟩ | ⟨_, heq⟩
        <;> rw [heq]
      · exact .refl s _
      · exact { Changes.refl s _ with context := nofun }
      · exact { Changes.refl s _ with context := nofun, control := nofun }
    · exact .refl s _
  | controlStep fails => exact changes_controlStep s fails
  | createExecutor => exact changes_newEventfd s true
  | registerShutdownEvent fd =>
    have hout : (signalHandling.step s (.registerShutdownEvent fd)).1 =
        (s.registerShutdownEvent fd).1 := by
      rw [show signalHandling.step s _ = _ from if_neg hnot]
      rfl
    show Changes s _ (s.registerShutdownEvent fd).2
    unfold SignalHandler.registerShutdownEvent at hout ⊢
    -- the answer says whether the eventfd was taken in
    split at hout
    · next h =>
      rw [if_pos h]
      exact .refl s _
    next h =>
    rw [if_neg h]
    split at hout
    · next h' =>
      rw [if_pos h']
      exact .refl s _
    · next h' =>
      rw [if_neg h']
      refine { Changes.refl s _ with registrations := fun fd' hfd' => ?_ }
      rcases List.mem_insert_iff.mp hfd' with rfl | hfd'
      · exact .inr ⟨rfl, hout⟩
      · exact .inl hfd'
  | unregisterShutdownEvent fd =>
    show Changes s _ (s.unregisterShutdownEvent fd).2
    unfold SignalHandler.unregisterShutdownEvent
    split
    · exact .refl s _
    · exact { Changes.refl s _ with
        registrations := fun fd' hfd' => .inl (List.mem_filter.mp hfd').1 }
  | closeExecutor fd => exact { Changes.refl s _ with }

/-- While the handler is installed, the set of eventfds stays; `init` returns when it gets installed. -/
def KeepsEventfds (s : SignalHandler) (step : SignalOutput × SignalHandler) : Prop :=
  step.1 = .initReturned ∨
    (step.2.state = .installed → s.state = .installed ∧ step.2.eventfds = s.eventfds)

theorem controlStep_keepsEventfds (s : SignalHandler) (fails : Bool) :
    KeepsEventfds s (s.controlStep fails) := by
  have hsame (h : s.state = .installed) : s.state = .installed ∧ s.eventfds = s.eventfds := ⟨h, rfl⟩
  unfold controlStep
  split
  · exact .inr hsame
  · exact .inr hsame
  · -- the test and the eventfd
    split
    · exact .inr hsame
    split
    · exact .inl rfl
    next hstate =>
    have hnot (h : s.state = .installed) : s.state = .installed ∧ [] = s.eventfds := by
      rw [not_not.mp hstate] at h
      cases h
    split <;> exact .inr hnot
  · exact .inr hsame
  · exact .inr hsame
  · exact .inr hsame
  · exact .inr hsame
  · split <;> exact .inr hsame
  · split <;> exact .inr hsame
  · exact .inl rfl
  · split <;> exact .inr hsame
  · split <;> exact .inr hsame
  · exact .inr hsame
  · exact .inr hsame
  · exact .inr hsame
  · -- the thread is woken up
    next fd _ =>
    obtain ⟨counter, heq, _⟩ := writeEventfd_eq s fd
    refine .inr fun h => ?_
    change ((s.writeEventfd fd).proceed .join).state = _ at h
    show _ ∧ ((s.writeEventfd fd).proceed .join).eventfds = _
    rw [heq] at h ⊢
    exact hsame h
  · split <;> exact .inr hsame
  · -- the stored eventfd is taken away
    split
    · exact .inr hsame
    split <;> exact .inr hsame
  · split <;> exact .inr hsame
  · split <;> exact .inr hsame
  · exact .inr nofun

/-- **Only executors change the set of eventfds** while the handler is installed. -/
theorem Sound.keepsEventfds (h : Sound s) {i : SignalInput}
    (hregister : ∀ fd, i ≠ .registerShutdownEvent fd)
    (hunregister : ∀ fd, i ≠ .unregisterShutdownEvent fd) : KeepsEventfds s (s.move i) := by
  have hsame (hs : s.state = .installed) : s.state = .installed ∧ s.eventfds = s.eventfds := ⟨hs, rfl⟩
  cases i with
  | signal term =>
    refine .inr fun hs => ?_
    show _ ∧ (if s.handles term then _ else s).eventfds = _
    change (if s.handles term then _ else s).state = _ at hs
    split at hs <;> next hterm => simp only [hterm]; exact hsame hs
  | handlerStep pos =>
    show KeepsEventfds s (if pos ∈ s.handlers then s.handlerStep pos else (.silent, s))
    split
    · obtain ⟨handlers, count, received, counter, heq⟩ := handlerStep_eq s pos
      -- a call that begins to uninstall leaves the state `installed`
      unfold KeepsEventfds
      rw [heq]
      exact .inr hsame
    · exact .inr hsame
  | threadStep =>
    obtain ⟨pos, received, initialized, counter, heq, _⟩ :=
      threadStep_moves h.descriptors h.registry h.context
    show KeepsEventfds s s.threadStep
    unfold KeepsEventfds
    rw [heq]
    exact .inr hsame
  | callInit =>
    refine .inr fun hs => ?_
    show _ ∧ (if s.control = .idle then s.proceed .initContext else s).eventfds = _
    change (if s.control = .idle then s.proceed .initContext else s).state = _ at hs
    split at hs <;> next hidle => simp only [hidle]; exact hsame hs
  | callShutdown => exact .inr hsame
  | callStep pos =>
    show KeepsEventfds s (if pos ∈ s.calls then s.callStep pos else (.silent, s))
    split
    · next hpos =>
      unfold KeepsEventfds
      rcases callStep_cases h.registry h.context hpos with heq | ⟨next, counter, heq, _, _⟩ | ⟨_, heq⟩
        <;> rw [heq]
      · exact .inr hsame
      · exact .inr hsame
      · exact .inr nofun
    · exact .inr hsame
  | controlStep fails => exact controlStep_keepsEventfds s fails
  | createExecutor => exact .inr hsame
  | registerShutdownEvent fd => exact absurd rfl (hregister fd)
  | unregisterShutdownEvent fd => exact absurd rfl (hunregister fd)
  | closeExecutor fd => exact .inr hsame

/-- As long as the handler is not installed, the thread runs only under `mutex_`. -/
theorem ControlOk.notInstalled (h : s.ControlOk) (hstate : s.state = .notInstalled) :
    s.thread = .notRunning ∨ s.control.locked = true := by
  unfold ControlOk at h
  rw [hstate] at h
  split at h
  · exact .inl (h.elim (fun h => h.2.2) fun h => nomatch h.1)
  · exact .inl h.2.2
  · exact .inl h.2.2
  all_goals
    next hc =>
    rw [hc]
    first
    | exact .inr rfl
    | cases h.1

/-- The thread finds the handler not installed: an uninstall has begun. -/
theorem Descriptors.uninstalling (h : Descriptors s) (hthread : s.thread ≠ .notRunning)
    (hfree : s.mutexFree = true) (hstate : s.state ≠ .installed) : s.state = .uninstalling := by
  cases hs : s.state with
  | installed => exact absurd hs hstate
  | uninstalling => rfl
  | notInstalled =>
    have hlocked := (h.control.notInstalled hs).resolve_left hthread
    rw [(not_locked_of_mutexFree hfree).1] at hlocked
    cases hlocked

/-- **How the thread comes to notify executors**, and goes on. -/
theorem threadStep_notifying {left : List Nat} (hleft : s.threadStep.2.thread = .notifying left) :
    s.thread = .notify ∧ s.mutexFree = true ∧ s.state = .installed ∧ left = s.eventfds ∨
      ∃ fd, s.thread = .notifying (fd :: left) ∧ s.threadStep.1 = .wrote fd := by
  unfold threadStep at hleft ⊢
  split at hleft
  · -- no thread
    next h =>
    rw [h] at hleft
    cases hleft
  · split at hleft <;> cases hleft
  · cases hleft
  · -- the test of the state
    next h =>
    split at hleft
    · rw [h] at hleft
      cases hleft
    next hlocked =>
    split at hleft
    · cases hleft
    next hstate =>
    cases hleft
    exact .inl ⟨h, by simpa using hlocked, not_not.mp hstate, rfl⟩
  · -- the next executor
    next h =>
    cases hleft
    exact .inr ⟨_, h, rfl⟩
  · cases hleft
  · -- the stop flag
    change (if s.stopRequested then SignalThreadPos.finished else .load) = _ at hleft
    split at hleft <;> cases hleft
  · split at hleft <;> cases hleft
  · -- the read
    next h =>
    split at hleft
    · cases hleft
    split at hleft
    · rw [h] at hleft
      cases hleft
    · cases hleft
  · -- the thread is over
    next h =>
    rw [h] at hleft
    cases hleft

end SignalHandler

/-! ## What is promised -/

/-- The eventfd is registered: a registration has succeeded since `init` returned, and it was not
unregistered after that. -/
def RegisteredIn : List SignalEvent → Nat → Prop
  | [], _ => False
  | ev :: early, fd =>
    ev.output ≠ .initReturned ∧
      (ev.input = .registerShutdownEvent fd ∧ ev.output = .registered true ∨
        ¬(ev.input = .unregisterShutdownEvent fd ∧ ev.output = .unregistered) ∧ RegisteredIn early fd)

/-- The thread has begun to notify the executors for the signal that it processes, and of those that
were registered then all have been written to, but what is left. -/
def NotifiedUpTo (left : List Nat) (tr : List SignalEvent) : Prop :=
  ∃ between notify rest, tr = between ++ notify :: rest ∧
    (notify.input = .threadStep ∧ notify.pre.thread = .notify ∧ notify.pre.mutexFree = true ∧
      notify.pre.state = .installed) ∧
    (∀ ev ∈ between, ev.output ≠ .processed) ∧
    ∀ fd, RegisteredIn rest fd → fd ∈ left ∨
      ∃ ev ∈ between, ev.input = .threadStep ∧ ev.output = .wrote fd

/-- **The promise of the signal handling.** -/
structure HandlesSignals (tr : List SignalEvent) (s : SignalHandler) : Prop where
  /-- No descriptor is written to or read from that is closed. -/
  accesses : ∀ ev ∈ tr, ∀ fd, ev.output = .wrote fd ∨ ev.output = .read fd → ev.pre.isOpen fd = true
  /-- Nor does the thread sleep on one. -/
  reading : ∀ fd, s.thread = .reading fd → s.isOpen fd = true
  /-- An eventfd is not written to after `unregister_shutdown_event` has returned, unless it is
  registered again. -/
  unregistered : ∀ later unregister early fd, tr = later ++ unregister :: early →
    unregister.input = .unregisterShutdownEvent fd → unregister.output = .unregistered →
    (∀ ev ∈ later, ¬(ev.input = .registerShutdownEvent fd ∧ ev.output = .registered true)) →
    ∀ ev ∈ later, ev.output ≠ .wrote fd
  /-- When a signal is recorded and the thread reads the eventfd, there is something to read, or a
  handler is about to write to it. -/
  awake : s.signalReceived = true → ∀ fd, s.thread = .reading fd → s.signalEventfd = some fd ∧
    (0 < s.counter fd ∨ .recorded ∈ s.handlers ∨ .loaded (some fd) ∈ s.handlers)
  /-- When the thread has processed a signal, it has written to all that were registered when it
  notified the executors, unless an uninstall had begun. -/
  notified : ∀ later processed early, tr = later ++ processed :: early →
    processed.output = .processed → processed.pre.state = .uninstalling ∨ NotifiedUpTo [] early
  /-- When the thread has processed a signal, and when `shutdown` returns, the context is shut down,
  and stays so until `init` is called. -/
  down : ∀ later ev early, tr = later ++ ev :: early →
    ev.output = .processed ∨ ev.output = .shutdownReturned →
    (∀ e ∈ later, e.input ≠ .callInit) → s.initialized = false

section runs

variable {tr : List SignalEvent} {s : SignalHandler}

theorem signalHandling_step (hnot : ¬s.exited = true) (i : SignalInput) :
    signalHandling.step s i = s.move i :=
  if_neg hnot

/-- A process that has exited shows nothing. -/
theorem signalHandling_exited (h : s.exited = true) (i : SignalInput) :
    signalHandling.step s i = (.silent, s) :=
  if_pos h

theorem signalHandling_sound (hr : Run signalHandling (fun s i => s.behaves i = true) tr s) :
    s.Sound := by
  refine hr.invariant (P := SignalHandler.Sound) ?_ fun s i h hi => ?_
  · rintro s rfl
    exact .fresh
  · by_cases hexited : s.exited = true
    · rw [signalHandling_exited hexited]
      exact h
    · rw [signalHandling_step hexited]
      exact h.move hi

theorem signalHandling_shows (s : SignalHandler) (i : SignalInput) :
    s.Shows i (signalHandling.step s i).1 := by
  by_cases hexited : s.exited = true
  · rw [signalHandling_exited hexited]
    exact .silent
  · rw [signalHandling_step hexited]
    exact s.move_shows i

/-- An event of a run was a step that was really made, unless nothing was seen of it. -/
theorem signalHandling_event {later early : List SignalEvent} {ev : SignalEvent}
    (hr : Run signalHandling (fun s i => s.behaves i = true) (later ++ ev :: early) s)
    (hout : ev.output ≠ .silent) : ev.pre.Sound ∧ ev.pre.behaves ev.input = true ∧
      ev.pre.Shows ev.input ev.output ∧ ¬ev.pre.exited = true := by
  obtain ⟨hpre, hbehaves, heq, _⟩ := hr.event
  refine ⟨signalHandling_sound hpre, hbehaves, heq ▸ signalHandling_shows _ _, fun hexited => ?_⟩
  rw [signalHandling_exited hexited] at heq
  exact hout heq

theorem signalHandling_changes (h : s.Sound) (i : SignalInput) :
    s.Changes i (signalHandling.step s i).2 := by
  by_cases hexited : s.exited = true
  · rw [signalHandling_exited hexited]
    exact .refl s i
  · rw [signalHandling_step hexited]
    exact h.changes hexited i

/-- **Nobody writes to an executor that has unregistered.** -/
theorem not_wrote_since {later early : List SignalEvent} {unregister : SignalEvent} {fd : Nat}
    (hr : Run signalHandling (fun s i => s.behaves i = true) (later ++ unregister :: early) s)
    (hinput : unregister.input = .unregisterShutdownEvent fd)
    (hout : unregister.output = .unregistered) :
    (∀ ev ∈ later, ¬(ev.input = .registerShutdownEvent fd ∧ ev.output = .registered true)) →
      fd ∉ s.registrations ∧ s.isExecutor fd = true ∧ ∀ ev ∈ later, ev.output ≠ .wrote fd := by
  refine hr.since (P := fun later s =>
    (∀ ev ∈ later, ¬(ev.input = .registerShutdownEvent fd ∧ ev.output = .registered true)) →
    fd ∉ s.registrations ∧ s.isExecutor fd = true ∧ ∀ ev ∈ later, ev.output ≠ .wrote fd)
    (fun s hbase _ => ?_) fun later s i hr ih _ hnot => ?_
  · cases hbase with
    | step i hpre hbehaves =>
      obtain rfl : i = .unregisterShutdownEvent fd := hinput
      rename_i s
      have hexecutor : s.isExecutor fd = true := hbehaves
      by_cases hexited : s.exited = true
      · rw [signalHandling_exited hexited] at hout
        cases hout
      rw [signalHandling_step hexited] at hout ⊢
      -- the step of the call takes it out of the registrations
      have hgone (h : (s.unregisterShutdownEvent fd).1 = .unregistered) :
          fd ∉ (s.unregisterShutdownEvent fd).2.registrations ∧
            (s.unregisterShutdownEvent fd).2.isExecutor fd = true := by
        unfold SignalHandler.unregisterShutdownEvent at h ⊢
        split at h
        · cases h
        next hfree =>
        rw [if_neg hfree]
        refine ⟨fun hmem => ?_, hexecutor⟩
        simp at hmem
      exact ⟨(hgone hout).1, (hgone hout).2, List.forall_mem_nil _⟩
  · obtain ⟨hfd, hexecutor, hwrote⟩ := ih fun ev hev => hnot ev (List.mem_cons_of_mem _ hev)
    have hok := signalHandling_sound hr
    have hchanges := signalHandling_changes hok i
    refine ⟨fun hmem => ?_, hchanges.executor fd hexecutor (hok.descriptors.executorLt fd hexecutor),
      fun ev hev => ?_⟩
    · exact (hchanges.registrations fd hmem).elim hfd (hnot _ List.mem_cons_self)
    · rcases List.mem_cons.mp hev with rfl | hev
      · intro heq
        -- who writes to an executor writes to a registered one
        exact hfd (((hok.accesses (signalHandling_shows s i)).1 fd heq).2 hexecutor)
      · exact hwrote ev hev

/-- **The context stays down** until `init` is called. -/
theorem down_since {later early : List SignalEvent} {ev : SignalEvent}
    (hr : Run signalHandling (fun s i => s.behaves i = true) (later ++ ev :: early) s)
    (hout : ev.output = .processed ∨ ev.output = .shutdownReturned) :
    (∀ e ∈ later, e.input ≠ .callInit) → s.initialized = false ∧ s.control ≠ .initContext := by
  -- without a call of `init` a step keeps it so
  have hstep {s : SignalHandler} {i : SignalInput} (hok : s.Sound) (hi : i ≠ .callInit)
      (hdown : s.initialized = false ∧ s.control ≠ .initContext) :
      (signalHandling.step s i).2.initialized = false ∧
        (signalHandling.step s i).2.control ≠ .initContext := by
    have hchanges := signalHandling_changes hok i
    refine ⟨Bool.eq_false_iff.mpr fun hup => ?_, fun hc => ?_⟩
    · rcases hchanges.context hup with h | h
      · rw [hdown.1] at h
        cases h
      · exact hdown.2 h
    · exact (hchanges.control hc).elim hdown.2 hi
  refine hr.since (P := fun later s => (∀ e ∈ later, e.input ≠ .callInit) →
    s.initialized = false ∧ s.control ≠ .initContext) (fun s hbase _ => ?_)
    fun later s i hr ih _ hnot => ?_
  · cases hbase with
    | step i hpre hbehaves =>
      rename_i s
      have hok := signalHandling_sound hpre
      have hcontrol := hok.descriptors.control
      unfold SignalHandler.ControlOk at hcontrol
      have hshows : s.Shows i (signalHandling.step s i).1 := signalHandling_shows s i
      -- a call of `shutdown` that has not returned is no call of `init`
      have hcalls {call : ShutdownCall} (hmem : call ∈ s.calls) : s.control ≠ .initContext := by
        intro hc
        have hinit := hok.context.apart (List.ne_nil_of_mem hmem)
        rw [hc] at hinit
        cases hinit
      have hthread (hsignal : s.thread.hasSignal = true) : s.control ≠ .initContext := by
        intro hc
        rw [hc] at hcontrol
        rw [hcontrol.2.2] at hsignal
        cases hsignal
      generalize (signalHandling.step s i).1 = out at hshows hout
      cases hshows with
      | notified h =>
        have hsignal : s.thread.hasSignal = true := by rw [h]; rfl
        exact hstep hok nofun ⟨hok.context.thread hsignal, hthread hsignal⟩
      | notInstalled h _ _ =>
        have hsignal : s.thread.hasSignal = true := by rw [h]; rfl
        exact hstep hok nofun ⟨hok.context.thread hsignal, hthread hsignal⟩
      | callReturned h => exact hstep hok nofun ⟨hok.context.calls _ h nofun, hcalls h⟩
      | uninstalled h =>
        exact hstep hok nofun ⟨hok.context.control (by rw [h]; rfl), by rw [h]; nofun⟩
      | _ => exact hout.elim nofun nofun
  · exact hstep (signalHandling_sound hr) (hnot _ List.mem_cons_self)
      (ih fun e he => hnot e (List.mem_cons_of_mem _ he))

/-- **Who is registered is in the set** while the handler is installed. -/
theorem mem_eventfds (hr : Run signalHandling (fun s i => s.behaves i = true) tr s) :
    s.state = .installed → ∀ fd, RegisteredIn tr fd → fd ∈ s.eventfds := by
  refine hr.history (P := fun tr s => s.state = .installed → ∀ fd, RegisteredIn tr fd →
    fd ∈ s.eventfds) (fun _ _ _ _ => False.elim) fun tr s i hr ih _ => ?_
  by_cases hexited : s.exited = true
  · rw [signalHandling_exited hexited]
    rintro hstate fd ⟨_, ⟨_, hout⟩ | ⟨_, hfd⟩⟩
    · cases hout
    · exact ih hstate fd hfd
  rw [signalHandling_step hexited]
  have hok := signalHandling_sound hr
  rintro hstate fd ⟨hreturned, hfd⟩
  -- only the two calls of an executor change who is registered
  by_cases hregister : ∃ fd', i = .registerShutdownEvent fd'
  · obtain ⟨fd', rfl⟩ := hregister
    change (s.registerShutdownEvent fd').2.state = _ at hstate
    change _ ∧ (s.registerShutdownEvent fd').1 = _ ∨ _ at hfd
    show fd ∈ (s.registerShutdownEvent fd').2.eventfds
    unfold SignalHandler.registerShutdownEvent at hstate hfd ⊢
    split at hstate
    · next h =>
      rw [if_pos h] at hfd ⊢
      exact ih hstate fd (hfd.resolve_left (fun h => nomatch h.2)).2
    next h =>
    split at hstate
    · next h' =>
      rw [if_neg h, if_pos h'] at hfd ⊢
      exact ih hstate fd (hfd.resolve_left (fun h => by cases h.2)).2
    · next h' =>
      rw [if_neg h, if_neg h']
      refine List.mem_insert_iff.mpr (hfd.imp (fun h => ?_) fun h => ih hstate fd h.2)
      exact (SignalInput.registerShutdownEvent.inj h.1).symm
  by_cases hunregister : ∃ fd', i = .unregisterShutdownEvent fd'
  · obtain ⟨fd', rfl⟩ := hunregister
    have hfd := hfd.resolve_left (fun h => nomatch h.1)
    change (s.unregisterShutdownEvent fd').2.state = _ at hstate
    change ¬(_ ∧ (s.unregisterShutdownEvent fd').1 = _) ∧ _ at hfd
    show fd ∈ (s.unregisterShutdownEvent fd').2.eventfds
    unfold SignalHandler.unregisterShutdownEvent at hstate hfd ⊢
    split at hstate
    · next h =>
      rw [if_pos h]
      exact ih hstate fd hfd.2
    · next h =>
      rw [if_neg h] at hfd ⊢
      change s.state = _ at hstate
      have hne : fd ≠ fd' := fun heq => hfd.1 ⟨heq ▸ rfl, rfl⟩
      have hinstalled : s.state ≠ .notInstalled := by rw [hstate]; nofun
      show fd ∈ if s.state = .notInstalled then _ else _
      rw [if_neg hinstalled]
      exact List.mem_filter.mpr ⟨ih hstate fd hfd.2, decide_eq_true hne⟩
  · -- nobody else changes the set
    have hkeeps := hok.keepsEventfds (fun fd' h => hregister ⟨fd', h⟩) fun fd' h => hunregister ⟨fd', h⟩
    obtain ⟨hbefore, heq⟩ := hkeeps.resolve_left hreturned hstate
    rw [heq]
    exact ih hbefore fd (hfd.resolve_left fun h => hregister ⟨fd, h.1⟩).2

/-- A step that is not the end of a signal. -/
theorem NotifiedUpTo.cons {left : List Nat} (h : NotifiedUpTo left tr) {ev : SignalEvent}
    (hout : ev.output ≠ .processed) : NotifiedUpTo left (ev :: tr) := by
  obtain ⟨between, notify, rest, rfl, hnotify, hbetween, hwritten⟩ := h
  refine ⟨ev :: between, notify, rest, rfl, hnotify, ?_, fun fd hfd => (hwritten fd hfd).imp_right ?_⟩
  · exact List.forall_mem_cons.mpr ⟨hout, hbetween⟩
  · rintro ⟨w, hw, hwrote⟩
    exact ⟨w, List.mem_cons_of_mem _ hw, hwrote⟩

/-- **What the thread has written** since it took `mutex_`. -/
theorem notifiedUpTo (hr : Run signalHandling (fun s i => s.behaves i = true) tr s) :
    ∀ left, s.thread = .notifying left → NotifiedUpTo left tr := by
  refine hr.history (P := fun tr s => ∀ left, s.thread = .notifying left → NotifiedUpTo left tr)
    (fun s h left hleft => ?_) fun tr s i hr ih _ left hleft => ?_
  · cases h
    cases hleft
  by_cases hexited : s.exited = true
  · rw [signalHandling_exited hexited] at hleft ⊢
    exact (ih left hleft).cons nofun
  rw [signalHandling_step hexited] at hleft ⊢
  have hok := signalHandling_sound hr
  by_cases hi : i = .threadStep
  · subst hi
    rcases SignalHandler.threadStep_notifying hleft with ⟨hthread, hfree, hstate, rfl⟩ | ⟨fd, hthread, hout⟩
    · exact ⟨[], _, tr, rfl, ⟨rfl, hthread, hfree, hstate⟩, List.forall_mem_nil _,
        fun fd hfd => .inl (mem_eventfds hr hstate fd hfd)⟩
    · obtain ⟨between, notify, rest, rfl, hnotify, hbetween, hwritten⟩ := ih _ hthread
      have hwrote : (s.move .threadStep).1 = .wrote fd := hout
      rw [hwrote]
      refine ⟨_ :: between, notify, rest, rfl, hnotify,
        List.forall_mem_cons.mpr ⟨nofun, hbetween⟩, fun fd' hfd' => ?_⟩
      rcases hwritten fd' hfd' with hmem | ⟨w, hw, hwrote⟩
      · rcases List.mem_cons.mp hmem with rfl | hmem
        · exact .inr ⟨_, List.mem_cons_self, rfl, rfl⟩
        · exact .inl hmem
      · exact .inr ⟨w, List.mem_cons_of_mem _ hw, hwrote⟩
  · -- another thread's step leaves the thread where it is
    refine (ih left (((hok.changes hexited i).notifying left hleft).resolve_right hi)).cons fun hout => ?_
    have hshows := s.move_shows i
    change (s.move i).1 = _ at hout
    rw [hout] at hshows
    cases hshows with
    | notified _ => exact hi rfl
    | notInstalled _ _ _ => exact hi rfl

end runs

/-- **Signals are handled**: over every run, whatever signals come, wherever handlers, the thread and
the callers are preempted, and however many cycles of `init` and `shutdown` there are. -/
theorem signals_handled {tr : List SignalEvent} {s : SignalHandler}
    (hr : Run signalHandling (fun s i => s.behaves i = true) tr s) : HandlesSignals tr s where
  accesses ev hev fd hout := by
    obtain ⟨later, early, rfl⟩ := List.append_of_mem hev
    obtain ⟨hok, _, hshows, _⟩ := signalHandling_event hr
      (by rcases hout with h | h <;> rw [h] <;> exact nofun)
    exact hout.elim (fun h => ((hok.accesses hshows).1 fd h).1) ((hok.accesses hshows).2 fd)
  reading fd hfd := by
    have hok := (signalHandling_sound hr).descriptors
    exact (hok.current fd (hok.reading fd hfd)).1
  unregistered later unregister early fd htr hinput hout hnot := by
    subst htr
    exact (not_wrote_since hr hinput hout hnot).2.2
  awake hsignal fd hfd := by
    have hok := signalHandling_sound hr
    have hcurrent := hok.descriptors.reading fd hfd
    refine ⟨hcurrent, ?_⟩
    -- the thread waits in `read`, so the other reasons to be awake are not
    rcases hok.awake hsignal with h | h | h | ⟨fd', hfd', h⟩
    · rw [hfd] at h
      cases h
    · rw [hfd] at h
      cases h
    · rw [hfd] at h
      cases h
    · obtain rfl : fd = fd' := Option.some.inj (hcurrent.symm.trans hfd')
      exact h
  notified later processed early htr hout := by
    subst htr
    obtain ⟨hok, _, hshows, _⟩ := signalHandling_event hr (by rw [hout]; nofun)
    have hpre := hr.event.1
    rw [hout] at hshows
    generalize processed.input = i at hshows
    cases hshows with
    | notified h => exact .inr (notifiedUpTo hpre [] h)
    | notInstalled h hfree hstate =>
      exact .inl (hok.descriptors.uninstalling (by rw [h]; nofun) hfree hstate)
  down later ev early htr hout hnot := by
    subst htr
    exact (down_since hr hout hnot).1

/-- A cycle with an executor and a signal: the executor is written to, and `shutdown` returns. -/
theorem signals_handled_of_cycle :
    let inputs : List SignalInput := [.callInit, .controlStep false, .controlStep false,
      .controlStep false, .controlStep false, .controlStep false, .controlStep false,
      .controlStep false, .controlStep false, .controlStep false, .createExecutor,
      .registerShutdownEvent 1, .threadStep, .threadStep, .threadStep, .signal false,
      .handlerStep .dispatched, .handlerStep .counted, .handlerStep .recorded,
      .handlerStep (.loaded (some 0)), .threadStep, .handlerStep .written, .threadStep, .threadStep,
      .threadStep, .threadStep, .threadStep, .unregisterShutdownEvent 1, .closeExecutor 1,
      .callShutdown, .callStep .shutdownContext, .callStep .notify, .callStep (.notifying []),
      .callStep .uninstall, .controlStep false, .controlStep false, .controlStep false,
      .controlStep false, .controlStep false, .threadStep, .controlStep false, .controlStep false,
      .controlStep false, .controlStep false, .controlStep false]
    let run := signalHandling.exec .fresh [] inputs
    run.2.state = .notInstalled ∧ run.2.isOpen 0 = false ∧
      (∀ out ∈ [SignalOutput.wrote 0, .read 0, .wrote 1, .processed, .shutdownReturned],
        out ∈ run.1.map Event.output) ∧
      HandlesSignals run.1 run.2 := by
  refine ⟨by decide +kernel, by decide +kernel, by decide +kernel, ?_⟩
  exact signals_handled ((Run.init rfl).exec
    (show signalHandling.Guarded _ _ _ by decide +kernel))

end Agnocast
