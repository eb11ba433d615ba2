import Agnocast.Agnocastlib.SignalHandlerSafety

/-!
# The client library — cycles of the signal handling

What `init`, `uninstall` and the executors do to the invariants. `uninstall` takes the descriptor back,
waits until no handler is counted, and closes it: a handler that had it was counted, and one that comes
later finds none.

* `Descriptors.controlStep` — **the descriptor is closed when nobody has it**.
* `Sound`                   — the invariant, kept by every step.
-/

namespace Agnocast

open Transition

namespace SignalHandler

variable {s s' : SignalHandler} {fd : Nat}

/-! ## `init` and `uninstall` -/

theorem Registry.controlStep (h : Registry s) (hok : Descriptors s) (fails : Bool) :
    Registry (s.controlStep fails).2 := by
  have hcontrol := hok.control
  unfold ControlOk at hcontrol
  unfold SignalHandler.controlStep
  split
  · exact h
  · exact { h with }
  · -- the test and the eventfd
    next hc =>
    rw [hc] at hcontrol
    split
    · exact h
    split
    · exact { h with }
    split
    · exact { h with eventfds := fun _ => nofun }
    · refine { h with registered := fun fd hfd => ?_, eventfds := fun _ => nofun }
      obtain ⟨hopen, hexecutor⟩ := h.registered fd hfd
      -- the new descriptor is none that an executor has registered
      have hne : fd ≠ s.fds := Nat.ne_of_lt (hok.openLt fd hopen)
      show Function.update s.isOpen s.fds true fd = true ∧
        Function.update s.isExecutor s.fds false fd = true
      rw [Function.update_of_ne hne, Function.update_of_ne hne]
      exact ⟨hopen, hexecutor⟩
  · exact { h with }
  · exact { h with }
  · exact { h with }
  · exact { h with thread := nofun }
  · split <;> exact { h with }
  · split <;> exact { h with }
  · -- `init` returns
    next hc =>
    rw [hc] at hcontrol
    refine { h with eventfds := fun _ => ?_ }
    show ∀ fd ∈ s.eventfds, _
    rw [hcontrol.2.1]
    exact nofun
  · split <;> exact { h with }
  · split <;> exact { h with }
  · exact { h with }
  · exact { h with }
  · exact { h with }
  · -- the thread is woken up
    next fd _ =>
    obtain ⟨counter, heq, _⟩ := writeEventfd_eq s fd
    show Registry ((s.writeEventfd fd).proceed .join)
    rw [heq]
    exact { h with }
  · -- the join
    split
    · exact { h with }
    · exact { h with thread := nofun }
    · exact h
  · -- the stored eventfd is taken away
    split
    · exact h
    split <;> exact { h with }
  · split <;> exact { h with }
  · -- the eventfd is closed
    next fd hc =>
    rw [hc] at hcontrol
    split
    · exact { h with }
    · refine { h with registered := fun fd' hfd' => ?_ }
      obtain ⟨hopen, hexecutor⟩ := h.registered fd' hfd'
      -- the one that is closed is the handler's, not an executor's
      have hne : fd' ≠ fd := by
        rintro rfl
        rw [hcontrol.2.2.2.2] at hexecutor
        cases hexecutor
      show Function.update s.isOpen fd false fd' = true ∧ _
      rw [Function.update_of_ne hne]
      exact ⟨hopen, hexecutor⟩
  · exact { h with eventfds := fun h => absurd rfl h }

/-- `init` and `uninstall` go on among their own places. -/
theorem ContextDown.proceed (h : ContextDown s) (hinitialized : s'.initialized = s.initialized)
    (hcalls : s'.calls = s.calls) (hthread : s'.thread.hasSignal = true → s.thread.hasSignal = true)
    (hdown : s'.control.inTeardown = true → s.control.inTeardown = true)
    (hinit : s'.control.inInit = true → s.control.inInit = true) : ContextDown s' where
  thread hsignal := hinitialized.trans (h.thread (hthread hsignal))
  control hc := hinitialized.trans (h.control (hdown hc))
  calls call hmem hne := hinitialized.trans (h.calls call (hcalls ▸ hmem) hne)
  apart hne := Bool.eq_false_iff.mpr fun hc =>
    absurd (hinit hc) (Bool.eq_false_iff.mp (h.apart (hcalls ▸ hne)))

theorem ContextDown.controlStep (h : ContextDown s) (hok : Descriptors s) (fails : Bool) :
    ContextDown (s.controlStep fails).2 := by
  have hcontrol := hok.control
  unfold ControlOk at hcontrol
  unfold SignalHandler.controlStep
  split
  · exact h
  · -- the context
    next hc =>
    -- the thread does not run, and no call of `shutdown` is there
    rw [hc] at hcontrol
    have hnone : s.calls = [] := by
      by_contra hne
      have hinit := h.apart hne
      rw [hc] at hinit
      cases hinit
    refine ⟨fun hsignal => ?_, nofun, fun call hmem => ?_, fun hne => absurd hnone hne⟩
    · change s.thread.hasSignal = true at hsignal
      rw [hcontrol.2.2] at hsignal
      cases hsignal
    · change call ∈ s.calls at hmem
      rw [hnone] at hmem
      cases hmem
  · -- the test and the eventfd
    next hc =>
    split
    · exact h
    split
    · exact h.proceed rfl rfl id nofun nofun
    split
    · exact { h with }
    · exact h.proceed rfl rfl id nofun fun _ => by rw [hc]; rfl
  · next hc => exact h.proceed rfl rfl id nofun fun _ => by rw [hc]; rfl
  · next hc => exact h.proceed rfl rfl id nofun fun _ => by rw [hc]; rfl
  · next hc => exact h.proceed rfl rfl id nofun fun _ => by rw [hc]; rfl
  · next hc => exact h.proceed rfl rfl nofun nofun fun _ => by rw [hc]; rfl
  · -- SIGINT
    next hc =>
    split
    · exact { h with }
    · exact h.proceed rfl rfl id nofun fun _ => by rw [hc]; rfl
  · -- SIGTERM
    next hc =>
    split
    · exact { h with }
    · exact h.proceed rfl rfl id nofun fun _ => by rw [hc]; rfl
  · exact h.proceed rfl rfl id nofun nofun
  · next hc => split <;> exact h.proceed rfl rfl id (fun _ => by rw [hc]; rfl) nofun
  · -- SIGTERM is restored
    next hc =>
    split
    · exact { h with }
    · exact h.proceed rfl rfl id (fun _ => by rw [hc]; rfl) nofun
  · next hc => exact h.proceed rfl rfl id (fun _ => by rw [hc]; rfl) nofun
  · next hc => exact h.proceed rfl rfl id (fun _ => by rw [hc]; rfl) nofun
  · next hc => exact h.proceed rfl rfl id (fun _ => by rw [hc]; rfl) nofun
  · -- the thread is woken up
    next fd hc =>
    obtain ⟨counter, heq, _⟩ := writeEventfd_eq s fd
    show ContextDown ((s.writeEventfd fd).proceed .join)
    rw [heq]
    exact h.proceed rfl rfl id (fun _ => by rw [hc]; rfl) nofun
  · -- the join
    next hc =>
    split
    · exact { h with }
    · exact h.proceed rfl rfl nofun (fun _ => by rw [hc]; rfl) nofun
    · exact h
  · -- the stored eventfd is taken away
    next hc =>
    split
    · exact h
    split
    · exact { h with }
    · exact h.proceed rfl rfl id (fun _ => by rw [hc]; rfl) nofun
  · -- the handlers in flight
    next hc =>
    split
    · exact h
    · exact h.proceed rfl rfl id (fun _ => by rw [hc]; rfl) nofun
  · -- the eventfd is closed
    next hc =>
    split
    · exact { h with }
    · exact h.proceed rfl rfl id (fun _ => by rw [hc]; rfl) nofun
  · exact h.proceed rfl rfl id nofun nofun

theorem Awake.controlStep (h : Awake s) (hok : Descriptors s) (fails : Bool) :
    Awake (s.controlStep fails).2 := by
  have hcontrol := hok.control
  unfold ControlOk at hcontrol
  unfold SignalHandler.controlStep
  split
  · exact h
  · exact h
  · -- the test and the eventfd
    next hc =>
    rw [hc] at hcontrol
    split
    · exact h
    split
    · exact h
    split
    · exact h
    · exact fun _ => .inl hcontrol.2.2
  · -- the eventfd is stored
    next hc =>
    rw [hc] at hcontrol
    exact fun _ => .inl hcontrol.2.2.2.1
  · exact h
  · exact nofun
  · exact fun _ => .inr (.inl rfl)
  · split <;> exact h
  · split <;> exact h
  · exact h
  · split <;> exact h
  · split <;> exact h
  · exact h
  · exact h
  · exact h
  · -- the thread is woken up
    next fd _ =>
    obtain ⟨counter, heq, hle, _⟩ := writeEventfd_eq s fd
    show Awake ((s.writeEventfd fd).proceed .join)
    rw [heq]
    exact fun hsignal => (h hsignal).write hle rfl rfl rfl rfl
  · -- the join
    split
    · exact h
    · exact fun _ => .inl rfl
    · exact h
  · -- the stored eventfd is taken away
    next hc =>
    rw [hc] at hcontrol
    split
    · exact h
    split
    · exact h
    · exact fun _ => .inl hcontrol.2.2
  · split <;> exact h
  · split <;> exact h
  · exact h

/-- The kernel gives a descriptor that nobody has. -/
theorem Descriptors.newEventfd (h : Descriptors s) (executor : Bool) :
    Descriptors (s.newEventfd executor) := by
  have hne {fd : Nat} (hopen : s.isOpen fd = true) : fd ≠ s.fds := Nat.ne_of_lt (h.openLt fd hopen)
  have hkeep (fd : Nat) (hopen : s.isOpen fd = true) (hexecutor : s.isExecutor fd = false) :
      (s.newEventfd executor).isOpen fd = true ∧ (s.newEventfd executor).isExecutor fd = false := by
    show Function.update s.isOpen s.fds true fd = true ∧
      Function.update s.isExecutor s.fds executor fd = false
    rw [Function.update_of_ne (hne hopen), Function.update_of_ne (hne hopen)]
    exact ⟨hopen, hexecutor⟩
  refine { h with
    openLt := fun fd hfd => ?_
    executorLt := fun fd hfd => ?_
    current := fun fd hfd => hkeep fd (h.current fd hfd).1 (h.current fd hfd).2
    control := h.control.of_same rfl rfl rfl (fun _ => id) hkeep .rfl }
  · change Function.update s.isOpen s.fds true fd = true at hfd
    rw [Function.update_apply] at hfd
    split at hfd
    · next heq => exact heq ▸ Nat.lt_succ_self _
    · exact Nat.lt_succ_of_lt (h.openLt fd hfd)
  · change Function.update s.isExecutor s.fds executor fd = true at hfd
    rw [Function.update_apply] at hfd
    split at hfd
    · next heq => exact heq ▸ Nat.lt_succ_self _
    · exact Nat.lt_succ_of_lt (h.executorLt fd hfd)

theorem Descriptors.controlStep (h : Descriptors s) (fails : Bool) :
    Descriptors (s.controlStep fails).2 := by
  have hcontrol := h.control
  unfold ControlOk at hcontrol
  -- away from `drain`, what a handler has loaded is the current eventfd
  have hstored (hne : ∀ fd, s.control ≠ .drain fd) (fd : Nat)
      (hmem : .loaded (some fd) ∈ s.handlers) : s.signalEventfd = some fd :=
    (h.loaded fd hmem).resolve_right (hne fd)
  have hcurrent (hne : ∀ fd, s.control ≠ .drain fd) {pos : SignalControlPos} (fd : Nat)
      (hmem : .loaded (some fd) ∈ s.handlers) : s.signalEventfd = some fd ∨ pos = .drain fd :=
    .inl (hstored hne fd hmem)
  unfold SignalHandler.controlStep
  split
  · exact h
  · -- the context
    next hc =>
    rw [hc] at hcontrol hcurrent
    exact { h with loaded := hcurrent nofun, control := hcontrol }
  · -- the test and the eventfd
    next hc =>
    rw [hc] at hcontrol hcurrent
    obtain ⟨hstate, hnone, hthread⟩ := hcontrol
    split
    · exact h
    split
    · next hinstalled => exact absurd hstate hinstalled
    split
    · exact { h with
        control := h.control.of_same rfl rfl rfl (fun _ _ => rfl) (fun _ h h' => ⟨h, h'⟩) .rfl }
    · exact { h.newEventfd false with
        loaded := hcurrent nofun
        control := ⟨hstate, rfl, hnone, hthread, Function.update_self .., Function.update_self ..⟩ }
  · -- the eventfd is stored
    next fd hc =>
    rw [hc] at hcontrol hstored
    obtain ⟨hstate, heventfds, hnone, hthread, hopen⟩ := hcontrol
    refine { h with
      current := fun fd' hfd' => Option.some.inj hfd' ▸ hopen
      running := fun _ => nofun
      reading := fun fd' hfd' => ?_
      loaded := fun fd' hmem => ?_
      control := ⟨hstate, heventfds, nofun, hthread⟩ }
    · change s.thread = _ at hfd'
      rw [hthread] at hfd'
      cases hfd'
    · have hfd' := hstored nofun fd' hmem
      rw [hnone] at hfd'
      cases hfd'
  · -- the stop flag
    next hc =>
    rw [hc] at hcontrol hcurrent
    exact { h with loaded := hcurrent nofun, control := hcontrol }
  · -- the flag of the handlers
    next hc =>
    rw [hc] at hcontrol hcurrent
    exact { h with loaded := hcurrent nofun, control := hcontrol }
  · -- the thread starts
    next hc =>
    rw [hc] at hcontrol hcurrent
    exact { h with
      running := fun _ => hcontrol.2.2.1
      reading := nofun
      loaded := hcurrent nofun
      control := ⟨hcontrol.1, hcontrol.2.1, nofun⟩ }
  · -- SIGINT
    next hc =>
    rw [hc] at hcontrol hcurrent
    split
    · exact { h with }
    · exact { h with loaded := hcurrent nofun, control := hcontrol }
  · -- SIGTERM
    next hc =>
    rw [hc] at hcontrol hcurrent
    split
    · exact { h with }
    · exact { h with loaded := hcurrent nofun, control := hcontrol }
  · -- `init` returns
    next hc =>
    rw [hc] at hcontrol hcurrent
    exact { h with loaded := hcurrent nofun, control := .inr ⟨rfl, hcontrol.2.2⟩ }
  · -- SIGINT is restored
    next hc =>
    rw [hc] at hcontrol hcurrent
    split <;> exact { h with loaded := hcurrent nofun, control := hcontrol }
  · -- SIGTERM is restored
    next hc =>
    rw [hc] at hcontrol hcurrent
    split
    · exact { h with }
    · exact { h with loaded := hcurrent nofun, control := hcontrol }
  · -- the stop is requested
    next hc =>
    rw [hc] at hcontrol hcurrent
    exact { h with loaded := hcurrent nofun, control := hcontrol }
  · -- the eventfd is loaded
    next hc =>
    rw [hc] at hcontrol hcurrent
    exact { h with loaded := hcurrent nofun, control := ⟨hcontrol.1, hcontrol.2, rfl⟩ }
  · -- no eventfd to wake with
    next hc =>
    rw [hc] at hcontrol hcurrent
    exact { h with loaded := hcurrent nofun, control := ⟨hcontrol.1, hcontrol.2.1⟩ }
  · -- the thread is woken up
    next fd hc =>
    rw [hc] at hcontrol hcurrent
    obtain ⟨counter, heq, _⟩ := writeEventfd_eq s fd
    show Descriptors ((s.writeEventfd fd).proceed .join)
    rw [heq]
    exact { h with loaded := hcurrent nofun, control := ⟨hcontrol.1, hcontrol.2.1⟩ }
  · -- the join
    next hc =>
    rw [hc] at hcontrol hcurrent
    split
    · exact { h with }
    · exact { h with
        running := fun h => absurd rfl h
        reading := nofun
        loaded := hcurrent nofun
        control := ⟨hcontrol.1, h.running hcontrol.2, rfl⟩ }
    · exact h
  · -- the stored eventfd is taken away
    next hc =>
    rw [hc] at hcontrol hstored
    obtain ⟨hstate, _, hthread⟩ := hcontrol
    split
    · exact h
    split
    · exact { h with }
    · next fd hfd =>
      refine { h with
        current := nofun
        running := fun h => absurd hthread h
        reading := fun fd' hfd' => ?_
        loaded := fun fd' hmem => .inr ?_
        control := ⟨hstate, rfl, hthread, h.current fd hfd⟩ }
      · change s.thread = _ at hfd'
        rw [hthread] at hfd'
        cases hfd'
      · -- who has loaded it has loaded this one
        have hfd' := hstored nofun fd' hmem
        rw [hfd] at hfd'
        rw [Option.some.inj hfd']
  · -- the handlers in flight
    next fd hc =>
    rw [hc] at hcontrol
    split
    · exact h
    · next hzero =>
      refine { h with loaded := fun fd' hmem => ?_, control := hcontrol }
      -- nobody is counted, so nobody has loaded it
      have hcounted : 0 < s.handlers.countP SignalHandlerPos.inFlight :=
        List.countP_pos_iff.mpr ⟨_, hmem, rfl⟩
      exact absurd (h.inflight ▸ hcounted) hzero
  · -- the eventfd is closed
    next fd hc =>
    rw [hc] at hcontrol hcurrent
    obtain ⟨hstate, hnone, hthread, _, _⟩ := hcontrol
    split
    · exact { h with }
    · refine { h with
        openLt := fun fd' hfd' => h.openLt fd' ?_
        current := fun fd' hfd' => ?_
        loaded := hcurrent nofun
        control := ⟨hstate, hnone, hthread⟩ }
      · change Function.update s.isOpen fd false fd' = true at hfd'
        rw [Function.update_apply] at hfd'
        split at hfd'
        · cases hfd'
        · exact hfd'
      · change s.signalEventfd = _ at hfd'
        rw [hnone] at hfd'
        cases hfd'
  · -- `shutdown` returns
    next hc =>
    rw [hc] at hcontrol hcurrent
    exact { h with loaded := hcurrent nofun, control := .inl ⟨rfl, hcontrol.2⟩ }

/-! ## Executors -/

/-- While `mutex_` is free, `init` and `uninstall` do not count on the set of eventfds. -/
theorem not_locked_of_mutexFree (h : s.mutexFree = true) : s.control.locked = false ∧
    (∀ left, .notifying left ∉ s.calls) ∧ ∀ left, s.thread ≠ .notifying left := by
  unfold mutexFree at h
  rw [Bool.and_eq_true, Bool.and_eq_true, Bool.not_eq_true', Bool.not_eq_true'] at h
  refine ⟨h.1.1, fun left hmem => ?_, fun left hthread => ?_⟩
  · exact absurd (List.any_eq_true.mpr ⟨_, hmem, rfl⟩) (Bool.eq_false_iff.mp h.1.2)
  · rw [hthread] at h
    cases h.2

section executors

variable {eventfds registrations : List Nat}

/-- The set of eventfds changes under `mutex_`. -/
theorem Descriptors.registry (h : Descriptors s) (hfree : s.mutexFree = true) :
    Descriptors { s with eventfds := eventfds, registrations := registrations } :=
  { h with
    control := h.control.of_same rfl rfl rfl
      (fun hlocked => absurd hlocked (Bool.eq_false_iff.mp (not_locked_of_mutexFree hfree).1))
      (fun _ h h' => ⟨h, h'⟩) .rfl }

theorem Registry.of_mutexFree (hfree : s.mutexFree = true)
    (hregistered : ∀ fd ∈ registrations, s.isOpen fd = true ∧ s.isExecutor fd = true)
    (heventfds : s.state ≠ .notInstalled → ∀ fd ∈ eventfds, fd ∈ registrations) :
    Registry { s with eventfds := eventfds, registrations := registrations } where
  registered := hregistered
  eventfds := heventfds
  thread left hthread := absurd hthread ((not_locked_of_mutexFree hfree).2.2 left)
  calls left hmem := absurd hmem ((not_locked_of_mutexFree hfree).2.1 left)

end executors

/-- **The invariant of the signal handling.** -/
structure Sound (s : SignalHandler) : Prop where
  descriptors : Descriptors s
  registry : Registry s
  context : ContextDown s
  awake : Awake s

theorem Sound.fresh : Sound fresh := ⟨.fresh, .fresh, .fresh, .fresh⟩

theorem Sound.handlerStep (h : Sound s) {pos : SignalHandlerPos} (hpos : pos ∈ s.handlers) :
    Sound (s.handlerStep pos).2 :=
  ⟨h.descriptors.handlerStep hpos, h.registry.handlerStep pos, h.context.handlerStep pos,
    h.awake.handlerStep h.descriptors hpos⟩

theorem Sound.threadStep (h : Sound s) : Sound s.threadStep.2 := by
  obtain ⟨pos, received, initialized, counter, heq, hmoves⟩ :=
    threadStep_moves h.descriptors h.registry h.context
  rw [heq]
  exact ⟨h.descriptors.thread hmoves, { h.registry with thread := hmoves.notifying },
    h.context.moves hmoves, h.awake.thread hmoves⟩

theorem Sound.callStep (h : Sound s) {pos : ShutdownCall} (hpos : pos ∈ s.calls) :
    Sound (s.callStep pos).2 :=
  ⟨h.descriptors.callStep h.registry h.context hpos, h.registry.callStep h.context hpos,
    h.context.callStep h.registry hpos, h.awake.callStep h.registry h.context hpos⟩

theorem Sound.controlStep (h : Sound s) (fails : Bool) : Sound (s.controlStep fails).2 :=
  ⟨h.descriptors.controlStep fails, h.registry.controlStep h.descriptors fails,
    h.context.controlStep h.descriptors fails, h.awake.controlStep h.descriptors fails⟩

/-- A signal is delivered. -/
theorem Sound.signal (h : Sound s) : Sound { s with handlers := s.handlers ++ [.dispatched] } where
  descriptors := { h.descriptors with
    inflight := by
      show _ = (s.handlers ++ [SignalHandlerPos.dispatched]).countP SignalHandlerPos.inFlight
      rw [List.countP_append]
      exact h.descriptors.inflight
    loaded := fun fd hmem => (List.mem_append.mp hmem).elim (h.descriptors.loaded fd) (by simp) }
  registry := { h.registry with }
  context := { h.context with }
  awake hsignal := by
    rcases h.awake hsignal with h | h | h | ⟨fd, hfd, h⟩
    · exact .inl h
    · exact .inr (.inl h)
    · exact .inr (.inr (.inl h))
    · exact .inr (.inr (.inr ⟨fd, hfd,
        h.imp_right (.imp (List.mem_append_left _) (List.mem_append_left _))⟩))

theorem Sound.callInit (h : Sound s) (hbehaves : s.behaves .callInit = true) :
    Sound (s.proceed .initContext) := by
  obtain ⟨⟨hstate, hidle⟩, hcalls⟩ : (s.state = .notInstalled ∧ s.control = .idle) ∧ s.calls = [] := by
    simpa [behaves] using hbehaves
  have hcontrol := h.descriptors.control
  unfold ControlOk at hcontrol
  rw [hidle] at hcontrol
  refine ⟨{ h.descriptors with
    loaded := fun fd hmem => .inl ((h.descriptors.loaded fd hmem).resolve_right ?_)
    control := hcontrol.resolve_right ?_ }, { h.registry with },
    { h.context with control := nofun, apart := fun hne => absurd hcalls hne }, h.awake⟩
  · rw [hidle]
    exact nofun
  · rw [hstate]
    exact nofun

theorem Sound.callShutdown (h : Sound s) (hbehaves : s.behaves .callShutdown = true) :
    Sound { s with calls := s.calls ++ [.shutdownContext] } := by
  have hinit : s.control.inInit = false := by simpa [behaves] using hbehaves
  refine ⟨{ h.descriptors with }, { h.registry with
    calls := fun left hmem => (List.mem_append.mp hmem).elim (h.registry.calls left) (by simp) },
    { h.context with
      calls := fun call hmem hne => ?_
      apart := fun _ => hinit }, h.awake⟩
  refine h.context.calls call ((List.mem_append.mp hmem).resolve_right fun hnew => ?_) hne
  exact hne (List.mem_singleton.mp hnew)

theorem Sound.registerShutdownEvent (h : Sound s)
    (hbehaves : s.behaves (.registerShutdownEvent fd) = true) :
    Sound (s.registerShutdownEvent fd).2 := by
  obtain ⟨hexecutor, hopen⟩ : s.isExecutor fd = true ∧ s.isOpen fd = true := by
    simpa [behaves] using hbehaves
  unfold SignalHandler.registerShutdownEvent
  split
  · exact h
  next hlocked =>
  have hfree : s.mutexFree = true := by simpa using hlocked
  split
  · exact h
  next hstate =>
  have hinstalled : s.state ≠ .notInstalled := fun heq => hstate (by rw [heq]; nofun)
  refine ⟨h.descriptors.registry hfree, .of_mutexFree hfree (fun fd' hfd' => ?_)
    (fun _ fd' hfd' => ?_), { h.context with }, h.awake⟩
  · rcases List.mem_insert_iff.mp hfd' with rfl | hfd'
    · exact ⟨hopen, hexecutor⟩
    · exact h.registry.registered fd' hfd'
  · exact List.mem_insert_iff.mpr
      ((List.mem_insert_iff.mp hfd').imp_right (h.registry.eventfds hinstalled fd'))

theorem Sound.unregisterShutdownEvent (h : Sound s) (fd : Nat) :
    Sound (s.unregisterShutdownEvent fd).2 := by
  unfold SignalHandler.unregisterShutdownEvent
  split
  · exact h
  next hlocked =>
  have hfree : s.mutexFree = true := by simpa using hlocked
  refine ⟨h.descriptors.registry hfree, .of_mutexFree hfree (fun fd' hfd' => ?_)
    (fun hinstalled fd' hfd' => ?_), { h.context with }, h.awake⟩
  · exact h.registry.registered fd' (List.mem_filter.mp hfd').1
  · rw [if_neg hinstalled] at hfd'
    obtain ⟨hfd', hne⟩ := List.mem_filter.mp hfd'
    exact List.mem_filter.mpr ⟨h.registry.eventfds hinstalled fd' hfd', hne⟩

theorem Sound.closeExecutor (h : Sound s) (hbehaves : s.behaves (.closeExecutor fd) = true) :
    Sound (s.closeFd fd) := by
  obtain ⟨hexecutor, hnot⟩ : s.isExecutor fd = true ∧ fd ∉ s.registrations := by
    simpa [behaves] using hbehaves
  have hkeep (fd' : Nat) (hne : fd' ≠ fd) : (s.closeFd fd).isOpen fd' = s.isOpen fd' :=
    Function.update_of_ne hne ..
  -- the handler's own descriptor is not an executor's
  have hother (fd' : Nat) (hfd' : s.isExecutor fd' = false) : fd' ≠ fd := by
    rintro rfl
    rw [hexecutor] at hfd'
    cases hfd'
  refine ⟨{ h.descriptors with
    openLt := fun fd' hfd' => h.descriptors.openLt fd' ?_
    current := fun fd' hfd' => ?_
    control := h.descriptors.control.of_same rfl rfl rfl (fun _ => id) (fun fd' hopen hfd' => ?_)
      .rfl }, { h.registry with registered := fun fd' hfd' => ?_ }, { h.context with }, h.awake⟩
  · change Function.update s.isOpen fd false fd' = true at hfd'
    rw [Function.update_apply] at hfd'
    split at hfd'
    · cases hfd'
    · exact hfd'
  · obtain ⟨hopen, hcurrent⟩ := h.descriptors.current fd' hfd'
    exact ⟨(hkeep fd' (hother fd' hcurrent)).trans hopen, hcurrent⟩
  · exact ⟨(hkeep fd' (hother fd' hfd')).trans hopen, hfd'⟩
  · have hne : fd' ≠ fd := fun heq => hnot (heq ▸ hfd')
    rw [hkeep fd' hne]
    exact h.registry.registered fd' hfd'

theorem Sound.createExecutor (h : Sound s) : Sound (s.newEventfd true) := by
  refine ⟨h.descriptors.newEventfd true, { h.registry with registered := fun fd hfd => ?_ },
    { h.context with }, fun hsignal => ?_⟩
  · obtain ⟨hopen, hexecutor⟩ := h.registry.registered fd hfd
    have hne : fd ≠ s.fds := Nat.ne_of_lt (h.descriptors.openLt fd hopen)
    show Function.update s.isOpen s.fds true fd = true ∧
      Function.update s.isExecutor s.fds true fd = true
    rw [Function.update_of_ne hne, Function.update_of_ne hne]
    exact ⟨hopen, hexecutor⟩
  · rcases h.awake hsignal with hwake | hwake | hwake | ⟨fd, hfd, hwake⟩
    · exact .inl hwake
    · exact .inr (.inl hwake)
    · exact .inr (.inr (.inl hwake))
    · have hne : fd ≠ s.fds :=
        Nat.ne_of_lt (h.descriptors.openLt fd (h.descriptors.current fd hfd).1)
      refine .inr (.inr (.inr ⟨fd, hfd, hwake.imp_left fun hwake => ?_⟩))
      show 0 < Function.update s.counter s.fds 0 fd
      rw [Function.update_of_ne hne]
      exact hwake

/-- **Every step keeps the invariant.** -/
theorem Sound.move (h : Sound s) {i : SignalInput} (hbehaves : s.behaves i = true) :
    Sound (s.move i).2 := by
  cases i with
  | signal term =>
    show Sound (if s.handles term then _ else s)
    split
    · exact h.signal
    · exact h
  | handlerStep pos =>
    show Sound (if pos ∈ s.handlers then s.handlerStep pos else (.silent, s)).2
    split
    · next hpos => exact h.handlerStep hpos
    · exact h
  | threadStep => exact h.threadStep
  | callInit =>
    show Sound (if s.control = .idle then s.proceed .initContext else s)
    split
    · exact h.callInit hbehaves
    · exact h
  | callShutdown => exact h.callShutdown hbehaves
  | callStep pos =>
    show Sound (if pos ∈ s.calls then s.callStep pos else (.silent, s)).2
    split
    · next hpos => exact h.callStep hpos
    · exact h
  | controlStep fails => exact h.controlStep fails
  | createExecutor => exact h.createExecutor
  | registerShutdownEvent fd => exact h.registerShutdownEvent hbehaves
  | unregisterShutdownEvent fd => exact h.unregisterShutdownEvent fd
  | closeExecutor fd => exact h.closeExecutor hbehaves

end SignalHandler

end Agnocast
