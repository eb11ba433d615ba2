import Agnocast.Agnocastlib.SignalHandler

/-!
# The client library — what the signal handling keeps

* `Descriptors` — a descriptor that somebody has loaded is open: a handler is counted before it loads,
  and the descriptor is closed when the count has been zero after it was taken back.
* `Registry`    — only executors that are registered are written to.
* `ContextDown` — the context is down while a signal is processed, and from the call of `shutdown` on.
* `Awake`       — a signal that is recorded is seen, or wakes the thread.
-/

namespace Agnocast

/-- `uninstall` is under way. -/
def SignalControlPos.inTeardown : SignalControlPos → Bool
  | .restoreSigint => true
  | .restoreSigterm _ => true
  | .requestStop => true
  | .loadEventfd => true
  | .wake _ => true
  | .join => true
  | .invalidate => true
  | .drain _ => true
  | .close _ => true
  | .setNotInstalled => true
  | _ => false

/-- The thread has taken a signal and is not through with it. -/
def SignalThreadPos.hasSignal : SignalThreadPos → Bool
  | .notify => true
  | .notifying _ => true
  | _ => false

namespace SignalHandler

variable {s s' : SignalHandler} {fd : Nat}

/-! ## Invariants -/

/-- What is there at each place of `init` and `uninstall`. -/
def ControlOk (s : SignalHandler) : Prop :=
  match s.control with
  | .idle => s.state = .notInstalled ∧ s.signalEventfd = none ∧ s.thread = .notRunning ∨
      s.state = .installed ∧ s.thread ≠ .notRunning
  | .initContext => s.state = .notInstalled ∧ s.signalEventfd = none ∧ s.thread = .notRunning
  | .install => s.state = .notInstalled ∧ s.signalEventfd = none ∧ s.thread = .notRunning
  | .storeEventfd fd => s.state = .notInstalled ∧ s.eventfds = [] ∧ s.signalEventfd = none ∧
      s.thread = .notRunning ∧ s.isOpen fd = true ∧ s.isExecutor fd = false
  | .clearStop => s.state = .notInstalled ∧ s.eventfds = [] ∧ s.signalEventfd ≠ none ∧
      s.thread = .notRunning
  | .clearReceived => s.state = .notInstalled ∧ s.eventfds = [] ∧ s.signalEventfd ≠ none ∧
      s.thread = .notRunning
  | .startThread => s.state = .notInstalled ∧ s.eventfds = [] ∧ s.signalEventfd ≠ none ∧
      s.thread = .notRunning
  | .installSigint => s.state = .notInstalled ∧ s.eventfds = [] ∧ s.thread ≠ .notRunning
  | .installSigterm => s.state = .notInstalled ∧ s.eventfds = [] ∧ s.thread ≠ .notRunning
  | .setInstalled => s.state = .notInstalled ∧ s.eventfds = [] ∧ s.thread ≠ .notRunning
  | .restoreSigint => s.state = .uninstalling ∧ s.thread ≠ .notRunning
  | .restoreSigterm _ => s.state = .uninstalling ∧ s.thread ≠ .notRunning
  | .requestStop => s.state = .uninstalling ∧ s.thread ≠ .notRunning
  | .loadEventfd => s.state = .uninstalling ∧ s.thread ≠ .notRunning
  | .wake fd => s.state = .uninstalling ∧ s.thread ≠ .notRunning ∧ fd = s.signalEventfd
  | .join => s.state = .uninstalling ∧ s.thread ≠ .notRunning
  | .invalidate => s.state = .uninstalling ∧ s.signalEventfd ≠ none ∧ s.thread = .notRunning
  | .drain fd => s.state = .uninstalling ∧ s.signalEventfd = none ∧ s.thread = .notRunning ∧
      s.isOpen fd = true ∧ s.isExecutor fd = false
  | .close fd => s.state = .uninstalling ∧ s.signalEventfd = none ∧ s.thread = .notRunning ∧
      s.isOpen fd = true ∧ s.isExecutor fd = false
  | .setNotInstalled => s.state = .uninstalling ∧ s.signalEventfd = none ∧ s.thread = .notRunning

/-- **The descriptors**: what is loaded by a handler or by the thread is open. -/
structure Descriptors (s : SignalHandler) : Prop where
  openLt : ∀ fd, s.isOpen fd = true → fd < s.fds
  executorLt : ∀ fd, s.isExecutor fd = true → fd < s.fds
  current : ∀ fd, s.signalEventfd = some fd → s.isOpen fd = true ∧ s.isExecutor fd = false
  running : s.thread ≠ .notRunning → s.signalEventfd ≠ none
  reading : ∀ fd, s.thread = .reading fd → s.signalEventfd = some fd
  inflight : s.handlerInflightCount = s.handlers.countP SignalHandlerPos.inFlight
  loaded : ∀ fd, .loaded (some fd) ∈ s.handlers → s.signalEventfd = some fd ∨ s.control = .drain fd
  control : s.ControlOk

/-- **The registry**: what is written to when executors are notified is registered, and so is open. -/
structure Registry (s : SignalHandler) : Prop where
  registered : ∀ fd ∈ s.registrations, s.isOpen fd = true ∧ s.isExecutor fd = true
  eventfds : s.state ≠ .notInstalled → ∀ fd ∈ s.eventfds, fd ∈ s.registrations
  thread : ∀ left, s.thread = .notifying left → ∀ fd ∈ left, fd ∈ s.registrations
  calls : ∀ left, .notifying left ∈ s.calls → ∀ fd ∈ left, fd ∈ s.registrations

/-- **The context** is down from when a signal is taken until it is processed, and from the call of
`shutdown` until the next call of `init`. -/
structure ContextDown (s : SignalHandler) : Prop where
  thread : s.thread.hasSignal = true → s.initialized = false
  control : s.control.inTeardown = true → s.initialized = false
  calls : ∀ call ∈ s.calls, call ≠ .shutdownContext → s.initialized = false
  apart : s.calls ≠ [] → s.control.inInit = false

/-- The thread looks at `signal_received_` before it sleeps, or something wakes it: a count that is not
zero, or a handler that is about to write. -/
def WillWake (s : SignalHandler) : Prop :=
  s.thread = .notRunning ∨ s.thread = .exchange ∨ s.thread = .finished ∨
    ∃ fd, s.signalEventfd = some fd ∧
      (0 < s.counter fd ∨ .recorded ∈ s.handlers ∨ .loaded (some fd) ∈ s.handlers)

/-- **A recorded signal** wakes the thread. -/
def Awake (s : SignalHandler) : Prop := s.signalReceived = true → s.WillWake

theorem Descriptors.fresh : Descriptors fresh :=
  ⟨nofun, nofun, nofun, fun h => absurd rfl h, nofun, rfl, nofun, .inl ⟨rfl, rfl, rfl⟩⟩

theorem Registry.fresh : Registry fresh :=
  ⟨nofun, fun h => absurd rfl h, nofun, nofun⟩

theorem ContextDown.fresh : ContextDown fresh :=
  ⟨nofun, nofun, nofun, fun h => absurd rfl h⟩

theorem Awake.fresh : Awake fresh := nofun

/-- The other threads keep what `init` and `uninstall` have found. -/
theorem ControlOk.of_same (h : s.ControlOk) (hcontrol : s'.control = s.control)
    (hstate : s'.state = s.state) (hfd : s'.signalEventfd = s.signalEventfd)
    (heventfds : s.control.locked = true → s.eventfds = [] → s'.eventfds = [])
    (hopen : ∀ fd, s.isOpen fd = true → s.isExecutor fd = false →
      s'.isOpen fd = true ∧ s'.isExecutor fd = false)
    (hthread : s'.thread = .notRunning ↔ s.thread = .notRunning) : s'.ControlOk := by
  unfold ControlOk at h ⊢
  rw [hcontrol, hstate, hfd]
  split
  all_goals
    next hc =>
    rw [hc] at h heventfds
    simp only [ne_eq, hthread]
    first
    | exact h
    | exact ⟨h.1, heventfds rfl h.2.1, h.2.2⟩
    | exact ⟨h.1, h.2.1, h.2.2.1, hopen _ h.2.2.2.1 h.2.2.2.2⟩
    | exact ⟨h.1, heventfds rfl h.2.1, h.2.2.1, h.2.2.2.1, hopen _ h.2.2.2.2.1 h.2.2.2.2.2⟩

/-! ## Writing -/

theorem writeEventfd_eq (s : SignalHandler) (fd : Nat) :
    ∃ counter, s.writeEventfd fd = { s with counter := counter } ∧
      (∀ fd', s.counter fd' ≤ counter fd') ∧ (s.isOpen fd = true → 0 < counter fd) := by
  unfold writeEventfd
  split
  · refine ⟨_, rfl, fun fd' => ?_, fun _ => ?_⟩
    · rw [Function.update_apply]
      split
      · next heq => exact heq ▸ Nat.le_succ _
      · exact Nat.le_refl _
    · rw [Function.update_self]
      exact Nat.succ_pos _
  · next hclosed => exact ⟨s.counter, rfl, fun _ => Nat.le_refl _, fun h => absurd h hclosed⟩

theorem notifyExecutor_eq (hopen : s.isOpen fd = true) :
    ∃ counter, s.notifyExecutor fd = { s with counter := counter } ∧
      ∀ fd', s.counter fd' ≤ counter fd' := by
  obtain ⟨counter, heq, hle, _⟩ := writeEventfd_eq s fd
  exact ⟨counter, (if_pos hopen).trans heq, hle⟩

/-- More written to the eventfds changes nothing but that. -/
theorem Descriptors.write (h : Descriptors s) {counter : Nat → Nat} :
    Descriptors { s with counter := counter } := { h with }

/-! ## Handlers -/

/-- What a step of a handler can change. -/
theorem handlerStep_eq (s : SignalHandler) (pos : SignalHandlerPos) :
    ∃ handlers count received counter, (s.handlerStep pos).2 = { s with
      handlers := handlers
      handlerInflightCount := count
      signalReceived := received
      counter := counter } := by
  match pos with
  | .dispatched => exact ⟨_, _, _, _, rfl⟩
  | .counted => exact ⟨_, _, _, _, rfl⟩
  | .recorded => exact ⟨_, _, _, _, rfl⟩
  | .loaded none => exact ⟨_, _, _, _, rfl⟩
  | .loaded (some fd) =>
    obtain ⟨counter, heq, _⟩ := writeEventfd_eq s fd
    refine ⟨Bag.replace s.handlers (.loaded (some fd)) [.written], s.handlerInflightCount,
      s.signalReceived, counter, ?_⟩
    show { s.writeEventfd fd with
      handlers := Bag.replace s.handlers (.loaded (some fd)) [.written] } = _
    rw [heq]
  | .written => exact ⟨_, _, _, _, rfl⟩

theorem Registry.handlerStep (h : Registry s) (pos : SignalHandlerPos) :
    Registry (s.handlerStep pos).2 := by
  obtain ⟨handlers, count, received, counter, heq⟩ := handlerStep_eq s pos
  rw [heq]
  exact { h with }

theorem ContextDown.handlerStep (h : ContextDown s) (pos : SignalHandlerPos) :
    ContextDown (s.handlerStep pos).2 := by
  obtain ⟨handlers, count, received, counter, heq⟩ := handlerStep_eq s pos
  rw [heq]
  exact { h with }

/-- A handler goes on: it is counted as long as it may have the eventfd. -/
theorem Descriptors.handlers (h : Descriptors s) {pos : SignalHandlerPos}
    {next : List SignalHandlerPos} (hpos : pos ∈ s.handlers) {count : Nat} {received : Bool}
    {counter : Nat → Nat}
    (hcount : count + (if pos.inFlight then 1 else 0) =
      next.countP SignalHandlerPos.inFlight + s.handlerInflightCount)
    (hnext : ∀ fd, .loaded (some fd) ∈ next → s.signalEventfd = some fd) :
    Descriptors { s with
      handlers := Bag.replace s.handlers pos next
      handlerInflightCount := count
      signalReceived := received
      counter := counter } :=
  { h with
    inflight := by
      have hreplace := Bag.countP_replace SignalHandlerPos.inFlight hpos next
      show count = (Bag.replace s.handlers pos next).countP SignalHandlerPos.inFlight
      rw [h.inflight] at hcount
      omega
    loaded := fun fd hmem =>
      (Bag.mem_replace hmem).elim (fun hnew => .inl (hnext fd hnew)) (h.loaded fd) }

theorem Descriptors.handlerStep (h : Descriptors s) {pos : SignalHandlerPos}
    (hpos : pos ∈ s.handlers) : Descriptors (s.handlerStep pos).2 := by
  match pos with
  | .dispatched => exact h.handlers hpos (Nat.add_comm s.handlerInflightCount 1) (by simp)
  | .counted => exact h.handlers hpos (Nat.add_comm ..) (by simp)
  | .recorded =>
    refine h.handlers hpos (Nat.add_comm ..) fun fd hmem => ?_
    exact (SignalHandlerPos.loaded.inj (List.mem_singleton.mp hmem)).symm
  | .loaded none => exact h.handlers hpos (Nat.add_comm ..) (by simp)
  | .loaded (some fd) =>
    obtain ⟨counter, heq, _⟩ := writeEventfd_eq s fd
    show Descriptors { s.writeEventfd fd with
      handlers := Bag.replace s.handlers (.loaded (some fd)) [.written] }
    rw [heq]
    exact h.handlers hpos (Nat.add_comm ..) (by simp)
  | .written =>
    have hpositive : 0 < s.handlers.countP SignalHandlerPos.inFlight :=
      List.countP_pos_iff.mpr ⟨_, hpos, rfl⟩
    refine h.handlers hpos ?_ (by simp)
    rw [h.inflight]
    show _ - 1 + 1 = 0 + _
    omega

theorem WillWake.handlers (h : s.WillWake) {pos : SignalHandlerPos} {next : List SignalHandlerPos}
    {count : Nat} {received : Bool} {counter : Nat → Nat}
    (hle : ∀ fd, s.counter fd ≤ counter fd)
    (hnext : ∀ fd, s.signalEventfd = some fd → pos = .recorded ∨ pos = .loaded (some fd) →
      0 < counter fd ∨ .loaded (some fd) ∈ next) :
    WillWake { s with
      handlers := Bag.replace s.handlers pos next
      handlerInflightCount := count
      signalReceived := received
      counter := counter } := by
  rcases h with h | h | h | ⟨fd, hfd, h⟩
  · exact .inl h
  · exact .inr (.inl h)
  · exact .inr (.inr (.inl h))
  refine .inr (.inr (.inr ⟨fd, hfd, ?_⟩))
  rcases h with h | h
  · exact .inl (Nat.lt_of_lt_of_le h (hle fd))
  · -- the handler that is about to write goes on, or it stays where it is
    by_cases hpos : pos = .recorded ∨ pos = .loaded (some fd)
    · exact (hnext fd hfd hpos).imp_right fun h => .inr (List.mem_append_left _ h)
    · refine .inr (h.imp (fun h => ?_) fun h => ?_)
      · exact Bag.mem_replace_of_ne h fun heq => hpos (.inl heq.symm)
      · exact Bag.mem_replace_of_ne h fun heq => hpos (.inr heq.symm)

theorem Awake.handlerStep (h : Awake s) (hok : Descriptors s) {pos : SignalHandlerPos}
    (hpos : pos ∈ s.handlers) : Awake (s.handlerStep pos).2 := by
  match pos with
  | .dispatched => exact fun hsignal => (h hsignal).handlers (fun _ => Nat.le_refl _) (by simp)
  | .counted =>
    intro _
    -- it is about to write, unless no thread is there
    by_cases hrunning : s.thread = .notRunning
    · exact .inl hrunning
    obtain ⟨fd, hfd⟩ := Option.ne_none_iff_exists'.mp (hok.running hrunning)
    exact .inr (.inr (.inr ⟨fd, hfd, .inr (.inl List.mem_cons_self)⟩))
  | .recorded =>
    refine fun hsignal => (h hsignal).handlers (fun _ => Nat.le_refl _) fun fd hfd _ => .inr ?_
    rw [hfd]
    exact List.mem_singleton_self _
  | .loaded none => exact fun hsignal => (h hsignal).handlers (fun _ => Nat.le_refl _) (by simp)
  | .loaded (some fd) =>
    obtain ⟨counter, heq, hle, hwritten⟩ := writeEventfd_eq s fd
    show Awake { s.writeEventfd fd with
      handlers := Bag.replace s.handlers (.loaded (some fd)) [.written] }
    rw [heq]
    refine fun hsignal => (h hsignal).handlers hle fun fd' hfd' hpos => .inl ?_
    cases hpos with
    | inl h => cases h
    | inr h =>
      cases h
      exact hwritten (hok.current _ hfd').1
  | .written => exact fun hsignal => (h hsignal).handlers (fun _ => Nat.le_refl _) (by simp)

/-! ## The processing thread -/

/-- What a step of the thread can make of its place, the signal, the context and the counters. -/
structure ThreadMoves (s : SignalHandler) (pos : SignalThreadPos) (received initialized : Bool)
    (counter : Nat → Nat) : Prop where
  running : pos = .notRunning ↔ s.thread = .notRunning
  reading : ∀ fd, pos = .reading fd → s.signalEventfd = some fd
  notifying : ∀ left, pos = .notifying left → ∀ fd ∈ left, fd ∈ s.registrations
  context : initialized = true → s.initialized = true
  processing : pos.hasSignal = true → initialized = false
  signal : received = true → s.signalReceived = true ∧ s.thread ≠ .exchange
  ended : s.thread = .finished → pos = .finished
  counters : (∀ fd, s.counter fd ≤ counter fd) ∨ pos = .exchange

/-- It only goes to another place, and writes. -/
theorem ThreadMoves.goto {pos : SignalThreadPos} {counter : Nat → Nat}
    (hthread : s.thread ≠ .notRunning ∧ s.thread ≠ .finished) (hpos : pos ≠ .notRunning)
    (hreading : ∀ fd, pos = .reading fd → s.signalEventfd = some fd)
    (hnotifying : ∀ left, pos = .notifying left → ∀ fd ∈ left, fd ∈ s.registrations)
    (hsignal : pos.hasSignal = true → s.initialized = false)
    (hexchange : s.signalReceived = true → s.thread ≠ .exchange)
    (hcounter : (∀ fd, s.counter fd ≤ counter fd) ∨ pos = .exchange) :
    ThreadMoves s pos s.signalReceived s.initialized counter :=
  ⟨⟨fun h => absurd h hpos, fun h => absurd h hthread.1⟩, hreading, hnotifying, id, hsignal,
    fun h => ⟨h, hexchange h⟩, fun h => absurd h hthread.2, hcounter⟩

/-- It stays where it is. -/
theorem ThreadMoves.stay (hok : Descriptors s) (hreg : Registry s) (hctx : ContextDown s)
    (h : s.thread ≠ .exchange) :
    ThreadMoves s s.thread s.signalReceived s.initialized s.counter :=
  ⟨.rfl, hok.reading, hreg.thread, id, hctx.thread, fun h' => ⟨h', h⟩, id,
    .inl fun _ => Nat.le_refl _⟩

/-- **What a step of the thread can do.** -/
theorem threadStep_moves (hok : Descriptors s) (hreg : Registry s) (hctx : ContextDown s) :
    ∃ pos received initialized counter, s.threadStep.2 = { s with
      thread := pos
      signalReceived := received
      initialized := initialized
      counter := counter } ∧ ThreadMoves s pos received initialized counter := by
  have hstay (h : s.thread ≠ .exchange) := ThreadMoves.stay hok hreg hctx h
  have hle : (∀ fd, s.counter fd ≤ s.counter fd) := fun _ => Nat.le_refl _
  unfold threadStep
  split
  · next h => exact ⟨_, _, _, _, rfl, hstay (by rw [h]; nofun)⟩
  · -- the exchange of the flag
    next h =>
    have hthread : s.thread ≠ .notRunning ∧ s.thread ≠ .finished := by rw [h]; exact ⟨nofun, nofun⟩
    split
    · exact ⟨_, _, _, _, rfl, ⟨nofun, fun h => absurd h hthread.1⟩, nofun, nofun, id, nofun, nofun,
        fun h => absurd h hthread.2, .inl hle⟩
    · next hsignal =>
      exact ⟨_, _, _, _, rfl, .goto hthread nofun nofun nofun nofun (fun h => absurd h hsignal)
        (.inl hle)⟩
  · -- the context
    next h =>
    have hthread : s.thread ≠ .notRunning ∧ s.thread ≠ .finished := by rw [h]; exact ⟨nofun, nofun⟩
    exact ⟨_, _, _, _, rfl, ⟨nofun, fun h => absurd h hthread.1⟩, nofun, nofun, nofun, fun _ => rfl,
      fun hsignal => ⟨hsignal, by rw [h]; nofun⟩, fun h => absurd h hthread.2, .inl hle⟩
  · -- the test of the state
    next h =>
    have hthread : s.thread ≠ .notRunning ∧ s.thread ≠ .finished := by rw [h]; exact ⟨nofun, nofun⟩
    have hexchange : s.thread ≠ .exchange := by rw [h]; nofun
    split
    · exact ⟨_, _, _, _, rfl, hstay hexchange⟩
    split
    · exact ⟨_, _, _, _, rfl, .goto hthread nofun nofun nofun nofun (fun _ => hexchange) (.inl hle)⟩
    · next hstate =>
      have hinstalled : s.state ≠ .notInstalled := fun heq => hstate (by rw [heq]; nofun)
      refine ⟨_, _, _, _, rfl, .goto hthread nofun nofun ?_ ?_ (fun _ => hexchange) (.inl hle)⟩
      · rintro left ⟨⟩
        exact hreg.eventfds hinstalled
      · exact fun _ => hctx.thread (by rw [h]; rfl)
  · -- the next executor
    next fd left h =>
    have hthread : s.thread ≠ .notRunning ∧ s.thread ≠ .finished := by rw [h]; exact ⟨nofun, nofun⟩
    have hleft := hreg.thread _ h
    -- it is registered, and so it is open
    obtain ⟨counter, heq, hwrite⟩ :=
      notifyExecutor_eq (hreg.registered fd (hleft fd List.mem_cons_self)).1
    refine ⟨.notifying left, s.signalReceived, s.initialized, counter, ?_,
      .goto hthread nofun nofun ?_ ?_ (fun _ => by rw [h]; nofun) (.inl hwrite)⟩
    · show (s.notifyExecutor fd).goto (.notifying left) = _
      rw [heq]
      rfl
    · rintro left' ⟨⟩
      exact fun fd' hfd' => hleft fd' (List.mem_cons_of_mem _ hfd')
    · exact fun _ => hctx.thread (by rw [h]; rfl)
  · -- all executors are notified
    next h =>
    have hthread : s.thread ≠ .notRunning ∧ s.thread ≠ .finished := by rw [h]; exact ⟨nofun, nofun⟩
    exact ⟨_, _, _, _, rfl, .goto hthread nofun nofun nofun nofun (fun _ => by rw [h]; nofun)
      (.inl hle)⟩
  · -- the stop flag
    next h =>
    have hthread : s.thread ≠ .notRunning ∧ s.thread ≠ .finished := by rw [h]; exact ⟨nofun, nofun⟩
    refine ⟨_, _, _, _, rfl, .goto hthread ?_ ?_ ?_ ?_ (fun _ => by rw [h]; nofun) (.inl hle)⟩ <;>
      split <;> nofun
  · -- the eventfd is loaded
    next h =>
    have hthread : s.thread ≠ .notRunning ∧ s.thread ≠ .finished := by rw [h]; exact ⟨nofun, nofun⟩
    split
    · exact ⟨_, _, _, _, rfl, .goto hthread nofun nofun nofun nofun (fun _ => by rw [h]; nofun)
        (.inl hle)⟩
    · next fd hfd =>
      refine ⟨_, _, _, _, rfl, .goto hthread nofun ?_ nofun nofun (fun _ => by rw [h]; nofun)
        (.inl hle)⟩
      rintro fd' ⟨⟩
      exact hfd
  · -- the read
    next h =>
    have hthread : s.thread ≠ .notRunning ∧ s.thread ≠ .finished := by rw [h]; exact ⟨nofun, nofun⟩
    split
    · exact ⟨_, _, _, _, rfl, .goto hthread nofun nofun nofun nofun (fun _ => by rw [h]; nofun)
        (.inl hle)⟩
    split
    · exact ⟨_, _, _, _, rfl, hstay (by rw [h]; nofun)⟩
    · exact ⟨_, _, _, _, rfl, .goto hthread nofun nofun nofun nofun (fun _ => by rw [h]; nofun)
        (.inr rfl)⟩
  · next h => exact ⟨_, _, _, _, rfl, hstay (by rw [h]; nofun)⟩

section thread

variable {pos : SignalThreadPos} {received initialized : Bool} {counter : Nat → Nat}

theorem Descriptors.thread (h : Descriptors s)
    (hmoves : ThreadMoves s pos received initialized counter) : Descriptors { s with
      thread := pos
      signalReceived := received
      initialized := initialized
      counter := counter } :=
  { h with
    running := fun hpos => h.running (mt hmoves.running.mpr hpos)
    reading := hmoves.reading
    control := h.control.of_same rfl rfl rfl (fun _ => id) (fun _ h h' => ⟨h, h'⟩) hmoves.running }

theorem ContextDown.moves (h : ContextDown s)
    (hmoves : ThreadMoves s pos received initialized counter) : ContextDown { s with
      thread := pos
      signalReceived := received
      initialized := initialized
      counter := counter } := by
  have hdown (hdown : s.initialized = false) : initialized = false :=
    Bool.eq_false_iff.mpr fun h => absurd (hmoves.context h) (Bool.eq_false_iff.mp hdown)
  exact
    { thread := hmoves.processing
      control := fun hc => hdown (h.control hc)
      calls := fun call hcall hne => hdown (h.calls call hcall hne)
      apart := h.apart }

theorem Awake.thread (h : Awake s) (hmoves : ThreadMoves s pos received initialized counter) :
    Awake { s with
      thread := pos
      signalReceived := received
      initialized := initialized
      counter := counter } := by
  intro hreceived
  obtain ⟨hsignal, hexchange⟩ := hmoves.signal hreceived
  rcases h hsignal with h | h | h | ⟨fd, hfd, h⟩
  · exact .inl (hmoves.running.mpr h)
  · exact absurd h hexchange
  · exact .inr (.inr (.inl (hmoves.ended h)))
  -- a count that is taken brings the thread to the head of the loop
  rcases hmoves.counters with hle | hpos
  · exact .inr (.inr (.inr ⟨fd, hfd, h.imp_left fun h => Nat.lt_of_lt_of_le h (hle fd)⟩))
  · exact .inr (.inl hpos)

end thread

/-! ## Calls of `shutdown` -/

/-- The handler is installed between the calls only. -/
theorem ControlOk.installed (h : s.ControlOk) (hstate : s.state = .installed) :
    s.control = .idle ∧ s.thread ≠ .notRunning := by
  unfold ControlOk at h
  rw [hstate] at h
  split at h
  · next hc =>
    refine ⟨hc, ?_⟩
    rcases h with h | h
    · cases h.1
    · exact h.2
  all_goals cases h.1

/-- **What a step of a call of `shutdown` can do.** -/
theorem callStep_cases (hreg : Registry s) (hctx : ContextDown s) {pos : ShutdownCall}
    (hpos : pos ∈ s.calls) : (s.callStep pos).2 = s ∨
    (∃ next counter, (s.callStep pos).2 = { s with
        calls := Bag.replace s.calls pos next
        initialized := false
        counter := counter } ∧ (∀ fd, s.counter fd ≤ counter fd) ∧
      ∀ left, .notifying left ∈ next → ∀ fd ∈ left, fd ∈ s.registrations) ∨
    s.state = .installed ∧ (s.callStep pos).2 = { s with
      state := .uninstalling
      calls := Bag.replace s.calls pos []
      initialized := false
      control := .restoreSigint } := by
  have hle : ∀ fd, s.counter fd ≤ s.counter fd := fun _ => Nat.le_refl _
  -- the context has been shut down before
  have hdown (hne : pos ≠ .shutdownContext) (f : Bool → SignalHandler) :
      f s.initialized = f false := congrArg f (hctx.calls pos hpos hne)
  match pos with
  | .shutdownContext => exact .inr (.inl ⟨[.notify], s.counter, rfl, hle, by simp⟩)
  | .notify =>
    unfold callStep
    dsimp only
    split
    · exact .inl rfl
    split
    · exact .inr (.inl ⟨[.uninstall], s.counter, hdown nofun fun b => { s with
        calls := Bag.replace s.calls .notify [.uninstall], initialized := b }, hle, by simp⟩)
    · next hstate =>
      have hinstalled : s.state ≠ .notInstalled := fun heq => hstate (by rw [heq]; nofun)
      refine .inr (.inl ⟨[.notifying s.eventfds], s.counter, hdown nofun fun b => { s with
        calls := Bag.replace s.calls .notify [.notifying s.eventfds], initialized := b }, hle, ?_⟩)
      intro left hleft
      cases List.mem_singleton.mp hleft
      exact hreg.eventfds hinstalled
  | .notifying (fd :: left) =>
    have hleft := hreg.calls _ hpos
    obtain ⟨counter, heq, hwrite⟩ :=
      notifyExecutor_eq (hreg.registered fd (hleft fd List.mem_cons_self)).1
    refine .inr (.inl ⟨[.notifying left], counter, ?_, hwrite, ?_⟩)
    · show { s.notifyExecutor fd with
        calls := Bag.replace s.calls (.notifying (fd :: left)) [.notifying left] } = _
      rw [heq]
      exact hdown nofun fun b => { s with
        calls := Bag.replace s.calls (.notifying (fd :: left)) [.notifying left]
        initialized := b
        counter := counter }
    · intro left' hleft'
      cases List.mem_singleton.mp hleft'
      exact fun fd' hfd' => hleft fd' (List.mem_cons_of_mem _ hfd')
  | .notifying [] =>
    exact .inr (.inl ⟨[.uninstall], s.counter, hdown nofun fun b => { s with
      calls := Bag.replace s.calls (.notifying []) [.uninstall], initialized := b }, hle, by simp⟩)
  | .uninstall =>
    unfold callStep
    dsimp only
    split
    · exact .inl rfl
    split
    · exact .inr (.inl ⟨[], s.counter, hdown nofun fun b => { s with
        calls := Bag.replace s.calls .uninstall [], initialized := b }, hle, nofun⟩)
    · next hstate =>
      exact .inr (.inr ⟨not_not.mp hstate, hdown nofun fun b => { s with
        state := .uninstalling
        calls := Bag.replace s.calls .uninstall []
        initialized := b
        control := .restoreSigint }⟩)

section calls

variable {pos : ShutdownCall} {next : List ShutdownCall} {counter : Nat → Nat}

theorem WillWake.write (h : s.WillWake) (hle : ∀ fd, s.counter fd ≤ counter fd)
    (hthread : s'.thread = s.thread) (hfd : s'.signalEventfd = s.signalEventfd)
    (hcounter : s'.counter = counter) (hhandlers : s'.handlers = s.handlers) : s'.WillWake := by
  unfold WillWake
  rw [hthread, hfd, hcounter, hhandlers]
  rcases h with h | h | h | ⟨fd, hfd, h⟩
  · exact .inl h
  · exact .inr (.inl h)
  · exact .inr (.inr (.inl h))
  · exact .inr (.inr (.inr ⟨fd, hfd, h.imp_left fun h => Nat.lt_of_lt_of_le h (hle fd)⟩))

theorem Descriptors.callStep (h : Descriptors s) (hreg : Registry s) (hctx : ContextDown s)
    (hpos : pos ∈ s.calls) : Descriptors (s.callStep pos).2 := by
  rcases callStep_cases hreg hctx hpos with heq | ⟨next, counter, heq, _, _⟩ | ⟨hstate, heq⟩ <;>
    rw [heq]
  · exact h
  · exact { h with }
  · obtain ⟨hidle, hthread⟩ := h.control.installed hstate
    refine { h with
      loaded := fun fd hmem => .inl ((h.loaded fd hmem).resolve_right fun hdrain => ?_)
      control := ⟨rfl, hthread⟩ }
    rw [hidle] at hdrain
    cases hdrain

theorem Registry.callStep (h : Registry s) (hctx : ContextDown s) (hpos : pos ∈ s.calls) :
    Registry (s.callStep pos).2 := by
  rcases callStep_cases h hctx hpos with heq | ⟨next, counter, heq, _, hnext⟩ | ⟨hstate, heq⟩ <;>
    rw [heq]
  · exact h
  · exact { h with calls := fun left hmem => (Bag.mem_replace hmem).elim (hnext left) (h.calls left) }
  · exact { h with
      eventfds := fun _ => h.eventfds (by rw [hstate]; nofun)
      calls := fun left hmem => (Bag.mem_replace hmem).elim nofun (h.calls left) }

theorem ContextDown.callStep (h : ContextDown s) (hreg : Registry s) (hpos : pos ∈ s.calls) :
    ContextDown (s.callStep pos).2 := by
  rcases callStep_cases hreg h hpos with heq | ⟨next, counter, heq, _, _⟩ | ⟨_, heq⟩ <;> rw [heq]
  · exact h
  · exact ⟨fun _ => rfl, fun _ => rfl, fun _ _ _ => rfl,
      fun _ => h.apart (List.ne_nil_of_mem hpos)⟩
  · exact ⟨fun _ => rfl, fun _ => rfl, fun _ _ _ => rfl, fun _ => rfl⟩

theorem Awake.callStep (h : Awake s) (hreg : Registry s) (hctx : ContextDown s)
    (hpos : pos ∈ s.calls) : Awake (s.callStep pos).2 := by
  rcases callStep_cases hreg hctx hpos with heq | ⟨next, counter, heq, hle, _⟩ | ⟨_, heq⟩ <;> rw [heq]
  · exact h
  · exact fun hsignal => (h hsignal).write hle rfl rfl rfl rfl
  · exact h

end calls

end SignalHandler

end Agnocast
