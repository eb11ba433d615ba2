import Agnocast.Lib.Transition
import Mathlib.Data.List.Basic

/-!
# The bridge manager — the request buffer of an A2R service bridge

`create_a2r_service_bridge_generic`: requests that arrive while the ROS 2 service is not ready
wait in a deque. The service callback adds a request and tries to send, the drain timer tries to
send; both belong to one mutually exclusive callback group, so one of them runs at a time. Every
access of the deque and every call of the client is a step.

* `RequestBuffer`        — the deque and where the callback stands.
* `Conserved`            — what arrived is what left, in that order, and what is still there.
* `a2r_request_buffer`   — the deque over a run.

An exception of the client is a `std::exception`, and the request is not sent then. The response
callbacks and the log are left out.
-/

namespace Agnocast

/-- `kMaxPendingRequests`. -/
def kMaxPendingRequests : Nat := 10

/-- Where the callback group stands. -/
inductive BufferPhase (α : Type*)
  /-- No callback runs. -/
  | idle
  /-- In `add_request`. -/
  | adding (agnoReq : α)
  /-- In `add_request`, after `pop_front`. -/
  | replacing (agnoReq : α)
  /-- In `send_requests`. -/
  | checking
  /-- Before `service_is_ready`. -/
  | probing
  /-- At the head of the loop. -/
  | draining
  /-- In `async_send_request`, with the request taken from the front. -/
  | sending (agnoReq : α)
  deriving DecidableEq, Repr

/-- The deque, and the callback that uses it. -/
structure RequestBuffer (α : Type*) where
  pendingRequests : List α
  phase : BufferPhase α
  deriving DecidableEq, Repr

/-- What `service_is_ready` answers. -/
inductive ReadyAnswer
  | ready
  | notReady
  | threw
  deriving DecidableEq, Repr

/-- What can happen. -/
inductive BufferInput (α : Type*)
  /-- An Agnocast request arrives: the service callback is called. -/
  | request (agnoReq : α)
  /-- The drain timer is due. -/
  | drain
  /-- The callback goes on, without a call of the client. -/
  | proceed
  | serviceIsReady (answer : ReadyAnswer)
  | asyncSendRequest (sent : Bool)
  deriving DecidableEq, Repr

/-- What a step shows. -/
inductive BufferOutput (α : Type*)
  | nothing
  | arrived (agnoReq : α)
  | sent (agnoReq : α)
  | dropped (agnoReq : α)
  deriving DecidableEq, Repr

namespace RequestBuffer

variable {α : Type*}

/-- The next step of a callback that does not call the client. -/
def proceed (x : RequestBuffer α) : BufferOutput α × RequestBuffer α :=
  match x.phase, x.pendingRequests with
  | .adding agnoReq, requests =>
    if requests.length < kMaxPendingRequests then (.nothing, ⟨requests ++ [agnoReq], .checking⟩)
    else
      match requests with
      | [] => (.nothing, ⟨[], .replacing agnoReq⟩)
      -- the buffer is full: the oldest request is dropped
      | oldest :: rest => (.dropped oldest, ⟨rest, .replacing agnoReq⟩)
  | .replacing agnoReq, requests => (.nothing, ⟨requests ++ [agnoReq], .checking⟩)
  | .checking, [] => (.nothing, ⟨[], .idle⟩)
  | .checking, requests => (.nothing, ⟨requests, .probing⟩)
  | .draining, [] => (.nothing, ⟨[], .idle⟩)
  | .draining, agnoReq :: rest => (.nothing, ⟨rest, .sending agnoReq⟩)
  | _, _ => (.nothing, x)

/-- One step. A step that is not possible leaves the state as it is. -/
def step (x : RequestBuffer α) : BufferInput α → BufferOutput α × RequestBuffer α
  | .request agnoReq =>
    match x.phase with
    | .idle => (.arrived agnoReq, { x with phase := .adding agnoReq })
    | _ => (.nothing, x)
  | .drain =>
    match x.phase with
    | .idle => (.nothing, { x with phase := .checking })
    | _ => (.nothing, x)
  | .proceed => x.proceed
  | .serviceIsReady answer =>
    match x.phase, answer with
    | .probing, .ready => (.nothing, { x with phase := .draining })
    | .probing, _ => (.nothing, { x with phase := .idle })
    | _, _ => (.nothing, x)
  | .asyncSendRequest sent =>
    match x.phase with
    | .sending agnoReq =>
      if sent then (.sent agnoReq, { x with phase := .draining })
      -- back to the front, and out of the loop
      else (.nothing, ⟨agnoReq :: x.pendingRequests, .idle⟩)
    | _ => (.nothing, x)

end RequestBuffer

/-- A new A2R bridge, with any requests and any answers of the client. -/
def requestBuffer (α : Type*) :
    Transition.System (RequestBuffer α) (BufferInput α) (BufferOutput α) where
  init x := x = ⟨[], .idle⟩
  step := RequestBuffer.step

abbrev BufferEvent (α : Type*) :=
  Transition.Event (RequestBuffer α) (BufferInput α) (BufferOutput α)

/-! ## What a run shows -/

section

variable {α : Type*}

/-- A request that arrived. -/
def BufferOutput.arrived? : BufferOutput α → Option α
  | .arrived agnoReq => some agnoReq
  | _ => none

/-- A request that was handed to the ROS 2 client. -/
def BufferOutput.sent? : BufferOutput α → Option α
  | .sent agnoReq => some agnoReq
  | _ => none

/-- A request that left, in one way or the other. -/
def BufferOutput.left? : BufferOutput α → Option α
  | .sent agnoReq | .dropped agnoReq => some agnoReq
  | _ => none

/-- The requests that arrived, were sent and left, oldest first. -/
def arrivals (tr : List (BufferEvent α)) : List α :=
  (Transition.shown BufferOutput.arrived? tr).reverse

def sends (tr : List (BufferEvent α)) : List α :=
  (Transition.shown BufferOutput.sent? tr).reverse

def departures (tr : List (BufferEvent α)) : List α :=
  (Transition.shown BufferOutput.left? tr).reverse

/-- The request that was taken from the front, and the one that is not in the deque yet. -/
def BufferPhase.taken : BufferPhase α → List α
  | .sending agnoReq => [agnoReq]
  | _ => []

def BufferPhase.incoming : BufferPhase α → List α
  | .adding agnoReq | .replacing agnoReq => [agnoReq]
  | _ => []

/-- The requests that a bridge holds, oldest first. -/
def RequestBuffer.held (x : RequestBuffer α) : List α :=
  x.phase.taken ++ x.pendingRequests ++ x.phase.incoming

/-! ## One step -/

/-- The callback that goes on moves requests along, or lets the oldest one go. -/
theorem RequestBuffer.proceed_held (x : RequestBuffer α) :
    x.proceed.1.arrived? = none ∧ x.held = x.proceed.1.left?.toList ++ x.proceed.2.held := by
  obtain ⟨requests, phase⟩ := x
  cases phase with
  | adding agnoReq =>
    simp only [proceed]
    split
    · exact ⟨rfl, by simp [held, BufferPhase.taken, BufferPhase.incoming, BufferOutput.left?]⟩
    · cases requests with
      | nil => exact ⟨rfl, rfl⟩
      | cons oldest rest => exact ⟨rfl, rfl⟩
  | replacing agnoReq =>
    exact ⟨rfl, by
      simp [proceed, held, BufferPhase.taken, BufferPhase.incoming, BufferOutput.left?]⟩
  | checking => cases requests <;> exact ⟨rfl, rfl⟩
  | draining => cases requests <;> exact ⟨rfl, rfl⟩
  | idle => exact ⟨rfl, rfl⟩
  | probing => exact ⟨rfl, rfl⟩
  | sending agnoReq => exact ⟨rfl, rfl⟩

/-- **What a step does**: it moves requests along, takes one in at the end or lets the oldest one
go. -/
theorem RequestBuffer.step_held (x : RequestBuffer α) (i : BufferInput α) :
    x.held ++ (x.step i).1.arrived?.toList = (x.step i).1.left?.toList ++ (x.step i).2.held := by
  cases i with
  | proceed =>
    obtain ⟨harrived, hheld⟩ := x.proceed_held
    show x.held ++ x.proceed.1.arrived?.toList = x.proceed.1.left?.toList ++ x.proceed.2.held
    rw [harrived, ← hheld]
    exact List.append_nil _
  | request agnoReq =>
    obtain ⟨requests, phase⟩ := x
    cases phase <;>
      simp [step, held, BufferPhase.taken, BufferPhase.incoming, BufferOutput.left?,
        BufferOutput.arrived?]
  | drain =>
    obtain ⟨requests, phase⟩ := x
    cases phase <;>
      simp [step, held, BufferPhase.taken, BufferPhase.incoming, BufferOutput.left?,
        BufferOutput.arrived?]
  | serviceIsReady answer =>
    obtain ⟨requests, phase⟩ := x
    cases phase <;> cases answer <;>
      simp [step, held, BufferPhase.taken, BufferPhase.incoming, BufferOutput.left?,
        BufferOutput.arrived?]
  | asyncSendRequest sent =>
    obtain ⟨requests, phase⟩ := x
    cases phase <;> cases sent <;>
      simp [step, held, BufferPhase.taken, BufferPhase.incoming, BufferOutput.left?,
        BufferOutput.arrived?]

/-- The room that the step under way needs. -/
def BufferPhase.room : BufferPhase α → Nat
  | .replacing _ | .sending _ => 1
  | _ => 0

/-- The deque is never too long, not even while a request is put back. -/
def RequestBuffer.Bounded (x : RequestBuffer α) : Prop :=
  x.pendingRequests.length + x.phase.room ≤ kMaxPendingRequests

theorem RequestBuffer.Bounded.proceed {x : RequestBuffer α} (h : x.Bounded) :
    x.proceed.2.Bounded := by
  obtain ⟨requests, phase⟩ := x
  unfold Bounded at h ⊢
  cases phase with
  | adding agnoReq =>
    simp only [RequestBuffer.proceed, BufferPhase.room] at h ⊢
    split
    next hlt =>
      rw [List.length_append]
      exact hlt
    · cases requests with
      | nil => exact Nat.le_of_ble_eq_true rfl
      | cons oldest rest => exact h
  | replacing agnoReq =>
    simp only [RequestBuffer.proceed, List.length_append]
    exact h
  | checking => cases requests <;> exact h
  | draining => cases requests <;> exact h
  | idle => exact h
  | probing => exact h
  | sending agnoReq => exact h

theorem RequestBuffer.Bounded.step {x : RequestBuffer α} (h : x.Bounded) (i : BufferInput α) :
    (x.step i).2.Bounded := by
  cases i with
  | proceed => exact h.proceed
  | request agnoReq =>
    obtain ⟨requests, phase⟩ := x
    cases phase <;> exact h
  | drain =>
    obtain ⟨requests, phase⟩ := x
    cases phase <;> exact h
  | serviceIsReady answer =>
    obtain ⟨requests, phase⟩ := x
    cases phase <;> cases answer <;> exact h
  | asyncSendRequest sent =>
    obtain ⟨requests, phase⟩ := x
    unfold Bounded at h ⊢
    cases phase <;> cases sent <;> simp [RequestBuffer.step, BufferPhase.room] at h ⊢ <;> omega

/-- Only a request that is the oldest of a full deque is dropped, for one that arrived. -/
theorem RequestBuffer.Bounded.dropped {x : RequestBuffer α} (h : x.Bounded) {i : BufferInput α}
    {oldest : α} (hdrop : (x.step i).1 = .dropped oldest) :
    ∃ agnoReq rest, x = ⟨oldest :: rest, .adding agnoReq⟩ ∧
      x.pendingRequests.length = kMaxPendingRequests := by
  obtain ⟨requests, phase⟩ := x
  cases i with
  | proceed =>
    cases phase with
    | adding agnoReq =>
      simp only [RequestBuffer.step, RequestBuffer.proceed] at hdrop
      split at hdrop
      · cases hdrop
      next hfull =>
        cases requests with
        | nil => cases hdrop
        | cons first rest =>
          cases hdrop
          refine ⟨agnoReq, rest, rfl, ?_⟩
          have hle : (oldest :: rest).length ≤ kMaxPendingRequests := h
          exact Nat.le_antisymm hle (Nat.le_of_not_lt hfull)
    | checking => cases requests <;> cases hdrop
    | draining => cases requests <;> cases hdrop
    | idle => cases hdrop
    | replacing agnoReq => cases hdrop
    | probing => cases hdrop
    | sending agnoReq => cases hdrop
  | request agnoReq => cases phase <;> cases hdrop
  | drain => cases phase <;> cases hdrop
  | serviceIsReady answer => cases phase <;> cases answer <;> cases hdrop
  | asyncSendRequest sent => cases phase <;> cases sent <;> cases hdrop

/-- Only the request that was taken from the front is sent; with an exception it is at the front
again, before the requests that were behind it. -/
theorem RequestBuffer.asyncSendRequest_sending (requests : List α) (agnoReq : α) (sent : Bool) :
    (RequestBuffer.mk requests (.sending agnoReq)).step (.asyncSendRequest sent) =
      if sent then (.sent agnoReq, ⟨requests, .draining⟩)
      else (.nothing, ⟨agnoReq :: requests, .idle⟩) := rfl

/-! ## A run -/

/-- Everything that arrived is what left, in the order of arrival, and what is still there. -/
theorem arrivals_eq {tr : List (BufferEvent α)} {x : RequestBuffer α}
    (h : Transition.Run (requestBuffer α) Transition.anyStep tr x) :
    arrivals tr = departures tr ++ x.held := by
  induction h with
  | init h =>
    subst h
    rfl
  | @step tr x i _ _ ih =>
    have hstep := x.step_held i
    simp only [arrivals, departures, Transition.shown_cons, List.reverse_append] at ih ⊢
    have hone : ∀ o : Option α, o.toList.reverse = o.toList := fun o => by cases o <;> rfl
    rw [hone, hone, ih, List.append_assoc, List.append_assoc]
    exact congrArg _ hstep

/-- What was sent left. -/
theorem sends_sublist (tr : List (BufferEvent α)) : (sends tr).Sublist (departures tr) := by
  refine List.Sublist.reverse ?_
  unfold Transition.shown
  induction tr with
  | nil => exact .refl _
  | cons ev tr ih =>
    rw [List.filterMap_cons, List.filterMap_cons]
    cases ev.output with
    | sent agnoReq => exact ih.cons_cons _
    | dropped agnoReq => exact ih.cons _
    | nothing => exact ih
    | arrived agnoReq => exact ih

theorem bounded_of_run {tr : List (BufferEvent α)} {x : RequestBuffer α}
    (h : Transition.Run (requestBuffer α) Transition.anyStep tr x) : x.Bounded :=
  h.invariant (P := RequestBuffer.Bounded) (fun x hx => by subst hx; exact Nat.zero_le _)
    fun _ i hx _ => hx.step i

/-- What a run of the bridge shows. -/
structure BufferKept (tr : List (BufferEvent α)) (x : RequestBuffer α) : Prop where
  /-- Never more than ten. -/
  bounded : x.pendingRequests.length ≤ kMaxPendingRequests
  /-- Requests leave in the order of their arrival, and none is lost or doubled. -/
  conserved : arrivals tr = departures tr ++ x.held
  /-- The requests that were sent, each once, in the order of arrival. -/
  sent : (sends tr).Sublist (arrivals tr)
  /-- A request that was dropped was the oldest one, when an eleventh had arrived. -/
  dropped : ∀ ev ∈ tr, ∀ oldest, ev.output = .dropped oldest →
    ∃ agnoReq rest, ev.pre = ⟨oldest :: rest, .adding agnoReq⟩ ∧
      ev.pre.pendingRequests.length = kMaxPendingRequests
  /-- A request leaves the deque to be sent; if that throws, it is at the front again. -/
  failed : ∀ ev ∈ tr, ∀ agnoReq, ev.pre.phase = .sending agnoReq →
    ev.input = .asyncSendRequest false →
    (ev.pre.step ev.input).2.pendingRequests = agnoReq :: ev.pre.pendingRequests

/-- **The buffer over a run**: requests arriving and timers in any order, any answers and
exceptions of the client. -/
theorem a2r_request_buffer {tr : List (BufferEvent α)} {x : RequestBuffer α}
    (h : Transition.Run (requestBuffer α) Transition.anyStep tr x) : BufferKept tr x where
  bounded := Nat.le_trans (Nat.le_add_right ..) (bounded_of_run h)
  conserved := arrivals_eq h
  sent := by
    rw [arrivals_eq h]
    exact (sends_sublist tr).trans (List.sublist_append_left ..)
  dropped ev hev oldest hdrop := by
    obtain ⟨later, earlier, rfl⟩ := List.append_of_mem hev
    obtain ⟨hrun, -, houtput, -⟩ := h.event
    exact (bounded_of_run hrun).dropped (houtput.symm.trans hdrop)
  failed ev _ agnoReq hphase hinput := by
    obtain ⟨⟨requests, phase⟩, input, output⟩ := ev
    subst hphase hinput
    rfl

end

/-- Eleven requests while the service is not ready, then the drain timer with a failing send. -/
theorem a2r_request_buffer_eleven :
    ∃ tr x, BufferKept tr x ∧ arrivals tr = List.range 11 ∧ departures tr = [0, 1] ∧
      x.pendingRequests = (List.range 11).drop 2 := by
  let waiting : List (BufferInput Nat) := (List.range 11).flatMap fun n =>
    [.request n, .proceed, .proceed, .proceed, .serviceIsReady .notReady]
  let drained : List (BufferInput Nat) :=
    [.drain, .proceed, .serviceIsReady .ready, .proceed, .asyncSendRequest true, .proceed,
      .asyncSendRequest false]
  have hrun := (Transition.Run.init (T := requestBuffer Nat) (G := Transition.anyStep) rfl).exec
    (Transition.System.guarded_anyStep _ _ (waiting ++ drained))
  exact ⟨_, _, a2r_request_buffer hrun, by decide +kernel, by decide +kernel, by decide +kernel⟩

end Agnocast
