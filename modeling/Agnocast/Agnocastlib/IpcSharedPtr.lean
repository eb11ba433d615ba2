import Agnocast.Lib.Bag
import Agnocast.Agnocastlib.TakeSubscription

/-!
# The library — `ipc_shared_ptr`

A message is handed out as instances of `ipc_shared_ptr` that share a control block. A new
instance may store another pointer than the one it is made from: a converted one, a member
of the message (aliasing), or what `get` returns (`static_ipc_shared_ptr_cast`). The last
instance acts for all of them, with its own pointer and its own type.

* `IpcSharedPtrs` — the instances of a process, their control blocks, and the loans that each
  thread counts.
* `ipcSharedPtrs` — the transition system. `reset` is two steps, the decrement and what the last
  instance does after it; `publish` and `cancel_message` are two steps, the invalidation and the
  rest. Between them other threads act, on other instances.
* `HandleProtocol`, `LoansAccounted` — what is asked of a run.

An assignment is a `reset` of its target followed by `copyAssign` or `moveAssign`, and a
destructor a `reset` followed by `destroy`; a self-assignment does nothing. The message's
address in the kernel and the released messages that `publish` deletes play no part.
-/

namespace Agnocast

/-! ## The state -/

/-- The `T` of an `ipc_shared_ptr<T>`, up to `const`. -/
inductive ElementType
  | void
  | object (name : Nat)
  deriving DecidableEq, Repr

/-- An instance: `ptr_` and `control_`. -/
structure IpcSharedPtr where
  type : ElementType
  ptr : Option Nat
  control : Option Nat
  deriving DecidableEq, Repr

/-- What `ipc_shared_ptr()` builds, and what `reset` and a move leave. -/
def IpcSharedPtr.null (type : ElementType) : IpcSharedPtr := ⟨type, none, none⟩

/-- The two ways to withdraw a loan from its instances. -/
inductive Withdrawal
  | publish
  | cancelMessage
  deriving DecidableEq, Repr

/-- An instance, and the call under way that has it. -/
inductive Instance
  | idle (h : IpcSharedPtr)
  /-- The argument of a `publish` or `cancel_message` that has invalidated it. -/
  | withdrawing (thread : Nat) (how : Withdrawal) (h : IpcSharedPtr)
  /-- What an instance held whose `reset` has found it the last. -/
  | closing (thread : Nat) (h : IpcSharedPtr)
  deriving DecidableEq, Repr

/-- The control block that an instance holds. -/
def Instance.holds : Instance → Option Nat
  | .idle h => h.control
  | .withdrawing _ _ h => h.control
  | .closing _ _ => none

/-- The control block that a last instance is about to delete. -/
def Instance.leaves : Instance → Option Nat
  | .closing _ h => h.control
  | _ => none

/-- The thread and the control block of a running `publish` or `cancel_message`. -/
def Instance.withdraws : Instance → Option (Nat × Nat)
  | .withdrawing thread _ h => h.control.map fun b => (thread, b)
  | _ => none

/-- Where a control block comes from. The code has no such record. -/
inductive Origin
  /-- `borrow_loaned_message` on the thread. -/
  | loan (thread addr : Nat) (type : ElementType)
  | received (ref : MessageRef)
  deriving DecidableEq, Repr

/-- The instances of a process; `borrowedPublisherNum` is the thread-local counter. -/
structure IpcSharedPtrs where
  items : List Instance
  ptrs : SharedPtrs MessageRef
  valid : Nat → Bool
  origins : Nat → Option Origin
  borrowedPublisherNum : Nat → Nat
  terminated : Bool

/-! ## The steps -/

/-- The type of a new instance, and which pointer it stores. -/
inductive PtrView
  /-- `ptr_(r.ptr_)`, converted from one type to the other. -/
  | converted (type : ElementType) (cast : Nat → Nat)
  /-- A pointer of the caller's. -/
  | aliased (type : ElementType) (ptr : Option Nat)
  /-- `static_cast<T *>(r.get())`. -/
  | staticCast (type : ElementType) (cast : Nat → Nat)

def PtrView.type : PtrView → ElementType
  | .converted type _ => type
  | .aliased type _ => type
  | .staticCast type _ => type

/-- What a thread can do next. -/
inductive HandleInput
  | defaultConstruct (type : ElementType)
  | borrow (thread : Nat) (topicName : Name) (pubsubId : Int) (addr : Nat) (type : ElementType)
  | receive (type : ElementType) (ptr : Option Nat) (topicName : Name) (pubsubId : Int)
      (entryId : Nat)
  | copyConstruct (r : IpcSharedPtr) (view : PtrView)
  | moveConstruct (r : IpcSharedPtr) (view : PtrView)
  | copyAssign (l r : IpcSharedPtr) (cast : Nat → Nat)
  | moveAssign (l r : IpcSharedPtr) (cast : Nat → Nat)
  | reset (thread : Nat) (h : IpcSharedPtr)
  | closeLast (thread : Nat) (h : IpcSharedPtr)
  | destroy (h : IpcSharedPtr)
  | withdraw (thread : Nat) (how : Withdrawal) (topicName : Name) (h : IpcSharedPtr)
  | finishWithdrawal (thread : Nat) (how : Withdrawal) (h : IpcSharedPtr)

/-- What the last instance frees besides the control block. -/
inductive Freed
  /-- `delete ptr_`. -/
  | message (ptr : Option Nat) (type : ElementType)
  /-- `release_subscriber_reference`. -/
  | reference (ref : MessageRef)
  deriving DecidableEq, Repr

/-- What a step shows. -/
inductive HandleReply
  /-- The control block was invalidated. -/
  | withdrawn (block : Nat)
  | published (block : Nat) (ptr : Option Nat)
  /-- The deleter was called. -/
  | cancelled (block : Nat) (ptr : Option Nat)
  /-- The control block was deleted. -/
  | closed (block : Nat) (freed : Option Freed)
  /-- "Type-erased message was dropped before being published": the process ends. -/
  | typeErasedDropped (block : Nat)
  /-- "Invalid message to publish": the process ends. -/
  | invalidMessage
  /-- "The number of publish() called exceeds the number of borrow_loaned_message() called": the
  process ends. -/
  | exceeded
  deriving DecidableEq, Repr

/-- What a withdrawal shows of itself. -/
def Withdrawal.reply (block : Nat) (ptr : Option Nat) : Withdrawal → HandleReply
  | .publish => .published block ptr
  | .cancelMessage => .cancelled block ptr

namespace IpcSharedPtrs

/-- `is_invalidated_`. -/
def isInvalidated (x : IpcSharedPtrs) (h : IpcSharedPtr) : Bool := h.control.any fun b => !x.valid b

/-- `get`. -/
def get (x : IpcSharedPtrs) (h : IpcSharedPtr) : Option Nat :=
  if x.isInvalidated h then none else h.ptr

/-- `get_topic_name`; `none` is the empty string. -/
def getTopicName (x : IpcSharedPtrs) (h : IpcSharedPtr) : Option Name :=
  (h.control.bind x.ptrs.valueOf).map MessageRef.topicName

/-- The pointer that a new instance stores. -/
def viewed (x : IpcSharedPtrs) (r : IpcSharedPtr) : PtrView → Option Nat
  | .converted _ cast => r.ptr.map cast
  | .aliased _ ptr => ptr
  | .staticCast _ cast => (x.get r).map cast

/-- The constructors that build a control block. -/
def construct (x : IpcSharedPtrs) (type : ElementType) (addr : Nat) (ref : MessageRef)
    (origin : Origin) : IpcSharedPtrs :=
  { x with
    items := .idle ⟨type, some addr, some x.ptrs.next⟩ :: x.items
    ptrs := x.ptrs.make ref
    valid := Function.update x.valid x.ptrs.next true
    origins := Function.update x.origins x.ptrs.next (some origin) }

/-- `borrow_loaned_message`, of either publisher. -/
def borrow (x : IpcSharedPtrs) (thread : Nat) (topicName : Name) (pubsubId : Int) (addr : Nat)
    (type : ElementType) : IpcSharedPtrs :=
  { x.construct type addr ⟨topicName, pubsubId, entryIdNotAssigned⟩ (.loan thread addr type) with
    borrowedPublisherNum := Function.update x.borrowedPublisherNum thread
      ((x.borrowedPublisherNum thread + 1) % refCountSize) }

/-- The subscriber-side constructor. -/
def receive (x : IpcSharedPtrs) (type : ElementType) (ptr : Option Nat) (topicName : Name)
    (pubsubId : Int) (entryId : Nat) : IpcSharedPtrs :=
  match ptr with
  | none => { x with items := .idle (.null type) :: x.items }
  | some addr =>
    x.construct type addr ⟨topicName, pubsubId, entryId⟩ (.received ⟨topicName, pubsubId, entryId⟩)

/-- The copy constructors. -/
def copyConstruct (x : IpcSharedPtrs) (r : IpcSharedPtr) (view : PtrView) : IpcSharedPtrs :=
  if .idle r ∈ x.items then
    { x with
      items := .idle ⟨view.type, x.viewed r view, r.control⟩ :: x.items
      ptrs := r.control.elim x.ptrs fun b => x.ptrs.copy refCountSize b }
  else x

/-- The move constructors. -/
def moveConstruct (x : IpcSharedPtrs) (r : IpcSharedPtr) (view : PtrView) : IpcSharedPtrs :=
  if .idle r ∈ x.items then
    { x with
      items := Bag.replace x.items (.idle r)
        [.idle ⟨view.type, x.viewed r view, r.control⟩, .idle (.null r.type)] }
  else x

/-- The end of `~ipc_shared_ptr`. -/
def destroy (x : IpcSharedPtrs) (h : IpcSharedPtr) : IpcSharedPtrs :=
  if h.control = none then { x with items := x.items.erase (.idle h) } else x

/-- The rest of a copy assignment: its target is a null instance by now, and becomes the
converted copy. -/
def copyAssign (x : IpcSharedPtrs) (l r : IpcSharedPtr) (cast : Nat → Nat) : IpcSharedPtrs :=
  if .idle l ∈ x.items ∧ l.control = none then
    (x.destroy l).copyConstruct r (.converted l.type cast)
  else x

/-- The rest of a move assignment. -/
def moveAssign (x : IpcSharedPtrs) (l r : IpcSharedPtr) (cast : Nat → Nat) : IpcSharedPtrs :=
  if .idle l ∈ x.items ∧ l.control = none then
    (x.destroy l).moveConstruct r (.converted l.type cast)
  else x

/-- `fetch_sub` would return 1. -/
def wasLast (x : IpcSharedPtrs) (b : Nat) : Bool := (x.ptrs.blocks b).any fun k => k.refCount = 1

/-- `reset`, up to the decrement. -/
def reset (x : IpcSharedPtrs) (thread : Nat) (h : IpcSharedPtr) : IpcSharedPtrs :=
  match h.control with
  | none => x
  | some b =>
    if .idle h ∈ x.items then
      { x with
        items := Bag.replace x.items (.idle h)
          (.idle (.null h.type) :: if x.wasLast b then [.closing thread h] else [])
        ptrs := x.ptrs.drop refCountSize b }
    else x

/-- The last instance deletes the control block. -/
def deleteControl (x : IpcSharedPtrs) (thread : Nat) (h : IpcSharedPtr) (b : Nat) : IpcSharedPtrs :=
  { x with items := x.items.erase (.closing thread h), ptrs := x.ptrs.delete b }

/-- `decrement_borrowed_publisher_num`, when the counter is not zero. -/
def decrementBorrowed (x : IpcSharedPtrs) (thread : Nat) : IpcSharedPtrs :=
  { x with
    borrowedPublisherNum := Function.update x.borrowedPublisherNum thread
      (x.borrowedPublisherNum thread - 1) }

/-- The rest of `reset` for the last instance. -/
def closeLast (x : IpcSharedPtrs) (thread : Nat) (h : IpcSharedPtr) (b : Nat) (ref : MessageRef) :
    Option HandleReply × IpcSharedPtrs :=
  -- a received message: its reference is released
  if ref.entryId ≠ entryIdNotAssigned then
    (some (.closed b (some (.reference ref))), x.deleteControl thread h b)
  -- a loan that was not published
  else if x.valid b then
    if x.borrowedPublisherNum thread = 0 then (some .exceeded, { x with terminated := true })
    else if h.type = .void then
      (some (.typeErasedDropped b), { x.decrementBorrowed thread with terminated := true })
    else
      (some (.closed b (some (.message h.ptr h.type))),
        (x.decrementBorrowed thread).deleteControl thread h b)
  else (some (.closed b none), x.deleteControl thread h b)

/-- `publish` and `cancel_message`, up to `invalidate_all_references`. -/
def withdraw (x : IpcSharedPtrs) (thread : Nat) (how : Withdrawal) (topicName : Name)
    (h : IpcSharedPtr) : Option HandleReply × IpcSharedPtrs :=
  match h.control with
  -- an invalid message ends the process
  | none => (some .invalidMessage, { x with terminated := true })
  | some b =>
    if x.get h = none ∨ x.getTopicName h ≠ some topicName then
      (some .invalidMessage, { x with terminated := true })
    else
      (some (.withdrawn b),
        { x with
          items := Bag.replace x.items (.idle h) [.withdrawing thread how h]
          valid := Function.update x.valid b false })

/-- The rest of `publish` and `cancel_message`; the last thing they do is `message.reset()`. -/
def finishWithdrawal (x : IpcSharedPtrs) (thread : Nat) (how : Withdrawal) (h : IpcSharedPtr)
    (b : Nat) : Option HandleReply × IpcSharedPtrs :=
  if x.borrowedPublisherNum thread = 0 then (some .exceeded, { x with terminated := true })
  else
    (some (Withdrawal.reply b h.ptr how),
      ({ x.decrementBorrowed thread with
        items := Bag.replace x.items (.withdrawing thread how h) [.idle h] }).reset thread h)

/-- A step of the process; what it has not got it cannot use. -/
def act (x : IpcSharedPtrs) : HandleInput → Option HandleReply × IpcSharedPtrs
  | .defaultConstruct type => (none, { x with items := .idle (.null type) :: x.items })
  | .borrow thread topicName pubsubId addr type =>
    (none, x.borrow thread topicName pubsubId addr type)
  | .receive type ptr topicName pubsubId entryId =>
    (none, x.receive type ptr topicName pubsubId entryId)
  | .copyConstruct r view => (none, x.copyConstruct r view)
  | .moveConstruct r view => (none, x.moveConstruct r view)
  | .copyAssign l r cast => (none, x.copyAssign l r cast)
  | .moveAssign l r cast => (none, x.moveAssign l r cast)
  | .reset thread h => (none, x.reset thread h)
  | .closeLast thread h =>
    if .closing thread h ∈ x.items then
      match h.control, h.control.bind x.ptrs.valueOf with
      | some b, some ref => x.closeLast thread h b ref
      | _, _ => (none, x)
    else (none, x)
  | .destroy h => (none, x.destroy h)
  | .withdraw thread how topicName h =>
    if .idle h ∈ x.items then x.withdraw thread how topicName h else (none, x)
  | .finishWithdrawal thread how h =>
    if .withdrawing thread how h ∈ x.items then
      match h.control with
      | some b => x.finishWithdrawal thread how h b
      | none => (none, x)
    else (none, x)

def step (x : IpcSharedPtrs) (i : HandleInput) : Option HandleReply × IpcSharedPtrs :=
  if x.terminated then (none, x) else x.act i

end IpcSharedPtrs

/-- A process without instances. -/
def ipcSharedPtrs : Transition.System IpcSharedPtrs HandleInput (Option HandleReply) where
  init x := x.items = [] ∧ x.ptrs = .empty ∧ (∀ b, x.origins b = none) ∧
    (∀ t, x.borrowedPublisherNum t = 0) ∧ x.terminated = false
  step := IpcSharedPtrs.step

abbrev HandleEvent := Transition.Event IpcSharedPtrs HandleInput (Option HandleReply)

/-! ## What is said about runs -/

namespace IpcSharedPtrs

/-- The number of live instances that hold the control block. -/
def holders (x : IpcSharedPtrs) (b : Nat) : Nat := x.items.countP fun item => item.holds = some b

/-- The control block was made, no instance holds it, and the `reset` of the last one is over. -/
def Gone (x : IpcSharedPtrs) (b : Nat) : Prop :=
  (x.origins b).isSome ∧ x.holders b = 0 ∧ ∀ item ∈ x.items, item.leaves ≠ some b

/-- The message was borrowed on the thread. -/
def isLoanOf (x : IpcSharedPtrs) (thread b : Nat) : Bool :=
  match x.origins b with
  | some (.loan t _ _) => t = thread
  | _ => false

end IpcSharedPtrs

/-- What a deletion of the control block freed besides it. -/
def HandleReply.freed (b : Nat) : HandleReply → Option (Option Freed)
  | .closed b' freed => if b' = b then some freed else none
  | _ => none

/-- The deletions of the control block. -/
def closings (b : Nat) (tr : List HandleEvent) : List (Option Freed) :=
  tr.filterMap fun ev => ev.output.bind (HandleReply.freed b)

/-- The message was published or cancelled. -/
def Withdrawn (tr : List HandleEvent) (b : Nat) : Prop := ∃ ev ∈ tr, ev.output = some (.withdrawn b)

/-- The handle protocol: the counter is right, the control block is deleted once, with the
last instance, and what else that frees is the reference of a received message, the memory of
a loan that was not withdrawn, and nothing of one that was. -/
structure HandleProtocol (tr : List HandleEvent) (x : IpcSharedPtrs) : Prop where
  counted : ∀ b k, x.ptrs.blocks b = some k → k.refCount = x.holders b
  kept : ∀ b, (x.origins b).isSome → ¬ x.Gone b → (x.ptrs.blocks b).isSome ∧ closings b tr = []
  deleted : ∀ b, x.Gone b → x.ptrs.blocks b = none
  returned : ∀ b ref, x.origins b = some (.received ref) → x.Gone b →
    closings b tr = [some (.reference ref)]
  freed : ∀ b thread addr type, x.origins b = some (.loan thread addr type) → x.Gone b →
    ¬ Withdrawn tr b → closings b tr = [some (.message (some addr) type)]
  withdrawn : ∀ b thread addr type, x.origins b = some (.loan thread addr type) → x.Gone b →
    Withdrawn tr b → closings b tr = [none]
  invalidated : ∀ b h, Withdrawn tr b → h.control = some b → x.get h = none

/-- The loan whose accounts a step closes. -/
def HandleReply.settles : HandleReply → Option Nat
  | .published b _ => some b
  | .cancelled b _ => some b
  | .closed b _ => some b
  | _ => none

/-- What was published, cancelled or dropped. -/
def settled (tr : List HandleEvent) : List Nat :=
  tr.filterMap fun ev => ev.output.bind HandleReply.settles

/-- The number of loans that were borrowed on the thread and not yet published, cancelled or
dropped. -/
def outstanding (tr : List HandleEvent) (x : IpcSharedPtrs) (thread : Nat) : Nat :=
  (List.range x.ptrs.next).countP fun b => x.isLoanOf thread b && decide (b ∉ settled tr)

/-- The loan accounting: each thread counts its own loans, and no thread finds zero. -/
structure LoansAccounted (tr : List HandleEvent) (x : IpcSharedPtrs) : Prop where
  count : x.terminated = false → ∀ thread, x.borrowedPublisherNum thread = outstanding tr x thread
  neverExceeded : ∀ ev ∈ tr, ev.output ≠ some .exceeded
  returnsToZero : x.terminated = false →
    (∀ thread b, x.isLoanOf thread b = true → b ∈ settled tr) →
      ∀ thread, x.borrowedPublisherNum thread = 0

/-! ## Under which conditions -/

/-- The counter of a control block does not run over. -/
def CopiesFit (x : IpcSharedPtrs) : HandleInput → Prop
  | .copyConstruct r _ => ∀ b, r.control = some b → x.holders b + 1 < refCountSize
  | .copyAssign _ r _ => ∀ b, r.control = some b → x.holders b + 1 < refCountSize
  | _ => True

/-- The last instance of a loan that is neither published nor cancelled has the pointer and the
type that were borrowed; one to `void` ends the process. -/
def LastIsOriginal (x : IpcSharedPtrs) : HandleInput → Prop
  | .closeLast _ h => ∀ b thread addr type, h.control = some b →
      x.origins b = some (.loan thread addr type) → x.valid b = true →
        h.type = .void ∨ h.ptr = some addr ∧ h.type = type
  | _ => True

/-- What is published or cancelled is a loan of the thread that does it, a loan that is neither
is dropped last on its thread, and the thread's counter does not run over. -/
def OnItsThread (x : IpcSharedPtrs) : HandleInput → Prop
  | .borrow thread _ _ _ _ => x.borrowedPublisherNum thread + 1 < refCountSize
  | .withdraw thread _ topicName h => x.get h ≠ none → x.getTopicName h = some topicName →
      ∀ b, h.control = some b → x.isLoanOf thread b = true
  | .closeLast thread h => ∀ b lender addr type, h.control = some b →
      x.origins b = some (.loan lender addr type) → x.valid b = true → lender = thread
  | _ => True

end Agnocast
