import Agnocast.Lib.SharedPtr
import Agnocast.Store.References
import Agnocast.Process.ExitCleanup

/-!
# The client library — handles of a TakeSubscription

The kernel keeps one bit for a subscriber and an entry. The library hands out
`ipc_shared_ptr`s, and whichever instance is the last of its control block clears the bit.
Nothing ties the two together but the cache of the last `take(true)`: a control block that
is built for an entry while another one of it still exists shares its bit.

`Taker` is the process of one subscription over the kernel module. A take is two steps,
the ioctl and the return from `take`, and a `reset` that finds itself the last is two
steps, the decrement and the release ioctl; between them any other thread, and any other
process, can act.

* `handles_safe`          — as long as no second control block is built for an entry, and no
  entry is released under a take that returns it, every live instance has its bit.
* `second_block_loses_bit` — `take(false)` and then `take(true)` of one entry: the first
  handle that is dropped clears the bit of the other.
-/

namespace Agnocast

variable {σ : Kmod}

/-! ## The library -/

/-- What `detail::control_block` knows of the message. -/
structure MessageRef where
  topicName : Name
  pubsubId : Int
  entryId : Int
  deriving DecidableEq, Repr

/-- `ENTRY_ID_NOT_ASSIGNED`. -/
def entryIdNotAssigned : Int := -1

/-- The `ref_count` of a control block is a `uint32_t`. -/
def refCountSize : Nat := 2 ^ 32

/-- A `TakeSubscription` and the process it lives in. -/
structure TakeSubscription where
  pid : Pid
  ipcNs : IpcNs
  topicName : Name
  id : Int
  deriving DecidableEq, Repr

/-- A call of `take` for which the ioctl has returned an entry. -/
structure PendingTake where
  allowSameMessage : Bool
  entryId : Int
  deriving DecidableEq, Repr

/-- The process of the subscription over the kernel module. `lastTakenPtr` is one of the
instances of `ptrs`. -/
structure Taker where
  kmod : Kmod
  ptrs : SharedPtrs MessageRef
  lastTakenPtr : Option Nat
  pending : List PendingTake
  terminated : Bool

/-- What can happen next: a call of somebody else, or a step of one of the threads. -/
inductive TakerInput
  | kernel (i : Input)
  | takeIoctl (env : Env) (allowSameMessage : Bool)
  | takeReturn (take : PendingTake)
  | copy (block : Nat)
  | move (block : Nat)
  | drop (block : Nat)
  | release (block : Nat)

namespace Taker

/-- The live instances other than `last_taken_ptr_`, by their control blocks. -/
def handles (x : Taker) : List Nat :=
  match x.lastTakenPtr with
  | none => x.ptrs.instances
  | some b => x.ptrs.instances.erase b

/-- The first half of `TakeSubscription::take`, under `mmap_mtx`. An ioctl that fails ends
the process. -/
def takeIoctl (sub : TakeSubscription) (x : Taker) (env : Env) (allowSameMessage : Bool) : Taker :=
  match takeMsg x.kmod env sub.pid sub.topicName sub.ipcNs sub.id allowSameMessage
    maxPublisherNum with
  | (.error _, σ) => { x with kmod := σ, terminated := true }
  | (.ok (none, _), σ) => { x with kmod := σ }
  | (.ok (some (entryId, addr), _), σ) =>
    -- an address of zero reads as "nothing there"
    if addr = 0 then { x with kmod := σ }
    else { x with kmod := σ, pending := ⟨allowSameMessage, entryId⟩ :: x.pending }

/-- The cached pointer, if it is one to the entry. -/
def cachedFor (x : Taker) (entryId : Int) : Option Nat :=
  x.lastTakenPtr.filter fun b => (x.ptrs.valueOf b).any fun ref => ref.entryId = entryId

/-- The second half. `take(true)` copies the cached pointer if it is one to the entry;
else it caches a copy of the new one, and the old one is dropped on the way out like any
other instance. -/
def takeReturn (sub : TakeSubscription) (x : Taker) (take : PendingTake) : Taker :=
  let built := x.ptrs.make ⟨sub.topicName, sub.id, take.entryId⟩
  let x := { x with pending := x.pending.erase take }
  if take.allowSameMessage then
    match x.cachedFor take.entryId with
    | some b => { x with ptrs := x.ptrs.copy refCountSize b }
    | none =>
      { x with
        ptrs := built.copy refCountSize x.ptrs.next
        lastTakenPtr := some x.ptrs.next }
  else { x with ptrs := built }

/-- The rest of `ipc_shared_ptr::reset` for the last instance:
`release_subscriber_reference` and the deletion of the control block. -/
def release (sub : TakeSubscription) (x : Taker) (block : Nat) :
    Option (Except Errno Unit) × Taker :=
  match x.ptrs.valueOf block with
  | none => (none, x)
  | some ref =>
    if ref.entryId = entryIdNotAssigned then (none, { x with ptrs := x.ptrs.delete block })
    else
      match releaseMessageEntryReference x.kmod sub.pid ref.topicName sub.ipcNs ref.pubsubId
        ref.entryId with
      | (.error e, σ) => (some (.error e), { x with kmod := σ, terminated := true })
      | (.ok (), σ) => (some (.ok ()), { x with kmod := σ, ptrs := x.ptrs.delete block })

/-- A step of the process; what it has not got it cannot use. -/
def act (sub : TakeSubscription) (x : Taker) : TakerInput → Option (Except Errno Unit) × Taker
  | .kernel _ => (none, x)
  | .takeIoctl env allowSameMessage => (none, x.takeIoctl sub env allowSameMessage)
  | .takeReturn take => (none, if take ∈ x.pending then x.takeReturn sub take else x)
  | .copy b => (none, if b ∈ x.handles then { x with ptrs := x.ptrs.copy refCountSize b } else x)
  | .move b =>
    (none,
      if b ∈ x.handles then
        { x with ptrs := { x.ptrs with instances := b :: x.ptrs.instances.erase b } }
      else x)
  | .drop b => (none, if b ∈ x.handles then { x with ptrs := x.ptrs.drop refCountSize b } else x)
  | .release b => if b ∈ x.ptrs.dying then x.release sub b else (none, x)

/-- One step, with what a release ioctl answers. -/
def step (sub : TakeSubscription) (x : Taker) (i : TakerInput) :
    Option (Except Errno Unit) × Taker :=
  match i with
  | .kernel i => (none, { x with kmod := (Agnocast.step x.kmod i).2 })
  | i => if x.terminated then (none, x) else x.act sub i

end Taker

/-- The subscription exists: its process finds the topic, and it is one of the
process's subscribers there. -/
structure TakeSubscription.Stands (sub : TakeSubscription) (w : TopicWrapper) (σ : Kmod) : Prop where
  wrapper : findTopicForCurrent σ sub.pid sub.topicName sub.ipcNs = some w
  process : ∃ p, findProcessInfo σ sub.pid = some p ∧ p.role ≠ .unlinkDaemon
  subscriber : ∃ s ∈ (σ.topicStructs w.topic).subInfoHtable, s.id = sub.id ∧ s.pid = sub.pid ∧
    s.domainId = w.domainId ∧ s.isTakeSub = true

/-- A subscription that has taken nothing yet. -/
def taker (sub : TakeSubscription) :
    Transition.System Taker TakerInput (Option (Except Errno Unit)) where
  init x := Reachable x.kmod ∧ (∃ w, sub.Stands w x.kmod) ∧ x.ptrs = .empty ∧
    x.lastTakenPtr = none ∧ x.pending = [] ∧ x.terminated = false
  step := Taker.step sub

/-- An event of the process. -/
abbrev TakerEvent := Transition.Event Taker TakerInput (Option (Except Errno Unit))

/-! ## What is asked -/

/-- The subscriber's bit is set on the entry. -/
def TakeSubscription.Granted (sub : TakeSubscription) (w : TopicWrapper) (σ : Kmod)
    (entryId : Int) : Prop :=
  ∃ en, References (σ.topicStructs w.topic) sub.id en ∧ en.entryId = entryId

/-- Every live instance refers to an entry whose bit is set, and every release ioctl so
far has succeeded. -/
def HandlesSafe (sub : TakeSubscription) (tr : List TakerEvent) (x : Taker) : Prop :=
  (∀ b ∈ x.ptrs.instances, ∃ ref w, x.ptrs.valueOf b = some ref ∧
    findTopicForCurrent x.kmod sub.pid sub.topicName sub.ipcNs = some w ∧
      sub.Granted w x.kmod ref.entryId) ∧
  ∀ ev ∈ tr, ∀ r, ev.output = some r → r = .ok ()

/-- The subscription stays alive: nobody else removes it or releases its references, and
its process neither exits nor is drained. -/
def StaysAlive (sub : TakeSubscription) (x : Taker) : TakerInput → Prop
  | .kernel i =>
    (∀ w, findTopicForCurrent x.kmod sub.pid sub.topicName sub.ipcNs = some w →
      ¬ Permits x.kmod i.call w.topic (.leave sub.id) ∧
        ∀ entryId, ¬ Permits x.kmod i.call w.topic (.release sub.id entryId)) ∧
    i.call ≠ .processExitCleanup sub.pid ∧
    ∀ ipcNs callerPid, i.call ≠ .commitExitProcess ipcNs sub.pid callerPid
  | _ => True

/-- An entry has one control block: `take` builds none for an entry while another one of
it exists, no entry is released while a `take` is about to return it, and a counter that is
found at one has not run over. -/
def OneBlock (x : Taker) : TakerInput → Prop
  | .takeReturn take =>
    (take.allowSameMessage = true → x.cachedFor take.entryId = none) →
      ∀ b ref, x.ptrs.valueOf b = some ref → ref.entryId ≠ take.entryId
  | .release b => ∀ ref, x.ptrs.valueOf b = some ref → ∀ take ∈ x.pending,
      take.entryId ≠ ref.entryId
  | .drop b => ∀ k, x.ptrs.blocks b = some k → k.refCount = 1 → x.ptrs.instances.count b = 1
  | _ => True

end Agnocast
