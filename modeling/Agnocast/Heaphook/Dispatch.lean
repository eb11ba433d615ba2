import Agnocast.Heaphook.Tlsf

/-!
# The heaphook — which allocator a call goes to

The exported `malloc`, `calloc`, `realloc`, `posix_memalign`, `aligned_alloc`, `memalign` and
`free` of `lib.rs`. A new block comes from the shared pool or from the system heap by the state of
the process and the calling thread, and a block that is given back goes by its address.

* `Libc`              — the functions of the system heap, and what they are relied on for.
* `Process`           — a process: the statics of the hook, its private memory, its threads.
* `Process.dispatch`  — what an exported function decides: an answer, a panic, or an `Action`.
* `Process.perform`   — the action, carried out by one of the two allocators.
* `dispatcher`        — the registered process and everything that is forked from it.

A call is two steps, since threads can come in between: `begin` decides (and the caller no longer
owns the pointer it passes), `finish` carries the action out. Each allocator is called under a
lock of its own. A process that panics is gone, since these functions must not unwind. A forked
child has a copy of everything but the pool, which is mapped shared. `init_child_allocator` and
the unsupported `valloc` and `pvalloc` are left out.
-/

namespace Agnocast.Heaphook

open Bytes

/-! ## Calls and the system heap -/

/-- `MIN_ALIGN`. -/
def minAlign : Nat := 16

/-- `EINVAL`. -/
def einval : Nat := 22

/-- `ENOMEM`. -/
def enomem : Nat := 12

/-- `is_power_of_two`. -/
def isPowerOfTwo (a : Nat) : Bool := a = 2 ^ a.log2

/-- `Layout::from_size_align`. -/
def fromSizeAlign (size align : Nat) : Option Layout :=
  if h : align = 2 ^ align.log2 ∧ size + align ≤ 2 ^ 63 then some ⟨size, align, ⟨_, h.1⟩, h.2⟩
  else none

/-- `checked_mul` on `usize`. -/
def checkedMul (a b : Nat) : Option Nat := if a * b < usizeSize then some (a * b) else none

/-- A request for a new block. -/
inductive Request
  | malloc (size : Nat)
  | calloc (num size : Nat)
  | posixMemalign (alignment size : Nat)
  | alignedAlloc (alignment size : Nat)
  | memalign (alignment size : Nat)
  deriving DecidableEq

/-- The bytes that a request asks for. -/
def Request.bytes : Request → Nat
  | .malloc size => size
  | .calloc num size => num * size
  | .posixMemalign _ size => size
  | .alignedAlloc _ size => size
  | .memalign _ size => size

/-- A call of one of the functions. The null pointer is 0. -/
inductive Call
  | request (q : Request)
  | realloc (ptr newSize : Nat)
  | free (ptr : Nat)
  deriving DecidableEq

/-- What a function returns: a pointer (`none` is the null pointer), and the status of
`posix_memalign`. -/
structure Answer where
  ptr : Option Nat
  status : Nat
  deriving DecidableEq

/-- `ptr::null_mut()`. -/
def Answer.null : Answer := ⟨none, 0⟩

/-- The answer of a request from what the shared allocator returns. -/
def Request.answer : Request → Option Nat → Answer
  | .posixMemalign _ _, none => ⟨none, enomem⟩
  | _, ptr => ⟨ptr, 0⟩

/-- The original functions of the system heap, on its own state and the private memory. -/
structure Libc where
  State : Type
  request : Request → State → Memory → Answer × State × Memory
  realloc : Nat → Nat → State → Memory → Option Nat × State × Memory
  free : Nat → State → Memory → State × Memory

/-- What the hook relies on. `Valid blocks t m` says that `blocks` are the live blocks of the
system heap. It never hands out an address of the pool. -/
structure Libc.Lawful (l : Libc) (shm : AgnocastSharedMemory)
    (Valid : List Block → l.State → Memory → Prop) : Prop where
  order : ∀ {bs bs' t m}, bs.Perm bs' → Valid bs t m → Valid bs' t m
  distinct : ∀ {bs t m}, Valid bs t m → bs.Pairwise fun b c => b.addr ≠ c.addr
  outside : ∀ {bs t m}, Valid bs t m →
    ∀ b ∈ bs, b.addr ≠ 0 ∧ ¬ (shm.start ≤ b.addr ∧ b.addr < shm.stop)
  /-- Whoever owns a live block may write to it. -/
  written : ∀ {bs t m m'}, Valid bs t m →
    (∀ x, (∀ b ∈ bs, ¬ (b.addr ≤ x ∧ x < b.stop)) → m' x = m x) → Valid bs t m'
  allocated : ∀ {bs t m q a t' m' o}, Valid bs t m → l.request q t m = (a, t', m') →
    a.ptr = some o → Valid (⟨o, q.bytes⟩ :: bs) t' m'
  not_allocated : ∀ {bs t m q a t' m'}, Valid bs t m → l.request q t m = (a, t', m') →
    a.ptr = none → Valid bs t' m'
  /-- The block may move; the bytes that fit into the new one move along. -/
  reallocated : ∀ {b bs t m size o t' m'}, Valid (b :: bs) t m →
    l.realloc b.addr size t m = (some o, t', m') →
    Valid (⟨o, size⟩ :: bs) t' m' ∧ ∀ i < min b.size size, m' (o + i) = m (b.addr + i)
  /-- A new size of zero frees the block; else a failure leaves it. -/
  not_reallocated : ∀ {b bs t m size t' m'}, Valid (b :: bs) t m →
    l.realloc b.addr size t m = (none, t', m') →
    if size = 0 then Valid bs t' m' else Valid (b :: bs) t' m' ∧ Agrees b.addr b.size m m'
  freed : ∀ {b bs t m}, Valid (b :: bs) t m →
    Valid bs (l.free b.addr t m).1 (l.free b.addr t m).2

/-! ## Processes -/

/-- One of the two allocators. -/
inductive Allocator
  | shared
  | system
  deriving DecidableEq

/-- Where a block that was handed out comes from. -/
inductive Origin
  | shared (a : Allocation)
  | system (b : Block)

/-- A block that was handed out, with a number of its own. -/
structure Held where
  id : Nat
  origin : Origin

namespace Held

def ptr (h : Held) : Nat :=
  match h.origin with
  | .shared a => a.ptr
  | .system b => b.addr

def size (h : Held) : Nat :=
  match h.origin with
  | .shared a => a.layout.size
  | .system b => b.size

/-- The allocator that produced it. -/
def producer (h : Held) : Allocator :=
  match h.origin with
  | .shared _ => .shared
  | .system _ => .system

end Held

/-- What an exported function does after it has decided. -/
inductive Action
  | original (c : Call)
  | allocate (q : Request) (layout : Layout)
  | reallocate (ptr : Nat) (newLayout : Layout)
  | deallocate (ptr : Nat)

/-- What an exported function decides. -/
inductive Decision
  | answer (a : Answer)
  | panic
  | perform (a : Action)

/-- A call under way, with the block that its caller passed. -/
structure Pending where
  action : Action
  held : Option Held

/-- A process. `sharedMemory` and `allocator` are the `OnceLock` statics, `borrowed` the count of
each thread. The rest is what a run remembers: the blocks its code owns, those that calls of other
threads had in hand when it was forked, what was handed to which allocator, and what was
released. -/
structure Process (r : Rlsf) (l : Libc) where
  isForkedChild : Bool
  atfork : Bool
  sharedMemory : Option AgnocastSharedMemory
  allocator : Option r.State
  libc : l.State
  heap : Memory
  borrowed : Nat → Nat
  pending : List Pending
  owned : List Held
  leaked : List Held
  nextId : Nat
  handed : List (Held × Allocator)
  released : List Held

namespace Process

variable {r : Rlsf} {l : Libc} (p : Process r l)

/-! ## What a call decides -/

/-- `is_shared`. -/
def isShared (ptr : Nat) : Bool :=
  match p.sharedMemory with
  | some shm => shm.start ≤ ptr ∧ ptr < shm.stop
  | none => false

/-- `should_use_heap`, in a thread with this count. -/
def shouldUseHeap (borrowed : Nat) : Bool := p.isForkedChild || borrowed = 0

/-- `AGNOCAST_SHARED_MEMORY_ALLOCATOR.get().unwrap()`, and then this. -/
def unwrapAllocator (a : Action) : Decision :=
  if p.allocator.isSome then .perform a else .panic

/-- A request of a layout, or the answer when there is none. -/
def allocateLayout (q : Request) (layout : Option Layout) (failure : Answer) : Decision :=
  match layout with
  | none => .answer failure
  | some layout => p.unwrapAllocator (.allocate q layout)

variable (borrowed : Nat)

def malloc (size : Nat) : Decision :=
  if p.shouldUseHeap borrowed then .perform (.original (.request (.malloc size)))
  else p.allocateLayout (.malloc size) (fromSizeAlign size minAlign) .null

def free (ptr : Nat) : Decision :=
  if ptr = 0 then .answer .null
  else if !p.isShared ptr then .perform (.original (.free ptr))
  -- unexpected calls are ignored
  else if p.isForkedChild then .answer .null
  else p.unwrapAllocator (.deallocate ptr)

def calloc (num size : Nat) : Decision :=
  if p.shouldUseHeap borrowed then .perform (.original (.request (.calloc num size)))
  else match checkedMul num size with
    | none => .answer .null
    | some bytes => p.allocateLayout (.calloc num size) (fromSizeAlign bytes minAlign) .null

def realloc (ptr newSize : Nat) : Decision :=
  if ptr = 0 then p.malloc borrowed newSize
  else if !p.isShared ptr then .perform (.original (.realloc ptr newSize))
  -- unexpected calls are ignored
  else if p.shouldUseHeap borrowed then .answer .null
  else match fromSizeAlign newSize minAlign with
    | none => .answer .null
    | some newLayout => p.unwrapAllocator (.reallocate ptr newLayout)

def posixMemalign (alignment size : Nat) : Decision :=
  if p.shouldUseHeap borrowed then .perform (.original (.request (.posixMemalign alignment size)))
  else if !isPowerOfTwo alignment ∨ alignment &&& (pointerSize - 1) ≠ 0 then .answer ⟨none, einval⟩
  else p.allocateLayout (.posixMemalign alignment size) (fromSizeAlign size alignment)
    ⟨none, enomem⟩

def alignedAlloc (alignment size : Nat) : Decision :=
  if p.shouldUseHeap borrowed then .perform (.original (.request (.alignedAlloc alignment size)))
  else if !isPowerOfTwo alignment ∨ size &&& (alignment - 1) ≠ 0 then .answer .null
  else p.allocateLayout (.alignedAlloc alignment size)
    (fromSizeAlign size (max alignment minAlign)) .null

def memalign (alignment size : Nat) : Decision :=
  if p.shouldUseHeap borrowed then .perform (.original (.request (.memalign alignment size)))
  else p.allocateLayout (.memalign alignment size) (fromSizeAlign size alignment) .null

/-- The exported function that is called. -/
def dispatch : Call → Decision
  | .request (.malloc size) => p.malloc borrowed size
  | .request (.calloc num size) => p.calloc borrowed num size
  | .request (.posixMemalign alignment size) => p.posixMemalign borrowed alignment size
  | .request (.alignedAlloc alignment size) => p.alignedAlloc borrowed alignment size
  | .request (.memalign alignment size) => p.memalign borrowed alignment size
  | .realloc ptr newSize => p.realloc borrowed ptr newSize
  | .free ptr => p.free ptr

/-! ## Carrying it out -/

/-- A block is handed out. -/
def keep (origin : Origin) : Process r l :=
  { p with owned := ⟨p.nextId, origin⟩ :: p.owned, nextId := p.nextId + 1 }

/-- The caller still owns the block it passed. -/
def giveBack (held : Option Held) : Process r l := { p with owned := held.toList ++ p.owned }

/-- The block that the caller passed is handed to an allocator. -/
def handTo (held : Option Held) (a : Allocator) : Process r l :=
  { p with handed := held.toList.map (fun h => (h, a)) ++ p.handed }

/-- The block that the caller passed is released. -/
def release (held : Option Held) : Process r l :=
  { p with released := held.toList ++ p.released }

def setLibc (t : l.State) (m : Memory) : Process r l := { p with libc := t, heap := m }

def setAllocator (t : r.State) : Process r l := { p with allocator := some t }

/-- `ptr::write_bytes(ptr, 0, size)`. -/
def writeZeros (m : Memory) (ptr size : Nat) : Memory :=
  fun x => if ptr ≤ x ∧ x < ptr + size then 0 else m x

/-- What a request does with its new block of the pool. -/
def fill (q : Request) (a : Allocation) (m : Memory) : Memory :=
  match q with
  | .calloc _ _ => writeZeros m a.ptr a.layout.size
  | _ => m

/-- The action of a call, with the block that its caller passed: what is returned, the process
and the pool. `none` is a panic. -/
def perform (pool : Memory) (held : Option Held) :
    Action → Option (Answer × Process r l × Memory)
  | .original (.request q) =>
    match l.request q p.libc p.heap with
    | (answer, t, m) =>
      match answer.ptr with
      | none => some (answer, p.setLibc t m, pool)
      | some o => some (answer, (p.setLibc t m).keep (.system ⟨o, q.bytes⟩), pool)
  | .original (.realloc ptr newSize) =>
    match l.realloc ptr newSize p.libc p.heap with
    | (none, t, m) =>
      -- a `realloc` to nothing frees
      if newSize = 0 then some (.null, ((p.setLibc t m).handTo held .system).release held, pool)
      else some (.null, ((p.setLibc t m).handTo held .system).giveBack held, pool)
    | (some o, t, m) => some (⟨some o, 0⟩,
        (((p.setLibc t m).handTo held .system).release held).keep (.system ⟨o, newSize⟩), pool)
  | .original (.free ptr) =>
    match l.free ptr p.libc p.heap with
    | (t, m) => some (.null, ((p.setLibc t m).handTo held .system).release held, pool)
  | .allocate q layout => do
    match ← Agnocast.allocate r layout (← p.allocator) pool with
    | (none, t, m) => some (q.answer none, p.setAllocator t, m)
    | (some a, t, m) =>
      some (q.answer (some a.ptr), (p.setAllocator t).keep (.shared a), fill q a m)
  | .reallocate ptr newLayout => do
    match ← Agnocast.reallocate r ptr newLayout (← p.allocator) pool with
    | (none, t, m) =>
      some (.null, ((p.setAllocator t).handTo held .shared).giveBack held, m)
    | (some a, t, m) => some (⟨some a.ptr, 0⟩,
        (((p.setAllocator t).handTo held .shared).release held).keep (.shared a), m)
  | .deallocate ptr => do
    match ← Agnocast.deallocate r ptr (← p.allocator) pool with
    | (t, m) => some (.null, ((p.setAllocator t).handTo held .shared).release held, m)

/-! ## Steps of a process -/

/-- The block with this pointer that the process owns. -/
def find (ptr : Nat) : Option Held := p.owned.find? fun h => h.ptr = ptr

/-- The block with this pointer is no longer the caller's. -/
def drop (ptr : Nat) : Process r l := { p with owned := p.owned.eraseP fun h => h.ptr = ptr }

/-- The pointer that a call passes. -/
def given : Call → Option Nat
  | .request _ => none
  | .realloc ptr _ => some ptr
  | .free ptr => some ptr

/-- A call that is answered at once: `free` has its pointer, a failed `realloc` has not. -/
def answered : Call → Process r l
  | .free ptr => p.drop ptr
  | _ => p

/-- A call that is under way with the block its caller passed. -/
def start (c : Call) (a : Action) : Process r l :=
  match given c with
  | none => { p with pending := p.pending ++ [⟨a, none⟩] }
  | some ptr => { p.drop ptr with pending := p.pending ++ [⟨a, p.find ptr⟩] }

/-- The child after `fork`: it has the calling thread only, and the handler has run. -/
def forked : Process r l :=
  { p with
    isForkedChild := p.isForkedChild || p.atfork
    pending := []
    leaked := p.pending.filterMap Pending.held ++ p.leaked
    handed := []
    released := [] }

end Process

/-! ## The registered process and its children -/

/-- The pool, and the processes. The registered process is 0. -/
structure State (r : Rlsf) (l : Libc) where
  pool : Memory
  procs : Nat → Option (Process r l)

/-- What happens. `startMain` is the next piece of `__libc_start_main` in the registered
process. -/
inductive Input
  | startMain
  | borrow (pid thread count : Nat)
  | begin (pid thread : Nat) (c : Call)
  | finish (pid k : Nat)
  | write (pid ptr offset : Nat) (byte : UInt8)
  | fork (pid child : Nat)

namespace State

variable {r : Rlsf} {l : Libc} (shm : AgnocastSharedMemory) (s : State r l)

def set (pid : Nat) (p : Process r l) : State r l :=
  { s with procs := Function.update s.procs pid (some p) }

/-- The process is gone. -/
def kill (pid : Nat) : State r l := { s with procs := Function.update s.procs pid none }

/-- `AgnocastSharedMemory::new()` registers the handler and maps the pool; then the statics are
set, the allocator with the pool inserted. -/
def startMain : State r l :=
  match s.procs 0 with
  | none => s
  | some p =>
    if !p.atfork then s.set 0 { p with atfork := true }
    else if p.sharedMemory.isNone then s.set 0 { p with sharedMemory := some shm }
    else if p.allocator.isNone then
      { s with pool := (r.insertFreeBlock s.pool).2 }.set 0
        (p.setAllocator (r.insertFreeBlock s.pool).1)
    else s

def begin (pid thread : Nat) (c : Call) : Option Answer × State r l :=
  match s.procs pid with
  | none => (none, s)
  | some p =>
    match p.dispatch (p.borrowed thread) c with
    | .answer a => (some a, s.set pid (p.answered c))
    | .panic => (none, s.kill pid)
    | .perform a => (none, s.set pid (p.start c a))

def finish (pid k : Nat) : Option Answer × State r l :=
  match s.procs pid with
  | none => (none, s)
  | some p =>
    match p.pending[k]? with
    | none => (none, s)
    | some c =>
      match { p with pending := p.pending.eraseIdx k }.perform s.pool c.held c.action with
      | none => (none, s.kill pid)
      | some (answer, p, pool) => (some answer, { s with pool := pool }.set pid p)

/-- A byte is written to an owned block. -/
def write (pid ptr offset : Nat) (byte : UInt8) : State r l :=
  match s.procs pid with
  | none => s
  | some p =>
    match (p.find ptr).map Held.producer with
    | none => s
    | some .shared => { s with pool := Function.update s.pool (ptr + offset) byte }
    | some .system => s.set pid { p with heap := Function.update p.heap (ptr + offset) byte }

def fork (pid child : Nat) : State r l :=
  match s.procs pid with
  | none => s
  | some p => if child = 0 ∨ (s.procs child).isSome then s else s.set child p.forked

def step (s : State r l) : Input → Option Answer × State r l
  | .startMain => (none, s.startMain shm)
  | .borrow pid thread count =>
    match s.procs pid with
    | none => (none, s)
    | some p => (none, s.set pid { p with borrowed := Function.update p.borrowed thread count })
  | .begin pid thread c => s.begin pid thread c
  | .finish pid k => s.finish pid k
  | .write pid ptr offset byte => (none, s.write pid ptr offset byte)
  | .fork pid child => (none, s.fork pid child)

/-- The callers keep to the contract: what they give back is null or a block they own, and they
write to blocks they own; a forked child does not write to the pool. -/
def permits (s : State r l) : Input → Bool
  | .begin pid _ c =>
    (s.procs pid).all fun p => (Process.given c).all fun ptr => ptr = 0 ∨ (p.find ptr).isSome
  | .write pid ptr offset _ =>
    (s.procs pid).all fun p => (p.find ptr).any fun h =>
      offset < h.size ∧ (p.isForkedChild → h.producer = .system)
  | _ => true

end State

/-- The hook in the registered process before `__libc_start_main`, and all that comes. -/
def dispatcher (r : Rlsf) (l : Libc) (shm : AgnocastSharedMemory)
    (Valid : List Block → l.State → Memory → Prop) :
    Transition.System (State r l) Input (Option Answer) where
  init := fun s => ∃ t pool heap, Valid [] t heap ∧
    s = ⟨pool, Function.update (fun _ => none) 0 (some
      { isForkedChild := false, atfork := false, sharedMemory := none, allocator := none, libc := t,
        heap := heap, borrowed := fun _ => 0, pending := [], owned := [], leaked := [], nextId := 0,
        handed := [], released := [] })⟩
  step := State.step shm

/-- The contract of the callers, as a guard on steps. -/
def Permits {r : Rlsf} {l : Libc} (s : State r l) (i : Input) : Prop := s.permits i = true

end Agnocast.Heaphook
