import Mathlib.Data.List.Perm.Basic
import Agnocast.Lib.Bytes
import Agnocast.Lib.Transition

/-!
# The heaphook — the allocator of the shared memory

`TLSFAllocator` of `tlsf.rs`: a wrapper around `rlsf::Tlsf` that aligns the pointers it
hands out by itself. It asks for room for a header word, the data and the padding, hands
out an aligned address behind the header, and keeps the block's address in the header, from
where `reallocate` and `deallocate` read it back.

* `Layout`         — `std::alloc::Layout`, valid by construction.
* `Rlsf`           — the external allocator: three calls on a state and the memory.
* `allocate`, `reallocate`, `deallocate` — the wrapper. `usize` arithmetic is checked:
  `none` is an overflow (which panics or wraps), and a call that fails answers `some`.
* `heaphook`       — the wrapper and its users as a transition system.

The wrapper is called under one mutex (and reads the header of a pointer that only its
caller owns before it locks), so a call is one step.
-/

namespace Agnocast

open Bytes

/-! ## Machine arithmetic and layouts -/

/-- Number of `usize` values. -/
def usizeSize : Nat := 2 ^ 64

/-- `a + b` on `usize`. -/
def checkedAdd (a b : Nat) : Option Nat := if a + b < usizeSize then some (a + b) else none

/-- `a - b` on `usize`. -/
def checkedSub (a b : Nat) : Option Nat := if b ≤ a then some (a - b) else none

/-- `!a` on `usize`. -/
def usizeNot (a : Nat) : Nat := usizeSize - 1 - a

/-- `POINTER_SIZE`. -/
def pointerSize : Nat := 8

/-- `POINTER_ALIGN`. -/
def pointerAlign : Nat := 8

/-- `LAYOUT_ALIGN`. -/
def layoutAlign : Nat := 1

/-- `std::alloc::Layout`: the alignment is a power of two, and the size rounded up to it
does not exceed `isize::MAX`. -/
structure Layout where
  size : Nat
  align : Nat
  align_pow : ∃ k, align = 2 ^ k
  size_le : size + align ≤ 2 ^ 63

/-- `Layout::from_size_align` for the alignment that the wrapper asks for. -/
def innerLayout (size : Nat) : Option Layout :=
  if h : size + layoutAlign ≤ 2 ^ 63 then some ⟨size, layoutAlign, ⟨0, rfl⟩, h⟩ else none

/-! ## The external allocator -/

/-- A range of addresses. -/
structure Block where
  addr : Nat
  size : Nat
  deriving DecidableEq

/-- The first address behind a block. -/
def Block.stop (b : Block) : Nat := b.addr + b.size

/-- Two blocks share no address. -/
def Block.Apart (b c : Block) : Prop := b.stop ≤ c.addr ∨ c.stop ≤ b.addr

/-- `AgnocastSharedMemory`: the bounds of the mapped pool. -/
structure AgnocastSharedMemory where
  start : Nat
  stop : Nat
  le : start ≤ stop
  usize : stop < usizeSize

/-- What the wrapper calls of `rlsf::Tlsf`. A call sees and changes the allocator's own
state and the memory. `insertFreeBlock` is `Tlsf::new` with the pool inserted. -/
structure Rlsf where
  State : Type
  insertFreeBlock : Memory → State × Memory
  allocate : Layout → State → Memory → Option Nat × State × Memory
  reallocate : Nat → Layout → State → Memory → Option Nat × State × Memory
  deallocate : Nat → Nat → State → Memory → State × Memory

/-- Every live block has kept its bytes. -/
def KeepsBlocks (blocks : List Block) (m m' : Memory) : Prop :=
  ∀ b ∈ blocks, Agrees b.addr b.size m m'

/-- What the wrapper relies on. `Valid blocks t m` says that `t` and its metadata in `m` are
those of an allocator whose live blocks are `blocks`, each with the size that was asked. -/
structure Rlsf.Lawful (r : Rlsf) (shm : AgnocastSharedMemory)
    (Valid : List Block → r.State → Memory → Prop) : Prop where
  insert : ∀ m, Valid [] (r.insertFreeBlock m).1 (r.insertFreeBlock m).2
  order : ∀ {bs bs' t m}, bs.Perm bs' → Valid bs t m → Valid bs' t m
  apart : ∀ {bs t m}, Valid bs t m → bs.Pairwise Block.Apart
  inside : ∀ {bs t m}, Valid bs t m → ∀ b ∈ bs, shm.start ≤ b.addr ∧ b.stop ≤ shm.stop
  /-- Whoever owns a live block may write to it. -/
  written : ∀ {bs t m m'}, Valid bs t m →
    (∀ x, (∀ b ∈ bs, ¬ (b.addr ≤ x ∧ x < b.stop)) → m' x = m x) → Valid bs t m'
  allocated : ∀ {bs t m layout o t' m'}, Valid bs t m →
    r.allocate layout t m = (some o, t', m') →
    Valid (⟨o, layout.size⟩ :: bs) t' m' ∧ o % layout.align = 0 ∧ KeepsBlocks bs m m'
  not_allocated : ∀ {bs t m layout t' m'}, Valid bs t m →
    r.allocate layout t m = (none, t', m') → Valid bs t' m' ∧ KeepsBlocks bs m m'
  /-- The block may move; the bytes that fit into the new one move along. -/
  reallocated : ∀ {b bs t m layout o t' m'}, Valid (b :: bs) t m →
    r.reallocate b.addr layout t m = (some o, t', m') →
    Valid (⟨o, layout.size⟩ :: bs) t' m' ∧ KeepsBlocks bs m m' ∧
      ∀ i < min b.size layout.size, m' (o + i) = m (b.addr + i)
  not_reallocated : ∀ {b bs t m layout t' m'}, Valid (b :: bs) t m →
    r.reallocate b.addr layout t m = (none, t', m') →
    Valid (b :: bs) t' m' ∧ KeepsBlocks (b :: bs) m m'
  deallocated : ∀ {b bs t m}, Valid (b :: bs) t m →
    Valid bs (r.deallocate b.addr layoutAlign t m).1 (r.deallocate b.addr layoutAlign t m).2 ∧
      KeepsBlocks bs m (r.deallocate b.addr layoutAlign t m).2

/-! ## The wrapper -/

/-- `aligned_addr`: the first aligned address behind a header word. -/
def alignedAddr (originalAddr alignment : Nat) : Option Nat := do
  let sum ← checkedAdd originalAddr pointerSize
  let sum ← checkedAdd sum alignment
  let last ← checkedSub sum 1
  some (last &&& usizeNot (alignment - 1))

/-- The word below a user pointer. -/
def originalPtr (mem : Memory) (ptr : Nat) : Option Nat := do
  let header ← checkedSub ptr pointerSize
  some (readLE mem header pointerSize)

/-- Store the original pointer below a user pointer. -/
def storeOriginalPtr (mem : Memory) (ptr original : Nat) : Option Memory := do
  let header ← checkedSub ptr pointerSize
  some (writeLE mem header pointerSize original)

/-- "If the aligned offset changed after relocation, fix user data position": the block was
copied as a whole, and the data sits at the old offset. -/
def fixDataPosition (mem : Memory) (newOriginal oldOffset newOffset newAligned size : Nat) :
    Option Memory :=
  if oldOffset = newOffset then some mem
  else (checkedAdd newOriginal oldOffset).map fun data => copy mem data newAligned size

/-- What a successful call hands out: the user's pointer, for a layout, in a block. The code
returns the pointer; the rest is what a run remembers. -/
structure Allocation where
  ptr : Nat
  layout : Layout
  block : Block

variable (r : Rlsf)

/-- `TLSFAllocator::allocate`. -/
def allocate (layout : Layout) (tlsf : r.State) (mem : Memory) :
    Option (Option Allocation × r.State × Memory) := do
  let alignment := max layout.align pointerAlign
  let size := layout.size
  -- the header that holds the original address comes before the data
  let sum ← checkedAdd pointerSize size
  let sum ← checkedAdd sum alignment
  match innerLayout sum with
  | none => some (none, tlsf, mem)
  | some inner =>
    match r.allocate inner tlsf mem with
    | (none, tlsf, mem) => some (none, tlsf, mem)
    | (some originalAddr, tlsf, mem) => do
      let alignedPtr ← alignedAddr originalAddr alignment
      let mem ← storeOriginalPtr mem alignedPtr originalAddr
      some (some ⟨alignedPtr, layout, ⟨originalAddr, inner.size⟩⟩, tlsf, mem)

/-- `TLSFAllocator::reallocate`. -/
def reallocate (ptr : Nat) (newLayout : Layout) (tlsf : r.State) (mem : Memory) :
    Option (Option Allocation × r.State × Memory) := do
  let alignment := max newLayout.align pointerAlign
  let size := newLayout.size
  let oldOriginal ← originalPtr mem ptr
  let oldOffset ← checkedSub ptr oldOriginal
  -- room for the header, the data and the alignment, and for the data where it was
  let sum ← checkedAdd pointerSize size
  let sum ← checkedAdd sum alignment
  let source ← checkedAdd oldOffset size
  match innerLayout (max sum source) with
  | none => some (none, tlsf, mem)
  | some inner =>
    match r.reallocate oldOriginal inner tlsf mem with
    | (none, tlsf, mem) => some (none, tlsf, mem)
    | (some newOriginal, tlsf, mem) => do
      let newAligned ← alignedAddr newOriginal alignment
      let newOffset ← checkedSub newAligned newOriginal
      -- the data is moved when its distance to the block has changed
      let mem ← fixDataPosition mem newOriginal oldOffset newOffset newAligned size
      let mem ← storeOriginalPtr mem newAligned newOriginal
      some (some ⟨newAligned, newLayout, ⟨newOriginal, inner.size⟩⟩, tlsf, mem)

/-- `TLSFAllocator::deallocate`. -/
def deallocate (ptr : Nat) (tlsf : r.State) (mem : Memory) : Option (r.State × Memory) := do
  let original ← originalPtr mem ptr
  some (r.deallocate original layoutAlign tlsf mem)

/-! ## The wrapper and its users -/

/-- The allocator, the memory, what the users hold, and whether an arithmetic operation has
overflowed. -/
structure Heap where
  tlsf : r.State
  mem : Memory
  live : List Allocation
  overflowed : Bool

/-- What users do: the three calls, and writing a byte at an offset from a pointer. -/
inductive HeapCall
  | allocate (layout : Layout)
  | reallocate (ptr : Nat) (newLayout : Layout)
  | deallocate (ptr : Nat)
  | write (ptr offset : Nat) (byte : UInt8)

variable {r}

/-- The users drop a pointer. -/
def Heap.forget (s : Heap r) (ptr : Nat) : List Allocation := s.live.filter fun a => a.ptr ≠ ptr

/-- One call; it answers with the pointer that it returns. -/
def Heap.step (s : Heap r) : HeapCall → Option Nat × Heap r
  | .allocate layout =>
    match Agnocast.allocate r layout s.tlsf s.mem with
    | none => (none, { s with overflowed := true })
    | some (none, tlsf, mem) => (none, { s with tlsf, mem })
    | some (some a, tlsf, mem) => (some a.ptr, { s with tlsf, mem, live := a :: s.live })
  | .reallocate ptr newLayout =>
    match Agnocast.reallocate r ptr newLayout s.tlsf s.mem with
    | none => (none, { s with overflowed := true })
    | some (none, tlsf, mem) => (none, { s with tlsf, mem })
    | some (some a, tlsf, mem) => (some a.ptr, { s with tlsf, mem, live := a :: s.forget ptr })
  | .deallocate ptr =>
    match Agnocast.deallocate r ptr s.tlsf s.mem with
    | none => (none, { s with overflowed := true })
    | some (tlsf, mem) => (none, { s with tlsf, mem, live := s.forget ptr })
  | .write ptr offset byte => (none, { s with mem := Function.update s.mem (ptr + offset) byte })

/-- The allocator after `new`, over any contents of the memory. -/
def heaphook (r : Rlsf) : Transition.System (Heap r) HeapCall (Option Nat) where
  init := fun s => ∃ m, s = ⟨(r.insertFreeBlock m).1, (r.insertFreeBlock m).2, [], false⟩
  step := Heap.step

/-- The users keep to the contract: only live pointers are given back, and only bytes of live
regions are written. -/
def Proper (s : Heap r) : HeapCall → Prop
  | .allocate _ => True
  | .reallocate ptr _ => ∃ a ∈ s.live, a.ptr = ptr
  | .deallocate ptr => ∃ a ∈ s.live, a.ptr = ptr
  | .write ptr offset _ => ∃ a ∈ s.live, a.ptr = ptr ∧ offset < a.layout.size

instance (s : Heap r) : (i : HeapCall) → Decidable (Proper s i)
  | .allocate _ => inferInstanceAs (Decidable True)
  | .reallocate ptr _ => inferInstanceAs (Decidable (∃ a ∈ s.live, a.ptr = ptr))
  | .deallocate ptr => inferInstanceAs (Decidable (∃ a ∈ s.live, a.ptr = ptr))
  | .write ptr offset _ =>
    inferInstanceAs (Decidable (∃ a ∈ s.live, a.ptr = ptr ∧ offset < a.layout.size))

end Agnocast
