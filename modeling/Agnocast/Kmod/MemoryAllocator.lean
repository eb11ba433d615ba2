import Agnocast.Kmod.Basic

/-!
# The kernel module — memory pools

`agnocast_memory_allocator.c`: the pools are laid out once at module load; a pool
is handed to a registering process when no process maps it, every process that
is told of it is recorded in its mapped list, and an exiting process leaves all
lists.
-/

namespace Agnocast

/-- `mempool_size_gb * 1024^3` as computed in `uint64_t`. -/
def mempoolSizeBytes (mempoolSizeGb : Int) : Nat := mempoolSizeGb.toNat * 1024 * 1024 * 1024

/-- `init_memory_allocator`: refuse non-positive parameters and any overflow of
`uint64_t`, then lay the pools out one after another. -/
def initMemoryAllocator (mempoolNum : Int) (mempoolStartAddr : Nat) (mempoolSizeGb : Int)
    (kvcalloc : Bool) : Except Errno MemoryAllocator :=
  let sizeBytes := mempoolSizeBytes mempoolSizeGb
  if mempoolNum ≤ 0 then .error .EINVAL
  else if mempoolSizeGb ≤ 0 then .error .EINVAL
  else if 2 ^ 64 ≤ mempoolNum.toNat * sizeBytes then .error .EINVAL
  else if 2 ^ 64 ≤ mempoolStartAddr + mempoolNum.toNat * sizeBytes then .error .EINVAL
  else if !kvcalloc then .error .ENOMEM
  else .ok
    { mempoolNum := mempoolNum.toNat
      mempoolSizeBytes := sizeBytes
      mempoolEntries := fun i =>
        { addr := mempoolStartAddr + i * sizeBytes, mappedNum := 0, mappedPids := [] } }

namespace MemoryAllocator

/-- Overwrite one pool's record. -/
def setEntry (m : MemoryAllocator) (i : Nat) (e : MempoolEntry) : MemoryAllocator :=
  { m with mempoolEntries := Function.update m.mempoolEntries i e }

@[simp] theorem setEntry_mempoolNum (m : MemoryAllocator) (i : Nat) (e : MempoolEntry) :
    (m.setEntry i e).mempoolNum = m.mempoolNum := rfl
@[simp] theorem setEntry_mempoolSizeBytes (m : MemoryAllocator) (i : Nat)
    (e : MempoolEntry) : (m.setEntry i e).mempoolSizeBytes = m.mempoolSizeBytes := rfl
@[simp] theorem setEntry_self (m : MemoryAllocator) (i : Nat) (e : MempoolEntry) :
    (m.setEntry i e).mempoolEntries i = e := by simp [setEntry]

end MemoryAllocator

/-- `assign_memory`: the first pool that nobody maps, now mapped by `pid`. -/
def assignMemory (kmalloc : Bool) (pid : Pid) (m : MemoryAllocator) :
    Option Nat × MemoryAllocator :=
  if !kmalloc then (none, m)
  else
    match (List.range m.mempoolNum).find? fun i => (m.mempoolEntries i).mappedNum = 0 with
    | none => (none, m)
    | some i =>
      let e := m.mempoolEntries i
      (some i, m.setEntry i { e with mappedNum := 1, mappedPids := pid :: e.mappedPids })

/-- `reference_memory`: record that `pid` maps the pool. -/
def referenceMemory (kmalloc : Bool) (m : MemoryAllocator) (i : Nat) (pid : Pid) :
    Except Errno MemoryAllocator :=
  if !kmalloc then .error .ENOMEM
  else
    let e := m.mempoolEntries i
    if pid ∈ e.mappedPids then .error .EEXIST
    else .ok (m.setEntry i
      { e with mappedNum := e.mappedNum + 1, mappedPids := pid :: e.mappedPids })

/-- One round of the loop of `free_memory`. -/
def MempoolEntry.unmap (pid : Pid) (e : MempoolEntry) : MempoolEntry :=
  if pid ∈ e.mappedPids then
    { e with mappedNum := u32Dec e.mappedNum, mappedPids := e.mappedPids.erase pid }
  else e

/-- `free_memory`: drop `pid` from the mapped list of every pool. -/
def freeMemory (pid : Pid) (m : MemoryAllocator) : MemoryAllocator :=
  { m with mempoolEntries := fun i =>
      if i < m.mempoolNum then (m.mempoolEntries i).unmap pid else m.mempoolEntries i }

end Agnocast
