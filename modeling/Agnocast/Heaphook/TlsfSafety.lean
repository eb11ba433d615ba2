import Agnocast.Heaphook.Tlsf
import Mathlib.Algebra.Order.Ring.Nat
import Mathlib.Data.Nat.Basic

/-!
# The heaphook — the wrapper is an allocator

Given an external allocator that keeps its live blocks apart, inside the pool and intact,
the wrapper hands out aligned regions that do not overlap, each above a header word that
only the wrapper writes and that holds the block's address.

* `Allocation.Placed`    — where an allocation lies in its block, and what its header holds.
* `allocate_spec`, `reallocate_spec` — a call fails and leaves everything, or hands out a
  placed allocation; `reallocate` moves the data along.
* `HeapOk`               — the invariant of every run.
* `allocations_sound`    — what the users see, over every run.
-/

namespace Agnocast

open Bytes

/-! ## Arithmetic -/

theorem checkedAdd_of_lt {a b : Nat} (h : a + b < usizeSize) : checkedAdd a b = some (a + b) :=
  if_pos h

theorem checkedSub_of_le {a b : Nat} (h : b ≤ a) : checkedSub a b = some (a - b) := if_pos h

/-- The alignment that the wrapper works with is a power of two that a user's alignment and
the alignment of a pointer divide. -/
theorem Layout.alignment (layout : Layout) : ∃ k ≤ 63, max layout.align pointerAlign = 2 ^ k ∧
    2 ^ k ≤ layout.align + pointerAlign ∧ layout.align ∣ 2 ^ k := by
  obtain ⟨k, hk⟩ := layout.align_pow
  have hle : 2 ^ k ≤ 2 ^ 63 := by
    have := layout.size_le
    omega
  have hk63 : k ≤ 63 := (Nat.pow_le_pow_iff_right (by decide)).mp hle
  have hpointer : pointerAlign = 2 ^ 3 := rfl
  rw [hk, hpointer]
  rcases Nat.le_total k 3 with h | h
  · exact ⟨3, by decide, max_eq_right (Nat.pow_le_pow_right (by decide) h), Nat.le_add_left ..,
      Nat.pow_dvd_pow 2 h⟩
  · exact ⟨k, hk63, max_eq_left (Nat.pow_le_pow_right (by decide) h), Nat.le_add_right ..,
      Nat.dvd_refl _⟩

/-- The aligned address lies behind the header word and at most one alignment further. -/
theorem alignedAddr_spec (originalAddr : Nat) {k : Nat} (hk : k ≤ 63)
    (hroom : originalAddr + pointerSize + 2 ^ k < usizeSize) :
    ∃ p, alignedAddr originalAddr (2 ^ k) = some p ∧ p % 2 ^ k = 0 ∧
      originalAddr + pointerSize ≤ p ∧ p < originalAddr + pointerSize + 2 ^ k := by
  have hpos : 0 < 2 ^ k := Nat.two_pow_pos k
  have hlast : originalAddr + pointerSize + 2 ^ k - 1 < 2 ^ 64 := by
    have : usizeSize = 2 ^ 64 := rfl
    omega
  refine ⟨(originalAddr + pointerSize + 2 ^ k - 1) / 2 ^ k * 2 ^ k, ?_, Nat.mul_mod_left _ _, ?_, ?_⟩
  · unfold alignedAddr
    simp only [Option.bind_eq_bind]
    rw [checkedAdd_of_lt (by omega), Option.bind_some, checkedAdd_of_lt hroom, Option.bind_some,
      checkedSub_of_le (by omega), Option.bind_some]
    exact congrArg some (and_not_mask (by omega) hlast)
  · -- rounding down loses less than one alignment
    have hdiv := Nat.mod_add_div (originalAddr + pointerSize + 2 ^ k - 1) (2 ^ k)
    have hmod := Nat.mod_lt (originalAddr + pointerSize + 2 ^ k - 1) hpos
    rw [Nat.mul_comm] at hdiv
    omega
  · have := Nat.div_mul_le_self (originalAddr + pointerSize + 2 ^ k - 1) (2 ^ k)
    omega

/-! ## One allocation -/

/-- An allocation lies aligned in its block, above a header word that holds the block's
address. -/
structure Allocation.Placed (a : Allocation) (m : Memory) : Prop where
  aligned : a.ptr % a.layout.align = 0
  header : a.block.addr + pointerSize ≤ a.ptr
  fits : a.ptr + a.layout.size ≤ a.block.stop
  inside : a.ptr < a.block.stop
  bounded : a.block.size < 2 ^ 63
  recorded : readLE m (a.ptr - pointerSize) pointerSize = a.block.addr

variable {a b : Allocation} {m m' : Memory}

theorem Allocation.Placed.originalPtr (h : a.Placed m) :
    originalPtr m a.ptr = some a.block.addr := by
  have hle : pointerSize ≤ a.ptr := le_trans (Nat.le_add_left ..) h.header
  unfold Agnocast.originalPtr
  rw [checkedSub_of_le hle, Option.bind_eq_bind, Option.bind_some, h.recorded]

/-- Only the block's own bytes matter. -/
theorem Allocation.Placed.of_agrees (h : a.Placed m)
    (hkeep : Agrees (a.ptr - pointerSize) pointerSize m m') : a.Placed m' :=
  ⟨h.aligned, h.header, h.fits, h.inside, h.bounded, (readLE_congr hkeep).trans h.recorded⟩

theorem Allocation.Placed.of_keeps {blocks : List Block} (h : a.Placed m)
    (hmem : a.block ∈ blocks) (hkeep : KeepsBlocks blocks m m') : a.Placed m' := by
  have hheader := h.header
  have hinside := h.inside
  unfold Block.stop at hinside
  exact h.of_agrees ((hkeep _ hmem).mono (by omega) (by omega))

/-- Allocations in blocks that are apart have different pointers and regions that are apart. -/
theorem Allocation.Placed.apart (ha : a.Placed m) (hb : b.Placed m)
    (hapart : a.block.Apart b.block) :
    a.ptr ≠ b.ptr ∧ (a.ptr + a.layout.size ≤ b.ptr ∨ b.ptr + b.layout.size ≤ a.ptr) := by
  have h₁ := ha.header
  have h₂ := hb.header
  have h₃ := ha.inside
  have h₄ := hb.inside
  have h₅ := ha.fits
  have h₆ := hb.fits
  unfold Block.Apart at hapart
  omega

/-- Storing the header completes a placement, and touches only the block. -/
theorem storeOriginalPtr_spec (halign : a.ptr % a.layout.align = 0)
    (hheader : a.block.addr + pointerSize ≤ a.ptr) (hfits : a.ptr + a.layout.size ≤ a.block.stop)
    (hinside : a.ptr < a.block.stop) (hbounded : a.block.size < 2 ^ 63)
    (husize : a.block.stop < usizeSize) :
    ∃ m', storeOriginalPtr m a.ptr a.block.addr = some m' ∧ a.Placed m' ∧
      (∀ x, x < a.ptr - pointerSize ∨ a.ptr ≤ x → m' x = m x) := by
  have hle : pointerSize ≤ a.ptr := le_trans (Nat.le_add_left ..) hheader
  have hword : a.block.addr < 256 ^ pointerSize := by
    have hsize : usizeSize = 256 ^ pointerSize := rfl
    omega
  refine ⟨writeLE m (a.ptr - pointerSize) pointerSize a.block.addr, ?_, ?_, fun x hx => ?_⟩
  · unfold storeOriginalPtr
    rw [checkedSub_of_le hle, Option.bind_eq_bind, Option.bind_some]
  · exact ⟨halign, hheader, hfits, hinside, hbounded, readLE_writeLE hword⟩
  · exact writeLE_of_outside (by omega)

/-- Storing the header stays inside the block. -/
theorem Allocation.Placed.touched (h : a.Placed m')
    (hother : ∀ x, x < a.ptr - pointerSize ∨ a.ptr ≤ x → m' x = m x) :
    ∀ x, x < a.block.addr ∨ a.block.stop ≤ x → m' x = m x := by
  intro x hx
  have hheader := h.header
  have hinside := h.inside
  exact hother x (by omega)

/-! ## The calls -/

variable {r : Rlsf} {shm : AgnocastSharedMemory} {Valid : List Block → r.State → Memory → Prop}

theorem innerLayout_cases (size : Nat) : innerLayout size = none ∨
    ∃ inner, innerLayout size = some inner ∧ inner.size = size ∧ inner.size < 2 ^ 63 := by
  unfold innerLayout
  split
  · next h => exact .inr ⟨_, rfl, rfl, h⟩
  · exact .inl rfl

/-- Changes inside one live block keep the allocator valid and every other block intact. -/
theorem Rlsf.Lawful.inner_write (h : r.Lawful shm Valid) {c : Block} {bs : List Block}
    {t : r.State} (hv : Valid (c :: bs) t m) (m' : Memory)
    (hm : ∀ x, x < c.addr ∨ c.stop ≤ x → m' x = m x) :
    Valid (c :: bs) t m' ∧ KeepsBlocks bs m m' := by
  refine ⟨h.written hv fun x hx => hm x ?_, fun b hb x hlo hhi => hm x ?_⟩
  · have := hx c List.mem_cons_self
    omega
  · have hapart := (List.pairwise_cons.mp (h.apart hv)).1 b hb
    unfold Block.Apart Block.stop at hapart
    unfold Block.stop
    omega

theorem KeepsBlocks.trans {bs : List Block} {m'' : Memory} (h : KeepsBlocks bs m m')
    (h' : KeepsBlocks bs m' m'') : KeepsBlocks bs m m'' :=
  fun b hb => (h b hb).trans (h' b hb)

/-- A user's allocation in a block that was asked for with room for the header, the data and
one alignment of padding. -/
theorem place_spec {layout : Layout} {k : Nat} (hk : k ≤ 63) (hdvd : layout.align ∣ 2 ^ k)
    {c : Block} (hroom : pointerSize + layout.size + 2 ^ k ≤ c.size) (hsize : c.size < 2 ^ 63)
    (husize : c.stop < usizeSize) :
    ∃ p, alignedAddr c.addr (2 ^ k) = some p ∧ c.addr ≤ p ∧ p + layout.size ≤ c.stop ∧
      ∀ m : Memory, ∃ m', storeOriginalPtr m p c.addr = some m' ∧
        (⟨p, layout, c⟩ : Allocation).Placed m' ∧
        ∀ x, x < p - pointerSize ∨ p ≤ x → m' x = m x := by
  unfold Block.stop at husize
  obtain ⟨p, hp, hmod, hlo, hhi⟩ := alignedAddr_spec c.addr hk (by omega)
  have hfits : p + layout.size ≤ c.stop := by
    unfold Block.stop
    omega
  have hinside : p < c.stop := by
    unfold Block.stop
    omega
  exact ⟨p, hp, le_trans (Nat.le_add_right ..) hlo, hfits, fun m =>
    storeOriginalPtr_spec (a := ⟨p, layout, c⟩)
      (Nat.mod_eq_zero_of_dvd (hdvd.trans (Nat.dvd_of_mod_eq_zero hmod))) hlo hfits hinside hsize
      husize⟩

/-- The bounds of a block that has just been handed out. -/
theorem Rlsf.Lawful.usize (h : r.Lawful shm Valid) {c : Block} {bs : List Block} {t : r.State}
    (hv : Valid (c :: bs) t m) : c.stop < usizeSize :=
  Nat.lt_of_le_of_lt (h.inside hv _ List.mem_cons_self).2 shm.usize

/-- **`allocate`** fails and leaves every live block, or hands out an allocation in a new one. -/
theorem allocate_spec (h : r.Lawful shm Valid) {bs : List Block} {t : r.State}
    (hv : Valid bs t m) (layout : Layout) :
    ∃ o t' m', allocate r layout t m = some (o, t', m') ∧ KeepsBlocks bs m m' ∧
      match o with
      | none => Valid bs t' m'
      | some a => a.layout = layout ∧ a.Placed m' ∧ Valid (a.block :: bs) t' m' := by
  obtain ⟨k, hk, halign, hmax, hdvd⟩ := layout.alignment
  have hsize := layout.size_le
  have husize : usizeSize = 2 ^ 64 := rfl
  have hpointer : pointerSize = 8 := rfl
  have halignPtr : pointerAlign = 8 := rfl
  unfold allocate
  simp only [halign, Option.bind_eq_bind]
  rw [checkedAdd_of_lt (by omega), Option.bind_some, checkedAdd_of_lt (by omega), Option.bind_some]
  rcases innerLayout_cases (pointerSize + layout.size + 2 ^ k) with hin | ⟨inner, hin, hinner, hlt⟩
  · rw [hin]
    exact ⟨none, t, m, rfl, fun _ _ => .refl _ _ _, hv⟩
  · rw [hin]
    simp only
    rcases hcall : r.allocate inner t m with ⟨_ | o, t', m₁⟩
    · obtain ⟨hv', hkeep⟩ := h.not_allocated hv hcall
      exact ⟨none, t', m₁, rfl, hkeep, hv'⟩
    · obtain ⟨hv', _, hkeep⟩ := h.allocated hv hcall
      obtain ⟨p, hp, _, _, hplace⟩ := place_spec (c := ⟨o, inner.size⟩) hk hdvd (Nat.le_of_eq hinner.symm)
        hlt (h.usize hv')
      obtain ⟨m', hstore, hplaced, hother⟩ := hplace m₁
      obtain ⟨hv'', hkeep'⟩ := h.inner_write hv' _ (hplaced.touched hother)
      refine ⟨some ⟨p, layout, ⟨o, inner.size⟩⟩, t', m', ?_, hkeep.trans hkeep', rfl, hplaced, hv''⟩
      simp only [hp, hstore, Option.bind_some]

/-- After the shift the data sits at the new pointer, and only the new region was touched. -/
theorem fixDataPosition_spec (m : Memory) {o p : Nat} (oldOffset size : Nat) (hle : o ≤ p)
    (husize : o + oldOffset < usizeSize) :
    ∃ m', fixDataPosition m o oldOffset (p - o) p size = some m' ∧
      (∀ i < size, m' (p + i) = m (o + oldOffset + i)) ∧
      ∀ x, x < p ∨ p + size ≤ x → m' x = m x := by
  unfold fixDataPosition
  split
  next heq =>
    refine ⟨m, rfl, fun i _ => ?_, fun _ _ => rfl⟩
    rw [heq, Nat.add_sub_cancel' hle]
  · rw [checkedAdd_of_lt husize, Option.map_some]
    refine ⟨_, rfl, fun i hi => ?_, fun x hx => if_neg (by omega)⟩
    unfold copy
    rw [if_pos (by omega), Nat.add_sub_cancel_left]

/-- **`reallocate`** of an allocation fails and leaves every live block, or hands out an
allocation in its place, with as much of the data as fits. -/
theorem reallocate_spec (h : r.Lawful shm Valid) {bs : List Block} {t : r.State}
    (hv : Valid (a.block :: bs) t m) (ha : a.Placed m) (layout : Layout) :
    ∃ o t' m', reallocate r a.ptr layout t m = some (o, t', m') ∧
      match o with
      | none => KeepsBlocks (a.block :: bs) m m' ∧ Valid (a.block :: bs) t' m'
      | some b => b.layout = layout ∧ b.Placed m' ∧ Valid (b.block :: bs) t' m' ∧
          KeepsBlocks bs m m' ∧
          ∀ i < min a.layout.size layout.size, m' (b.ptr + i) = m (a.ptr + i) := by
  obtain ⟨k, hk, halign, hmax, hdvd⟩ := layout.alignment
  have hsize := layout.size_le
  have husize : usizeSize = 2 ^ 64 := rfl
  have hpointer : pointerSize = 8 := rfl
  have halignPtr : pointerAlign = 8 := rfl
  have hheader := ha.header
  have hinside := ha.inside
  have hbounded := ha.bounded
  have hfits := ha.fits
  unfold Block.stop at hinside hfits
  unfold reallocate
  simp only [halign, Option.bind_eq_bind]
  rw [ha.originalPtr, Option.bind_some, checkedSub_of_le (by omega), Option.bind_some,
    checkedAdd_of_lt (by omega), Option.bind_some, checkedAdd_of_lt (by omega), Option.bind_some,
    checkedAdd_of_lt (by omega), Option.bind_some]
  rcases innerLayout_cases (max (pointerSize + layout.size + 2 ^ k)
    (a.ptr - a.block.addr + layout.size)) with hin | ⟨inner, hin, hinner, hlt⟩
  · rw [hin]
    exact ⟨none, t, m, rfl, fun _ _ => .refl _ _ _, hv⟩
  · rw [hin]
    simp only
    rcases hcall : r.reallocate a.block.addr inner t m with ⟨_ | o, t', m₁⟩
    · obtain ⟨hv', hkeep⟩ := h.not_reallocated hv hcall
      exact ⟨none, t', m₁, rfl, hkeep, hv'⟩
    · obtain ⟨hv', hkeep, hmoved⟩ := h.reallocated hv hcall
      have hstop := h.usize hv'
      have hroom : pointerSize + layout.size + 2 ^ k ≤ inner.size := by omega
      have hsource : a.ptr - a.block.addr + layout.size ≤ inner.size := by omega
      -- the data may have to move inside the new block, to where the alignment wants it
      obtain ⟨p, hp, hle, hend, hplace⟩ := place_spec (c := ⟨o, inner.size⟩) hk hdvd hroom hlt hstop
      unfold Block.stop at hstop hend
      simp only at hle hstop hend
      obtain ⟨m₂, hm₂, hdata, htouched⟩ := fixDataPosition_spec m₁
        (a.ptr - a.block.addr) layout.size hle (by omega)
      obtain ⟨m', hstore, hplaced, hother⟩ := hplace m₂
      obtain ⟨hv'', hkeep'⟩ := h.inner_write hv' m' fun x hx => by
        have hbefore := hplaced.touched hother x hx
        unfold Block.stop at hx
        simp only at hx
        rw [hbefore, htouched x (by omega)]
      refine ⟨some ⟨p, layout, ⟨o, inner.size⟩⟩, t', m', ?_, rfl, hplaced, hv'',
        hkeep.trans hkeep', fun i hi => ?_⟩
      · simp only [hp, checkedSub_of_le hle, hm₂, hstore, Option.bind_some]
      · simp only
        rw [hother _ (.inr (Nat.le_add_right ..)), hdata i (by omega), Nat.add_assoc,
          hmoved (a.ptr - a.block.addr + i) (by omega)]
        exact congrArg m (by omega)

/-- **`deallocate`** of an allocation gives its block back. -/
theorem deallocate_spec (h : r.Lawful shm Valid) {bs : List Block} {t : r.State}
    (hv : Valid (a.block :: bs) t m) (ha : a.Placed m) :
    ∃ t' m', deallocate r a.ptr t m = some (t', m') ∧ Valid bs t' m' ∧ KeepsBlocks bs m m' := by
  obtain ⟨hv', hkeep⟩ := h.deallocated hv
  refine ⟨_, _, ?_, hv', hkeep⟩
  unfold deallocate
  rw [ha.originalPtr, Option.bind_eq_bind, Option.bind_some]

/-! ## Runs -/

/-- The invariant: the blocks of the live allocations are the live blocks of the allocator,
and each allocation is placed. -/
structure HeapOk (Valid : List Block → r.State → Memory → Prop) (s : Heap r) : Prop where
  valid : Valid (s.live.map Allocation.block) s.tlsf s.mem
  placed : ∀ a ∈ s.live, a.Placed s.mem
  no_overflow : s.overflowed = false

variable {s : Heap r}

theorem HeapOk.apart (h : r.Lawful shm Valid) (hok : HeapOk Valid s) :
    s.live.Pairwise fun a b =>
      a.ptr ≠ b.ptr ∧ (a.ptr + a.layout.size ≤ b.ptr ∨ b.ptr + b.layout.size ≤ a.ptr) :=
  (List.pairwise_map.mp (h.apart hok.valid)).imp_of_mem fun ha hb hapart =>
    (hok.placed _ ha).apart (hok.placed _ hb) hapart

theorem perm_cons_filter {l : List Allocation} (hne : l.Pairwise fun a b => a.ptr ≠ b.ptr)
    (ha : a ∈ l) : l.Perm (a :: l.filter fun b => b.ptr ≠ a.ptr) := by
  induction l with
  | nil => cases ha
  | cons c l ih =>
    rw [List.pairwise_cons] at hne
    rcases List.mem_cons.mp ha with rfl | ha
    · rw [List.filter_cons_of_neg (by simp), List.filter_eq_self.mpr]
      exact fun b hb => by simpa using (hne.1 b hb).symm
    · rw [List.filter_cons_of_pos (by simpa using hne.1 a ha)]
      exact ((ih hne.2 ha).cons c).trans (.swap a c _)

/-- Taking one allocation out of the live ones. -/
theorem HeapOk.take (h : r.Lawful shm Valid) (hok : HeapOk Valid s) (ha : a ∈ s.live) :
    Valid (a.block :: (s.forget a.ptr).map Allocation.block) s.tlsf s.mem :=
  h.order ((perm_cons_filter ((hok.apart h).imp And.left) ha).map Allocation.block) hok.valid

theorem mem_forget {ptr : Nat} (hb : b ∈ s.forget ptr) : b ∈ s.live ∧ b.ptr ≠ ptr := by
  simpa [Heap.forget] using hb

/-- The allocations that stay are still placed when their blocks are kept. -/
theorem HeapOk.placed_forget (hok : HeapOk Valid s) {ptr : Nat}
    (hkeep : KeepsBlocks ((s.forget ptr).map Allocation.block) s.mem m') :
    ∀ b ∈ s.forget ptr, b.Placed m' := fun b hb =>
  (hok.placed b (mem_forget hb).1).of_keeps (List.mem_map_of_mem hb) hkeep

theorem HeapOk.placed_all (hok : HeapOk Valid s)
    (hkeep : KeepsBlocks (s.live.map Allocation.block) s.mem m') : ∀ b ∈ s.live, b.Placed m' :=
  fun b hb => (hok.placed b hb).of_keeps (List.mem_map_of_mem hb) hkeep

private theorem HeapOk.allocate (h : r.Lawful shm Valid) (hok : HeapOk Valid s) (layout : Layout) :
    HeapOk Valid (s.step (.allocate layout)).2 := by
  obtain ⟨o, t', m', hcall, hkeep, hspec⟩ := allocate_spec h hok.valid layout
  have hplaced := hok.placed_all hkeep
  simp only [Heap.step, hcall]
  cases o with
  | none => exact ⟨hspec, hplaced, hok.no_overflow⟩
  | some a =>
    obtain ⟨_, hnew, hvalid⟩ := hspec
    exact ⟨hvalid, List.forall_mem_cons.mpr ⟨hnew, hplaced⟩, hok.no_overflow⟩

private theorem HeapOk.reallocate (h : r.Lawful shm Valid) (hok : HeapOk Valid s)
    (ha : a ∈ s.live) (layout : Layout) : HeapOk Valid (s.step (.reallocate a.ptr layout)).2 := by
  obtain ⟨o, t', m', hcall, hspec⟩ :=
    reallocate_spec h (hok.take h ha) (hok.placed a ha) layout
  simp only [Heap.step, hcall]
  cases o with
  | none =>
    obtain ⟨hkeep, hvalid⟩ := hspec
    have hperm := (perm_cons_filter ((hok.apart h).imp And.left) ha).map Allocation.block
    exact ⟨h.order hperm.symm hvalid,
      hok.placed_all fun b hb => hkeep b (hperm.mem_iff.mp hb), hok.no_overflow⟩
  | some b =>
    obtain ⟨_, hnew, hvalid, hkeep, _⟩ := hspec
    exact ⟨hvalid, List.forall_mem_cons.mpr ⟨hnew, hok.placed_forget hkeep⟩, hok.no_overflow⟩

private theorem HeapOk.deallocate (h : r.Lawful shm Valid) (hok : HeapOk Valid s)
    (ha : a ∈ s.live) : HeapOk Valid (s.step (.deallocate a.ptr)).2 := by
  obtain ⟨t', m', hcall, hvalid, hkeep⟩ := deallocate_spec h (hok.take h ha) (hok.placed a ha)
  simp only [Heap.step, hcall]
  exact ⟨hvalid, hok.placed_forget hkeep, hok.no_overflow⟩

/-- A user's write lies above the header of its own block and outside every other block. -/
private theorem HeapOk.write (h : r.Lawful shm Valid) (hok : HeapOk Valid s) (ha : a ∈ s.live)
    {offset : Nat} (hoffset : offset < a.layout.size) (byte : UInt8) :
    HeapOk Valid (s.step (.write a.ptr offset byte)).2 := by
  show HeapOk Valid { s with mem := Function.update s.mem (a.ptr + offset) byte }
  have hfits := (hok.placed a ha).fits
  have hheader := (hok.placed a ha).header
  have hsame : ∀ x, x ≠ a.ptr + offset →
      Function.update s.mem (a.ptr + offset) byte x = s.mem x := fun x hx =>
    Function.update_of_ne hx _ _
  obtain ⟨hvalid, hkeep⟩ := h.inner_write (hok.take h ha)
    (Function.update s.mem (a.ptr + offset) byte) fun x hx => hsame x (by omega)
  have hperm := (perm_cons_filter ((hok.apart h).imp And.left) ha).map Allocation.block
  refine ⟨h.order hperm.symm hvalid, fun b hb => ?_, hok.no_overflow⟩
  by_cases hptr : b.ptr = a.ptr
  · -- its own header lies below the region
    exact (hok.placed b hb).of_agrees fun x _ hhi => hsame x (by
      have := (hok.placed b hb).header
      omega)
  · exact hok.placed_forget hkeep b (by simp [Heap.forget, hb, hptr])

theorem HeapOk.step (h : r.Lawful shm Valid) (hok : HeapOk Valid s) {i : HeapCall}
    (hproper : Proper s i) : HeapOk Valid (s.step i).2 := by
  cases i with
  | allocate layout => exact hok.allocate h layout
  | reallocate ptr layout =>
    obtain ⟨a, ha, rfl⟩ := hproper
    exact hok.reallocate h ha layout
  | deallocate ptr =>
    obtain ⟨a, ha, rfl⟩ := hproper
    exact hok.deallocate h ha
  | write ptr offset byte =>
    obtain ⟨a, ha, rfl, hoffset⟩ := hproper
    exact hok.write h ha hoffset byte

theorem run_heapOk (h : r.Lawful shm Valid) {tr : List (Transition.Event (Heap r) HeapCall (Option Nat))}
    (hrun : Transition.Run (heaphook r) Proper tr s) : HeapOk Valid s := by
  refine hrun.invariant ?_ fun s i hok hproper => hok.step h hproper
  rintro s ⟨m, rfl⟩
  exact ⟨h.insert m, fun a ha => (by cases ha), rfl⟩

/-- What the users rely on. -/
structure AllocationsSound (shm : AgnocastSharedMemory) (s : Heap r) : Prop where
  no_overflow : s.overflowed = false
  aligned : ∀ a ∈ s.live, a.ptr % a.layout.align = 0
  in_block : ∀ a ∈ s.live, a.block.addr + pointerSize ≤ a.ptr ∧
    a.ptr + a.layout.size ≤ a.block.stop
  in_pool : ∀ a ∈ s.live, shm.start ≤ a.block.addr ∧ a.block.stop ≤ shm.stop
  disjoint : s.live.Pairwise fun a b =>
    a.ptr ≠ b.ptr ∧ (a.ptr + a.layout.size ≤ b.ptr ∨ b.ptr + b.layout.size ≤ a.ptr)
  recovered : ∀ a ∈ s.live, originalPtr s.mem a.ptr = some a.block.addr

/-- **The wrapper is an allocator.** Over every run of calls and writes to live regions, no
operation overflows, live pointers are aligned and distinct, their regions are disjoint and
lie in their blocks above the header words, and each header holds the address of its block. -/
theorem allocations_sound (h : r.Lawful shm Valid)
    {tr : List (Transition.Event (Heap r) HeapCall (Option Nat))}
    (hrun : Transition.Run (heaphook r) Proper tr s) : AllocationsSound shm s := by
  have hok := run_heapOk h hrun
  exact ⟨hok.no_overflow, fun a ha => (hok.placed a ha).aligned,
    fun a ha => ⟨(hok.placed a ha).header, (hok.placed a ha).fits⟩,
    fun a ha => h.inside hok.valid _ (List.mem_map_of_mem ha), hok.apart h,
    fun a ha => (hok.placed a ha).originalPtr⟩

/-! ## An external allocator -/

/-- An allocator that never uses a block twice: its state is the first unused address. -/
def bump (shm : AgnocastSharedMemory) : Rlsf where
  State := Nat
  insertFreeBlock := fun m => (shm.start, m)
  allocate := fun layout next m =>
    let o := (next + layout.align - 1) / layout.align * layout.align
    if o + layout.size ≤ shm.stop then (some o, o + layout.size, m) else (none, next, m)
  reallocate := fun p layout next m =>
    if next + layout.size ≤ shm.stop then (some next, next + layout.size, copy m p next layout.size)
    else (none, next, m)
  deallocate := fun _ _ next m => (next, m)

/-- The live blocks of `bump` are apart and below the first unused address. -/
structure BumpValid (shm : AgnocastSharedMemory) (bs : List Block) (next : Nat) : Prop where
  apart : bs.Pairwise Block.Apart
  below : ∀ b ∈ bs, shm.start ≤ b.addr ∧ b.stop ≤ next
  start : shm.start ≤ next
  stop : next ≤ shm.stop

theorem Block.Apart.symm {b c : Block} (h : b.Apart c) : c.Apart b := h.elim .inr .inl

/-- A new block behind everything used. -/
theorem BumpValid.push {bs : List Block} {next o size : Nat} (h : BumpValid shm bs next)
    (ho : next ≤ o) (hstop : o + size ≤ shm.stop) : BumpValid shm (⟨o, size⟩ :: bs) (o + size) where
  apart := List.pairwise_cons.mpr
    ⟨fun b hb => .inr (le_trans (h.below b hb).2 ho), h.apart⟩
  below := List.forall_mem_cons.mpr ⟨⟨le_trans h.start ho, le_rfl⟩, fun b hb =>
    ⟨(h.below b hb).1, le_trans (h.below b hb).2 (le_trans ho (Nat.le_add_right ..))⟩⟩
  start := le_trans h.start (le_trans ho (Nat.le_add_right ..))
  stop := hstop

theorem BumpValid.tail {b : Block} {bs : List Block} {next : Nat}
    (h : BumpValid shm (b :: bs) next) : BumpValid shm bs next :=
  ⟨(List.pairwise_cons.mp h.apart).2, (List.forall_mem_cons.mp h.below).2, h.start, h.stop⟩

theorem KeepsBlocks.refl (bs : List Block) (m : Memory) : KeepsBlocks bs m m :=
  fun _ _ => .refl _ _ _

theorem bump_lawful (shm : AgnocastSharedMemory) :
    (bump shm).Lawful shm fun bs next _ => BumpValid shm bs next where
  insert := fun _ => ⟨.nil, fun b hb => (by cases hb), le_rfl, shm.le⟩
  order := fun hperm h => ⟨hperm.pairwise h.apart Block.Apart.symm,
    fun b hb => h.below b (hperm.mem_iff.mpr hb), h.start, h.stop⟩
  apart := BumpValid.apart
  inside := fun h b hb => ⟨(h.below b hb).1, le_trans (h.below b hb).2 h.stop⟩
  written := fun h _ => h
  allocated := by
    intro bs (next : Nat) m layout o t' m' h hcall
    have hpos : 0 < layout.align := by
      obtain ⟨k, hk⟩ := layout.align_pow
      exact hk ▸ Nat.two_pow_pos k
    -- rounding up never goes back
    have hle : next ≤ (next + layout.align - 1) / layout.align * layout.align := by
      have hdiv := Nat.mod_add_div (next + layout.align - 1) layout.align
      have hmod := Nat.mod_lt (next + layout.align - 1) hpos
      rw [Nat.mul_comm] at hdiv
      omega
    simp only [bump] at hcall
    split at hcall
    · simp only [Prod.mk.injEq, Option.some.injEq] at hcall
      obtain ⟨rfl, rfl, rfl⟩ := hcall
      exact ⟨h.push hle ‹_›, Nat.mul_mod_left _ _, .refl _ _⟩
    · cases hcall
  not_allocated := by
    intro bs (next : Nat) m layout t' m' h hcall
    simp only [bump] at hcall
    split at hcall
    · cases hcall
    · simp only [Prod.mk.injEq, true_and] at hcall
      obtain ⟨rfl, rfl⟩ := hcall
      exact ⟨h, .refl _ _⟩
  reallocated := by
    intro b bs (next : Nat) m layout o t' m' h hcall
    simp only [bump] at hcall
    split at hcall
    · simp only [Prod.mk.injEq, Option.some.injEq] at hcall
      obtain ⟨rfl, rfl, rfl⟩ := hcall
      refine ⟨h.tail.push le_rfl ‹_›, fun c hc => agrees_copy (.inl (h.tail.below c hc).2),
        fun i hi => ?_⟩
      unfold copy
      rw [if_pos (by omega), Nat.add_sub_cancel_left]
    · cases hcall
  not_reallocated := by
    intro b bs (next : Nat) m layout t' m' h hcall
    simp only [bump] at hcall
    split at hcall
    · cases hcall
    · simp only [Prod.mk.injEq, true_and] at hcall
      obtain ⟨rfl, rfl⟩ := hcall
      exact ⟨h, .refl _ _⟩
  deallocated := fun h => ⟨h.tail, .refl _ _⟩

/-- A pool of one page: an aligned allocation that is written to and grown with another
alignment, an empty one that is given back, and a third. -/
theorem allocations_sound_of_three :
    let shm : AgnocastSharedMemory := ⟨4096, 8192, by decide, by decide⟩
    let s := ((heaphook (bump shm)).exec ⟨shm.start, fun _ => 0, [], false⟩ []
      [.allocate ⟨24, 16, ⟨4, rfl⟩, by decide⟩, .write 4112 23 7,
        .reallocate 4112 ⟨40, 256, ⟨8, rfl⟩, by decide⟩, .allocate ⟨0, 1, ⟨0, rfl⟩, by decide⟩,
        .allocate ⟨5, 8, ⟨3, rfl⟩, by decide⟩, .deallocate 4456]).2
    AllocationsSound shm s ∧ s.live.map Allocation.ptr = [4472, 4352] ∧ s.mem (4352 + 23) = 7 := by
  intro shm s
  have hinit : (heaphook (bump shm)).init ⟨shm.start, fun _ => 0, [], false⟩ := ⟨_, rfl⟩
  exact ⟨allocations_sound (bump_lawful shm) ((Transition.Run.init hinit).exec (by decide)),
    by decide, by decide⟩

end Agnocast
