import Mathlib.Data.List.Basic
import Mathlib.Logic.Function.Basic

/-!
# Shared pointers

The control blocks that the instances of a shared pointer refer to, each with a counter
of its instances, kept modulo `size`. An instance that is dropped counts down, and when it
finds the counter at one its block is dying: the owner still has something to do before it
deletes the block, and others can act meanwhile.

* `Counted`      — every counter is right, and a dying block has no instance.
* `Counted.drop` — dropping an instance keeps that, as long as no counter has run over.
* `NoneLeaked`   — every block has an instance or is dying.
-/

/-- What the instances share: a value, and how many of them there are. -/
structure ControlBlock (α : Type*) where
  value : α
  refCount : Nat

/-- The heap of control blocks, what refers to each (once per instance), and the blocks
that the last instance has left but that are not deleted yet. -/
structure SharedPtrs (α : Type*) where
  blocks : Nat → Option (ControlBlock α)
  next : Nat
  instances : List Nat
  dying : List Nat

namespace SharedPtrs

variable {α : Type*} {size : Nat} {h : SharedPtrs α}

/-- No block and no instance. -/
def empty : SharedPtrs α := ⟨fun _ => none, 0, [], []⟩

/-- The value of a block. -/
def valueOf (h : SharedPtrs α) (b : Nat) : Option α := (h.blocks b).map ControlBlock.value

/-- A new block and its first instance. -/
def make (a : α) (h : SharedPtrs α) : SharedPtrs α :=
  { h with
    blocks := Function.update h.blocks h.next (some ⟨a, 1⟩)
    next := h.next + 1
    instances := h.next :: h.instances }

/-- Set the counter of a block. -/
def setCount (b n : Nat) (h : SharedPtrs α) : SharedPtrs α :=
  { h with
    blocks := Function.update h.blocks b ((h.blocks b).map fun k => { k with refCount := n }) }

/-- Copy an instance. -/
def copy (size b : Nat) (h : SharedPtrs α) : SharedPtrs α :=
  match h.blocks b with
  | none => h
  | some k => { h.setCount b ((k.refCount + 1) % size) with instances := b :: h.instances }

/-- Drop an instance. -/
def drop (size b : Nat) (h : SharedPtrs α) : SharedPtrs α :=
  match h.blocks b with
  | none => h
  | some k =>
    { h.setCount b ((k.refCount + (size - 1)) % size) with
      instances := h.instances.erase b
      dying := if k.refCount = 1 then b :: h.dying else h.dying }

/-- Delete a dying block. -/
def delete (b : Nat) (h : SharedPtrs α) : SharedPtrs α :=
  { h with blocks := Function.update h.blocks b none, dying := h.dying.erase b }

/-! ## Values -/

@[simp] theorem valueOf_empty (b : Nat) : (empty : SharedPtrs α).valueOf b = none := rfl

theorem valueOf_make (a : α) (b : Nat) :
    (h.make a).valueOf b = if b = h.next then some a else h.valueOf b := by
  unfold valueOf make
  simp only [Function.update_apply]
  split <;> rfl

@[simp] theorem valueOf_setCount (b n c : Nat) : (h.setCount b n).valueOf c = h.valueOf c := by
  unfold valueOf setCount
  simp only [Function.update_apply]
  split
  · next heq => rw [heq, Option.map_map]; rfl
  · rfl

@[simp] theorem valueOf_copy (b c : Nat) : (h.copy size b).valueOf c = h.valueOf c := by
  unfold copy
  split
  · rfl
  · exact valueOf_setCount ..

@[simp] theorem valueOf_drop (b c : Nat) : (h.drop size b).valueOf c = h.valueOf c := by
  unfold drop
  split
  · rfl
  · exact valueOf_setCount ..

theorem valueOf_delete (b c : Nat) :
    (h.delete b).valueOf c = if c = b then none else h.valueOf c := by
  unfold valueOf delete
  simp only [Function.update_apply]
  split <;> rfl

@[simp] theorem next_copy (b : Nat) : (h.copy size b).next = h.next := by
  unfold copy
  split <;> rfl

@[simp] theorem next_drop (b : Nat) : (h.drop size b).next = h.next := by
  unfold drop
  split <;> rfl

/-! ## Counters -/

/-- Every counter is the number of instances modulo `size`, every instance has its block,
and the dying blocks are those of nobody. -/
structure Counted (size : Nat) (h : SharedPtrs α) : Prop where
  counter : ∀ b k, h.blocks b = some k → k.refCount = h.instances.count b % size
  present : ∀ b ∈ h.instances ++ h.dying, (h.valueOf b).isSome = true
  unused : ∀ b ∈ h.dying, b ∉ h.instances
  dying_nodup : h.dying.Nodup
  fresh : ∀ b, h.next ≤ b → h.blocks b = none

theorem Counted.empty : (SharedPtrs.empty : SharedPtrs α).Counted size where
  counter _ _ h := by cases h
  present _ h := by cases h
  unused _ h := by cases h
  dying_nodup := .nil
  fresh _ _ := rfl

/-- A block that has a value was made. -/
theorem Counted.lt_next (hc : h.Counted size) {b : Nat} (hb : (h.valueOf b).isSome = true) :
    b < h.next := by
  refine Nat.lt_of_not_le fun hle => ?_
  unfold valueOf at hb
  rw [hc.fresh b hle] at hb
  cases hb

private theorem blocks_setCount {b n c : Nat} {k : ControlBlock α}
    (hk : (h.setCount b n).blocks c = some k) :
    (c = b ∧ k.refCount = n) ∨ (c ≠ b ∧ h.blocks c = some k) := by
  unfold setCount at hk
  simp only [Function.update_apply] at hk
  split at hk
  · next heq =>
    obtain ⟨k₀, _, rfl⟩ := Option.map_eq_some_iff.mp hk
    exact .inl ⟨heq, rfl⟩
  · next hne => exact .inr ⟨hne, hk⟩

private theorem fresh_setCount (hf : ∀ b, h.next ≤ b → h.blocks b = none) (b n : Nat) :
    ∀ c, h.next ≤ c → (h.setCount b n).blocks c = none := by
  intro c hle
  unfold setCount
  simp only [Function.update_apply]
  split
  · next heq => rw [heq] at hle; rw [hf b hle]; rfl
  · exact hf c hle

/-- A new block has one instance. -/
theorem Counted.make (hc : h.Counted size) (hsize : 1 < size) (a : α) :
    (h.make a).Counted size := by
  have hnew : h.next ∉ h.instances ++ h.dying := fun hmem =>
    Nat.lt_irrefl _ (hc.lt_next (hc.present _ hmem))
  rw [List.mem_append, not_or] at hnew
  refine ⟨fun b k hk => ?_, fun b hb => ?_, fun b hb hmem => ?_, hc.dying_nodup, fun b hle => ?_⟩
  · have hk : Function.update h.blocks h.next (some ⟨a, 1⟩) b = some k := hk
    show k.refCount = (h.next :: h.instances).count b % size
    by_cases hb : b = h.next
    · rw [hb, Function.update_self] at hk
      obtain rfl := Option.some.inj hk
      rw [hb, List.count_cons_self, List.count_eq_zero.mpr hnew.1, Nat.mod_eq_of_lt hsize]
    · rw [Function.update_of_ne hb] at hk
      rw [List.count_cons_of_ne (Ne.symm hb)]
      exact hc.counter b k hk
  · rw [valueOf_make]
    split
    · rfl
    · next hne =>
      have hb : b ∈ (h.next :: h.instances) ++ h.dying := hb
      rw [List.cons_append] at hb
      exact hc.present b ((List.mem_cons.mp hb).resolve_left hne)
  · have hb : b ∈ h.dying := hb
    rcases List.mem_cons.mp hmem with rfl | hmem
    · exact hnew.2 hb
    · exact hc.unused b hb hmem
  · have hle : h.next + 1 ≤ b := hle
    have hne : b ≠ h.next := by omega
    show Function.update h.blocks h.next (some ⟨a, 1⟩) b = none
    rw [Function.update_of_ne hne]
    exact hc.fresh b (by omega)

/-- A copy counts up, as long as there is an instance to copy from. -/
theorem Counted.copy (hc : h.Counted size) {b : Nat} (hb : b ∈ h.instances) :
    (h.copy size b).Counted size := by
  unfold SharedPtrs.copy
  split
  · exact hc
  next k hk =>
  refine ⟨fun c k' hk' => ?_, fun c hmem => ?_, fun c hdying hmem => ?_, hc.dying_nodup,
    fresh_setCount hc.fresh b _⟩
  · show k'.refCount = (b :: h.instances).count c % size
    rcases blocks_setCount hk' with ⟨rfl, heq⟩ | ⟨hne, hk'⟩
    · rw [heq, hc.counter c k hk, List.count_cons_self, Nat.mod_add_mod]
    · rw [List.count_cons_of_ne (Ne.symm hne)]
      exact hc.counter c k' hk'
  · show ((h.setCount b _).valueOf c).isSome = true
    rw [valueOf_setCount]
    have hmem : c ∈ (b :: h.instances) ++ h.dying := hmem
    refine hc.present c ?_
    rcases List.mem_cons.mp hmem with rfl | hmem
    · exact List.mem_append_left _ hb
    · exact hmem
  · have hdying : c ∈ h.dying := hdying
    rcases List.mem_cons.mp hmem with rfl | hmem
    · exact hc.unused c hdying hb
    · exact hc.unused c hdying hmem

/-- **A drop counts down.** A counter that is found at one stands for the last instance. -/
theorem Counted.drop (hc : h.Counted size) (hsize : 1 < size) {b : Nat} (hb : b ∈ h.instances)
    (hlast : ∀ k, h.blocks b = some k → k.refCount = 1 → h.instances.count b = 1) :
    (h.drop size b).Counted size := by
  unfold SharedPtrs.drop
  split
  · exact hc
  next k hk =>
  have hpos : 0 < h.instances.count b := List.count_pos_iff.mpr hb
  refine ⟨fun c k' hk' => ?_, fun c hmem => ?_, fun c hdying hmem => ?_, ?_,
    fresh_setCount hc.fresh b _⟩
  · show k'.refCount = (h.instances.erase b).count c % size
    rcases blocks_setCount hk' with ⟨rfl, heq⟩ | ⟨hne, hk'⟩
    · rw [heq, hc.counter c k hk, List.count_erase_self, Nat.mod_add_mod]
      -- counting down by one is counting up to the next turn
      have hturn : h.instances.count c + (size - 1) = (h.instances.count c - 1) + size := by
        omega
      rw [hturn, Nat.add_mod_right]
    · rw [List.count_erase_of_ne hne]
      exact hc.counter c k' hk'
  · show ((h.setCount b _).valueOf c).isSome = true
    rw [valueOf_setCount]
    refine hc.present c ?_
    rcases List.mem_append.mp hmem with hmem | hmem
    · exact List.mem_append_left _ (List.mem_of_mem_erase hmem)
    · simp only at hmem
      split at hmem
      · rcases List.mem_cons.mp hmem with rfl | hmem
        · exact List.mem_append_left _ hb
        · exact List.mem_append_right _ hmem
      · exact List.mem_append_right _ hmem
  · have hmem := List.mem_of_mem_erase hmem
    simp only at hdying
    split at hdying
    · next hone =>
      rcases List.mem_cons.mp hdying with rfl | hdying
      · -- it was the last instance
        have hnone : (h.instances.erase c).count c = 0 := by
          rw [List.count_erase_self, hlast k hk hone]
        exact List.count_eq_zero.mp hnone ‹_›
      · exact hc.unused c hdying hmem
    · exact hc.unused c hdying hmem
  · simp only
    split
    · exact List.nodup_cons.mpr ⟨fun hdying => hc.unused b hdying hb, hc.dying_nodup⟩
    · exact hc.dying_nodup

/-- Which variable holds an instance does not matter. -/
theorem Counted.perm (hc : h.Counted size) {l : List Nat} (hl : l.Perm h.instances) :
    ({ h with instances := l } : SharedPtrs α).Counted size where
  counter b k hk := by
    rw [hl.count_eq b]
    exact hc.counter b k hk
  present b hb := hc.present b ((hl.append_right _).mem_iff.mp hb)
  unused b hb hmem := hc.unused b hb (hl.mem_iff.mp hmem)
  dying_nodup := hc.dying_nodup
  fresh := hc.fresh

/-- A dying block is deleted. -/
theorem Counted.delete (hc : h.Counted size) {b : Nat} (hb : b ∈ h.dying) :
    (h.delete b).Counted size := by
  have hne : ∀ c ∈ h.instances ++ h.dying.erase b, c ≠ b := by
    rintro c hmem rfl
    rcases List.mem_append.mp hmem with hmem | hmem
    · exact hc.unused c hb hmem
    · exact (hc.dying_nodup.mem_erase_iff.mp hmem).1 rfl
  refine ⟨fun c k hk => ?_, fun c hmem => ?_, fun c hdying => hc.unused c (List.mem_of_mem_erase hdying),
    hc.dying_nodup.erase b, fun c hle => ?_⟩
  · have hk : Function.update h.blocks b none c = some k := hk
    by_cases heq : c = b
    · rw [heq, Function.update_self] at hk
      cases hk
    · rw [Function.update_of_ne heq] at hk
      exact hc.counter c k hk
  · rw [valueOf_delete, if_neg (hne c hmem)]
    refine hc.present c ?_
    rcases List.mem_append.mp hmem with hmem | hmem
    · exact List.mem_append_left _ hmem
    · exact List.mem_append_right _ (List.mem_of_mem_erase hmem)
  · show Function.update h.blocks b none c = none
    rw [Function.update_apply]
    split
    · rfl
    · exact hc.fresh c hle

/-! ## No block is left behind -/

/-- Every block has an instance or is dying. -/
def NoneLeaked (h : SharedPtrs α) : Prop :=
  ∀ b, (h.valueOf b).isSome = true → b ∈ h.instances ++ h.dying

theorem NoneLeaked.make (hn : h.NoneLeaked) (a : α) : (h.make a).NoneLeaked := by
  intro b hb
  show b ∈ (h.next :: h.instances) ++ h.dying
  rw [valueOf_make] at hb
  split at hb
  · next heq => exact heq ▸ List.mem_cons_self
  · exact List.mem_cons_of_mem _ (hn b hb)

theorem NoneLeaked.copy (hn : h.NoneLeaked) (b : Nat) : (h.copy size b).NoneLeaked := by
  intro c hc
  rw [valueOf_copy] at hc
  have hmem := hn c hc
  unfold SharedPtrs.copy
  split
  · exact hmem
  · exact List.mem_cons_of_mem _ hmem

/-- The last instance leaves its block dying. -/
theorem NoneLeaked.drop (hn : h.NoneLeaked) (hc : h.Counted size) (hsize : 1 < size) (b : Nat) :
    (h.drop size b).NoneLeaked := by
  intro c hval
  rw [valueOf_drop] at hval
  have hmem := List.mem_append.mp (hn c hval)
  unfold SharedPtrs.drop
  split
  · exact List.mem_append.mpr hmem
  next k hk =>
  show c ∈ h.instances.erase b ++ if k.refCount = 1 then b :: h.dying else h.dying
  rw [List.mem_append]
  rcases hmem with hmem | hmem
  · by_cases hcb : c = b
    · subst hcb
      by_cases hone : k.refCount = 1
      · exact .inr (by simp [hone])
      · -- a counter that is not at one has another instance
        have hcount := hc.counter c k hk
        have hpos : 0 < h.instances.count c := List.count_pos_iff.mpr hmem
        have hne : h.instances.count c ≠ 1 := by
          intro heq
          rw [heq, Nat.mod_eq_of_lt hsize] at hcount
          exact hone hcount
        refine .inl (List.count_pos_iff.mp ?_)
        rw [List.count_erase_self]
        omega
    · exact .inl ((List.mem_erase_of_ne hcb).mpr hmem)
  · refine .inr ?_
    split
    · exact List.mem_cons_of_mem _ hmem
    · exact hmem

theorem NoneLeaked.delete (hn : h.NoneLeaked) (b : Nat) : (h.delete b).NoneLeaked := by
  intro c hval
  rw [valueOf_delete] at hval
  split at hval
  · cases hval
  next hcb =>
  have hmem := hn c hval
  rw [List.mem_append] at hmem ⊢
  exact hmem.imp id (List.mem_erase_of_ne hcb).mpr

end SharedPtrs
