import Agnocast.Heaphook.Dispatch
import Agnocast.Heaphook.TlsfSafety
import Mathlib.Data.List.Nodup

/-!
# The heaphook — calls and blocks fit

* `PoolOk`             — the shared allocator over the blocks of the pool that are in use.
* `Tracked`            — the numbers of the blocks, their pointers, and what was handed to whom.
* `perform_ok`         — an action keeps what is tracked, and what `realloc` did with the contents.
* `ProcessOk`          — the invariant of a process.
* `dispatch_matches`   — what a call decides fits the block it is about.

The allocator for a new block and the one for a block given back are chosen by different tests.
They fit because the addresses of the pool are those of its blocks only, and because a process
that has the pool in its statics without being the registered one is marked as a forked child.
-/

namespace Agnocast.Heaphook

open Bytes

variable {r : Rlsf} {l : Libc} {shm : AgnocastSharedMemory}
  {Vr : List Block → r.State → Memory → Prop} {Vl : List Block → l.State → Memory → Prop}

/-! ## The blocks of the pool -/

/-- An address of the pool. -/
def InPool (shm : AgnocastSharedMemory) (ptr : Nat) : Prop := shm.start ≤ ptr ∧ ptr < shm.stop

/-- The shared allocator, with these allocations in use. -/
def PoolOk (Vr : List Block → r.State → Memory → Prop) (live : List Allocation) (t : r.State)
    (m : Memory) : Prop :=
  Vr (live.map Allocation.block) t m ∧ ∀ a ∈ live, a.Placed m

namespace PoolOk

variable {live live' : List Allocation} {a : Allocation} {t : r.State} {m m' : Memory}

theorem perm (hr : r.Lawful shm Vr) (h : PoolOk Vr live t m) (hperm : live.Perm live') :
    PoolOk Vr live' t m :=
  ⟨hr.order (hperm.map _) h.1, fun a ha => h.2 a (hperm.mem_iff.mpr ha)⟩

/-- The allocations whose blocks are kept stay placed. -/
theorem placed_of_keeps (h : PoolOk Vr live t m)
    (hkeep : KeepsBlocks (live.map Allocation.block) m m') : ∀ a ∈ live, a.Placed m' :=
  fun a ha => (h.2 a ha).of_keeps (List.mem_map_of_mem ha) hkeep

theorem inPool (hr : r.Lawful shm Vr) (h : PoolOk Vr live t m) (ha : a ∈ live) :
    InPool shm a.ptr ∧ a.ptr ≠ 0 := by
  obtain ⟨hlo, hhi⟩ := hr.inside h.1 _ (List.mem_map_of_mem ha)
  have hheader := (h.2 a ha).header
  have hinside := (h.2 a ha).inside
  have hpointer : pointerSize = 8 := rfl
  exact ⟨⟨by omega, by omega⟩, by omega⟩

theorem ptr_ne (hr : r.Lawful shm Vr) (h : PoolOk Vr (a :: live) t m) :
    ∀ b ∈ live, b.ptr ≠ a.ptr := fun b hb =>
  Ne.symm ((h.2 a List.mem_cons_self).apart (h.2 b (List.mem_cons_of_mem _ hb))
    ((List.pairwise_cons.mp (hr.apart h.1)).1 _ (List.mem_map_of_mem hb))).1

theorem allocate (hr : r.Lawful shm Vr) (h : PoolOk Vr live t m) (layout : Layout) :
    ∃ o t' m', Agnocast.allocate r layout t m = some (o, t', m') ∧
      match o with
      | none => PoolOk Vr live t' m'
      | some a => a.layout = layout ∧ PoolOk Vr (a :: live) t' m' := by
  obtain ⟨o, t', m', hcall, hkeep, hspec⟩ := allocate_spec hr h.1 layout
  refine ⟨o, t', m', hcall, ?_⟩
  have hplaced := h.placed_of_keeps hkeep
  cases o with
  | none => exact ⟨hspec, hplaced⟩
  | some a =>
    obtain ⟨hlayout, hnew, hvalid⟩ := hspec
    exact ⟨hlayout, hvalid, List.forall_mem_cons.mpr ⟨hnew, hplaced⟩⟩

/-- The data of an allocation lies in its block. -/
theorem data_of_keeps (ha : a.Placed m) {blocks : List Block} (hmem : a.block ∈ blocks)
    (hkeep : KeepsBlocks blocks m m') : ∀ i < a.layout.size, m' (a.ptr + i) = m (a.ptr + i) := by
  intro i hi
  have hheader := ha.header
  have hfits := ha.fits
  unfold Block.stop at hfits
  exact hkeep _ hmem _ (by omega) (by omega)

theorem reallocate (hr : r.Lawful shm Vr) (h : PoolOk Vr (a :: live) t m) (layout : Layout) :
    ∃ o t' m', Agnocast.reallocate r a.ptr layout t m = some (o, t', m') ∧
      match o with
      | none => PoolOk Vr (a :: live) t' m' ∧
          ∀ i < a.layout.size, m' (a.ptr + i) = m (a.ptr + i)
      | some b => b.layout = layout ∧ PoolOk Vr (b :: live) t' m' ∧
          ∀ i < min a.layout.size layout.size, m' (b.ptr + i) = m (a.ptr + i) := by
  have ha := h.2 a List.mem_cons_self
  obtain ⟨o, t', m', hcall, hspec⟩ := reallocate_spec hr h.1 ha layout
  refine ⟨o, t', m', hcall, ?_⟩
  cases o with
  | none =>
    obtain ⟨hkeep, hvalid⟩ := hspec
    exact ⟨⟨hvalid, h.placed_of_keeps hkeep⟩, data_of_keeps ha List.mem_cons_self hkeep⟩
  | some b =>
    obtain ⟨hlayout, hnew, hvalid, hkeep, hdata⟩ := hspec
    refine ⟨hlayout, ⟨hvalid, List.forall_mem_cons.mpr ⟨hnew, fun c hc => ?_⟩⟩, hdata⟩
    exact (h.2 c (List.mem_cons_of_mem _ hc)).of_keeps (List.mem_map_of_mem hc) hkeep

theorem deallocate (hr : r.Lawful shm Vr) (h : PoolOk Vr (a :: live) t m) :
    ∃ t' m', Agnocast.deallocate r a.ptr t m = some (t', m') ∧ PoolOk Vr live t' m' := by
  obtain ⟨t', m', hcall, hvalid, hkeep⟩ := deallocate_spec hr h.1 (h.2 a List.mem_cons_self)
  refine ⟨t', m', hcall, hvalid, fun b hb => ?_⟩
  exact (h.2 b (List.mem_cons_of_mem _ hb)).of_keeps (List.mem_map_of_mem hb) hkeep

/-- Whoever owns an allocation may write to its data. -/
theorem written (hr : r.Lawful shm Vr) (h : PoolOk Vr live t m) (ha : a ∈ live)
    (hm : ∀ x, x < a.ptr ∨ a.ptr + a.layout.size ≤ x → m' x = m x) : PoolOk Vr live t m' := by
  obtain ⟨before, after, rfl⟩ := List.append_of_mem ha
  refine perm hr ?_ List.perm_middle.symm
  have hfront := h.perm hr List.perm_middle
  have hplaced := hfront.2 a List.mem_cons_self
  have hheader := hplaced.header
  have hfits := hplaced.fits
  obtain ⟨hvalid, hkeep⟩ := hr.inner_write hfront.1 m' fun x hx => hm x (by omega)
  refine ⟨hvalid, List.forall_mem_cons.mpr ⟨hplaced.of_agrees fun x _ hhi => hm x ?_, fun b hb => ?_⟩⟩
  · -- its own header lies below the data
    exact .inl (by omega)
  · exact (hfront.2 b (List.mem_cons_of_mem _ hb)).of_keeps (List.mem_map_of_mem hb) hkeep

theorem fill (hr : r.Lawful shm Vr) (h : PoolOk Vr live t m) (ha : a ∈ live) (q : Request) :
    PoolOk Vr live t (Process.fill q a m) := by
  refine h.written hr ha fun x hx => ?_
  cases q <;> try rfl
  exact if_neg (by omega)

end PoolOk

/-! ## The blocks in hand -/

/-- The allocations of the pool among these blocks. -/
def sharedOf (hs : List Held) : List Allocation :=
  hs.filterMap fun h => match h.origin with
    | .shared a => some a
    | .system _ => none

/-- The blocks of the system heap among these blocks. -/
def systemOf (hs : List Held) : List Block :=
  hs.filterMap fun h => match h.origin with
    | .shared _ => none
    | .system b => some b

section Lists

variable {hs hs' : List Held}

@[simp] theorem sharedOf_shared (id : Nat) (a : Allocation) (hs : List Held) :
    sharedOf (⟨id, .shared a⟩ :: hs) = a :: sharedOf hs := rfl

@[simp] theorem sharedOf_system (id : Nat) (b : Block) (hs : List Held) :
    sharedOf (⟨id, .system b⟩ :: hs) = sharedOf hs := rfl

@[simp] theorem systemOf_shared (id : Nat) (a : Allocation) (hs : List Held) :
    systemOf (⟨id, .shared a⟩ :: hs) = systemOf hs := rfl

@[simp] theorem systemOf_system (id : Nat) (b : Block) (hs : List Held) :
    systemOf (⟨id, .system b⟩ :: hs) = b :: systemOf hs := rfl

theorem mem_sharedOf {a : Allocation} : a ∈ sharedOf hs ↔ ∃ id, ⟨id, .shared a⟩ ∈ hs := by
  rw [sharedOf, List.mem_filterMap]
  constructor
  · rintro ⟨⟨id, _ | _⟩, hmem, heq⟩
    · cases heq
      exact ⟨id, hmem⟩
    · cases heq
  · rintro ⟨id, hmem⟩
    exact ⟨_, hmem, rfl⟩

theorem mem_systemOf {b : Block} : b ∈ systemOf hs ↔ ∃ id, ⟨id, .system b⟩ ∈ hs := by
  rw [systemOf, List.mem_filterMap]
  constructor
  · rintro ⟨⟨id, _ | _⟩, hmem, heq⟩
    · cases heq
    · cases heq
      exact ⟨id, hmem⟩
  · rintro ⟨id, hmem⟩
    exact ⟨_, hmem, rfl⟩

theorem sharedOf_perm (h : hs.Perm hs') : (sharedOf hs).Perm (sharedOf hs') := h.filterMap _

theorem systemOf_perm (h : hs.Perm hs') : (systemOf hs).Perm (systemOf hs') := h.filterMap _

end Lists

namespace Process

variable {p : Process r l}

/-- The blocks that the process owns, and those that its calls have in hand. -/
def mine (p : Process r l) : List Held := p.owned ++ p.pending.filterMap Pending.held

end Process

/-- The blocks have numbers and pointers of their own, those of the pool lie in it, and what was
handed to an allocator came from it. -/
structure Tracked (shm : AgnocastSharedMemory) (p : Process r l) (hs : List Held) : Prop where
  nodup : ((hs ++ p.released).map Held.id).Nodup
  fresh : ∀ h ∈ hs ++ p.released, h.id < p.nextId
  handed : ∀ e ∈ p.handed, e.1.producer = e.2
  distinct : hs.Pairwise fun h h' => h.ptr ≠ h'.ptr
  inside : ∀ h ∈ hs, h.producer = .shared → InPool shm h.ptr ∧ h.ptr ≠ 0 ∧ p.allocator ≠ none

namespace Tracked

variable {p : Process r l} {hs hs' : List Held} {h : Held}

theorem perm (ht : Tracked shm p hs) (hperm : hs.Perm hs') : Tracked shm p hs' where
  nodup := ((hperm.append_right _).map _).nodup_iff.mp ht.nodup
  fresh h hmem := ht.fresh h ((hperm.append_right _).mem_iff.mpr hmem)
  handed := ht.handed
  distinct := hperm.pairwise ht.distinct Ne.symm
  inside h hmem := ht.inside h (hperm.mem_iff.mpr hmem)

theorem sublist (ht : Tracked shm p hs) (hsub : hs'.Sublist hs) : Tracked shm p hs' where
  nodup := ht.nodup.sublist ((hsub.append_right _).map _)
  fresh h hmem := ht.fresh h ((hsub.append_right _).subset hmem)
  handed := ht.handed
  distinct := ht.distinct.sublist hsub
  inside h hmem := ht.inside h (hsub.subset hmem)

theorem setLibc (ht : Tracked shm p hs) (t : l.State) (m : Memory) :
    Tracked shm (p.setLibc t m) hs := ⟨ht.nodup, ht.fresh, ht.handed, ht.distinct, ht.inside⟩

theorem setAllocator (ht : Tracked shm p hs) (t : r.State) : Tracked shm (p.setAllocator t) hs :=
  ⟨ht.nodup, ht.fresh, ht.handed, ht.distinct, fun h hmem hshared =>
    ⟨(ht.inside h hmem hshared).1, (ht.inside h hmem hshared).2.1, Option.some_ne_none t⟩⟩

/-- A new block gets a number that was never used. -/
theorem keep (ht : Tracked shm p hs) (origin : Origin)
    (hne : ∀ h ∈ hs, h.ptr ≠ (⟨p.nextId, origin⟩ : Held).ptr)
    (hin : (⟨p.nextId, origin⟩ : Held).producer = .shared →
      InPool shm (⟨p.nextId, origin⟩ : Held).ptr ∧ (⟨p.nextId, origin⟩ : Held).ptr ≠ 0 ∧
        p.allocator ≠ none) :
    Tracked shm (p.keep origin) (⟨p.nextId, origin⟩ :: hs) where
  nodup := by
    rw [List.cons_append, List.map_cons]
    refine List.nodup_cons.mpr ⟨fun hmem => ?_, ht.nodup⟩
    obtain ⟨h, hmem, hid⟩ := List.mem_map.mp hmem
    have hlt := ht.fresh h hmem
    have hid' : h.id = p.nextId := hid
    omega
  fresh := by
    refine List.forall_mem_cons.mpr ⟨Nat.lt_succ_self _, fun h hmem => ?_⟩
    exact Nat.lt_succ_of_lt (ht.fresh h hmem)
  handed := ht.handed
  distinct := List.pairwise_cons.mpr ⟨fun h hmem => (hne h hmem).symm, ht.distinct⟩
  inside := List.forall_mem_cons.mpr ⟨hin, ht.inside⟩

theorem handTo (ht : Tracked shm p hs) {a : Allocator} (ha : h.producer = a) :
    Tracked shm (p.handTo (some h) a) hs where
  nodup := ht.nodup
  fresh := ht.fresh
  handed := List.forall_mem_cons.mpr ⟨ha, ht.handed⟩
  distinct := ht.distinct
  inside := ht.inside

/-- A block that is released is not in hand any more. -/
theorem release (ht : Tracked shm p (h :: hs)) : Tracked shm (p.release (some h)) hs where
  nodup := (List.perm_middle.map Held.id).nodup_iff.mpr ht.nodup
  fresh h' hmem := ht.fresh h' (List.perm_middle.mem_iff.mp hmem)
  handed := ht.handed
  distinct := (List.pairwise_cons.mp ht.distinct).2
  inside := (List.forall_mem_cons.mp ht.inside).2

theorem giveBack (ht : Tracked shm p hs) (held : Option Held) :
    Tracked shm (p.giveBack held) hs :=
  ⟨ht.nodup, ht.fresh, ht.handed, ht.distinct, ht.inside⟩

/-- What the system heap hands out is no pointer in hand. -/
theorem ptr_ne_system (hl : l.Lawful shm Vl) (ht : Tracked shm p hs) {b : Block}
    {t : l.State} {m : Memory} (hv : Vl (b :: systemOf (hs ++ p.leaked)) t m) :
    ∀ h ∈ hs, h.ptr ≠ b.addr := by
  rintro ⟨id, a | c⟩ hmem heq
  · have hin := (ht.inside _ hmem rfl).1
    rw [heq] at hin
    exact (hl.outside hv b List.mem_cons_self).2 hin
  · have hc : c ∈ systemOf (hs ++ p.leaked) :=
      mem_systemOf.mpr ⟨id, List.mem_append_left _ hmem⟩
    exact (List.pairwise_cons.mp (hl.distinct hv)).1 c hc heq.symm

end Tracked

/-- What the shared allocator hands out is no pointer in hand. -/
theorem ptr_ne_shared (hr : r.Lawful shm Vr) (hl : l.Lawful shm Vl) {hs leaked : List Held}
    {a : Allocation} {t : l.State} {m : Memory} (hv : Vl (systemOf (hs ++ leaked)) t m)
    {t' : r.State} {pool : Memory} (hpool : PoolOk Vr (a :: sharedOf hs) t' pool) :
    ∀ h ∈ hs, h.ptr ≠ a.ptr := by
  rintro ⟨id, b | c⟩ hmem heq
  · exact hpool.ptr_ne hr b (mem_sharedOf.mpr ⟨id, hmem⟩) heq
  · have hc : c ∈ systemOf (hs ++ leaked) :=
      mem_systemOf.mpr ⟨id, List.mem_append_left _ hmem⟩
    refine (hl.outside hv c hc).2 ?_
    rw [show c.addr = a.ptr from heq]
    exact (hpool.inPool hr List.mem_cons_self).1

/-! ## Actions -/

/-- An action fits the block that its caller passed; those of the shared allocator need a process
that uses it. -/
inductive Matches (usesPool : Prop) : Action → Option Held → Prop
  | request (q : Request) : Matches usesPool (.original (.request q)) none
  | realloc (h : Held) (newSize : Nat) (hs : h.producer = .system) :
      Matches usesPool (.original (.realloc h.ptr newSize)) (some h)
  | free (h : Held) (hs : h.producer = .system) :
      Matches usesPool (.original (.free h.ptr)) (some h)
  | allocate (q : Request) (layout : Layout) (hu : usesPool) :
      Matches usesPool (.allocate q layout) none
  | reallocate (h : Held) (newLayout : Layout) (hu : usesPool) (hs : h.producer = .shared) :
      Matches usesPool (.reallocate h.ptr newLayout) (some h)
  | deallocate (h : Held) (hu : usesPool) (hs : h.producer = .shared) :
      Matches usesPool (.deallocate h.ptr) (some h)

/-- The new size, of a call of `realloc`. -/
def Action.newSize? : Action → Option Nat
  | .original (.realloc _ newSize) => some newSize
  | .reallocate _ newLayout => some newLayout.size
  | _ => none

/-- The memory that the blocks of an allocator are in. -/
def Process.bytes (p : Process r l) (pool : Memory) : Allocator → Memory
  | .shared => pool
  | .system => p.heap

/-- What `realloc` did with a block: it is in a new place with as much of its contents as fits, or
where it was with all of it, or freed for a new size of zero. -/
inductive Resized (p : Process r l) (pool : Memory) (h : Held) (newSize : Nat) (answer : Answer)
    (p' : Process r l) (pool' : Memory) : Prop
  | moved (h' : Held) (hanswer : answer = ⟨some h'.ptr, 0⟩) (howned : h' ∈ p'.owned)
      (hsize : h'.size = newSize) (hproducer : h'.producer = h.producer)
      (hreleased : h ∈ p'.released)
      (hdata : ∀ i < min h.size newSize,
        p'.bytes pool' h.producer (h'.ptr + i) = p.bytes pool h.producer (h.ptr + i))
  | kept (hanswer : answer = .null) (howned : h ∈ p'.owned)
      (hdata : ∀ i < h.size,
        p'.bytes pool' h.producer (h.ptr + i) = p.bytes pool h.producer (h.ptr + i))
  | freed (hanswer : answer = .null) (hzero : newSize = 0) (hreleased : h ∈ p'.released)

/-- What an action leaves. `R` says that the process is the one that uses the pool. -/
structure Performed (shm : AgnocastSharedMemory) (Vr : List Block → r.State → Memory → Prop)
    (Vl : List Block → l.State → Memory → Prop) (R : Prop) (p : Process r l) (pool : Memory)
    (held : Option Held) (a : Action) (answer : Answer) (p' : Process r l) (pool' : Memory) :
    Prop where
  isForkedChild : p'.isForkedChild = p.isForkedChild
  atfork : p'.atfork = p.atfork
  sharedMemory : p'.sharedMemory = p.sharedMemory
  pending : p'.pending = p.pending
  allocator : p'.allocator ≠ none ↔ p.allocator ≠ none
  valid : Vl (systemOf (p'.mine ++ p'.leaked)) p'.libc p'.heap
  tracked : Tracked shm p' p'.mine
  inUse : R → ∀ t, p'.allocator = some t → PoolOk Vr (sharedOf p'.mine) t pool'
  /-- The original functions know nothing of the pool. -/
  original : ¬ R → pool' = pool ∧ p'.allocator = p.allocator ∧
    (∀ e ∈ p'.handed, e ∈ p.handed ∨ e.2 = .system) ∧
    ∀ h ∈ p'.released, h ∈ p.released ∨ h.producer = .system
  resized : ∀ h newSize, held = some h → a.newSize? = some newSize →
    Resized p pool h newSize answer p' pool'

section Perform

variable {p : Process r l} {pool : Memory} {R : Prop}

private theorem perform_request (hl : l.Lawful shm Vl) (q : Request)
    (hv : Vl (systemOf (p.mine ++ p.leaked)) p.libc p.heap) (ht : Tracked shm p p.mine)
    (hpool : R → ∀ t, p.allocator = some t → PoolOk Vr (sharedOf p.mine) t pool) :
    ∃ answer p' pool', p.perform pool none (.original (.request q)) = some (answer, p', pool') ∧
      Performed shm Vr Vl R p pool none (.original (.request q)) answer p' pool' := by
  rcases hcall : l.request q p.libc p.heap with ⟨answer, t, m⟩
  cases hptr : answer.ptr with
  | none =>
    refine ⟨answer, p.setLibc t m, pool, by simp only [Process.perform, hcall, hptr], rfl, rfl, rfl,
      rfl, Iff.rfl, hl.not_allocated hv hcall hptr, ht.setLibc t m, hpool, fun _ => ?_, nofun⟩
    exact ⟨rfl, rfl, fun _ => .inl, fun _ => .inl⟩
  | some o =>
    have hv' := hl.allocated hv hcall hptr
    refine ⟨answer, (p.setLibc t m).keep (.system ⟨o, q.bytes⟩), pool,
      by simp only [Process.perform, hcall, hptr], rfl, rfl, rfl, rfl, Iff.rfl, hv',
      (ht.setLibc t m).keep _ (ht.ptr_ne_system hl hv') nofun, hpool, fun _ => ?_, nofun⟩
    exact ⟨rfl, rfl, fun _ => .inl, fun _ => .inl⟩

/-- The block was released to the system heap, which nobody else handed anything. -/
private theorem released_system (id : Nat) (b : Block) (p : Process r l) :
    (∀ e ∈ ((⟨⟨id, .system b⟩, .system⟩ : Held × Allocator) :: p.handed), e ∈ p.handed ∨
      e.2 = .system) ∧
    ∀ h ∈ ((⟨id, .system b⟩ : Held) :: p.released), h ∈ p.released ∨ h.producer = .system :=
  ⟨List.forall_mem_cons.mpr ⟨.inr rfl, fun _ => .inl⟩,
    List.forall_mem_cons.mpr ⟨.inr rfl, fun _ => .inl⟩⟩

private theorem perform_free (hl : l.Lawful shm Vl) {h : Held} (hs : h.producer = .system)
    (hv : Vl (systemOf (h :: (p.mine ++ p.leaked))) p.libc p.heap)
    (ht : Tracked shm p (h :: p.mine))
    (hpool : R → ∀ t, p.allocator = some t → PoolOk Vr (sharedOf (h :: p.mine)) t pool) :
    ∃ answer p' pool', p.perform pool (some h) (.original (.free h.ptr)) =
        some (answer, p', pool') ∧
      Performed shm Vr Vl R p pool (some h) (.original (.free h.ptr)) answer p' pool' := by
  obtain ⟨id, a | b⟩ := h
  · cases hs
  rcases hcall : l.free b.addr p.libc p.heap with ⟨t, m⟩
  have hv' : Vl (systemOf (p.mine ++ p.leaked)) t m := by
    have hfreed := hl.freed (b := b) hv
    rwa [hcall] at hfreed
  have hptr : (⟨id, .system b⟩ : Held).ptr = b.addr := rfl
  refine ⟨.null, ((p.setLibc t m).handTo (some ⟨id, .system b⟩) .system).release _, pool,
    by simp only [Process.perform, hptr, hcall], rfl, rfl, rfl, rfl, Iff.rfl, hv',
    ((ht.setLibc t m).handTo hs).release, hpool, fun _ => ⟨rfl, rfl, released_system _ _ p⟩, nofun⟩

private theorem perform_realloc (hl : l.Lawful shm Vl) {h : Held} (hs : h.producer = .system)
    (newSize : Nat) (hv : Vl (systemOf (h :: (p.mine ++ p.leaked))) p.libc p.heap)
    (ht : Tracked shm p (h :: p.mine))
    (hpool : R → ∀ t, p.allocator = some t → PoolOk Vr (sharedOf (h :: p.mine)) t pool) :
    ∃ answer p' pool', p.perform pool (some h) (.original (.realloc h.ptr newSize)) =
        some (answer, p', pool') ∧
      Performed shm Vr Vl R p pool (some h) (.original (.realloc h.ptr newSize)) answer p' pool' := by
  obtain ⟨id, a | b⟩ := h
  · cases hs
  have hptr : (⟨id, .system b⟩ : Held).ptr = b.addr := rfl
  rcases hcall : l.realloc b.addr newSize p.libc p.heap with ⟨_ | o, t, m⟩
  · have hv' := hl.not_reallocated hv hcall
    -- a `realloc` to nothing may free; any other that fails leaves the block
    by_cases hzero : newSize = 0
    · rw [if_pos hzero] at hv'
      refine ⟨.null, ((p.setLibc t m).handTo (some ⟨id, .system b⟩) .system).release _, pool,
        by simp only [Process.perform, hptr, hcall, if_pos hzero], rfl, rfl, rfl, rfl, Iff.rfl, hv',
        ((ht.setLibc t m).handTo hs).release, hpool, fun _ => ⟨rfl, rfl, released_system _ _ p⟩,
        fun h' n heq hn => ?_⟩
      obtain rfl := Option.some.inj heq
      obtain rfl := Option.some.inj hn
      exact .freed rfl hzero List.mem_cons_self
    · rw [if_neg hzero] at hv'
      refine ⟨.null, ((p.setLibc t m).handTo (some ⟨id, .system b⟩) .system).giveBack
          (some ⟨id, .system b⟩), pool,
        by simp only [Process.perform, hptr, hcall, if_neg hzero], rfl, rfl, rfl, rfl, Iff.rfl,
        hv'.1, ((ht.setLibc t m).handTo hs).giveBack _, hpool,
        fun _ => ⟨rfl, rfl, (released_system id b p).1, fun _ => .inl⟩,
        fun h' n heq hn => ?_⟩
      obtain rfl := Option.some.inj heq
      exact .kept rfl List.mem_cons_self fun i hi =>
        hv'.2 _ (Nat.le_add_right ..) (Nat.add_lt_add_left hi _)
  -- the block has moved with its contents
  · obtain ⟨hv', hdata⟩ := hl.reallocated hv hcall
    have htr := ((ht.setLibc t m).handTo hs).release
    refine ⟨⟨some o, 0⟩, (((p.setLibc t m).handTo (some ⟨id, .system b⟩) .system).release _).keep
        (.system ⟨o, newSize⟩), pool, by simp only [Process.perform, hptr, hcall], rfl, rfl, rfl, rfl,
      Iff.rfl, hv', htr.keep (.system ⟨o, newSize⟩) (htr.ptr_ne_system hl hv') nofun, hpool,
      fun _ => ⟨rfl, rfl, released_system _ _ p⟩, fun h' n heq hn => ?_⟩
    obtain rfl := Option.some.inj heq
    obtain rfl := Option.some.inj hn
    exact .moved ⟨p.nextId, .system ⟨o, newSize⟩⟩ rfl List.mem_cons_self rfl rfl List.mem_cons_self
      hdata

/-- What the shared allocator does with a process that has it. -/
private theorem perform_allocate (hr : r.Lawful shm Vr) (hl : l.Lawful shm Vl) (q : Request)
    (layout : Layout) (hR : R) {t : r.State} (halloc : p.allocator = some t)
    (hv : Vl (systemOf (p.mine ++ p.leaked)) p.libc p.heap) (ht : Tracked shm p p.mine)
    (hpool : R → ∀ t, p.allocator = some t → PoolOk Vr (sharedOf p.mine) t pool) :
    ∃ answer p' pool', p.perform pool none (.allocate q layout) = some (answer, p', pool') ∧
      Performed shm Vr Vl R p pool none (.allocate q layout) answer p' pool' := by
  obtain ⟨o, t', m', hcall, hspec⟩ := (hpool hR t halloc).allocate hr layout
  have hsome : p.allocator ≠ none := by simp [halloc]
  cases o with
  | none =>
    refine ⟨q.answer none, p.setAllocator t', m', ?_, rfl, rfl, rfl, rfl,
      ⟨fun _ => hsome, fun _ => Option.some_ne_none _⟩, hv, ht.setAllocator t', fun _ t₁ ht₁ => ?_,
      fun hn => absurd hR hn, nofun⟩
    · simp only [Process.perform, halloc, Option.bind_eq_bind, Option.bind_some, hcall]
    · obtain rfl := Option.some.inj ht₁
      exact hspec
  | some a =>
    obtain ⟨-, hin⟩ := hspec
    have htr := ht.setAllocator t'
    refine ⟨q.answer (some a.ptr), (p.setAllocator t').keep (.shared a), Process.fill q a m', ?_, rfl,
      rfl, rfl, rfl, ⟨fun _ => hsome, fun _ => Option.some_ne_none _⟩, hv,
      htr.keep (.shared a) (ptr_ne_shared hr hl hv hin) fun _ => ?_, fun _ t₁ ht₁ => ?_,
      fun hn => absurd hR hn, nofun⟩
    · simp only [Process.perform, halloc, Option.bind_eq_bind, Option.bind_some, hcall]
    · obtain ⟨hlo, hne⟩ := hin.inPool hr List.mem_cons_self
      exact ⟨hlo, hne, Option.some_ne_none _⟩
    · obtain rfl := Option.some.inj ht₁
      exact hin.fill hr List.mem_cons_self q

private theorem perform_deallocate (hr : r.Lawful shm Vr) {h : Held} (hs : h.producer = .shared)
    (hR : R) {t : r.State} (halloc : p.allocator = some t)
    (hv : Vl (systemOf (h :: (p.mine ++ p.leaked))) p.libc p.heap)
    (ht : Tracked shm p (h :: p.mine))
    (hpool : R → ∀ t, p.allocator = some t → PoolOk Vr (sharedOf (h :: p.mine)) t pool) :
    ∃ answer p' pool', p.perform pool (some h) (.deallocate h.ptr) = some (answer, p', pool') ∧
      Performed shm Vr Vl R p pool (some h) (.deallocate h.ptr) answer p' pool' := by
  obtain ⟨id, a | b⟩ := h
  · obtain ⟨t', m', hcall, hin⟩ := PoolOk.deallocate hr (hpool hR t halloc)
    have hptr : (⟨id, .shared a⟩ : Held).ptr = a.ptr := rfl
    refine ⟨.null, ((p.setAllocator t').handTo (some ⟨id, .shared a⟩) .shared).release _, m', ?_, rfl,
      rfl, rfl, rfl, ⟨fun _ => by simp [halloc], fun _ => Option.some_ne_none _⟩, hv,
      ((ht.setAllocator t').handTo hs).release, fun _ t₁ ht₁ => ?_, fun hn => absurd hR hn, nofun⟩
    · simp only [Process.perform, halloc, Option.bind_eq_bind, Option.bind_some, hptr, hcall]
    · obtain rfl := Option.some.inj ht₁
      exact hin
  · cases hs

private theorem perform_reallocate (hr : r.Lawful shm Vr) (hl : l.Lawful shm Vl) {h : Held}
    (hs : h.producer = .shared) (newLayout : Layout) (hR : R) {t : r.State}
    (halloc : p.allocator = some t)
    (hv : Vl (systemOf (h :: (p.mine ++ p.leaked))) p.libc p.heap)
    (ht : Tracked shm p (h :: p.mine))
    (hpool : R → ∀ t, p.allocator = some t → PoolOk Vr (sharedOf (h :: p.mine)) t pool) :
    ∃ answer p' pool', p.perform pool (some h) (.reallocate h.ptr newLayout) =
        some (answer, p', pool') ∧
      Performed shm Vr Vl R p pool (some h) (.reallocate h.ptr newLayout) answer p' pool' := by
  obtain ⟨id, a | b⟩ := h
  · have hptr : (⟨id, .shared a⟩ : Held).ptr = a.ptr := rfl
    obtain ⟨o, t', m', hcall, hspec⟩ := PoolOk.reallocate hr (hpool hR t halloc) newLayout
    cases o with
    -- the pool has no room, and the block stays as it is
    | none =>
      obtain ⟨hin, hdata⟩ := hspec
      refine ⟨.null, ((p.setAllocator t').handTo (some ⟨id, .shared a⟩) .shared).giveBack
          (some ⟨id, .shared a⟩), m', ?_, rfl, rfl, rfl, rfl,
        ⟨fun _ => by simp [halloc], fun _ => Option.some_ne_none _⟩, hv,
        ((ht.setAllocator t').handTo hs).giveBack _, fun _ t₁ ht₁ => ?_, fun hn => absurd hR hn,
        fun h' n heq hn => ?_⟩
      · simp only [Process.perform, halloc, Option.bind_eq_bind, Option.bind_some, hptr, hcall]
      · obtain rfl := Option.some.inj ht₁
        exact hin
      · obtain rfl := Option.some.inj heq
        exact .kept rfl List.mem_cons_self hdata
    -- the block has moved; the old one is released
    | some b =>
      obtain ⟨hlayout, hin, hdata⟩ := hspec
      have htr := ((ht.setAllocator t').handTo hs).release
      refine ⟨⟨some b.ptr, 0⟩, (((p.setAllocator t').handTo (some ⟨id, .shared a⟩) .shared).release
          _).keep (.shared b), m', ?_, rfl, rfl, rfl, rfl,
        ⟨fun _ => by simp [halloc], fun _ => Option.some_ne_none _⟩, hv,
        htr.keep (.shared b) (ptr_ne_shared hr hl hv hin) fun _ => ?_, fun _ t₁ ht₁ => ?_,
        fun hn => absurd hR hn, fun h' n heq hn => ?_⟩
      · simp only [Process.perform, halloc, Option.bind_eq_bind, Option.bind_some, hptr, hcall]
      · obtain ⟨hlo, hne⟩ := hin.inPool hr List.mem_cons_self
        exact ⟨hlo, hne, Option.some_ne_none _⟩
      · obtain rfl := Option.some.inj ht₁
        exact hin
      · obtain rfl := Option.some.inj heq
        obtain rfl := Option.some.inj hn
        exact .moved ⟨p.nextId, .shared b⟩ rfl List.mem_cons_self (congrArg Layout.size hlayout) rfl
          List.mem_cons_self hdata
  · cases hs

/-- **An action keeps what is tracked** and both allocators valid, and does to a block what
`realloc` may do. -/
theorem perform_ok (hr : r.Lawful shm Vr) (hl : l.Lawful shm Vl) {held : Option Held} {a : Action}
    (hm : Matches (R ∧ p.allocator ≠ none) a held)
    (hv : Vl (systemOf (held.toList ++ (p.mine ++ p.leaked))) p.libc p.heap)
    (ht : Tracked shm p (held.toList ++ p.mine))
    (hpool : R → ∀ t, p.allocator = some t →
      PoolOk Vr (sharedOf (held.toList ++ p.mine)) t pool) :
    ∃ answer p' pool', p.perform pool held a = some (answer, p', pool') ∧
      Performed shm Vr Vl R p pool held a answer p' pool' := by
  cases hm with
  | request q => exact perform_request hl q hv ht hpool
  | realloc h newSize hs => exact perform_realloc hl hs newSize hv ht hpool
  | free h hs => exact perform_free hl hs hv ht hpool
  | allocate q layout hu =>
    obtain ⟨t, halloc⟩ := Option.ne_none_iff_exists'.mp hu.2
    exact perform_allocate hr hl q layout hu.1 halloc hv ht hpool
  | reallocate h newLayout hu hs =>
    obtain ⟨t, halloc⟩ := Option.ne_none_iff_exists'.mp hu.2
    exact perform_reallocate hr hl hs newLayout hu.1 halloc hv ht hpool
  | deallocate h hu hs =>
    obtain ⟨t, halloc⟩ := Option.ne_none_iff_exists'.mp hu.2
    exact perform_deallocate hr hs hu.1 halloc hv ht hpool

end Perform

/-! ## A process -/

/-- The invariant of a process. A process other than the registered one that has the pool in its
statics is marked as a forked child. -/
structure ProcessOk (shm : AgnocastSharedMemory) (Vl : List Block → l.State → Memory → Prop)
    (pid : Nat) (p : Process r l) : Prop where
  memory : ∀ shm', p.sharedMemory = some shm' → shm' = shm ∧ p.atfork = true
  allocator : p.allocator ≠ none → p.sharedMemory = some shm
  root : pid = 0 → p.isForkedChild = false
  child : pid ≠ 0 → p.sharedMemory ≠ none → p.isForkedChild = true
  valid : Vl (systemOf (p.mine ++ p.leaked)) p.libc p.heap
  tracked : Tracked shm p p.mine
  pending : ∀ c ∈ p.pending, Matches (pid = 0 ∧ p.allocator ≠ none) c.action c.held
  system_only : pid ≠ 0 →
    (∀ e ∈ p.handed, e.2 = .system) ∧ ∀ h ∈ p.released, h.producer = .system

namespace ProcessOk

variable {p : Process r l} {pid : Nat} {h : Held}

/-- A process that is no forked child and has the allocator is the registered one. -/
theorem usesPool (hok : ProcessOk shm Vl pid p) (hchild : p.isForkedChild = false)
    (halloc : p.allocator ≠ none) : pid = 0 ∧ p.allocator ≠ none := by
  refine ⟨?_, halloc⟩
  by_contra hpid
  have hforked := hok.child hpid (by rw [hok.allocator halloc]; exact Option.some_ne_none _)
  rw [hchild] at hforked
  cases hforked

theorem ptr_ne_zero (hl : l.Lawful shm Vl) (hok : ProcessOk shm Vl pid p) (hmem : h ∈ p.mine) :
    h.ptr ≠ 0 := by
  obtain ⟨id, a | b⟩ := h
  · exact (hok.tracked.inside _ hmem rfl).2.1
  · exact (hl.outside hok.valid b (mem_systemOf.mpr ⟨id, List.mem_append_left _ hmem⟩)).1

/-- **The address tells the producer.** -/
theorem isShared_iff (hl : l.Lawful shm Vl) (hok : ProcessOk shm Vl pid p) (hmem : h ∈ p.mine) :
    p.isShared h.ptr = true ↔ h.producer = .shared := by
  constructor
  · intro hshared
    obtain ⟨id, a | b⟩ := h
    · rfl
    · rw [Process.isShared] at hshared
      cases hm : p.sharedMemory with
      | none =>
        rw [hm] at hshared
        cases hshared
      | some shm' =>
        obtain rfl := (hok.memory shm' hm).1
        rw [hm] at hshared
        exact absurd (of_decide_eq_true hshared)
          (hl.outside hok.valid b (mem_systemOf.mpr ⟨id, List.mem_append_left _ hmem⟩)).2
  · intro hproducer
    obtain ⟨hin, -, halloc⟩ := hok.tracked.inside h hmem hproducer
    rw [Process.isShared, hok.allocator halloc]
    exact decide_eq_true hin

theorem isShared_system (hl : l.Lawful shm Vl) (hok : ProcessOk shm Vl pid p) (hmem : h ∈ p.mine)
    (hs : h.producer = .system) : p.isShared h.ptr = false := by
  refine Bool.eq_false_iff.mpr fun hshared => ?_
  rw [(hok.isShared_iff hl hmem).mp hshared] at hs
  cases hs

end ProcessOk

/-! ## What a call decides -/

section Dispatch

variable {p : Process r l} {pid : Nat} {a : Action}

theorem unwrapAllocator_eq_perform {b : Action} (h : p.unwrapAllocator b = .perform a) :
    a = b ∧ p.allocator ≠ none := by
  rw [Process.unwrapAllocator] at h
  split at h
  · next hsome =>
    cases h
    exact ⟨rfl, Option.isSome_iff_ne_none.mp hsome⟩
  · cases h

theorem allocateLayout_eq_perform {q : Request} {layout : Option Layout} {failure : Answer}
    (h : p.allocateLayout q layout failure = .perform a) :
    ∃ layout, a = .allocate q layout ∧ p.allocator ≠ none := by
  cases layout with
  | none => cases h
  | some layout => exact ⟨layout, unwrapAllocator_eq_perform h⟩

/-- The decision of a request: to the system heap, or what follows when the pool is used. -/
theorem matches_request (hok : ProcessOk shm Vl pid p) {borrowed : Nat} {q : Request} {d : Decision}
    (h : (if p.shouldUseHeap borrowed then .perform (.original (.request q)) else d) = .perform a)
    (hd : d = .perform a → ∃ layout, a = .allocate q layout ∧ p.allocator ≠ none) :
    Matches (pid = 0 ∧ p.allocator ≠ none) a none := by
  split at h
  · cases h
    exact .request q
  · next hheap =>
    obtain ⟨layout, rfl, halloc⟩ := hd h
    have hchild : p.isForkedChild = false := by
      rw [Process.shouldUseHeap, Bool.or_eq_true, not_or] at hheap
      simpa using hheap.1
    exact .allocate q layout (hok.usesPool hchild halloc)

theorem matches_malloc (hok : ProcessOk shm Vl pid p) {borrowed size : Nat}
    (h : p.malloc borrowed size = .perform a) :
    Matches (pid = 0 ∧ p.allocator ≠ none) a none :=
  matches_request hok h allocateLayout_eq_perform

theorem matches_dispatch_request (hok : ProcessOk shm Vl pid p) {borrowed : Nat} {q : Request}
    (h : p.dispatch borrowed (.request q) = .perform a) :
    Matches (pid = 0 ∧ p.allocator ≠ none) a none := by
  cases q with
  | malloc size => exact matches_malloc hok h
  | calloc num size =>
    refine matches_request hok h fun hd => ?_
    split at hd
    · cases hd
    · exact allocateLayout_eq_perform hd
  | posixMemalign alignment size =>
    refine matches_request hok h fun hd => ?_
    split at hd
    · cases hd
    · exact allocateLayout_eq_perform hd
  | alignedAlloc alignment size =>
    refine matches_request hok h fun hd => ?_
    split at hd
    · cases hd
    · exact allocateLayout_eq_perform hd
  | memalign alignment size => exact matches_request hok h allocateLayout_eq_perform

/-- `free` of a block of the process. -/
theorem dispatch_free (borrowed : Nat) (hl : l.Lawful shm Vl) (hok : ProcessOk shm Vl pid p) {h : Held}
    (hmem : h ∈ p.mine) :
    (h.producer = .system →
      p.dispatch borrowed (.free h.ptr) = .perform (.original (.free h.ptr))) ∧
    (h.producer = .shared → pid = 0 →
      p.dispatch borrowed (.free h.ptr) = .perform (.deallocate h.ptr)) ∧
    (h.producer = .shared → pid ≠ 0 → p.dispatch borrowed (.free h.ptr) = .answer .null) := by
  have hne := hok.ptr_ne_zero hl hmem
  refine ⟨fun hs => ?_, fun hs hpid => ?_, fun hs hpid => ?_⟩
  · rw [Process.dispatch, Process.free, if_neg hne,
      if_pos (by rw [hok.isShared_system hl hmem hs]; rfl)]
  · have hshared := (hok.isShared_iff hl hmem).mpr hs
    obtain ⟨-, -, halloc⟩ := hok.tracked.inside h hmem hs
    rw [Process.dispatch, Process.free, if_neg hne, if_neg (by rw [hshared]; simp),
      hok.root hpid, if_neg Bool.false_ne_true, Process.unwrapAllocator,
      if_pos (Option.isSome_iff_ne_none.mpr halloc)]
  · have hshared := (hok.isShared_iff hl hmem).mpr hs
    obtain ⟨-, -, halloc⟩ := hok.tracked.inside h hmem hs
    have hforked := hok.child hpid (by rw [hok.allocator halloc]; exact Option.some_ne_none _)
    rw [Process.dispatch, Process.free, if_neg hne, if_neg (by rw [hshared]; simp), if_pos hforked]

/-- `realloc` of a block of the process. -/
theorem dispatch_realloc (borrowed : Nat) (hl : l.Lawful shm Vl) (hok : ProcessOk shm Vl pid p) {h : Held}
    (hmem : h ∈ p.mine) (newSize : Nat) :
    (h.producer = .system → p.dispatch borrowed (.realloc h.ptr newSize) =
      .perform (.original (.realloc h.ptr newSize))) ∧
    (h.producer = .shared → p.dispatch borrowed (.realloc h.ptr newSize) = .answer .null ∨
      pid = 0 ∧ ∃ layout, layout.size = newSize ∧
        p.dispatch borrowed (.realloc h.ptr newSize) = .perform (.reallocate h.ptr layout)) := by
  have hne := hok.ptr_ne_zero hl hmem
  refine ⟨fun hs => ?_, fun hs => ?_⟩
  · rw [Process.dispatch, Process.realloc, if_neg hne,
      if_pos (by rw [hok.isShared_system hl hmem hs]; rfl)]
  · have hshared := (hok.isShared_iff hl hmem).mpr hs
    obtain ⟨-, -, halloc⟩ := hok.tracked.inside h hmem hs
    rw [Process.dispatch, Process.realloc, if_neg hne, if_neg (by rw [hshared]; simp)]
    by_cases hheap : p.shouldUseHeap borrowed = true
    · exact .inl (if_pos hheap)
    · rw [if_neg hheap]
      have hchild : p.isForkedChild = false := by
        rw [Process.shouldUseHeap, Bool.or_eq_true, not_or] at hheap
        simpa using hheap.1
      rcases hlayout : fromSizeAlign newSize minAlign with _ | layout
      · exact .inl rfl
      · refine .inr ⟨(hok.usesPool hchild halloc).1, layout, ?_, ?_⟩
        · rw [fromSizeAlign] at hlayout
          split at hlayout
          · cases hlayout
            rfl
          · cases hlayout
        · show p.unwrapAllocator _ = _
          rw [Process.unwrapAllocator, if_pos (Option.isSome_iff_ne_none.mpr halloc)]

/-- The block that the caller passes. -/
def Process.passed (p : Process r l) (c : Call) : Option Held := (Process.given c).bind p.find

theorem find_eq_some {ptr : Nat} {h : Held} (hf : p.find ptr = some h) :
    h ∈ p.owned ∧ h.ptr = ptr :=
  ⟨List.mem_of_find?_eq_some hf, by simpa using List.find?_some hf⟩

/-- **What a call decides fits the block that its caller passed.** -/
theorem dispatch_matches (hl : l.Lawful shm Vl) (hok : ProcessOk shm Vl pid p) {borrowed : Nat}
    {c : Call}
    (hc : (Process.given c).all (fun ptr => decide (ptr = 0 ∨ (p.find ptr).isSome)) = true)
    (h : p.dispatch borrowed c = .perform a) :
    Matches (pid = 0 ∧ p.allocator ≠ none) a (p.passed c) := by
  -- nobody owns a block at null
  have hnull : p.find 0 = none := by
    refine Option.eq_none_iff_forall_ne_some.mpr fun h hf => ?_
    obtain ⟨hmem, hptr⟩ := find_eq_some hf
    exact hok.ptr_ne_zero hl (List.mem_append_left _ hmem) hptr
  have hfound {ptr : Nat} (hptr : ptr ≠ 0) (hp : ptr = 0 ∨ (p.find ptr).isSome = true) :
      ∃ h, p.find ptr = some h ∧ h ∈ p.mine ∧ h.ptr = ptr := by
    obtain ⟨h, hf⟩ := Option.isSome_iff_exists.mp (hp.resolve_left hptr)
    obtain ⟨hmem, heq⟩ := find_eq_some hf
    exact ⟨h, hf, List.mem_append_left _ hmem, heq⟩
  cases c with
  | request q => exact matches_dispatch_request hok h
  | realloc ptr newSize =>
    by_cases hptr : ptr = 0
    · subst hptr
      rw [Process.dispatch, Process.realloc, if_pos rfl] at h
      show Matches _ a (p.find 0)
      rw [hnull]
      exact matches_malloc hok h
    · obtain ⟨held, hf, hmem, rfl⟩ := hfound hptr (of_decide_eq_true hc)
      obtain ⟨hsystem, hshared⟩ := dispatch_realloc borrowed hl hok hmem newSize
      show Matches _ a (p.find held.ptr)
      rw [hf]
      cases hs : held.producer with
      | system =>
        rw [hsystem hs] at h
        cases h
        exact .realloc held newSize hs
      | shared =>
        -- the pool serves it in the parent, and answers null in a child
        obtain hnull' | ⟨hpid, layout, -, hperform⟩ := hshared hs
        · rw [hnull'] at h
          cases h
        · rw [hperform] at h
          cases h
          exact .reallocate held layout ⟨hpid, (hok.tracked.inside held hmem hs).2.2⟩ hs
  | free ptr =>
    by_cases hptr : ptr = 0
    · subst hptr
      rw [Process.dispatch, Process.free, if_pos rfl] at h
      cases h
    · obtain ⟨held, hf, hmem, rfl⟩ := hfound hptr (of_decide_eq_true hc)
      obtain ⟨hsystem, hroot, hforked⟩ := dispatch_free borrowed hl hok hmem
      show Matches _ a (p.find held.ptr)
      rw [hf]
      cases hs : held.producer with
      | system =>
        rw [hsystem hs] at h
        cases h
        exact .free held hs
      | shared =>
        by_cases hpid : pid = 0
        · rw [hroot hs hpid] at h
          cases h
          exact .deallocate held ⟨hpid, (hok.tracked.inside held hmem hs).2.2⟩ hs
        · rw [hforked hs hpid] at h
          cases h

end Dispatch

end Agnocast.Heaphook
