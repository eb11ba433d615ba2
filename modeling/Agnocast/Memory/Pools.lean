import Agnocast.Process.Changes

/-!
# The memory pools — no two heaps overlap

A pool belongs to the process that registered with it until that process exits;
other processes map it to read messages. The counter and the list of a pool are
kept by three operations at different places, so what they keep together is one
invariant (`PoolsOk`), proved by the cases of `ProcChange`.

* `PoolsOk`            — layout, counters, lists and owners.
* `reachable_poolsOk`  — in every reachable state.
* `run_pools_sound`    — live processes own disjoint ranges, and a pool is handed
  out only when nobody maps it.
* `exited_process_shares_pool` — an exited process that is not drained yet is still
  registered with a pool that belongs to somebody else by now.
-/

namespace Agnocast

variable {σ : Kmod}

/-! ## Layout -/

/-- The loop of `init_memory_allocator`: the address of pool `i` is a running sum in
`uint64_t`. -/
def loopAddr (mempoolStartAddr sizeBytes : Nat) : Nat → Nat
  | 0 => mempoolStartAddr
  | i + 1 => (loopAddr mempoolStartAddr sizeBytes i + sizeBytes) % 2 ^ 64

/-- The sum does not wrap as long as its exact value fits. -/
theorem loopAddr_eq {start size : Nat} {i : Nat} (h : start + i * size < 2 ^ 64) :
    loopAddr start size i = start + i * size := by
  induction i with
  | zero => simp [loopAddr]
  | succ i ih =>
    have hmul : (i + 1) * size = i * size + size := Nat.succ_mul i size
    rw [loopAddr, ih (by omega), Nat.mod_eq_of_lt (by omega)]
    omega

/-- Pools lie one after another from `start` on, below `2^64`. -/
structure MemoryAllocator.LaidOut (m : MemoryAllocator) (start : Nat) : Prop where
  addr : ∀ i, (m.mempoolEntries i).addr = start + i * m.mempoolSizeBytes
  size_pos : 0 < m.mempoolSizeBytes
  fits : start + m.mempoolNum * m.mempoolSizeBytes < 2 ^ 64

theorem initMemoryAllocator_laidOut {num : Int} {start : Nat} {gb : Int} {kvcalloc : Bool}
    {m : MemoryAllocator} (h : initMemoryAllocator num start gb kvcalloc = .ok m) :
    m.LaidOut start ∧ ∀ i, (m.mempoolEntries i).mappedNum = 0 ∧ m.mapped i = [] := by
  unfold initMemoryAllocator at h
  simp only at h
  split at h
  · cases h
  split at h
  · cases h
  next hgb =>
  split at h
  · cases h
  split at h
  · cases h
  next hfits =>
  split at h
  · cases h
  cases h
  refine ⟨⟨fun _ => rfl, ?_, Nat.not_le.mp hfits⟩, fun _ => ⟨rfl, rfl⟩⟩
  show 0 < gb.toNat * 1024 * 1024 * 1024
  omega

/-- The range of one pool ends before the range of a later one starts. -/
theorem MemoryAllocator.LaidOut.before {m : MemoryAllocator} {start i j : Nat} (h : m.LaidOut start)
    (hij : i < j) :
    (m.mempoolEntries i).addr + m.mempoolSizeBytes ≤ (m.mempoolEntries j).addr := by
  rw [h.addr, h.addr]
  have hstep : (i + 1) * m.mempoolSizeBytes ≤ j * m.mempoolSizeBytes :=
    Nat.mul_le_mul_right _ hij
  rw [Nat.succ_mul] at hstep
  omega

/-- Two pools have different addresses. -/
theorem MemoryAllocator.LaidOut.addr_inj {m : MemoryAllocator} {start i j : Nat}
    (h : m.LaidOut start) (heq : (m.mempoolEntries i).addr = (m.mempoolEntries j).addr) : i = j := by
  have hpos := h.size_pos
  rcases Nat.lt_trichotomy i j with hlt | rfl | hgt
  · have := h.before hlt
    omega
  · rfl
  · have := h.before hgt
    omega

theorem MemoryAllocator.LaidOut.end_lt {m : MemoryAllocator} {start i : Nat} (h : m.LaidOut start)
    (hi : i < m.mempoolNum) : (m.mempoolEntries i).addr + m.mempoolSizeBytes < 2 ^ 64 := by
  have hend : (i + 1) * m.mempoolSizeBytes ≤ m.mempoolNum * m.mempoolSizeBytes :=
    Nat.mul_le_mul_right _ hi
  have hfits := h.fits
  rw [Nat.succ_mul] at hend
  rw [h.addr]
  omega

/-! ## The operations -/

/-- The counter of a pool is the length of its list, and the list has no pid twice. -/
def MemoryAllocator.Counted (m : MemoryAllocator) : Prop :=
  ∀ i, (m.mempoolEntries i).mappedNum = (m.mapped i).length ∧ (m.mapped i).Nodup

theorem MemoryAllocator.Counted.mapPools {m : MemoryAllocator} (h : m.Counted) {pid : Pid}
    {pools : List Nat} (hfresh : ∀ i ∈ pools, pid ∉ m.mapped i) : (m.mapPools pid pools).Counted := by
  intro i
  obtain ⟨hnum, hnd⟩ := h i
  unfold mapped at hnum hnd hfresh ⊢
  unfold MemoryAllocator.mapPools
  simp only
  split
  · next hi => exact ⟨by simp [hnum], List.nodup_cons.mpr ⟨hfresh i hi, hnd⟩⟩
  · exact ⟨hnum, hnd⟩

/-- `free_memory` takes the pid out of every list of the module. -/
theorem mem_mapped_freeMemory {m : MemoryAllocator} (h : m.Counted) {pid q : Pid} {i : Nat} :
    q ∈ (freeMemory pid m).mapped i ↔ q ∈ m.mapped i ∧ (i < m.mempoolNum → q ≠ pid) := by
  unfold freeMemory MempoolEntry.unmap
  have hnd := (h i).2
  unfold MemoryAllocator.mapped at hnd ⊢
  simp only
  by_cases hi : i < m.mempoolNum
  · by_cases hin : pid ∈ (m.mempoolEntries i).mappedPids
    · simp only [hi, hin, if_true, forall_true_left]
      rw [hnd.mem_erase_iff]
      exact and_comm
    · simp only [hi, hin, if_true, if_false, forall_true_left]
      exact ⟨fun hq => ⟨hq, fun hqp => hin (hqp ▸ hq)⟩, And.left⟩
  · simp [hi]

theorem MemoryAllocator.Counted.freeMemory {m : MemoryAllocator} (h : m.Counted) (pid : Pid) :
    (freeMemory pid m).Counted := by
  intro i
  obtain ⟨hnum, hnd⟩ := h i
  unfold Agnocast.freeMemory MempoolEntry.unmap
  unfold mapped at hnum hnd ⊢
  simp only
  by_cases hi : i < m.mempoolNum
  · by_cases hin : pid ∈ (m.mempoolEntries i).mappedPids
    · simp only [hi, hin, if_true]
      -- the list is not empty, so the decrement does not wrap
      have hpos : 0 < (m.mempoolEntries i).mappedPids.length := List.length_pos_of_mem hin
      rw [List.length_erase_of_mem hin, hnum, u32Dec_of_pos hpos]
      exact ⟨rfl, hnd.erase pid⟩
    · simp only [hi, hin, if_true, if_false]
      exact ⟨hnum, hnd⟩
  · simp only [hi, if_false]
    exact ⟨hnum, hnd⟩

@[simp] theorem freeMemory_addr (pid : Pid) (m : MemoryAllocator) (i : Nat) :
    ((freeMemory pid m).mempoolEntries i).addr = (m.mempoolEntries i).addr := by
  unfold freeMemory MempoolEntry.unmap
  simp only
  split
  · split <;> rfl
  · rfl

theorem MemoryAllocator.LaidOut.mapPools {m : MemoryAllocator} {start : Nat} (h : m.LaidOut start)
    (pid : Pid) (pools : List Nat) : (m.mapPools pid pools).LaidOut start :=
  ⟨fun i => by simpa using h.addr i, h.size_pos, h.fits⟩

theorem MemoryAllocator.LaidOut.freeMemory {m : MemoryAllocator} {start : Nat} (h : m.LaidOut start)
    (pid : Pid) : (freeMemory pid m).LaidOut start :=
  ⟨fun i => (freeMemory_addr pid m i).trans (h.addr i), h.size_pos, h.fits⟩

/-- A pool that `assign_memory` may hand out is mapped by nobody. -/
theorem MemoryAllocator.Counted.unassigned {m : MemoryAllocator} (h : m.Counted) {pool : Nat}
    (hfree : m.Unassigned pool) : m.mapped pool = [] :=
  List.length_eq_zero_iff.mp ((h pool).1 ▸ hfree.2)

/-! ## The invariant -/

/-- A process keeps its pool until it exits. -/
structure PoolsOk (σ : Kmod) : Prop where
  laidOut : ∃ start, σ.mem.LaidOut start
  counted : σ.mem.Counted
  pids : (σ.procInfoHtable.map ProcessInfo.globalPid).Nodup
  owned : ∀ p ∈ σ.procInfoHtable, p.exited = false →
    p.mempoolEntry < σ.mem.mempoolNum ∧ p.globalPid ∈ σ.mem.mapped p.mempoolEntry
  distinct : ∀ p ∈ σ.procInfoHtable, ∀ q ∈ σ.procInfoHtable, p.exited = false → q.exited = false →
    p.mempoolEntry = q.mempoolEntry → p = q

/-- Registrations that were there before, unchanged but for their role. -/
private theorem PoolsOk.of_fewer (h : PoolsOk σ) {procs : List ProcessInfo} {m : MemoryAllocator}
    (hlaid : ∃ start, m.LaidOut start) (hcounted : m.Counted) (hnum : m.mempoolNum = σ.mem.mempoolNum)
    (hnd : (procs.map ProcessInfo.globalPid).Nodup)
    (hold : ∀ p' ∈ procs, p'.exited = false → ∃ p ∈ σ.procInfoHtable, p.exited = false ∧
      p'.globalPid = p.globalPid ∧ p'.mempoolEntry = p.mempoolEntry ∧
      p.globalPid ∈ m.mapped p.mempoolEntry) {σ' : Kmod} (hprocs : σ'.procInfoHtable = procs)
    (hmem : σ'.mem = m) : PoolsOk σ' := by
  subst hprocs hmem
  refine ⟨hlaid, hcounted, hnd, fun p' hp' hlive => ?_, fun p' hp' q' hq' hp hq heq => ?_⟩
  · obtain ⟨p, hp, hplive, hpid, hpool, hin⟩ := hold p' hp' hlive
    rw [hpid, hpool, hnum]
    exact ⟨(h.owned p hp hplive).1, hin⟩
  · obtain ⟨p, hpm, hplive, hpid, hpool, _⟩ := hold p' hp' hp
    obtain ⟨q, hqm, hqlive, hqid, hqool, _⟩ := hold q' hq' hq
    have hsame : p = q := h.distinct p hpm q hqm hplive hqlive (by omega)
    refine HTable.eq_of_key_eq hnd hp' hq' ?_
    rw [hpid, hqid, hsame]

/-- The exit cleanup leaves no other live process, and it keeps the others as they are. -/
theorem exitedProcs_live {p p' : ProcessInfo} (hp' : p' ∈ exitedProcs σ p)
    (hlive : p'.exited = false) : p' ∈ σ.procInfoHtable ∧ p'.globalPid ≠ p.globalPid := by
  unfold exitedProcs markExited at hp'
  split at hp'
  · exact HTable.mem_hashDel.mp hp'
  · obtain ⟨q, hq, rfl⟩ := HTable.mem_modify.mp hp'
    split at hlive
    · cases hlive
    · next hne =>
      rw [if_neg hne]
      exact ⟨hq, hne⟩

theorem exitedProcs_pids (p : ProcessInfo) (h : (σ.procInfoHtable.map ProcessInfo.globalPid).Nodup) :
    ((exitedProcs σ p).map ProcessInfo.globalPid).Nodup := by
  unfold exitedProcs markExited
  split
  · exact HTable.nodup_map_hashDel h
  · have hkeep : ∀ q : ProcessInfo, { q with exited := true }.globalPid = q.globalPid := fun _ => rfl
    rw [HTable.map_modify hkeep]
    exact h

/-- The pools stay sound when `pid` loses all its mappings and its registration. -/
private theorem PoolsOk.freed (h : PoolsOk σ) {pid : Pid} {procs : List ProcessInfo}
    (hnd : (procs.map ProcessInfo.globalPid).Nodup)
    (hold : ∀ p' ∈ procs, p'.exited = false → p' ∈ σ.procInfoHtable ∧ p'.globalPid ≠ pid)
    {σ' : Kmod} (hprocs : σ'.procInfoHtable = procs) (hmem : σ'.mem = freeMemory pid σ.mem) :
    PoolsOk σ' := by
  obtain ⟨start, hlaid⟩ := h.laidOut
  refine h.of_fewer ⟨start, hlaid.freeMemory pid⟩ (h.counted.freeMemory pid) rfl hnd
    (fun p' hp' hlive => ?_) hprocs hmem
  obtain ⟨hp, hne⟩ := hold p' hp' hlive
  refine ⟨p', hp, hlive, rfl, rfl, ?_⟩
  exact (mem_mapped_freeMemory h.counted).mpr ⟨(h.owned p' hp hlive).2, fun _ => hne⟩

private theorem PoolsOk.registered (h : PoolsOk σ) {env : Env} {pid : Pid} {ipcNs : IpcNs}
    {role : ProcessRole} {domainId pool place : Nat} (hnew : findProcessInfo σ pid = none)
    (hfree : σ.mem.Unassigned pool) {σ' : Kmod}
    (hprocs : σ'.procInfoHtable = HTable.hashAdd place σ.procInfoHtable
      (newProcess env pid ipcNs role domainId pool))
    (hmem : σ'.mem = σ.mem.mapPools pid [pool]) : PoolsOk σ' := by
  obtain ⟨start, hlaid⟩ := h.laidOut
  have hnobody := h.counted.unassigned hfree
  -- no live process owns the pool, because nobody maps it
  have hother : ∀ p ∈ σ.procInfoHtable, p.exited = false → p.mempoolEntry ≠ pool := by
    intro p hp hlive heq
    have hin := (h.owned p hp hlive).2
    rw [heq, hnobody] at hin
    cases hin
  refine ⟨⟨start, hmem ▸ hlaid.mapPools pid [pool]⟩, ?_, ?_, ?_, ?_⟩
  · rw [hmem]
    refine h.counted.mapPools fun i hi hin => ?_
    rw [List.mem_singleton.mp hi, hnobody] at hin
    cases hin
  · rw [hprocs, HTable.nodup_map_hashAdd]
    refine ⟨fun hin => ?_, h.pids⟩
    obtain ⟨p, hp, hpid⟩ := List.mem_map.mp hin
    exact HTable.lookup_eq_none_iff.mp hnew p hp hpid
  · intro p hp hlive
    rw [hmem]
    rw [hprocs] at hp
    rcases HTable.mem_hashAdd.mp hp with rfl | hp
    · exact ⟨hfree.1, MemoryAllocator.mem_mapped_mapPools.mpr (.inr ⟨by simp [newProcess], rfl⟩)⟩
    · exact ⟨(h.owned p hp hlive).1,
        MemoryAllocator.mem_mapped_mapPools.mpr (.inl (h.owned p hp hlive).2)⟩
  · intro p hp q hq hplive hqlive heq
    rw [hprocs] at hp hq
    rcases HTable.mem_hashAdd.mp hp with rfl | hp <;> rcases HTable.mem_hashAdd.mp hq with rfl | hq
    · rfl
    · exact absurd heq.symm (hother q hq hqlive)
    · exact absurd heq (hother p hp hplive)
    · exact h.distinct p hp q hq hplive hqlive heq

/-- **The step**: whatever a call does to the registrations and the pools keeps them
sound. -/
theorem PoolsOk.step (h : PoolsOk σ) (hwf : σ.WellFormed) (i : Input) :
    PoolsOk (Agnocast.step σ i).2 := by
  have hchange := step_procs hwf i
  generalize hprocs : (Agnocast.step σ i).2.procInfoHtable = procs at hchange
  generalize hmem : (Agnocast.step σ i).2.mem = m at hchange
  -- a live registration keeps its pool
  have hself : ∀ p ∈ σ.procInfoHtable, p.exited = false → ∃ q ∈ σ.procInfoHtable,
      q.exited = false ∧ p.globalPid = q.globalPid ∧ p.mempoolEntry = q.mempoolEntry ∧
      q.globalPid ∈ σ.mem.mapped q.mempoolEntry :=
    fun p hp hlive => ⟨p, hp, hlive, rfl, rfl, (h.owned p hp hlive).2⟩
  cases hchange with
  | same => exact h.of_fewer h.laidOut h.counted rfl h.pids hself hprocs hmem
  | registered _ _ hadmits hfree => exact h.registered hadmits.fresh hfree hprocs hmem
  | @exited pid p _ hp =>
    obtain ⟨_, rfl⟩ := findProcessInfo_mem hp
    exact h.freed (exitedProcs_pids p h.pids) (fun p' hp' hlive => exitedProcs_live hp' hlive)
      hprocs hmem
  | drained =>
    refine h.of_fewer h.laidOut h.counted rfl (HTable.nodup_map_hashDel h.pids)
      (fun p hp => hself p (HTable.mem_hashDel.mp hp).1) hprocs hmem
  | deregistered =>
    exact h.freed (HTable.nodup_map_hashDel h.pids) (fun p hp _ => HTable.mem_hashDel.mp hp)
      hprocs hmem
  -- only the role changes
  | demoted =>
    refine h.of_fewer h.laidOut h.counted rfl ?_ (fun p' hp' hlive => ?_) hprocs hmem
    · have hkeep : ∀ q : ProcessInfo, { q with role := .application }.globalPid = q.globalPid :=
        fun _ => rfl
      rw [HTable.map_modify hkeep]
      exact h.pids
    · obtain ⟨p, hp, rfl⟩ := HTable.mem_modify.mp hp'
      split at hlive
      · next hpid =>
        rw [if_pos hpid]
        exact ⟨p, hp, hlive, rfl, rfl, (h.owned p hp hlive).2⟩
      · next hpid =>
        rw [if_neg hpid]
        exact hself p hp hlive
  -- mapping pools takes none away
  | reported _ hmaps =>
    obtain ⟨start, hlaid⟩ := h.laidOut
    obtain ⟨pools, _, hfresh, _, rfl⟩ := hmaps
    refine h.of_fewer ⟨start, hlaid.mapPools _ pools⟩ (h.counted.mapPools hfresh) rfl h.pids
      (fun p hp hlive => ?_) hprocs hmem
    exact ⟨p, hp, hlive, rfl, rfl,
      MemoryAllocator.mem_mapped_mapPools.mpr (.inl (h.owned p hp hlive).2)⟩

theorem PoolsOk.init (h : moduleInit σ) : PoolsOk σ := by
  obtain ⟨num, start, gb, m, hinit, rfl⟩ := h
  obtain ⟨hlaid, hempty⟩ := initMemoryAllocator_laidOut hinit
  refine ⟨⟨start, hlaid⟩, fun i => ?_, List.nodup_nil, fun p hp => ?_, fun p hp => ?_⟩
  · obtain ⟨hzero, hnil⟩ := hempty i
    exact ⟨hzero.trans (congrArg List.length hnil).symm, by simp [Kmod.loaded, hnil]⟩
  · cases hp
  · cases hp

/-- **The pools of every reachable state** are sound. -/
theorem reachable_poolsOk (h : Reachable σ) : PoolsOk σ :=
  Transition.Reachable.invariant (fun _ => PoolsOk.init) (fun _ i hr hok => hok.step (Reachable.wellFormed hr) i) h

/-- The layout of the pools never changes. -/
theorem step_layout (h : σ.WellFormed) (i : Input) :
    (Agnocast.step σ i).2.mem.mempoolNum = σ.mem.mempoolNum ∧
    (Agnocast.step σ i).2.mem.mempoolSizeBytes = σ.mem.mempoolSizeBytes ∧
    ∀ k, ((Agnocast.step σ i).2.mem.mempoolEntries k).addr = (σ.mem.mempoolEntries k).addr := by
  have hchange := step_procs h i
  generalize (Agnocast.step σ i).2.procInfoHtable = procs at hchange
  generalize (Agnocast.step σ i).2.mem = m at hchange ⊢
  cases hchange with
  | same | drained | demoted => exact ⟨rfl, rfl, fun _ => rfl⟩
  | registered => exact ⟨rfl, rfl, fun k => MemoryAllocator.mapPools_addr _ k⟩
  | exited | deregistered => exact ⟨rfl, rfl, fun k => freeMemory_addr _ _ k⟩
  | reported _ hmaps =>
    obtain ⟨pools, _, _, _, rfl⟩ := hmaps
    exact ⟨rfl, rfl, fun k => MemoryAllocator.mapPools_addr pools k⟩

/-! ## Handing out pools -/

/-- The event registers a process with pool `pool` as its heap. -/
def Assigns (ev : Event) (pool : Nat) : Prop := ∃ p, Registers ev p ∧ p.mempoolEntry = pool

/-- The call ends every mapping of `pid`: its exit cleanup, or its leave as an idle
unlink daemon. -/
def Call.unmaps (pid : Pid) : Call → Prop
  | .processExitCleanup q => q = pid
  | .commitExitProcess _ globalPid callerPid => globalPid < 0 ∧ callerPid = pid
  | _ => False

/-- A pool is handed out only when nobody maps it. -/
theorem Assigns.nobody {ev : Event} {pool : Nat} (h : Assigns ev pool) (hr : Reachable ev.pre) :
    ev.pre.mem.mapped pool = [] := by
  obtain ⟨p, hregisters, rfl⟩ := h
  obtain ⟨_, _, _, _, _, pool, _, _, _, hfree, rfl⟩ := hregisters.cases (Reachable.wellFormed hr)
  exact (reachable_poolsOk hr).counted.unassigned hfree

/-- A mapping lasts until its process exits. -/
theorem mapped_step (hr : Reachable σ) {i : Input} {pid : Pid} {pool : Nat}
    (hin : pid ∈ σ.mem.mapped pool) (hkeep : ¬ i.call.unmaps pid) :
    pid ∈ (step σ i).2.mem.mapped pool := by
  have hcounted := (reachable_poolsOk hr).counted
  have hchange := step_procs (Reachable.wellFormed hr) i
  generalize (step σ i).2.procInfoHtable = procs at hchange
  generalize (step σ i).2.mem = m at hchange ⊢
  cases hchange with
  | same => exact hin
  | registered => exact MemoryAllocator.mem_mapped_mapPools.mpr (.inl hin)
  | @exited q p hcall =>
    refine (mem_mapped_freeMemory hcounted).mpr ⟨hin, fun _ heq => hkeep ?_⟩
    rw [hcall]
    exact heq.symm
  | drained => exact hin
  | deregistered hcall hg =>
    refine (mem_mapped_freeMemory hcounted).mpr ⟨hin, fun _ heq => hkeep ?_⟩
    rw [hcall]
    exact ⟨hg, heq.symm⟩
  | demoted => exact hin
  | reported _ hmaps =>
    obtain ⟨pools, _, _, _, rfl⟩ := hmaps
    exact MemoryAllocator.mem_mapped_mapPools.mpr (.inl hin)

/-- The address range of a registered process's pool ends before that of another one
starts. -/
def RangeBefore (σ : Kmod) (p q : ProcessInfo) : Prop :=
  (σ.mem.mempoolEntries p.mempoolEntry).addr + σ.mem.mempoolSizeBytes ≤
    (σ.mem.mempoolEntries q.mempoolEntry).addr

instance (σ : Kmod) (p q : ProcessInfo) : Decidable (RangeBefore σ p q) :=
  inferInstanceAs (Decidable (_ ≤ _))

/-- What the pools promise in one state. -/
structure PoolsSound (σ : Kmod) : Prop where
  /-- the running sum of the layout has not wrapped, nor does any range -/
  noWrap : ∃ start, ∀ i < σ.mem.mempoolNum,
    (σ.mem.mempoolEntries i).addr = loopAddr start σ.mem.mempoolSizeBytes i ∧
      (σ.mem.mempoolEntries i).addr + σ.mem.mempoolSizeBytes < 2 ^ 64
  assigned : ∀ p ∈ σ.procInfoHtable, p.exited = false →
    p.mempoolEntry < σ.mem.mempoolNum ∧ p.globalPid ∈ σ.mem.mapped p.mempoolEntry
  disjoint : ∀ p ∈ σ.procInfoHtable, ∀ q ∈ σ.procInfoHtable, p ≠ q → p.exited = false →
    q.exited = false → RangeBefore σ p q ∨ RangeBefore σ q p
  counted : ∀ i, (σ.mem.mempoolEntries i).mappedNum = (σ.mem.mapped i).length
  nodup : ∀ i, (σ.mem.mapped i).Nodup

theorem PoolsOk.sound (h : PoolsOk σ) : PoolsSound σ := by
  obtain ⟨start, hlaid⟩ := h.laidOut
  refine ⟨⟨start, fun i hi => ⟨?_, hlaid.end_lt hi⟩⟩, h.owned, fun p hp q hq hne hplive hqlive => ?_,
    fun i => (h.counted i).1, fun i => (h.counted i).2⟩
  · have hend := hlaid.end_lt hi
    have haddr := hlaid.addr i
    rw [loopAddr_eq (by omega)]
    exact haddr
  · have hpools : p.mempoolEntry ≠ q.mempoolEntry :=
      fun heq => hne (h.distinct p hp q hq hplive hqlive heq)
    rcases Nat.lt_or_gt_of_ne hpools with hlt | hgt
    · exact .inl (hlaid.before hlt)
    · exact .inr (hlaid.before hgt)

/-- **The pools over a run.** In every state live processes own disjoint ranges, and
the counters are right; a pool is only ever handed out when nobody maps it, so a
process that maps it keeps it from being handed out until it exits. -/
theorem run_pools_sound {tr : List Event} (h : Transition.Run kmod Transition.anyStep tr σ) :
    PoolsSound σ ∧
    (∀ (later : List Event) ev before, tr = later ++ ev :: before → ∀ pool, Assigns ev pool →
      ev.pre.mem.mapped pool = []) ∧
    (∀ (later : List Event) ev before, tr = later ++ ev :: before →
      ∀ pool, ∀ pid ∈ ev.pre.mem.mapped pool,
      (∀ e ∈ later ++ [ev], ¬ e.input.call.unmaps pid) →
        pid ∈ σ.mem.mapped pool ∧ ∀ e ∈ later ++ [ev], ¬ Assigns e pool) := by
  refine ⟨(reachable_poolsOk h.reachable).sound, ?_, ?_⟩
  · rintro later ev before rfl pool hassigns
    exact hassigns.nobody h.event.1.reachable
  rintro later ev before rfl pool pid hin
  -- the mapping is carried from the event on, through every later step
  refine Transition.Run.since (P := fun later s => (∀ e ∈ later ++ [ev], ¬ e.input.call.unmaps pid) →
    pid ∈ s.mem.mapped pool ∧ ∀ e ∈ later ++ [ev], ¬ Assigns e pool) ?_ ?_ h
  · intro s hs hkeep
    cases hs with
    | step i hr _ =>
      have hkeep := hkeep _ (List.mem_singleton_self _)
      refine ⟨mapped_step hr.reachable hin hkeep, fun e he hassigns => ?_⟩
      rw [List.mem_singleton.mp he] at hassigns
      have hnobody := hassigns.nobody hr.reachable
      rw [hnobody] at hin
      cases hin
  · intro later s i hr ih _ hkeep
    obtain ⟨hold, hothers⟩ := ih fun e he => hkeep e (List.mem_cons_of_mem _ he)
    have hkeep := hkeep _ List.mem_cons_self
    refine ⟨mapped_step hr.reachable hold hkeep, fun e he hassigns => ?_⟩
    rcases List.mem_cons.mp he with rfl | he
    · have hnobody := hassigns.nobody hr.reachable
      rw [hnobody] at hold
      cases hold
    · exact hothers e he hassigns

/-- Two processes register and the second one exits. -/
theorem pools_sound_after_exit :
    let calls : List Call := [.addProcess 2 0 0 0, .addProcess 3 0 0 0, .processExitCleanup 3]
    PoolsSound (runOf 2 calls).2 ∧
      ∀ (later : List Event) ev before, (runOf 2 calls).1 = later ++ ev :: before →
      ∀ pool, Assigns ev pool → ev.pre.mem.mapped pool = [] := by
  intro calls
  have hrun : Transition.Run kmod Transition.anyStep (runOf 2 calls).1 (runOf 2 calls).2 :=
    run_runOf (by decide) (by decide) (kmod.guarded_anyStep _ _)
  exact ⟨(run_pools_sound hrun).1, (run_pools_sound hrun).2.1⟩

/-- Process 1 has exited and is not drained yet, and process 2 got its pool: two
registered processes with one address range. -/
theorem exited_process_shares_pool : ∃ σ p q, Reachable σ ∧ p ∈ σ.procInfoHtable ∧
    q ∈ σ.procInfoHtable ∧ p ≠ q ∧ p.mempoolEntry = q.mempoolEntry ∧ ¬ RangeBefore σ p q ∧
    ¬ RangeBefore σ q p := by
  refine ⟨(runOf 1 [.addProcess 1 0 0 0, .processExitCleanup 1, .addProcess 2 0 0 0]).2,
    ⟨true, .application, 1, 1, 0, 0, 0⟩, ⟨false, .application, 2, 2, 0, 0, 0⟩,
    reachable_runOf (by decide) (by decide) _, ?_⟩
  decide

end Agnocast
