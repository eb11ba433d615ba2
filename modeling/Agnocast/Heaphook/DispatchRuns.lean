import Agnocast.Heaphook.DispatchSafety

/-!
# The heaphook — every block goes back to its producer

* `SystemOk`           — the invariant: of every process, and of the pool with the registered one.
* `SystemOk.step`      — every permitted step keeps it.
* `allocator_dispatch` — over every run: blocks go back to their producers, once, with their
  contents when they move; a forked child leaves the pool alone.
-/

namespace Agnocast.Heaphook

open Bytes

variable {r : Rlsf} {l : Libc} {shm : AgnocastSharedMemory}
  {Vr : List Block → r.State → Memory → Prop} {Vl : List Block → l.State → Memory → Prop}

/-! ## Blocks that change hands -/

section Hands

variable {p : Process r l}

theorem drop_of_find_none {ptr : Nat} (h : p.find ptr = none) : p.drop ptr = p := by
  have hsame : p.owned.eraseP (fun h => decide (h.ptr = ptr)) = p.owned :=
    List.eraseP_of_forall_not fun h' hmem => by
      simpa using List.find?_eq_none.mp h h' hmem
  rw [Process.drop, hsame]

theorem perm_drop {ptr : Nat} {h : Held} (hf : p.find ptr = some h) :
    p.owned.Perm (h :: (p.drop ptr).owned) := by
  obtain ⟨hh, before, after, heq, hbefore⟩ := List.find?_eq_some_iff_append.mp hf
  show p.owned.Perm (h :: p.owned.eraseP fun h => h.ptr = ptr)
  have herase : (h :: after).eraseP (fun h => decide (h.ptr = ptr)) = after :=
    List.eraseP_cons_of_pos hh
  rw [heq, List.eraseP_append_right _ fun h' hmem => by simpa using hbefore h' hmem, herase]
  exact List.perm_middle

theorem mine_drop_sublist (ptr : Nat) : (p.drop ptr).mine.Sublist p.mine :=
  List.Sublist.append_right List.eraseP_sublist _

theorem mine_start (c : Call) (a : Action) : (p.start c a).mine.Perm p.mine := by
  have hpending (held : Option Held) :
      (p.pending ++ [(⟨a, held⟩ : Pending)]).filterMap Pending.held =
        p.pending.filterMap Pending.held ++ held.toList := by
    rw [List.filterMap_append]
    cases held <;> rfl
  rw [Process.start]
  cases Process.given c with
  | none =>
    show (p.owned ++ (p.pending ++ [(⟨a, none⟩ : Pending)]).filterMap Pending.held).Perm _
    rw [hpending, Option.toList_none, List.append_nil]
    exact .refl _
  | some ptr =>
    show ((p.drop ptr).owned ++ (p.pending ++ [(⟨a, p.find ptr⟩ : Pending)]).filterMap Pending.held).Perm _
    rw [hpending]
    cases hf : p.find ptr with
    | none =>
      rw [drop_of_find_none hf, Option.toList_none, List.append_nil]
      exact .refl _
    | some h =>
      rw [Option.toList_some, ← List.append_assoc]
      exact List.perm_append_comm.trans ((perm_drop hf).symm.append_right _)

theorem mine_finish {k : Nat} {c : Pending} (hk : p.pending[k]? = some c) :
    p.mine.Perm (c.held.toList ++ Process.mine { p with pending := p.pending.eraseIdx k }) := by
  obtain ⟨hlt, rfl⟩ := List.getElem?_eq_some_iff.mp hk
  have hperm := (List.getElem_cons_eraseIdx_perm hlt).symm.filterMap Pending.held
  have hcons : (p.pending[k] :: p.pending.eraseIdx k).filterMap Pending.held =
      p.pending[k].held.toList ++ (p.pending.eraseIdx k).filterMap Pending.held := by
    rw [List.filterMap_cons]
    cases p.pending[k].held <;> rfl
  rw [hcons] at hperm
  show (p.owned ++ _).Perm (_ ++ (p.owned ++ _))
  refine (hperm.append_left _).trans ?_
  rw [← List.append_assoc, ← List.append_assoc]
  exact List.perm_append_comm.append_right _

end Hands

/-! ## All processes -/

/-- The invariant. -/
structure SystemOk (shm : AgnocastSharedMemory) (Vr : List Block → r.State → Memory → Prop)
    (Vl : List Block → l.State → Memory → Prop) (s : State r l) : Prop where
  process : ∀ pid p, s.procs pid = some p → ProcessOk shm Vl pid p
  inUse : ∀ p t, s.procs 0 = some p → p.allocator = some t →
    PoolOk Vr (sharedOf p.mine) t s.pool

namespace SystemOk

variable {s : State r l} {pid : Nat} {p p' : Process r l}

/-- One process moves on, and with it the pool if it is the registered one. -/
theorem set (h : SystemOk shm Vr Vl s) (hp : ProcessOk shm Vl pid p') {pool : Memory}
    (hroot : pid = 0 → ∀ t, p'.allocator = some t → PoolOk Vr (sharedOf p'.mine) t pool)
    (hother : pid ≠ 0 → pool = s.pool) :
    SystemOk shm Vr Vl (State.set { s with pool := pool } pid p') where
  process pid' p₁ hp₁ := by
    by_cases heq : pid' = pid
    · subst heq
      have h₁ : Function.update s.procs pid' (some p') pid' = some p₁ := hp₁
      rw [Function.update_self] at h₁
      obtain rfl := Option.some.inj h₁
      exact hp
    · have h₁ : Function.update s.procs pid (some p') pid' = some p₁ := hp₁
      rw [Function.update_of_ne heq] at h₁
      exact h.process pid' p₁ h₁
  inUse p₁ t hp₁ ht := by
    have h₁ : Function.update s.procs pid (some p') 0 = some p₁ := hp₁
    by_cases heq : pid = 0
    · subst heq
      rw [Function.update_self] at h₁
      obtain rfl := Option.some.inj h₁
      exact hroot rfl t ht
    · rw [Function.update_of_ne (Ne.symm heq)] at h₁
      show PoolOk Vr _ t pool
      rw [hother heq]
      exact h.inUse p₁ t h₁ ht

theorem kill (h : SystemOk shm Vr Vl s) (pid : Nat) : SystemOk shm Vr Vl (s.kill pid) where
  process pid' p hp := by
    have h₁ : Function.update s.procs pid none pid' = some p := hp
    by_cases heq : pid' = pid
    · subst heq
      rw [Function.update_self] at h₁
      cases h₁
    · rw [Function.update_of_ne heq] at h₁
      exact h.process pid' p h₁
  inUse p t hp ht := by
    have h₁ : Function.update s.procs pid none 0 = some p := hp
    by_cases heq : 0 = pid
    · subst heq
      rw [Function.update_self] at h₁
      cases h₁
    · rw [Function.update_of_ne heq] at h₁
      exact h.inUse p t h₁ ht

end SystemOk

/-! ## Steps of a process -/

section Steps

variable {p p' : Process r l} {pid : Nat}

/-- A process that keeps its statics, except for the state of the allocator. -/
theorem ProcessOk.move (hok : ProcessOk shm Vl pid p)
    (hchild : p'.isForkedChild = p.isForkedChild) (hatfork : p'.atfork = p.atfork)
    (hmemory : p'.sharedMemory = p.sharedMemory)
    (halloc : p'.allocator ≠ none ↔ p.allocator ≠ none)
    (hvalid : Vl (systemOf (p'.mine ++ p'.leaked)) p'.libc p'.heap)
    (htracked : Tracked shm p' p'.mine)
    (hpending : ∀ c ∈ p'.pending, Matches (pid = 0 ∧ p.allocator ≠ none) c.action c.held)
    (hsystem : pid ≠ 0 →
      (∀ e ∈ p'.handed, e.2 = .system) ∧ ∀ h ∈ p'.released, h.producer = .system) :
    ProcessOk shm Vl pid p' where
  memory := by
    rw [hmemory, hatfork]
    exact hok.memory
  allocator h := by
    rw [hmemory]
    exact hok.allocator (halloc.mp h)
  root h := by
    rw [hchild]
    exact hok.root h
  child h := by
    rw [hmemory, hchild]
    exact hok.child h
  valid := hvalid
  tracked := htracked
  pending c hc := by
    have hiff : (pid = 0 ∧ p'.allocator ≠ none) = (pid = 0 ∧ p.allocator ≠ none) := by
      rw [propext halloc]
    rw [hiff]
    exact hpending c hc
  system_only := hsystem

/-- The blocks a process tracks, under statics and numbers that stay. -/
theorem Tracked.of_same {hs : List Held} (ht : Tracked shm p hs)
    (hreleased : p'.released = p.released) (hnext : p'.nextId = p.nextId)
    (hhanded : p'.handed = p.handed) (halloc : p'.allocator = p.allocator) :
    Tracked shm p' hs where
  nodup := by
    rw [hreleased]
    exact ht.nodup
  fresh := by
    rw [hreleased, hnext]
    exact ht.fresh
  handed := by
    rw [hhanded]
    exact ht.handed
  distinct := ht.distinct
  inside := by
    rw [halloc]
    exact ht.inside

/-- What of a process a call under way does not change. -/
structure SameStatics (p p' : Process r l) : Prop where
  isForkedChild : p'.isForkedChild = p.isForkedChild
  atfork : p'.atfork = p.atfork
  sharedMemory : p'.sharedMemory = p.sharedMemory
  allocator : p'.allocator = p.allocator
  libc : p'.libc = p.libc
  heap : p'.heap = p.heap
  leaked : p'.leaked = p.leaked
  released : p'.released = p.released
  nextId : p'.nextId = p.nextId
  handed : p'.handed = p.handed

theorem sameStatics_start (c : Call) (a : Action) : SameStatics p (p.start c a) := by
  rw [Process.start]
  split
  · exact ⟨rfl, rfl, rfl, rfl, rfl, rfl, rfl, rfl, rfl, rfl⟩
  · exact ⟨rfl, rfl, rfl, rfl, rfl, rfl, rfl, rfl, rfl, rfl⟩

theorem pending_start (c : Call) (a : Action) :
    (p.start c a).pending = p.pending ++ [⟨a, p.passed c⟩] := by
  rw [Process.start, Process.passed]
  cases Process.given c <;> rfl

/-- A process whose blocks are others', with everything else the same. -/
theorem ProcessOk.of_same (hl : l.Lawful shm Vl) (hok : ProcessOk shm Vl pid p)
    (hsame : SameStatics p p') (hmine : p.mine.Perm p'.mine)
    (hpending : ∀ c ∈ p'.pending, Matches (pid = 0 ∧ p.allocator ≠ none) c.action c.held) :
    ProcessOk shm Vl pid p' := by
  refine hok.move hsame.isForkedChild hsame.atfork hsame.sharedMemory (by rw [hsame.allocator]) ?_
    ((hok.tracked.perm hmine).of_same hsame.released hsame.nextId hsame.handed hsame.allocator)
    hpending ?_
  · rw [hsame.leaked, hsame.libc, hsame.heap]
    exact hl.order (systemOf_perm (hmine.append_right _)) hok.valid
  · rw [hsame.handed, hsame.released]
    exact hok.system_only

theorem ProcessOk.start (hl : l.Lawful shm Vl) (hok : ProcessOk shm Vl pid p) {c : Call}
    {a : Action} (hm : Matches (pid = 0 ∧ p.allocator ≠ none) a (p.passed c)) :
    ProcessOk shm Vl pid (p.start c a) := by
  refine hok.of_same hl (sameStatics_start c a) (mine_start c a).symm fun c' hc' => ?_
  rw [pending_start] at hc'
  rcases List.mem_append.mp hc' with hc' | hc'
  · exact hok.pending c' hc'
  · rw [List.mem_singleton.mp hc']
    exact hm

/-- A child forgets a block of the pool, which nobody released; the heap keeps its own. -/
theorem ProcessOk.drop_shared (hl : l.Lawful shm Vl) (hok : ProcessOk shm Vl pid p) {ptr : Nat} {h : Held}
    (hf : p.find ptr = some h) (hs : h.producer = .shared) :
    ProcessOk shm Vl pid (p.drop ptr) := by
  obtain ⟨id, a | b⟩ := h
  · refine hok.move rfl rfl rfl Iff.rfl ?_
      ((hok.tracked.sublist (mine_drop_sublist ptr)).of_same rfl rfl rfl rfl) hok.pending
      hok.system_only
    have hperm : (p.mine ++ p.leaked).Perm (((⟨id, .shared a⟩ :: (p.drop ptr).owned) ++
        p.pending.filterMap Pending.held) ++ p.leaked) :=
      ((perm_drop hf).append_right _).append_right _
    have hvalid := hl.order (systemOf_perm hperm) hok.valid
    exact hvalid
  · cases hs

end Steps

/-! ## Steps of the system -/

namespace SystemOk

variable {s : State r l} {p : Process r l} {pid : Nat}

private theorem set_eq (s : State r l) (pid : Nat) (p : Process r l) :
    s.set pid p = State.set { s with pool := s.pool } pid p := rfl

/-- A process moves on, and neither its blocks nor the allocators change. -/
theorem set_same (hr : r.Lawful shm Vr) (h : SystemOk shm Vr Vl s) {p' : Process r l}
    (hs : s.procs pid = some p) (hp : ProcessOk shm Vl pid p')
    (halloc : p'.allocator = p.allocator) (hmine : p'.mine.Perm p.mine) :
    SystemOk shm Vr Vl (s.set pid p') := by
  rw [set_eq]
  refine h.set hp (fun hpid t ht => ?_) fun _ => rfl
  subst hpid
  rw [halloc] at ht
  exact (h.inUse p t hs ht).perm hr (sharedOf_perm hmine.symm)

private theorem startMain (hr : r.Lawful shm Vr) (h : SystemOk shm Vr Vl s) :
    SystemOk shm Vr Vl (s.startMain shm) := by
  rw [State.startMain]
  cases hs : s.procs 0 with
  | none => exact h
  | some p =>
    have hok := h.process 0 p hs
    by_cases hatfork : p.atfork = true
    · cases hm : p.sharedMemory with
      | none =>
        have hnone : p.allocator = none := by
          by_contra hsome
          rw [hok.allocator hsome] at hm
          cases hm
        show SystemOk shm Vr Vl (if !p.atfork then _ else if p.sharedMemory.isNone then _ else _)
        rw [if_neg (by rw [hatfork]; simp), if_pos (by rw [hm]; rfl)]
        refine set_same hr h hs ⟨fun shm' heq => ?_, fun _ => rfl, hok.root, fun hne => absurd rfl hne,
          hok.valid, hok.tracked.of_same rfl rfl rfl rfl, hok.pending, hok.system_only⟩ rfl (.refl _)
        exact ⟨(Option.some.inj heq).symm, hatfork⟩
      | some shm' =>
        show SystemOk shm Vr Vl (if !p.atfork then _ else if p.sharedMemory.isNone then _
          else if p.allocator.isNone then _ else _)
        rw [if_neg (by rw [hatfork]; simp), if_neg (by rw [hm]; simp)]
        cases halloc : p.allocator with
        | some t => exact h
        | none =>
          rw [if_pos Option.isNone_none]
          obtain ⟨rfl, -⟩ := hok.memory shm' hm
          -- before the allocator is set no block comes from the pool
          have hempty : sharedOf p.mine = [] := by
            refine List.eq_nil_iff_forall_not_mem.mpr fun a ha => ?_
            obtain ⟨id, hmem⟩ := mem_sharedOf.mp ha
            exact (hok.tracked.inside _ hmem rfl).2.2 halloc
          have hset : ProcessOk shm' Vl 0 (p.setAllocator (r.insertFreeBlock s.pool).1) := by
            refine ⟨hok.memory, fun _ => hm, hok.root, hok.child, hok.valid,
              hok.tracked.setAllocator _, fun c hc => ?_, hok.system_only⟩
            have hmatch := hok.pending c hc
            generalize c.action = a at hmatch ⊢
            generalize c.held = held at hmatch ⊢
            cases hmatch with
            | request q => exact .request q
            | realloc h n hs => exact .realloc h n hs
            | free h hs => exact .free h hs
            | allocate q layout hu => exact absurd halloc hu.2
            | reallocate h layout hu hs => exact absurd halloc hu.2
            | deallocate h hu hs => exact absurd halloc hu.2
          refine h.set hset (fun _ t ht => ?_) fun hne => absurd rfl hne
          obtain rfl := Option.some.inj ht
          show PoolOk Vr (sharedOf p.mine) _ _
          rw [hempty]
          exact ⟨hr.insert s.pool, nofun⟩
    · show SystemOk shm Vr Vl (if !p.atfork then _ else _)
      rw [if_pos (by simpa using hatfork)]
      refine set_same hr h hs ⟨fun shm' heq => ?_, hok.allocator, hok.root, hok.child, hok.valid,
        hok.tracked.of_same rfl rfl rfl rfl, hok.pending, hok.system_only⟩ rfl (.refl _)
      exact ⟨(hok.memory shm' heq).1, rfl⟩

private theorem borrow (hr : r.Lawful shm Vr) (h : SystemOk shm Vr Vl s)
    (hs : s.procs pid = some p) (counts : Nat → Nat) :
    SystemOk shm Vr Vl (s.set pid { p with borrowed := counts }) := by
  have hok := h.process pid p hs
  exact set_same hr h hs ⟨hok.memory, hok.allocator, hok.root, hok.child, hok.valid,
    hok.tracked.of_same rfl rfl rfl rfl, hok.pending, hok.system_only⟩ rfl (.refl _)

private theorem begin (hr : r.Lawful shm Vr) (hl : l.Lawful shm Vl) (h : SystemOk shm Vr Vl s)
    {thread : Nat} {c : Call} (hpermits : Permits s (.begin pid thread c)) :
    SystemOk shm Vr Vl (s.begin pid thread c).2 := by
  rw [State.begin]
  cases hs : s.procs pid with
  | none => exact h
  | some p =>
    have hok := h.process pid p hs
    have hc : (Process.given c).all (fun ptr => decide (ptr = 0 ∨ (p.find ptr).isSome)) = true := by
      have hall : (s.procs pid).all _ = true := hpermits
      rw [hs] at hall
      exact hall
    dsimp only
    cases hd : p.dispatch (p.borrowed thread) c with
    | panic => exact h.kill pid
    | perform a =>
      exact set_same hr h hs (hok.start hl (dispatch_matches hl hok hc hd))
        (sameStatics_start c a).allocator (mine_start c a)
    | answer answer =>
      show SystemOk shm Vr Vl (s.set pid (p.answered c))
      cases c with
      | request q => exact set_same hr h hs hok rfl (.refl _)
      | realloc ptr newSize => exact set_same hr h hs hok rfl (.refl _)
      | free ptr =>
        show SystemOk shm Vr Vl (s.set pid (p.drop ptr))
        cases hf : p.find ptr with
        | none =>
          rw [drop_of_find_none hf]
          exact set_same hr h hs hok rfl (.refl _)
        | some held =>
          -- only a forked child is answered at once, about a block of the pool
          obtain ⟨hmem, rfl⟩ := find_eq_some hf
          obtain ⟨hsystem, hroot, -⟩ :=
            dispatch_free (p.borrowed thread) hl hok (List.mem_append_left _ hmem)
          have hshared : held.producer = .shared := by
            cases hproducer : held.producer with
            | shared => rfl
            | system =>
              rw [hsystem hproducer] at hd
              cases hd
          have hpid : pid ≠ 0 := fun hpid => by
            rw [hroot hshared hpid] at hd
            cases hd
          rw [set_eq]
          exact h.set (hok.drop_shared hl hf hshared) (fun hzero => absurd hzero hpid) fun _ => rfl

private theorem finish (hr : r.Lawful shm Vr) (hl : l.Lawful shm Vl) (h : SystemOk shm Vr Vl s)
    {k : Nat} {c : Pending} (hs : s.procs pid = some p) (hk : p.pending[k]? = some c) :
    ∃ answer p' pool', s.finish pid k = (some answer, State.set { s with pool := pool' } pid p') ∧
      Performed shm Vr Vl (pid = 0) { p with pending := p.pending.eraseIdx k } s.pool c.held c.action
        answer p' pool' ∧
      SystemOk shm Vr Vl (State.set { s with pool := pool' } pid p') := by
  have hok := h.process pid p hs
  have hperm := mine_finish hk
  have hperformed : ∃ answer p' pool',
      Process.perform { p with pending := p.pending.eraseIdx k } s.pool c.held c.action =
        some (answer, p', pool') ∧
      Performed shm Vr Vl (pid = 0) { p with pending := p.pending.eraseIdx k } s.pool c.held c.action
        answer p' pool' := by
    refine perform_ok hr hl (hok.pending c (List.mem_of_getElem? hk)) ?_
      ((hok.tracked.perm hperm).of_same rfl rfl rfl rfl) fun hpid t ht => ?_
    · rw [← List.append_assoc]
      exact hl.order (systemOf_perm (hperm.append_right _)) hok.valid
    · subst hpid
      exact (h.inUse p t hs ht).perm hr (sharedOf_perm hperm)
  obtain ⟨answer, p', pool', hperform, hp⟩ := hperformed
  refine ⟨answer, p', pool', ?_, hp, ?_⟩
  · rw [State.finish, hs]
    simp only [hk, hperform]
  · refine h.set (hok.move hp.isForkedChild hp.atfork hp.sharedMemory hp.allocator hp.valid hp.tracked
      (fun c' hc' => ?_) fun hpid => ?_) (fun hpid => hp.inUse hpid) fun hpid => (hp.original hpid).1
    · rw [hp.pending] at hc'
      exact hok.pending c' (List.mem_of_mem_eraseIdx hc')
    · obtain ⟨-, -, hhanded, hreleased⟩ := hp.original hpid
      obtain ⟨hhanded₀, hreleased₀⟩ := hok.system_only hpid
      exact ⟨fun e he => (hhanded e he).elim (hhanded₀ e) id,
        fun h he => (hreleased h he).elim (hreleased₀ h) id⟩

private theorem write (hr : r.Lawful shm Vr) (hl : l.Lawful shm Vl) (h : SystemOk shm Vr Vl s)
    {ptr offset : Nat} {byte : UInt8} (hpermits : Permits s (.write pid ptr offset byte)) :
    SystemOk shm Vr Vl (s.write pid ptr offset byte) := by
  rw [State.write]
  cases hs : s.procs pid with
  | none => exact h
  | some p =>
    have hok := h.process pid p hs
    have hany : (p.find ptr).any (fun h =>
        decide (offset < h.size ∧ (p.isForkedChild → h.producer = .system))) = true := by
      have hall : (s.procs pid).all _ = true := hpermits
      rw [hs] at hall
      exact hall
    dsimp only
    cases hf : p.find ptr with
    | none => exact h
    | some held =>
      rw [hf] at hany
      obtain ⟨hoffset, hforked⟩ := of_decide_eq_true hany
      obtain ⟨hmem, rfl⟩ := find_eq_some hf
      obtain ⟨id, a | b⟩ := held
      · -- the pool: only the registered process writes to it
        have hpid : pid = 0 := by
          by_contra hpid
          have halloc := (hok.tracked.inside _ (List.mem_append_left _ hmem) rfl).2.2
          have hsystem := hforked (hok.child hpid (by
            rw [hok.allocator halloc]
            exact Option.some_ne_none _))
          cases hsystem
        subst hpid
        refine ⟨fun pid' p' hp' => h.process pid' p' hp', fun p' t hp' ht => ?_⟩
        obtain rfl := Option.some.inj (hs.symm.trans hp')
        refine (h.inUse p t hs ht).written hr
          (mem_sharedOf.mpr ⟨id, List.mem_append_left _ hmem⟩) fun x hx => ?_
        refine Function.update_of_ne (fun heq => ?_) _ _
        have hsize : (⟨id, .shared a⟩ : Held).size = a.layout.size := rfl
        have hptr : (⟨id, .shared a⟩ : Held).ptr = a.ptr := rfl
        omega
      -- its own heap is nobody else's, and the pool is not touched
      · refine set_same hr h hs ⟨hok.memory, hok.allocator, hok.root, hok.child, ?_,
          hok.tracked.of_same rfl rfl rfl rfl, hok.pending, hok.system_only⟩ rfl (.refl _)
        refine hl.written hok.valid fun x hx => Function.update_of_ne (fun heq => ?_) _ _
        have hb : b ∈ systemOf (p.mine ++ p.leaked) :=
          mem_systemOf.mpr ⟨id, List.mem_append_left _ (List.mem_append_left _ hmem)⟩
        have hsize : (⟨id, .system b⟩ : Held).size = b.size := rfl
        have hptr : (⟨id, .system b⟩ : Held).ptr = b.addr := rfl
        refine hx b hb ⟨?_, ?_⟩
        · omega
        · unfold Block.stop
          omega

private theorem fork (h : SystemOk shm Vr Vl s) (pid child : Nat) :
    SystemOk shm Vr Vl (s.fork pid child) := by
  rw [State.fork]
  cases hs : s.procs pid with
  | none => exact h
  | some p =>
    have hok := h.process pid p hs
    show SystemOk shm Vr Vl (if _ then _ else _)
    split
    · exact h
    · next hfree =>
      have hchild : child ≠ 0 := fun hzero => hfree (.inl hzero)
      suffices hforked : ProcessOk shm Vl child p.forked by
        rw [set_eq]
        exact h.set hforked (fun hzero => absurd hzero hchild) fun _ => rfl
      refine ⟨hok.memory, hok.allocator, fun hzero => absurd hzero hchild, fun _ hm => ?_, ?_, ?_,
        nofun, fun _ => ⟨nofun, nofun⟩⟩
      · -- the handler has run in the child of a process that has the pool in its statics
        obtain ⟨shm', hm'⟩ := Option.ne_none_iff_exists'.mp hm
        show (p.isForkedChild || p.atfork) = true
        rw [(hok.memory shm' hm').2, Bool.or_true]
      · have hvalid := hok.valid
        -- the calls that were under way in other threads stay behind in the parent
        have hlist : p.forked.mine ++ p.forked.leaked = p.mine ++ p.leaked := by
          show (p.owned ++ []) ++ (p.pending.filterMap Pending.held ++ p.leaked) =
            (p.owned ++ p.pending.filterMap Pending.held) ++ p.leaked
          rw [List.append_nil, List.append_assoc]
        rw [hlist]
        exact hvalid
      · have hmine : p.forked.mine = p.owned := List.append_nil _
        have hsub : p.owned.Sublist p.mine := List.sublist_append_left _ _
        have ht := hok.tracked.sublist hsub
        rw [hmine]
        refine ⟨?_, fun h hmem => ?_, nofun, ht.distinct, ht.inside⟩
        · show ((p.owned ++ []).map Held.id).Nodup
          rw [List.append_nil]
          exact ht.nodup.sublist ((List.sublist_append_left _ _).map _)
        · have hmem' : h ∈ p.owned ++ [] := hmem
          rw [List.append_nil] at hmem'
          exact ht.fresh h (List.mem_append_left _ hmem')

/-- **Every permitted step keeps the invariant.** -/
theorem step (hr : r.Lawful shm Vr) (hl : l.Lawful shm Vl) (h : SystemOk shm Vr Vl s) {i : Input}
    (hpermits : Permits s i) : SystemOk shm Vr Vl (s.step shm i).2 := by
  cases i with
  | startMain => exact h.startMain hr
  | borrow pid thread count =>
    rw [State.step]
    cases hs : s.procs pid with
    | none => exact h
    | some p => exact h.borrow hr hs _
  | begin pid thread c => exact h.begin hr hl hpermits
  | finish pid k =>
    show SystemOk shm Vr Vl (s.finish pid k).2
    cases hs : s.procs pid with
    | none =>
      rw [State.finish, hs]
      exact h
    | some p =>
      cases hk : p.pending[k]? with
      | none =>
        rw [State.finish, hs]
        simp only [hk]
        exact h
      | some c =>
        obtain ⟨answer, p', pool', heq, -, hok⟩ := h.finish hr hl hs hk
        rw [heq]
        exact hok
  | write pid ptr offset byte => exact h.write hr hl hpermits
  | fork pid child => exact h.fork pid child

/-- **Every run keeps it.** -/
theorem of_run (hr : r.Lawful shm Vr) (hl : l.Lawful shm Vl)
    {tr : List (Transition.Event (State r l) Input (Option Answer))}
    (hrun : Transition.Run (dispatcher r l shm Vl) Permits tr s) : SystemOk shm Vr Vl s := by
  refine hrun.invariant ?_ fun s i hok hpermits => hok.step hr hl hpermits
  rintro s ⟨t, pool, heap, hvalid, rfl⟩
  refine ⟨fun pid p hp => ?_, fun p t hp ht => ?_⟩
  · dsimp only at hp
    by_cases hpid : pid = 0
    · subst hpid
      rw [Function.update_self] at hp
      obtain rfl := Option.some.inj hp
      exact ⟨nofun, fun h => absurd rfl h, fun _ => rfl, fun h => absurd rfl h, hvalid,
        ⟨List.nodup_nil, nofun, nofun, List.Pairwise.nil, nofun⟩, nofun, fun h => absurd rfl h⟩
    · rw [Function.update_of_ne hpid] at hp
      cases hp
  · dsimp only at hp
    rw [Function.update_self] at hp
    obtain rfl := Option.some.inj hp
    cases ht

end SystemOk

/-! ## Over every run -/

/-- Of two processes with the same heap. -/
private theorem Resized.of_heap {p p₁ p' : Process r l} {pool pool' : Memory} {h : Held} {n : Nat}
    {answer : Answer} (hr : Resized p₁ pool h n answer p' pool') (hheap : p₁.heap = p.heap) :
    Resized p pool h n answer p' pool' := by
  have hbytes (a : Allocator) : p₁.bytes pool a = p.bytes pool a := by
    cases a
    · rfl
    · exact hheap
  cases hr with
  | moved h' hanswer howned hsize hproducer hreleased hdata =>
    rw [hbytes] at hdata
    exact .moved h' hanswer howned hsize hproducer hreleased hdata
  | kept hanswer howned hdata =>
    rw [hbytes] at hdata
    exact .kept hanswer howned hdata
  | freed hanswer hzero hreleased => exact .freed hanswer hzero hreleased

/-- **Allocator dispatch.** Over every run, of the registered process and its children: what was
handed to an allocator came from it, a block is released at most once and not owned any more; a
pointer that is passed to `free` or `realloc` goes to its producer, except that a child's `free`
and any failing `realloc` of a block of the pool do nothing; `realloc` moves a block with its
contents, or leaves it; and a child releases nothing of the pool and does not touch it. -/
theorem allocator_dispatch (hr : r.Lawful shm Vr) (hl : l.Lawful shm Vl) {s : State r l}
    {tr : List (Transition.Event (State r l) Input (Option Answer))}
    (hrun : Transition.Run (dispatcher r l shm Vl) Permits tr s) :
    (∀ pid p, s.procs pid = some p →
      (∀ e ∈ p.handed, e.1.producer = e.2) ∧ ((p.owned ++ p.released).map Held.id).Nodup ∧
      (pid ≠ 0 → (∀ e ∈ p.handed, e.2 = .system) ∧ ∀ h ∈ p.released, h.producer = .system)) ∧
    (∀ pid p, s.procs pid = some p → ∀ h ∈ p.owned, p.find h.ptr = some h ∧ ∀ borrowed,
      (h.producer = .system →
        p.dispatch borrowed (.free h.ptr) = .perform (.original (.free h.ptr)) ∧
        ∀ n, p.dispatch borrowed (.realloc h.ptr n) = .perform (.original (.realloc h.ptr n))) ∧
      (h.producer = .shared → pid = 0 →
        p.dispatch borrowed (.free h.ptr) = .perform (.deallocate h.ptr) ∧
        ∀ n, p.dispatch borrowed (.realloc h.ptr n) = .answer .null ∨
          ∃ layout, layout.size = n ∧
            p.dispatch borrowed (.realloc h.ptr n) = .perform (.reallocate h.ptr layout)) ∧
      (h.producer = .shared → pid ≠ 0 → p.dispatch borrowed (.free h.ptr) = .answer .null ∧
        ∀ n, p.dispatch borrowed (.realloc h.ptr n) = .answer .null)) ∧
    (∀ pid p k c, s.procs pid = some p → p.pending[k]? = some c → ∃ answer p' s',
      s.step shm (.finish pid k) = (some answer, s') ∧ s'.procs pid = some p' ∧
      (∀ h n, c.held = some h → c.action.newSize? = some n →
        Resized p s.pool h n answer p' s'.pool) ∧
      (pid ≠ 0 → s'.pool = s.pool ∧ p'.allocator = p.allocator)) ∧
    ∀ pid p thread c, s.procs pid = some p →
      (s.step shm (.begin pid thread c)).2.pool = s.pool ∧
      ∀ ptr n a, c = .realloc ptr n → p.dispatch (p.borrowed thread) c = .answer a →
        (s.step shm (.begin pid thread c)).2 = s := by
  -- one invariant for all processes; each part is read off it
  have hsys := SystemOk.of_run hr hl hrun
  refine ⟨fun pid p hp => ?_, fun pid p hp h hmem => ?_, fun pid p k c hp hk => ?_,
    fun pid p thread c hp => ?_⟩
  · have hok := hsys.process pid p hp
    refine ⟨hok.tracked.handed, hok.tracked.nodup.sublist ?_, hok.system_only⟩
    exact ((List.sublist_append_left _ _).append_right _).map _
  · have hok := hsys.process pid p hp
    have hmine : h ∈ p.mine := List.mem_append_left _ hmem
    refine ⟨?_, fun borrowed => ?_⟩
    · -- no two blocks have one pointer
      cases hf : p.find h.ptr with
      | none =>
        have hnone := List.find?_eq_none.mp hf h hmem
        simp at hnone
      | some h' =>
        obtain ⟨hmem', hptr⟩ := find_eq_some hf
        have hnodup : (p.mine.map Held.ptr).Nodup := List.pairwise_map.mpr hok.tracked.distinct
        rw [List.inj_on_of_nodup_map hnodup (List.mem_append_left _ hmem') hmine hptr]
    · obtain ⟨hsystem, hroot, hchild⟩ := dispatch_free borrowed hl hok hmine
      refine ⟨fun hs => ⟨hsystem hs, fun n => (dispatch_realloc borrowed hl hok hmine n).1 hs⟩,
        fun hs hpid => ⟨hroot hs hpid, fun n => ?_⟩, fun hs hpid => ⟨hchild hs hpid, fun n => ?_⟩⟩
      · exact ((dispatch_realloc borrowed hl hok hmine n).2 hs).imp id And.right
      · exact ((dispatch_realloc borrowed hl hok hmine n).2 hs).resolve_right fun h => hpid h.1
  -- what has begun finishes with an answer of the allocator it was given to
  · obtain ⟨answer, p', pool', hstep, hperformed, -⟩ := hsys.finish hr hl hp hk
    refine ⟨answer, p', _, hstep, Function.update_self .., fun h n hheld hn => ?_, fun hpid => ?_⟩
    · exact (hperformed.resized h n hheld hn).of_heap rfl
    · exact ⟨(hperformed.original hpid).1, (hperformed.original hpid).2.1⟩
  -- beginning a call touches no memory
  · have hbegin : s.step shm (.begin pid thread c) = s.begin pid thread c := rfl
    rw [hbegin, State.begin, hp]
    dsimp only
    refine ⟨?_, fun ptr n a hc hd => ?_⟩
    · split <;> rfl
    · rw [hd]
      subst hc
      show s.set pid p = s
      rw [State.set, ← hp, Function.update_eq_self]

/-! ## A system heap -/

/-- A heap that never uses an address twice: its state is the first unused address. -/
def bumpLibc : Libc where
  State := Nat
  request := fun q next m =>
    (⟨some next, 0⟩, next + (q.bytes / 16 + 1) * 16,
      match q with
      | .calloc _ _ => Process.writeZeros m next q.bytes
      | _ => m)
  realloc := fun ptr size next m =>
    if size = 0 then (none, next, m)
    else (some next, next + (size / 16 + 1) * 16, copy m ptr next size)
  free := fun _ next m => (next, m)

/-- The live blocks of `bumpLibc` are behind the pool and below the first unused address. -/
structure BumpLibcValid (shm : AgnocastSharedMemory) (bs : List Block) (next : Nat) : Prop where
  distinct : bs.Pairwise fun b c => b.addr ≠ c.addr
  behind : ∀ b ∈ bs, shm.stop < b.addr ∧ b.addr < next
  stop : shm.stop < next

theorem BumpLibcValid.push {bs : List Block} {next : Nat} (h : BumpLibcValid shm bs next)
    (size : Nat) : BumpLibcValid shm (⟨next, size⟩ :: bs) (next + (size / 16 + 1) * 16) where
  distinct := List.pairwise_cons.mpr ⟨fun b hb => (h.behind b hb).2.ne', h.distinct⟩
  behind := by
    have hstop := h.stop
    intro b hb
    rcases List.mem_cons.mp hb with rfl | hb
    · dsimp only
      omega
    · have := h.behind b hb
      omega
  stop := by
    have hstop := h.stop
    omega

theorem BumpLibcValid.tail {b : Block} {bs : List Block} {next : Nat}
    (h : BumpLibcValid shm (b :: bs) next) : BumpLibcValid shm bs next :=
  ⟨(List.pairwise_cons.mp h.distinct).2, (List.forall_mem_cons.mp h.behind).2, h.stop⟩

theorem bumpLibc_lawful (shm : AgnocastSharedMemory) :
    bumpLibc.Lawful shm fun bs next _ => BumpLibcValid shm bs next where
  order := fun hperm h => ⟨hperm.pairwise h.distinct Ne.symm,
    fun b hb => h.behind b (hperm.mem_iff.mpr hb), h.stop⟩
  distinct := BumpLibcValid.distinct
  outside := fun h b hb => by
    have := h.behind b hb
    omega
  written := fun h _ => h
  allocated := by
    intro bs (next : Nat) m q a t' m' o h hcall ha
    simp only [bumpLibc, Prod.mk.injEq] at hcall
    obtain ⟨rfl, rfl, -⟩ := hcall
    obtain rfl := Option.some.inj ha
    exact h.push q.bytes
  not_allocated := by
    intro bs (next : Nat) m q a t' m' h hcall ha
    simp only [bumpLibc, Prod.mk.injEq] at hcall
    obtain ⟨rfl, -⟩ := hcall
    cases ha
  reallocated := by
    intro b bs (next : Nat) m size o t' m' h hcall
    simp only [bumpLibc] at hcall
    split at hcall
    · cases hcall
    · simp only [Prod.mk.injEq, Option.some.injEq] at hcall
      obtain ⟨rfl, rfl, rfl⟩ := hcall
      refine ⟨h.tail.push size, fun i hi => ?_⟩
      unfold copy
      rw [if_pos (by omega), Nat.add_sub_cancel_left]
  not_reallocated := by
    intro b bs (next : Nat) m size t' m' h hcall
    simp only [bumpLibc] at hcall
    split at hcall
    · next hzero =>
      simp only [Prod.mk.injEq, true_and] at hcall
      obtain ⟨rfl, -⟩ := hcall
      rw [if_pos hzero]
      exact h.tail
    · cases hcall
  freed := fun h => h.tail

instance (r : Rlsf) (l : Libc) (s : State r l) (i : Input) : Decidable (Permits s i) :=
  inferInstanceAs (Decidable (s.permits i = true))

/-- A block of the heap from before the pool is there and one of the pool; a child frees both, and
then the registered process frees the one of the pool and moves the other. -/
theorem allocator_dispatch_of_fork :
    let shm : AgnocastSharedMemory := ⟨4096, 8192, by decide, by decide⟩
    let T := dispatcher (bump shm) bumpLibc shm fun bs next _ => BumpLibcValid shm bs next
    let s : State (bump shm) bumpLibc := (T.exec ⟨fun _ => 0, Function.update (fun _ => none) 0 (some
      { isForkedChild := false, atfork := false, sharedMemory := none, allocator := none,
        libc := (8208 : Nat), heap := fun _ => 0, borrowed := fun _ => 0, pending := [], owned := [],
        leaked := [], nextId := 0, handed := [], released := [] })⟩ []
      [.startMain, .startMain, .begin 0 1 (.request (.malloc 24)), .finish 0 0, .startMain,
        .borrow 0 1 1, .begin 0 1 (.request (.malloc 24)), .finish 0 0, .write 0 4112 23 7, .fork 0 5,
        .begin 5 0 (.free 4112), .begin 5 0 (.free 8208), .finish 5 0,
        .begin 0 2 (.free 4112), .begin 0 1 (.realloc 8208 40), .finish 0 1, .finish 0 0]).2
    (∀ pid p, s.procs pid = some p →
      (∀ e ∈ p.handed, e.1.producer = e.2) ∧ ((p.owned ++ p.released).map Held.id).Nodup ∧
      (pid ≠ 0 → (∀ e ∈ p.handed, e.2 = .system) ∧ ∀ h ∈ p.released, h.producer = .system)) ∧
    (s.procs 0).map (fun p => (p.handed.map Prod.snd, p.released.map Held.ptr, p.owned.map Held.ptr)) =
      some ([.shared, .system], [4112, 8208], [8240]) ∧
    (s.procs 5).map (fun p => (p.handed.map Prod.snd, p.released.map Held.ptr, p.owned.map Held.ptr)) =
      some ([.system], [8208], []) ∧ s.pool (4112 + 23) = 7 := by
  intro shm T s
  have hinit : T.init ⟨fun _ => 0, Function.update (fun _ => none) 0 (some
      { isForkedChild := false, atfork := false, sharedMemory := none, allocator := none,
        libc := (8208 : Nat), heap := fun _ => 0, borrowed := fun _ => 0, pending := [], owned := [],
        leaked := [], nextId := 0, handed := [], released := [] })⟩ :=
    ⟨(8208 : Nat), _, _, ⟨.nil, nofun, by decide⟩, rfl⟩
  exact ⟨(allocator_dispatch (bump_lawful shm) (bumpLibc_lawful shm)
    ((Transition.Run.init hinit).exec (by decide +kernel))).1, by decide +kernel, by decide +kernel,
    by decide +kernel⟩

end Agnocast.Heaphook
