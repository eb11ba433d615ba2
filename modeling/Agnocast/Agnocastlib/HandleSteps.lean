import Agnocast.Agnocastlib.IpcSharedPtr

/-!
# The library — what a step of an `ipc_shared_ptr` does

The control blocks count their instances, and the instances are those of the process. Most
steps only rearrange them. What is left is said once, for every operation.

* `HandlesOk`   — the invariant of the instances.
* `HandleStep`  — what a step does to the control blocks, the withdrawals under way and the
  threads' counters.
* `step_effect` — every step is one of these.
-/

namespace Agnocast

variable {x y : IpcSharedPtrs}

/-! ## The instances -/

namespace IpcSharedPtrs

/-- The control block of each instance. -/
def held (x : IpcSharedPtrs) : List Nat := x.items.filterMap Instance.holds

/-- The control blocks that last instances are about to delete. -/
def left (x : IpcSharedPtrs) : List Nat := x.items.filterMap Instance.leaves

/-- The withdrawals under way: on which thread, and of what. -/
def withdrawing (x : IpcSharedPtrs) : List (Nat × Nat) := x.items.filterMap Instance.withdraws

theorem holders_eq (x : IpcSharedPtrs) (b : Nat) : x.holders b = x.held.count b := by
  unfold holders held
  rw [List.count_filterMap]
  simp only [beq_eq_decide]

end IpcSharedPtrs

/-- What a control block says of where it comes from. -/
def Origin.Describes : Origin → MessageRef → Prop
  | .loan _ _ _, ref => ref.entryId = entryIdNotAssigned
  | .received ref', ref => ref = ref' ∧ ref.entryId ≠ entryIdNotAssigned

/-- The invariant of the instances. -/
structure HandlesOk (x : IpcSharedPtrs) : Prop where
  counted : x.ptrs.Counted refCountSize
  leak : x.ptrs.NoneLeaked
  held : x.held.Perm x.ptrs.instances
  left : x.left.Perm x.ptrs.dying
  room : ∀ b, x.ptrs.instances.count b < refCountSize
  origins : ∀ b, (x.origins b).isSome ↔ b < x.ptrs.next
  describes : ∀ b ref o, x.ptrs.valueOf b = some ref → x.origins b = some o → o.Describes ref

private theorem one_lt_refCountSize : 1 < refCountSize := by decide

/-- A process before it has any instance. -/
def noInstances : IpcSharedPtrs := ⟨[], .empty, fun _ => true, fun _ => none, fun _ => 0, false⟩

theorem noInstances_init : ipcSharedPtrs.init noInstances :=
  ⟨rfl, rfl, fun _ => rfl, fun _ => rfl, rfl⟩

theorem HandlesOk.start (hinit : ipcSharedPtrs.init x) : HandlesOk x := by
  obtain ⟨hitems, hptrs, horigins, _, _⟩ := hinit
  refine ⟨hptrs ▸ .empty, fun b hb => ?_, ?_, ?_, fun b => ?_, fun b => ?_, fun b ref o hval => ?_⟩
  · rw [hptrs] at hb
    cases hb
  · simp only [IpcSharedPtrs.held, hitems, hptrs, List.filterMap_nil]
    exact .refl _
  · simp only [IpcSharedPtrs.left, hitems, hptrs, List.filterMap_nil]
    exact .refl _
  · rw [hptrs]
    exact (by decide : 0 < refCountSize)
  · rw [horigins b, hptrs]
    simp [SharedPtrs.empty]
  · rw [hptrs] at hval
    cases hval

/-- The items were rearranged. -/
theorem HandlesOk.rearrange (h : HandlesOk x) (hptrs : y.ptrs = x.ptrs)
    (horigins : y.origins = x.origins) (hheld : y.held.Perm x.held) (hleft : y.left.Perm x.left) :
    HandlesOk y where
  counted := hptrs ▸ h.counted
  leak := hptrs ▸ h.leak
  held := hptrs ▸ hheld.trans h.held
  left := hptrs ▸ hleft.trans h.left
  room := hptrs ▸ h.room
  origins := by rw [hptrs, horigins]; exact h.origins
  describes := by rw [hptrs, horigins]; exact h.describes

/-- An instance that is not in a call holds a control block that exists. -/
theorem HandlesOk.mem_instances (h : HandlesOk x) {item : Instance} {b : Nat}
    (hitem : item ∈ x.items) (hb : item.holds = some b) : b ∈ x.ptrs.instances :=
  h.held.mem_iff.mp (List.mem_filterMap.mpr ⟨item, hitem, hb⟩)

theorem HandlesOk.mem_dying (h : HandlesOk x) {item : Instance} {b : Nat} (hitem : item ∈ x.items)
    (hb : item.leaves = some b) : b ∈ x.ptrs.dying :=
  h.left.mem_iff.mp (List.mem_filterMap.mpr ⟨item, hitem, hb⟩)

theorem HandlesOk.blocks_of_held (h : HandlesOk x) {b : Nat} (hb : b ∈ x.ptrs.instances) :
    ∃ k, x.ptrs.blocks b = some k := by
  have hval := h.counted.present b (List.mem_append_left _ hb)
  unfold SharedPtrs.valueOf at hval
  rw [Option.isSome_map] at hval
  exact Option.isSome_iff_exists.mp hval

/-- A block that has a value was made. -/
theorem HandlesOk.lt_next (h : HandlesOk x) {b : Nat} {ref : MessageRef}
    (hval : x.ptrs.valueOf b = some ref) : b < x.ptrs.next :=
  h.counted.lt_next (by rw [hval]; rfl)

/-- The counter is the number of instances: it has not run over. -/
theorem HandlesOk.refCount_eq (h : HandlesOk x) {b : Nat} {k : ControlBlock MessageRef}
    (hk : x.ptrs.blocks b = some k) : k.refCount = x.holders b := by
  rw [x.holders_eq, h.held.count_eq b, h.counted.counter b k hk, Nat.mod_eq_of_lt (h.room b)]

/-- An instance that is not null refers to a block that nobody has withdrawn. -/
theorem IpcSharedPtrs.valid_of_get {h : IpcSharedPtr} {b : Nat} (hget : x.get h ≠ none)
    (hcontrol : h.control = some b) : x.valid b = true := by
  unfold IpcSharedPtrs.get IpcSharedPtrs.isInvalidated at hget
  rw [hcontrol] at hget
  by_contra hvalid
  exact hget (by simp [hvalid])

/-! ### A new control block -/

theorem HandlesOk.construct (h : HandlesOk x) (type : ElementType) (addr : Nat) (ref : MessageRef)
    {o : Origin} (ho : o.Describes ref) : HandlesOk (x.construct type addr ref o) where
  counted := h.counted.make one_lt_refCountSize ref
  leak := h.leak.make ref
  held := h.held.cons _
  left := h.left
  room b := by
    show (x.ptrs.next :: x.ptrs.instances).count b < refCountSize
    by_cases hb : b = x.ptrs.next
    · -- nobody holds what does not exist yet
      have hnone : x.ptrs.next ∉ x.ptrs.instances := fun hmem =>
        Nat.lt_irrefl _ (h.counted.lt_next (h.counted.present _ (List.mem_append_left _ hmem)))
      rw [hb, List.count_cons_self, List.count_eq_zero.mpr hnone]
      exact one_lt_refCountSize
    · rw [List.count_cons_of_ne (Ne.symm hb)]
      exact h.room b
  origins b := by
    show (Function.update x.origins x.ptrs.next (some o) b).isSome ↔ b < x.ptrs.next + 1
    by_cases hb : b = x.ptrs.next
    · simp [hb]
    · rw [Function.update_of_ne hb, h.origins b]
      omega
  describes b ref' o' hval ho' := by
    have hval : (x.ptrs.make ref).valueOf b = some ref' := hval
    have ho' : Function.update x.origins x.ptrs.next (some o) b = some o' := ho'
    rw [SharedPtrs.valueOf_make] at hval
    by_cases hb : b = x.ptrs.next
    · rw [if_pos hb] at hval
      rw [hb, Function.update_self] at ho'
      obtain rfl := Option.some.inj hval
      obtain rfl := Option.some.inj ho'
      exact ho
    · rw [if_neg hb] at hval
      rw [Function.update_of_ne hb] at ho'
      exact h.describes b ref' o' hval ho'

/-! ### Copies and drops -/

private theorem instances_copy {h : SharedPtrs MessageRef} {b : Nat} {k : ControlBlock MessageRef}
    (hk : h.blocks b = some k) : (h.copy refCountSize b).instances = b :: h.instances := by
  simp only [SharedPtrs.copy, hk]

private theorem dying_copy {h : SharedPtrs MessageRef} {b : Nat} :
    (h.copy refCountSize b).dying = h.dying := by
  unfold SharedPtrs.copy
  split <;> rfl

theorem HandlesOk.copyConstruct (h : HandlesOk x) {r : IpcSharedPtr} (view : PtrView)
    (hroom : ∀ b, r.control = some b → x.holders b + 1 < refCountSize) :
    HandlesOk (x.copyConstruct r view) := by
  unfold IpcSharedPtrs.copyConstruct
  split
  next hr =>
    cases hcontrol : r.control with
    | none => exact h.rearrange rfl rfl (.refl _) (.refl _)
    | some b =>
      have hb : b ∈ x.ptrs.instances := h.mem_instances hr hcontrol
      obtain ⟨k, hk⟩ := h.blocks_of_held hb
      have hinst : (x.ptrs.copy refCountSize b).instances = b :: x.ptrs.instances :=
        instances_copy hk
      refine ⟨h.counted.copy hb, h.leak.copy b, ?_, ?_, fun c => ?_, fun c => ?_,
        fun c ref o hval => ?_⟩
      · show (b :: x.held).Perm (x.ptrs.copy refCountSize b).instances
        rw [hinst]
        exact h.held.cons b
      · show x.left.Perm (x.ptrs.copy refCountSize b).dying
        rw [dying_copy]
        exact h.left
      · show (x.ptrs.copy refCountSize b).instances.count c < refCountSize
        rw [hinst]
        by_cases hc : c = b
        · have hfit := hroom b hcontrol
          rw [x.holders_eq, h.held.count_eq b] at hfit
          rw [hc, List.count_cons_self]
          exact hfit
        · rw [List.count_cons_of_ne (Ne.symm hc)]
          exact h.room c
      · show (x.origins c).isSome ↔ c < (x.ptrs.copy refCountSize b).next
        rw [SharedPtrs.next_copy]
        exact h.origins c
      · have hval : (x.ptrs.copy refCountSize b).valueOf c = some ref := hval
        rw [SharedPtrs.valueOf_copy] at hval
        exact h.describes c ref o hval
  · exact h

private theorem filterMap_move {f : Instance → Option Nat} {items : List Instance}
    {r r' : IpcSharedPtr} (hr : .idle r ∈ items) (hf : f (.idle r') = f (.idle r))
    (hnull : f (.idle (.null r.type)) = none) :
    ((Bag.replace items (.idle r) [.idle r', .idle (.null r.type)]).filterMap f).Perm
      (items.filterMap f) := by
  refine Bag.filterMap_replace_perm hr _ ?_
  rw [List.filterMap_cons, List.filterMap_cons, hnull, hf]
  cases f (.idle r) <;> exact .refl _

theorem HandlesOk.moveConstruct (h : HandlesOk x) (r : IpcSharedPtr) (view : PtrView) :
    HandlesOk (x.moveConstruct r view) := by
  unfold IpcSharedPtrs.moveConstruct
  split
  next hr => exact h.rearrange rfl rfl (filterMap_move hr rfl rfl) (filterMap_move hr rfl rfl)
  · exact h

private theorem filterMap_erase {f : Instance → Option Nat} {items : List Instance}
    {h : IpcSharedPtr} (hf : f (.idle h) = none) :
    ((items.erase (.idle h)).filterMap f).Perm (items.filterMap f) := by
  by_cases hmem : .idle h ∈ items
  · exact Bag.filterMap_replace_perm hmem [] (by rw [hf]; exact .refl _)
  · rw [List.erase_of_not_mem hmem]

theorem HandlesOk.destroy (h : HandlesOk x) (l : IpcSharedPtr) : HandlesOk (x.destroy l) := by
  unfold IpcSharedPtrs.destroy
  split
  next hnone => exact h.rearrange rfl rfl (filterMap_erase hnone) (filterMap_erase rfl)
  · exact h

/-- A null instance that goes away takes nothing with it. -/
theorem held_destroy (x : IpcSharedPtrs) (l : IpcSharedPtr) : (x.destroy l).held.Perm x.held := by
  unfold IpcSharedPtrs.destroy
  split
  next hnone => exact filterMap_erase hnone
  · exact .refl _

/-! ### Resets -/

private theorem count_of_wasLast (h : HandlesOk x) (b : Nat) :
    ∀ k, x.ptrs.blocks b = some k → k.refCount = 1 → x.ptrs.instances.count b = 1 := by
  intro k hk hone
  rw [← hone, h.counted.counter b k hk, Nat.mod_eq_of_lt (h.room b)]

theorem HandlesOk.reset (h : HandlesOk x) (thread : Nat) (r : IpcSharedPtr) :
    HandlesOk (x.reset thread r) := by
  unfold IpcSharedPtrs.reset
  split
  · exact h
  next b hcontrol =>
  split
  next hr =>
    have hb : b ∈ x.ptrs.instances := h.mem_instances hr hcontrol
    obtain ⟨k, hk⟩ := h.blocks_of_held hb
    -- whether it is the last is read off the count
    have hlast : x.wasLast b = decide (k.refCount = 1) := by
      simp only [IpcSharedPtrs.wasLast, hk, Option.any_some]
    refine ⟨h.counted.drop one_lt_refCountSize hb (count_of_wasLast h b),
      h.leak.drop h.counted one_lt_refCountSize b, ?_, ?_, fun c => ?_, fun c => ?_,
      fun c ref o hval => ?_⟩
    · -- what it held is gone
      have hperm := Bag.filterMap_replace Instance.holds hr (.idle (.null r.type) ::
        if x.wasLast b then [.closing thread r] else [])
      have hnew : (Instance.idle (.null r.type) ::
          if x.wasLast b then [Instance.closing thread r] else []).filterMap Instance.holds = [] := by
        split <;> rfl
      rw [hnew] at hperm
      have hheld : (Instance.idle r).holds = some b := hcontrol
      rw [hheld] at hperm
      have hdrop : (x.ptrs.drop refCountSize b).instances = x.ptrs.instances.erase b := by
        simp only [SharedPtrs.drop, hk]
      show List.Perm _ (x.ptrs.drop refCountSize b).instances
      rw [hdrop]
      exact (List.perm_cons b).mp ((hperm.trans h.held).trans (List.perm_cons_erase hb))
    · -- and it leaves the control block if it was the last
      have hperm := Bag.filterMap_replace Instance.leaves hr (.idle (.null r.type) ::
        if x.wasLast b then [.closing thread r] else [])
      have hdrop : (x.ptrs.drop refCountSize b).dying =
          if k.refCount = 1 then b :: x.ptrs.dying else x.ptrs.dying := by
        simp only [SharedPtrs.drop, hk]
      show List.Perm _ (x.ptrs.drop refCountSize b).dying
      rw [hdrop]
      by_cases hone : k.refCount = 1
      · rw [if_pos hone]
        have hlast : x.wasLast b = true := by rw [hlast]; exact decide_eq_true hone
        rw [if_pos hlast] at hperm ⊢
        have hnew : [Instance.idle (.null r.type), Instance.closing thread r].filterMap
            Instance.leaves = [b] := by
          show (r.control.toList : List Nat) = [b]
          rw [hcontrol]
          rfl
        rw [hnew] at hperm
        exact hperm.trans (h.left.cons b)
      · rw [if_neg hone]
        have hlast : ¬ x.wasLast b = true := by rw [hlast]; simpa using hone
        rw [if_neg hlast] at hperm ⊢
        exact hperm.trans h.left
    · refine Nat.lt_of_le_of_lt ?_ (h.room c)
      show (x.ptrs.drop refCountSize b).instances.count c ≤ _
      have hdrop : (x.ptrs.drop refCountSize b).instances = x.ptrs.instances.erase b := by
        simp only [SharedPtrs.drop, hk]
      rw [hdrop]
      exact List.Sublist.count_le c List.erase_sublist
    · show (x.origins c).isSome ↔ c < (x.ptrs.drop refCountSize b).next
      rw [SharedPtrs.next_drop]
      exact h.origins c
    · have hval : (x.ptrs.drop refCountSize b).valueOf c = some ref := hval
      rw [SharedPtrs.valueOf_drop] at hval
      exact h.describes c ref o hval
  · exact h

theorem HandlesOk.deleteControl (h : HandlesOk x) {thread : Nat} {r : IpcSharedPtr} {b : Nat}
    (hr : .closing thread r ∈ x.items) (hcontrol : r.control = some b) :
    HandlesOk (x.deleteControl thread r b) := by
  have hdying : b ∈ x.ptrs.dying := h.mem_dying hr hcontrol
  refine ⟨h.counted.delete hdying, h.leak.delete b, ?_, ?_, h.room, h.origins,
    fun c ref o hval => ?_⟩
  · exact (Bag.filterMap_replace_perm hr [] (.refl _)).trans h.held
  · have hperm := Bag.filterMap_replace Instance.leaves hr []
    have hleaves : (Instance.closing thread r).leaves = some b := hcontrol
    rw [hleaves] at hperm
    exact (List.perm_cons b).mp ((hperm.trans h.left).trans (List.perm_cons_erase hdying))
  · have hval : (x.ptrs.delete b).valueOf c = some ref := hval
    rw [SharedPtrs.valueOf_delete] at hval
    split at hval
    · cases hval
    · exact h.describes c ref o hval

/-! ## The steps -/

/-- The control blocks are what they were, up to their counters. -/
structure SameBlocks (x y : IpcSharedPtrs) : Prop where
  value : ∀ b, y.ptrs.valueOf b = x.ptrs.valueOf b
  next : y.ptrs.next = x.ptrs.next
  valid : y.valid = x.valid
  origins : y.origins = x.origins

/-- A thread is about to delete a control block. -/
structure Closing (x : IpcSharedPtrs) (i : HandleInput) (thread : Nat) (h : IpcSharedPtr) (b : Nat)
    (ref : MessageRef) : Prop where
  input : i = .closeLast thread h
  item : .closing thread h ∈ x.items
  control : h.control = some b
  value : x.ptrs.valueOf b = some ref

/-- What it frees besides, and the threads' counters after it. -/
inductive Frees (x : IpcSharedPtrs) (thread : Nat) (h : IpcSharedPtr) (b : Nat) (ref : MessageRef) :
    Option Freed → (Nat → Nat) → Prop
  | reference (entry : ref.entryId ≠ entryIdNotAssigned) :
      Frees x thread h b ref (some (.reference ref)) x.borrowedPublisherNum
  | message (entry : ref.entryId = entryIdNotAssigned) (valid : x.valid b = true)
      (num : x.borrowedPublisherNum thread ≠ 0) (type : h.type ≠ .void) :
      Frees x thread h b ref (some (.message h.ptr h.type))
        (x.decrementBorrowed thread).borrowedPublisherNum
  | nothing (entry : ref.entryId = entryIdNotAssigned) (valid : x.valid b = false) :
      Frees x thread h b ref none x.borrowedPublisherNum

/-- The counters after a control block was built. -/
def Origin.count : Origin → (Nat → Nat) → Nat → Nat
  | .loan thread _ _, num => Function.update num thread ((num thread + 1) % refCountSize)
  | .received _, num => num

/-- What a step does. -/
inductive HandleStep (x : IpcSharedPtrs) (i : HandleInput) :
    Option HandleReply → IpcSharedPtrs → Prop
  | rearranged {z : IpcSharedPtrs} (same : SameBlocks x z)
      (num : z.borrowedPublisherNum = x.borrowedPublisherNum)
      (withdrawing : z.withdrawing.Perm x.withdrawing) : HandleStep x i none z
  | constructed {z : IpcSharedPtrs} (ref : MessageRef) (o : Origin) (describes : o.Describes ref)
      (input : ∀ thread addr type, o = .loan thread addr type →
        ∃ topicName pubsubId, i = .borrow thread topicName pubsubId addr type)
      (value : ∀ b, z.ptrs.valueOf b = if b = x.ptrs.next then some ref else x.ptrs.valueOf b)
      (next : z.ptrs.next = x.ptrs.next + 1)
      (valid : z.valid = Function.update x.valid x.ptrs.next true)
      (origins : z.origins = Function.update x.origins x.ptrs.next (some o))
      (num : z.borrowedPublisherNum = o.count x.borrowedPublisherNum)
      (withdrawing : z.withdrawing = x.withdrawing) : HandleStep x i none z
  | withdrawn {z : IpcSharedPtrs} (thread : Nat) (how : Withdrawal) (topicName : Name) (h : IpcSharedPtr) (b : Nat)
      (input : i = .withdraw thread how topicName h) (item : .idle h ∈ x.items)
      (control : h.control = some b) (get : x.get h ≠ none)
      (topic : x.getTopicName h = some topicName) (ptrs : z.ptrs = x.ptrs)
      (valid : z.valid = Function.update x.valid b false) (origins : z.origins = x.origins)
      (num : z.borrowedPublisherNum = x.borrowedPublisherNum)
      (withdrawing : z.withdrawing.Perm ((thread, b) :: x.withdrawing)) :
      HandleStep x i (some (.withdrawn b)) z
  | settled {z : IpcSharedPtrs} (thread : Nat) (how : Withdrawal) (h : IpcSharedPtr) (b : Nat)
      (item : .withdrawing thread how h ∈ x.items) (control : h.control = some b)
      (same : SameBlocks x z) (nonzero : x.borrowedPublisherNum thread ≠ 0)
      (num : z.borrowedPublisherNum = (x.decrementBorrowed thread).borrowedPublisherNum)
      (withdrawing : ((thread, b) :: z.withdrawing).Perm x.withdrawing) :
      HandleStep x i (some (Withdrawal.reply b h.ptr how)) z
  | closed {z : IpcSharedPtrs} (thread : Nat) (h : IpcSharedPtr) (b : Nat) (ref : MessageRef) (freed : Option Freed)
      (closing : Closing x i thread h b ref) (frees : Frees x thread h b ref freed z.borrowedPublisherNum)
      (value : ∀ c, z.ptrs.valueOf c = if c = b then none else x.ptrs.valueOf c)
      (next : z.ptrs.next = x.ptrs.next) (valid : z.valid = x.valid) (origins : z.origins = x.origins)
      (withdrawing : z.withdrawing.Perm x.withdrawing) : HandleStep x i (some (.closed b freed)) z
  | refused {z : IpcSharedPtrs} {r : HandleReply} (same : SameBlocks x z) (terminated : z.terminated = true)
      (reply : r = .invalidMessage ∨ ∃ b, r = .typeErasedDropped b)
      (withdrawing : z.withdrawing = x.withdrawing) : HandleStep x i (some r) z
  | exceeded {z : IpcSharedPtrs} (thread b : Nat) (same : SameBlocks x z) (terminated : z.terminated = true)
      (zero : x.borrowedPublisherNum thread = 0)
      (loan : (thread, b) ∈ x.withdrawing ∨ ∃ h ref, Closing x i thread h b ref ∧
        ref.entryId = entryIdNotAssigned ∧ x.valid b = true) : HandleStep x i (some .exceeded) z

private theorem SameBlocks.refl (x : IpcSharedPtrs) : SameBlocks x x := ⟨fun _ => rfl, rfl, rfl, rfl⟩

/-- Nothing happens. -/
theorem HandleStep.stay (x : IpcSharedPtrs) (i : HandleInput) : HandleStep x i none x :=
  .rearranged (.refl x) rfl (.refl _)

private theorem withdrawing_erase (x : IpcSharedPtrs) (item : Instance)
    (hitem : item.withdraws = none) :
    ((x.items.erase item).filterMap Instance.withdraws).Perm x.withdrawing := by
  by_cases hmem : item ∈ x.items
  · exact Bag.filterMap_replace_perm hmem [] (by rw [hitem]; exact .refl _)
  · rw [List.erase_of_not_mem hmem]
    exact .refl _

private theorem copy_effect (x : IpcSharedPtrs) (r : IpcSharedPtr) (view : PtrView) :
    SameBlocks x (x.copyConstruct r view) ∧
      (x.copyConstruct r view).borrowedPublisherNum = x.borrowedPublisherNum ∧
      (x.copyConstruct r view).withdrawing.Perm x.withdrawing := by
  unfold IpcSharedPtrs.copyConstruct
  split
  · cases r.control with
    | none => exact ⟨⟨fun _ => rfl, rfl, rfl, rfl⟩, rfl, .refl _⟩
    | some b =>
      exact ⟨⟨fun c => SharedPtrs.valueOf_copy b c, SharedPtrs.next_copy b, rfl, rfl⟩, rfl, .refl _⟩
  · exact ⟨.refl x, rfl, .refl _⟩

private theorem move_effect (x : IpcSharedPtrs) (r : IpcSharedPtr) (view : PtrView) :
    SameBlocks x (x.moveConstruct r view) ∧
      (x.moveConstruct r view).borrowedPublisherNum = x.borrowedPublisherNum ∧
      (x.moveConstruct r view).withdrawing.Perm x.withdrawing := by
  unfold IpcSharedPtrs.moveConstruct
  split
  next hr => exact ⟨⟨fun _ => rfl, rfl, rfl, rfl⟩, rfl, Bag.filterMap_replace_perm hr _ (.refl _)⟩
  · exact ⟨.refl x, rfl, .refl _⟩

private theorem destroy_effect (x : IpcSharedPtrs) (h : IpcSharedPtr) :
    SameBlocks x (x.destroy h) ∧ (x.destroy h).borrowedPublisherNum = x.borrowedPublisherNum ∧
      (x.destroy h).withdrawing.Perm x.withdrawing := by
  unfold IpcSharedPtrs.destroy
  split
  · exact ⟨⟨fun _ => rfl, rfl, rfl, rfl⟩, rfl, withdrawing_erase x _ rfl⟩
  · exact ⟨.refl x, rfl, .refl _⟩

private theorem reset_effect (x : IpcSharedPtrs) (thread : Nat) (h : IpcSharedPtr) :
    SameBlocks x (x.reset thread h) ∧
      (x.reset thread h).borrowedPublisherNum = x.borrowedPublisherNum ∧
      (x.reset thread h).withdrawing.Perm x.withdrawing := by
  unfold IpcSharedPtrs.reset
  split
  · exact ⟨.refl x, rfl, .refl _⟩
  next b _ =>
  split
  next hr =>
    refine ⟨⟨fun c => SharedPtrs.valueOf_drop b c, SharedPtrs.next_drop b, rfl, rfl⟩, rfl,
      Bag.filterMap_replace_perm hr _ ?_⟩
    split <;> exact .refl _
  · exact ⟨.refl x, rfl, .refl _⟩

private theorem SameBlocks.trans {z : IpcSharedPtrs} (hxy : SameBlocks x y) (hyz : SameBlocks y z) :
    SameBlocks x z :=
  ⟨fun b => (hyz.value b).trans (hxy.value b), hyz.next.trans hxy.next, hyz.valid.trans hxy.valid,
    hyz.origins.trans hxy.origins⟩

private theorem closeLast_effect {i : HandleInput} {thread : Nat} {h : IpcSharedPtr} {b : Nat}
    {ref : MessageRef} (hc : Closing x i thread h b ref) :
    HandleStep x i (x.closeLast thread h b ref).1 (x.closeLast thread h b ref).2 := by
  unfold IpcSharedPtrs.closeLast
  have hdelete : ∀ c, (x.ptrs.delete b).valueOf c = if c = b then none else x.ptrs.valueOf c :=
    SharedPtrs.valueOf_delete b
  have herase := withdrawing_erase x (.closing thread h) rfl
  by_cases hentry : ref.entryId ≠ entryIdNotAssigned
  · rw [if_pos hentry]
    exact .closed thread h b ref _ hc (.reference hentry) hdelete rfl rfl rfl herase
  · rw [if_neg hentry]
    have hentry : ref.entryId = entryIdNotAssigned := Decidable.not_not.mp hentry
    by_cases hvalid : x.valid b = true
    · rw [if_pos hvalid]
      by_cases hzero : x.borrowedPublisherNum thread = 0
      · rw [if_pos hzero]
        exact .exceeded thread b ⟨fun _ => rfl, rfl, rfl, rfl⟩ rfl hzero
          (.inr ⟨h, ref, hc, hentry, hvalid⟩)
      · rw [if_neg hzero]
        by_cases htype : h.type = .void
        · rw [if_pos htype]
          exact .refused ⟨fun _ => rfl, rfl, rfl, rfl⟩ rfl (.inr ⟨b, rfl⟩) rfl
        · rw [if_neg htype]
          exact .closed thread h b ref _ hc (.message hentry hvalid hzero htype) hdelete rfl rfl rfl
            herase
    · rw [if_neg hvalid]
      exact .closed thread h b ref _ hc (.nothing hentry (Bool.eq_false_iff.mpr hvalid)) hdelete rfl rfl
        rfl herase

private theorem withdraw_effect {thread : Nat} {how : Withdrawal} {topicName : Name}
    {h : IpcSharedPtr} (hitem : .idle h ∈ x.items) :
    HandleStep x (.withdraw thread how topicName h) (x.withdraw thread how topicName h).1
      (x.withdraw thread how topicName h).2 := by
  unfold IpcSharedPtrs.withdraw
  split
  · exact .refused ⟨fun _ => rfl, rfl, rfl, rfl⟩ rfl (.inl rfl) rfl
  next b hcontrol =>
  split
  · exact .refused ⟨fun _ => rfl, rfl, rfl, rfl⟩ rfl (.inl rfl) rfl
  next hok =>
  obtain ⟨hget, htopic⟩ := not_or.mp hok
  refine .withdrawn thread how topicName h b rfl hitem hcontrol hget (Decidable.not_not.mp htopic) rfl
    rfl rfl rfl ?_
  have hperm := Bag.filterMap_replace Instance.withdraws hitem [.withdrawing thread how h]
  have hnew : [Instance.withdrawing thread how h].filterMap Instance.withdraws = [(thread, b)] := by
    show (h.control.map fun b => (thread, b)).toList = _
    rw [hcontrol]
    rfl
  rw [hnew] at hperm
  exact hperm

private theorem finishWithdrawal_effect {i : HandleInput} {thread : Nat} {how : Withdrawal}
    {h : IpcSharedPtr} {b : Nat} (hitem : .withdrawing thread how h ∈ x.items)
    (hcontrol : h.control = some b) :
    HandleStep x i (x.finishWithdrawal thread how h b).1 (x.finishWithdrawal thread how h b).2 := by
  have hwithdraws : (Instance.withdrawing thread how h).withdraws = some (thread, b) := by
    show (h.control.map fun b => (thread, b)) = _
    rw [hcontrol]
    rfl
  unfold IpcSharedPtrs.finishWithdrawal
  split
  next hzero =>
    exact .exceeded thread b ⟨fun _ => rfl, rfl, rfl, rfl⟩ rfl hzero
      (.inl (List.mem_filterMap.mpr ⟨_, hitem, hwithdraws⟩))
  next hnum =>
  -- the last thing it does is a reset
  obtain ⟨hsame, hnum', hperm⟩ := reset_effect { x.decrementBorrowed thread with
    items := Bag.replace x.items (.withdrawing thread how h) [.idle h] } thread h
  refine .settled thread how h b hitem hcontrol
    ⟨hsame.value, hsame.next, hsame.valid, hsame.origins⟩ hnum hnum' ?_
  have hold := Bag.filterMap_replace Instance.withdraws hitem [.idle h]
  rw [hwithdraws] at hold
  exact (hperm.cons _).trans hold

/-- **Every step is one of these.** -/
theorem step_effect (x : IpcSharedPtrs) (i : HandleInput) : HandleStep x i (x.step i).1 (x.step i).2 := by
  unfold IpcSharedPtrs.step
  split
  · exact .stay x i
  have hrearranged : ∀ {y}, (SameBlocks x y ∧ y.borrowedPublisherNum = x.borrowedPublisherNum ∧
      y.withdrawing.Perm x.withdrawing) → HandleStep x i none y :=
    fun ⟨hsame, hnum, hperm⟩ => .rearranged hsame hnum hperm
  cases i with
  | defaultConstruct type => exact .rearranged ⟨fun _ => rfl, rfl, rfl, rfl⟩ rfl (.refl _)
  | borrow thread topicName pubsubId addr type =>
    refine .constructed ⟨topicName, pubsubId, entryIdNotAssigned⟩ (.loan thread addr type) rfl
      (fun t a ty ho => ?_) (fun b => SharedPtrs.valueOf_make _ b) rfl rfl rfl rfl rfl
    cases ho
    exact ⟨topicName, pubsubId, rfl⟩
  | receive type ptr topicName pubsubId entryId =>
    cases ptr with
    | none => exact .rearranged ⟨fun _ => rfl, rfl, rfl, rfl⟩ rfl (.refl _)
    | some addr =>
      refine .constructed ⟨topicName, pubsubId, entryId⟩ (.received ⟨topicName, pubsubId, entryId⟩)
        ⟨rfl, ?_⟩ (fun t a ty ho => ?_) (fun b => SharedPtrs.valueOf_make _ b) rfl rfl rfl rfl rfl
      · -- the kernel's ids are not negative
        simp only [entryIdNotAssigned]
        omega
      · cases ho
  | copyConstruct r view => exact hrearranged (copy_effect x r view)
  | moveConstruct r view => exact hrearranged (move_effect x r view)
  -- an assignment lets the old reference go before it makes the new one
  | copyAssign l r cast =>
    show HandleStep x _ none (x.copyAssign l r cast)
    unfold IpcSharedPtrs.copyAssign
    split
    · obtain ⟨hsame, hnum, hperm⟩ := destroy_effect x l
      obtain ⟨hsame', hnum', hperm'⟩ := copy_effect (x.destroy l) r (.converted l.type cast)
      exact .rearranged (hsame.trans hsame') (hnum'.trans hnum) (hperm'.trans hperm)
    · exact .stay x _
  | moveAssign l r cast =>
    show HandleStep x _ none (x.moveAssign l r cast)
    unfold IpcSharedPtrs.moveAssign
    split
    · obtain ⟨hsame, hnum, hperm⟩ := destroy_effect x l
      obtain ⟨hsame', hnum', hperm'⟩ := move_effect (x.destroy l) r (.converted l.type cast)
      exact .rearranged (hsame.trans hsame') (hnum'.trans hnum) (hperm'.trans hperm)
    · exact .stay x _
  | reset thread h => exact hrearranged (reset_effect x thread h)
  | closeLast thread h =>
    simp only [IpcSharedPtrs.act]
    split
    next hitem =>
      split
      next b ref hcontrol hvalue =>
        rw [hcontrol] at hvalue
        exact closeLast_effect ⟨rfl, hitem, hcontrol, hvalue⟩
      · exact .stay x _
    · exact .stay x _
  | destroy h => exact hrearranged (destroy_effect x h)
  | withdraw thread how topicName h =>
    simp only [IpcSharedPtrs.act]
    split
    next hitem => exact withdraw_effect hitem
    · exact .stay x _
  | finishWithdrawal thread how h =>
    simp only [IpcSharedPtrs.act]
    split
    next hitem =>
      split
      next b hcontrol => exact finishWithdrawal_effect hitem hcontrol
      · exact .stay x _
    · exact .stay x _

/-! ## The instances, over a run -/

theorem HandlesOk.step (h : HandlesOk x) {i : HandleInput} (hfit : CopiesFit x i) :
    HandlesOk (x.step i).2 := by
  unfold IpcSharedPtrs.step
  split
  · exact h
  cases i with
  | defaultConstruct type => exact h.rearrange rfl rfl (.refl _) (.refl _)
  | borrow thread topicName pubsubId addr type =>
    exact (h.construct type addr ⟨topicName, pubsubId, entryIdNotAssigned⟩
      (o := .loan thread addr type) rfl).rearrange rfl rfl (.refl _) (.refl _)
  | receive type ptr topicName pubsubId entryId =>
    cases ptr with
    | none => exact h.rearrange rfl rfl (.refl _) (.refl _)
    | some addr =>
      refine h.construct type addr _ ⟨rfl, ?_⟩
      simp only [entryIdNotAssigned]
      omega
  | copyConstruct r view => exact h.copyConstruct view hfit
  | moveConstruct r view => exact h.moveConstruct r view
  | copyAssign l r cast =>
    show HandlesOk (x.copyAssign l r cast)
    unfold IpcSharedPtrs.copyAssign
    split
    -- the left side gives up first, which holds no more than before
    · refine (h.destroy l).copyConstruct _ fun b hb => ?_
      rw [IpcSharedPtrs.holders_eq, (held_destroy x l).count_eq b, ← IpcSharedPtrs.holders_eq]
      exact hfit b hb
    · exact h
  | moveAssign l r cast =>
    show HandlesOk (x.moveAssign l r cast)
    unfold IpcSharedPtrs.moveAssign
    split
    · exact (h.destroy l).moveConstruct r _
    · exact h
  | reset thread r => exact h.reset thread r
  | closeLast thread r =>
    simp only [IpcSharedPtrs.act]
    split
    next hitem =>
      split
      next b ref hcontrol _ =>
        have hdelete := h.deleteControl hitem hcontrol
        unfold IpcSharedPtrs.closeLast
        repeat' split
        · exact hdelete
        · exact h.rearrange rfl rfl (.refl _) (.refl _)
        · exact h.rearrange rfl rfl (.refl _) (.refl _)
        · exact hdelete.rearrange rfl rfl (.refl _) (.refl _)
        · exact hdelete
      · exact h
    · exact h
  | destroy r => exact h.destroy r
  | withdraw thread how topicName r =>
    simp only [IpcSharedPtrs.act]
    split
    next hitem =>
      unfold IpcSharedPtrs.withdraw
      split
      · exact h.rearrange rfl rfl (.refl _) (.refl _)
      split
      · exact h.rearrange rfl rfl (.refl _) (.refl _)
      -- a handle that is being withdrawn still holds its block
      · refine h.rearrange rfl rfl (Bag.filterMap_replace_perm hitem _ ?_)
          (Bag.filterMap_replace_perm hitem _ (.refl _))
        show (r.control.toList : List Nat).Perm _
        exact .refl _
    · exact h
  | finishWithdrawal thread how r =>
    simp only [IpcSharedPtrs.act]
    split
    next hitem =>
      split
      next b hcontrol =>
        unfold IpcSharedPtrs.finishWithdrawal
        split
        · exact h.rearrange rfl rfl (.refl _) (.refl _)
        -- idle again, it is reset like any other
        · have hidle : HandlesOk { x.decrementBorrowed thread with
              items := Bag.replace x.items (.withdrawing thread how r) [.idle r] } := by
            refine h.rearrange rfl rfl (Bag.filterMap_replace_perm hitem _ ?_)
              (Bag.filterMap_replace_perm hitem _ (.refl _))
            show (r.control.toList : List Nat).Perm _
            exact .refl _
          exact hidle.reset thread r
      · exact h
    · exact h

end Agnocast
