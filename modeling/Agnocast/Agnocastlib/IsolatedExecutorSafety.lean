import Mathlib.Data.List.InsertIdx
import Agnocast.Agnocastlib.IsolatedExecutor

/-!
# The client library — what the callback-isolated executor keeps

The flag of a group names the child that runs for it, so no group has two. The three vectors
hold the same children in the same order, and every thread that was started is in them or on
its way to be joined, until it was joined or `stop_callback_group` took it out.

* `Registered` — the invariant of the registry and of the groups' flags.
* `Threaded`   — the invariant of the vectors and of the threads.
* `Threaded.stopCallbackGroup_cases` — what `stop_callback_group` does.
* `isolatedExecutor_sound` — the invariants hold over every run.
-/

namespace Agnocast

open Transition

namespace IsolatedExecutor

/-! ## The invariants -/

/-- **The registry**: what it names exists, a running child holds the flag of its group, and
no group is both added by hand and taken in with its node. -/
structure Registered (s : IsolatedExecutor) : Prop where
  aliveLt : ∀ n, s.nodeAlive n = true → n < s.nodes
  nodeLt : ∀ g n, (s.group g).node = some n → n < s.nodes
  groupLt : ∀ g, (s.group g).alive = true → g < s.groups
  manualLt : ∀ e ∈ s.weakGroupsToNodes, e.1 < s.groups
  collectedLt : ∀ g, s.Collected g → g < s.groups
  childLt : ∀ c, c < s.children → (s.child c).group < s.groups
  held : ∀ c, s.Running c → (s.group (s.child c).group).associated = some (.child c)
  manualApart : ∀ e ∈ s.weakGroupsToNodes, (s.group e.1).alive = true →
    (s.group e.1).automaticallyAddToExecutorWithNode = true →
      ∀ n ∈ s.weakNodes, s.nodeAlive n = true → (s.group e.1).node ≠ some n

/-- **The threads**: the vectors are aligned, and no thread is lost. -/
structure Threaded (s : IsolatedExecutor) : Prop where
  executors : s.weakChildExecutors = s.childThreads
  callbackGroups : s.childCallbackGroups = s.childThreads.map fun c => (s.child c).group
  threadsLt : ∀ c ∈ s.childThreads, c < s.children
  placed : ∀ c, c < s.children →
    c ∈ s.childThreads ∨ c ∈ s.takenOut ∨ c ∈ s.joined ∨ c ∈ s.spin.threads
  moved : ∀ left, s.spin = .joining left → s.childThreads = []
  /-- Before the first spawning of `spin` there is no child of it. -/
  first : s.spin = .entered ∨ (∃ looks found, s.spin = .collecting false looks found) ∨
    (∃ found, s.spin = .collected false found) → s.children = s.firstChild

theorem Registered.fresh : Registered fresh := by
  refine ⟨fun _ h => (by cases h), fun _ _ h => (by cases h), fun _ h => (by cases h),
    fun _ h => (by cases h), fun _ h => (by cases h), fun _ h => (by cases h), fun _ h => ?_,
    fun _ h => (by cases h)⟩
  cases h.1

theorem Threaded.fresh : Threaded fresh := by
  refine ⟨rfl, rfl, fun _ h => (by cases h), fun _ h => (by cases h), fun _ h => rfl, fun h => rfl⟩

variable {s s' : IsolatedExecutor} {c g n : Nat} {t : Caller}

/-! ## The registry -/

/-- Nothing happens to the registry but that groups that are there are collected, and the
children stay what they are or end. -/
structure SameRegistry (s s' : IsolatedExecutor) : Prop where
  nodes : s'.nodes = s.nodes
  nodeAlive : s'.nodeAlive = s.nodeAlive
  groups : s'.groups = s.groups
  group : s'.group = s.group
  weakNodes : s'.weakNodes = s.weakNodes
  weakGroupsToNodes : s'.weakGroupsToNodes = s.weakGroupsToNodes
  children : s'.children = s.children
  childGroup : ∀ c, (s'.child c).group = (s.child c).group
  childStage : ∀ c, (s'.child c).stage ≠ .finished → (s.child c).stage ≠ .finished
  collected : ∀ g ∈ s'.spin.groups, g ∈ s.spin.groups ∨ (s.group g).alive = true

theorem Registered.of_same (hok : Registered s) (h : SameRegistry s s') : Registered s' where
  aliveLt := h.nodeAlive ▸ h.nodes ▸ hok.aliveLt
  nodeLt := h.group ▸ h.nodes ▸ hok.nodeLt
  groupLt := h.group ▸ h.groups ▸ hok.groupLt
  manualLt := h.weakGroupsToNodes ▸ h.groups ▸ hok.manualLt
  collectedLt g hg := by
    rw [h.groups]
    exact (h.collected g hg).elim (hok.collectedLt g) (hok.groupLt g)
  childLt c hc := by
    rw [h.childGroup, h.groups]
    exact hok.childLt c (h.children ▸ hc)
  held c hc := by
    rw [h.childGroup, h.group]
    exact hok.held c ⟨h.children ▸ hc.1, h.childStage c hc.2⟩
  manualApart := h.weakGroupsToNodes ▸ h.group ▸ h.weakNodes ▸ h.nodeAlive ▸ hok.manualApart

/-- A group changes, and keeps its node and its `automatically_add` flag; it may expire, and
its flag changes only if no running child holds it. -/
theorem Registered.setGroup (hok : Registered s) {x : IsolatedGroup}
    (hnode : x.node = (s.group g).node)
    (hauto : x.automaticallyAddToExecutorWithNode =
      (s.group g).automaticallyAddToExecutorWithNode)
    (halive : x.alive = true → (s.group g).alive = true)
    (hheld : ∀ c, s.Running c → (s.child c).group = g → x.associated = some (.child c)) :
    Registered (s.setGroup g x) := by
  have hget : ∀ g', (s.setGroup g x).group g' = if g' = g then x else s.group g' := fun g' => by
    show Function.update s.group g x g' = _
    rw [Function.update_apply]
  have hnode' : ∀ g', ((s.setGroup g x).group g').node = (s.group g').node := fun g' => by
    rw [hget]
    split
    · next h => rw [hnode, h]
    · rfl
  have hauto' : ∀ g', ((s.setGroup g x).group g').automaticallyAddToExecutorWithNode =
      (s.group g').automaticallyAddToExecutorWithNode := fun g' => by
    rw [hget]
    split
    · next h => rw [hauto, h]
    · rfl
  have halive' : ∀ g', ((s.setGroup g x).group g').alive = true → (s.group g').alive = true :=
    fun g' h => by
      rw [hget] at h
      split at h
      · next heq => exact heq ▸ halive h
      · exact h
  refine ⟨hok.aliveLt, fun g' n h => hok.nodeLt g' n (hnode' g' ▸ h),
    fun g' h => hok.groupLt g' (halive' g' h), hok.manualLt, hok.collectedLt, hok.childLt,
    fun c hc => ?_, fun e he h hauto n hn hnl => ?_⟩
  · show ((s.setGroup g x).group (s.child c).group).associated = _
    rw [hget]
    split
    · next heq => exact hheld c hc heq
    · exact hok.held c hc
  · rw [hnode' e.1]
    exact hok.manualApart e he (halive' _ h) (hauto' e.1 ▸ hauto) n hn hnl

theorem Registered.createNode (hok : Registered s) : Registered
    { s with nodes := s.nodes + 1, nodeAlive := Function.update s.nodeAlive s.nodes true } := by
  have hget : ∀ n, Function.update s.nodeAlive s.nodes true n = true →
      n = s.nodes ∨ s.nodeAlive n = true := fun n h => by
    rw [Function.update_apply] at h
    split at h
    · next heq => exact .inl heq
    · exact .inr h
  refine { hok with aliveLt := fun n h => ?_, nodeLt := fun g n h => ?_, manualApart := ?_ }
  · rcases hget n h with rfl | h
    · exact Nat.lt_succ_self _
    · exact Nat.lt_succ_of_lt (hok.aliveLt n h)
  · exact Nat.lt_succ_of_lt (hok.nodeLt g n h)
  · -- no group that is there is of the new node
    intro e he halive hauto n hn h hnode
    rcases hget n h with rfl | h
    · exact Nat.lt_irrefl _ (hok.nodeLt _ _ hnode)
    · exact hok.manualApart e he halive hauto n hn h hnode

theorem Registered.createCallbackGroup (hok : Registered s) {node : Option Nat} {auto : Bool}
    (hnode : node.all s.nodeAlive = true) : Registered
    { s.setGroup s.groups ⟨auto, node, true, none⟩ with groups := s.groups + 1 } := by
  have hget : ∀ g, g < s.groups →
      (s.setGroup s.groups ⟨auto, node, true, none⟩).group g = s.group g := fun g hg =>
    Function.update_of_ne (Nat.ne_of_lt hg) _ _
  have hnew : (s.setGroup s.groups ⟨auto, node, true, none⟩).group s.groups =
      ⟨auto, node, true, none⟩ := Function.update_self _ _ _
  refine ⟨hok.aliveLt, fun g n h => ?_, fun g h => ?_,
    fun e he => Nat.lt_succ_of_lt (hok.manualLt e he),
    fun g hg => Nat.lt_succ_of_lt (hok.collectedLt g hg),
    fun c hc => Nat.lt_succ_of_lt (hok.childLt c hc), fun c hc => ?_, fun e he h hauto n hn hnl => ?_⟩
  · by_cases hg : g = s.groups
    · subst hg
      change ((s.setGroup s.groups ⟨auto, node, true, none⟩).group s.groups).node = some n at h
      rw [hnew] at h
      change node = some n at h
      rw [h] at hnode
      exact hok.aliveLt n hnode
    · exact hok.nodeLt g n ((congrArg IsolatedGroup.node (Function.update_of_ne hg _ _)).symm.trans h)
  · by_cases hg : g = s.groups
    · exact hg ▸ Nat.lt_succ_self _
    · have hold := (congrArg IsolatedGroup.alive (Function.update_of_ne hg _ _)).symm.trans h
      exact Nat.lt_succ_of_lt (hok.groupLt g hold)
  · exact (congrArg IsolatedGroup.associated (hget _ (hok.childLt c hc.1))).trans (hok.held c hc)
  · have hold := hget e.1 (hok.manualLt e he)
    show ((s.setGroup s.groups ⟨auto, node, true, none⟩).group e.1).node ≠ some n
    change ((s.setGroup s.groups ⟨auto, node, true, none⟩).group e.1).alive = true at h
    change ((s.setGroup s.groups ⟨auto, node, true, none⟩).group e.1).automaticallyAddToExecutorWithNode
      = true at hauto
    rw [hold] at h hauto ⊢
    exact hok.manualApart e he h hauto n hn hnl

theorem Registered.exit (hok : Registered s) : Registered s.exit :=
  hok.of_same ⟨rfl, rfl, rfl, rfl, rfl, rfl, rfl, fun _ => rfl, fun _ h => h, fun _ h => .inl h⟩

theorem Registered.expireNode (hok : Registered s) : Registered
    { s with nodeAlive := Function.update s.nodeAlive n false } := by
  have hold : ∀ m, Function.update s.nodeAlive n false m = true → s.nodeAlive m = true :=
    fun m h => by
      rw [Function.update_apply] at h
      split at h
      · cases h
      · exact h
  refine { hok with aliveLt := fun m h => hok.aliveLt m (hold m h), manualApart := ?_ }
  intro e he halive hauto m hm h
  exact hok.manualApart e he halive hauto m hm (hold m h)

theorem Registered.addNode (hok : Registered s) (n : Nat) : Registered (s.addNode n) := by
  unfold IsolatedExecutor.addNode
  split
  · exact hok.exit
  · next hnone =>
    split
    · exact hok.exit
    · -- no group added by hand is of the node, or the node would have been refused
      refine { hok with manualApart := fun e he halive hauto m hm hnl => ?_ }
      rcases List.mem_append.mp hm with hm | hm
      · exact hok.manualApart e he halive hauto m hm hnl
      · intro hnode
        obtain rfl := List.mem_singleton.mp hm
        refine hnone (List.any_eq_true.mpr ⟨e, he, ?_⟩)
        change (s.group e.1).alive = true at halive
        change (s.group e.1).automaticallyAddToExecutorWithNode = true at hauto
        change (s.group e.1).node = some m at hnode
        rw [halive, hauto, callbackGroupInNode, hnode]
        simp

theorem Registered.removeNode (hok : Registered s) (n : Nat) : Registered (s.removeNode n) := by
  unfold IsolatedExecutor.removeNode
  split
  · refine { hok with manualApart := fun e he halive hauto m hm hnl => ?_ }
    exact hok.manualApart e he halive hauto m (List.mem_filter.mp hm).1 hnl
  · exact hok.exit

theorem Registered.addCallbackGroup (hok : Registered s) {g n : Nat}
    (halive : (s.group g).alive = true) : Registered (s.addCallbackGroup g n) := by
  unfold IsolatedExecutor.addCallbackGroup
  split
  · exact hok.exit
  · next hnone =>
    split
    · exact hok.exit
    · refine { hok with manualLt := fun e he => ?_, manualApart := fun e he hal hauto m hm hnl => ?_ }
      · rcases List.mem_append.mp he with he | he
        · exact hok.manualLt e he
        · obtain rfl := List.mem_singleton.mp he
          exact hok.groupLt g halive
      · rcases List.mem_append.mp he with he | he
        · exact hok.manualApart e he hal hauto m hm hnl
        · -- no node that is added would take the group in, or it would have been refused
          obtain rfl := List.mem_singleton.mp he
          intro hnode
          change (s.group g).node = some m at hnode
          refine hnone (Bool.and_eq_true_iff.mpr ⟨hauto, List.any_eq_true.mpr ⟨m, hm, ?_⟩⟩)
          have hnl' : s.nodeAlive m = true := hnl
          rw [hnl', callbackGroupInNode, hnode]
          simp

theorem Registered.removeCallbackGroup (hok : Registered s) (g : Nat) :
    Registered (s.removeCallbackGroup g).2 := by
  unfold IsolatedExecutor.removeCallbackGroup
  split
  · refine { hok with
      manualLt := fun e he => hok.manualLt e (List.mem_filter.mp he).1
      manualApart := fun e he halive hauto m hm hnl => ?_ }
    exact hok.manualApart e (List.mem_filter.mp he).1 halive hauto m hm hnl
  · exact hok.exit

/-- The calls that reach children touch nothing of the registry. -/
theorem SameRegistry.cancelChild (c : Nat) : SameRegistry s (s.cancelChild c) :=
  ⟨rfl, rfl, rfl, rfl, rfl, rfl, rfl, cancelChild_group s c,
    fun c' h => by rwa [cancelChild_stage] at h, fun _ h => .inl h⟩

theorem SameRegistry.stopCallbackGroup : SameRegistry s (s.stopCallbackGroup t g).2 := by
  have hsame : SameRegistry s s :=
    ⟨rfl, rfl, rfl, rfl, rfl, rfl, rfl, fun _ => rfl, fun _ h => h, fun _ h => .inl h⟩
  have hcancel := fun c => SameRegistry.cancelChild (s := s) c
  unfold IsolatedExecutor.stopCallbackGroup
  split
  · exact hsame
  · split
    · exact hsame
    · split
      · next executor thread _ _ =>
        split <;>
          exact ⟨rfl, rfl, rfl, rfl, rfl, rfl, rfl, (hcancel executor).childGroup,
            (hcancel executor).childStage, fun _ h => .inl h⟩
      · exact hsame

theorem SameRegistry.advance : SameRegistry s (s.advance t).2 := by
  have hsame : SameRegistry s s :=
    ⟨rfl, rfl, rfl, rfl, rfl, rfl, rfl, fun _ => rfl, fun _ h => h, fun _ h => .inl h⟩
  unfold IsolatedExecutor.advance
  split
  · exact hsame
  · split
    · exact ⟨rfl, rfl, rfl, rfl, rfl, rfl, rfl, fun _ => rfl, fun _ h => h, fun _ h => .inl h⟩
    · exact hsame
  · next c _ _ =>
    have hcancel := SameRegistry.cancelChild (s := s) c
    exact ⟨rfl, rfl, rfl, rfl, rfl, rfl, rfl, hcancel.childGroup, hcancel.childStage,
      fun _ h => .inl h⟩
  · exact ⟨rfl, rfl, rfl, rfl, rfl, rfl, rfl, fun _ => rfl, fun _ h => h, fun _ h => .inl h⟩
  · split
    · exact ⟨rfl, rfl, rfl, rfl, rfl, rfl, rfl, fun _ => rfl, fun _ h => h, fun _ h => .inl h⟩
    · exact hsame

/-! ## The children -/

/-- **A running child holds its group**: two that run for one group are the same. -/
theorem Registered.unique (hok : Registered s) {c c' : Nat} (hc : s.Running c)
    (hc' : s.Running c') (hgroup : (s.child c).group = (s.child c').group) : c = c' := by
  have h := hok.held c hc
  rw [hgroup, hok.held c' hc'] at h
  injection h with h
  injection h with h
  exact h.symm

theorem Registered.childStep (hok : Registered s) (hc : c < s.children) :
    Registered (s.childStep c) := by
  unfold IsolatedExecutor.childStep
  split
  -- the child calls `spin`, which throws if it spins already
  · next hstage =>
    split
    · exact hok.exit
    · refine hok.of_same ⟨rfl, rfl, rfl, rfl, rfl, rfl, rfl, fun c' => ?_, fun c' h => ?_,
        fun _ h => .inl h⟩
      · show (Function.update s.child c _ c').group = _
        rw [Function.update_apply]
        split
        · next heq => rw [heq]
        · rfl
      · by_cases heq : c' = c
        · rw [heq, hstage]
          exact nofun
        · change (Function.update s.child c _ c').stage ≠ _ at h
          rwa [Function.update_of_ne heq] at h
  · split
    · exact hok
    · -- the child ends, and after it nobody holds its group
      have hgroup : ∀ c', (Function.update s.child c
          { s.child c with stage := .finished, spinning := false } c').group =
            (s.child c').group := fun c' => by
        rw [Function.update_apply]
        split
        · next heq => rw [heq]
        · rfl
      have hstage : ∀ c', (Function.update s.child c
          { s.child c with stage := .finished, spinning := false } c').stage ≠ .finished →
            c' ≠ c ∧ (s.child c').stage ≠ .finished := fun c' h => by
        by_cases heq : c' = c
        · subst heq
          rw [Function.update_self] at h
          exact absurd rfl h
        · rw [Function.update_of_ne heq] at h
          exact ⟨heq, h⟩
      have hended : Registered
          (s.setChild c { s.child c with stage := .finished, spinning := false }) :=
        hok.of_same ⟨rfl, rfl, rfl, rfl, rfl, rfl, rfl, hgroup, fun c' h => (hstage c' h).2,
          fun _ h => .inl h⟩
      refine hended.setGroup rfl rfl id fun c' hrun hg => ?_
      have hc' := hstage c' hrun.2
      have heq : (s.child c').group = (s.child c).group := (hgroup c').symm.trans hg
      refine absurd ?_ hc'.1
      exact hok.unique ⟨hrun.1, hc'.2⟩ ⟨hc, by rw [‹(s.child c).stage = .looping›]; exact nofun⟩ heq
  · exact hok

theorem Registered.spawnChildExecutor (hok : Registered s) {monitor : Bool} {left : List Nat}
    (hspin : s.spin = .spawn monitor g left) :
    Registered (s.spawnChildExecutor monitor g left).2 := by
  have hg : g < s.groups := hok.collectedLt g (by
    unfold Collected SpinPos.groups
    rw [hspin]
    exact List.mem_cons_self)
  unfold IsolatedExecutor.spawnChildExecutor
  split
  · exact hok.of_same ⟨rfl, rfl, rfl, rfl, rfl, rfl, rfl, fun _ => rfl, fun _ h => h, nofun⟩
  · next hfree =>
    -- the group was free, so the child that takes it is the only one of it
    have hset : Registered (s.setGroup g
        { s.group g with associated := some (.child s.children) }) := by
      refine hok.setGroup rfl rfl id fun c hc heq => ?_
      have := hok.held c hc
      rw [heq, hfree] at this
      cases this
    refine { hset with collectedLt := fun g' h => ?_, childLt := fun c hc => ?_, held := fun c hc => ?_ }
    · refine hok.collectedLt g' ?_
      unfold Collected SpinPos.groups
      rw [hspin]
      exact List.mem_cons_of_mem _ h
    · show (Function.update s.child s.children _ c).group < s.groups
      rw [Function.update_apply]
      split
      · exact hg
      · exact hok.childLt c (Nat.lt_of_le_of_ne (Nat.le_of_lt_succ hc) ‹_›)
    · by_cases heq : c = s.children
      · subst heq
        show ((s.setGroup g _).group (Function.update s.child s.children _ s.children).group).associated
          = _
        rw [Function.update_self]
        show (Function.update s.group g _ g).associated = _
        rw [Function.update_self]
      · have hlt : c < s.children := Nat.lt_of_le_of_ne (Nat.le_of_lt_succ hc.1) heq
        have hstage : (Function.update s.child s.children
          ⟨g, .started, false, 0⟩ c).stage ≠ .finished := hc.2
        rw [Function.update_of_ne heq] at hstage
        show ((s.setGroup g _).group (Function.update s.child s.children _ c).group).associated = _
        rw [Function.update_of_ne heq]
        exact hset.held c ⟨hlt, hstage⟩

/-! ## The thread in `spin` -/

/-- What a look finds is a group that is there. -/
theorem alive_of_look {monitor : Bool} {l : Look} (h : g ∈ (s.look monitor l).2) :
    (s.group g).alive = true := by
  cases l with
  | manual g' n =>
    simp only [IsolatedExecutor.look] at h
    split at h
    · next hcond =>
      obtain rfl := List.mem_singleton.mp h
      simp only [Bool.and_eq_true] at hcond
      exact hcond.1.1
    · cases h
  | node n => cases h
  | group g' =>
    simp only [IsolatedExecutor.look] at h
    split at h
    · next hcond =>
      obtain rfl := List.mem_singleton.mp h
      simp only [Bool.and_eq_true] at hcond
      exact hcond.1.1
    · cases h

/-- The thread in `spin` goes on, and its list gets no group but such that are there. -/
theorem Registered.turn (hok : Registered s) {lock : Option ChildLock} {pos : SpinPos}
    (hcollected : ∀ g ∈ pos.groups, g ∈ s.spin.groups ∨ (s.group g).alive = true) :
    Registered { s with childResourcesMutex := lock, spin := pos } :=
  hok.of_same ⟨rfl, rfl, rfl, rfl, rfl, rfl, rfl, fun _ => rfl, fun _ h => h, hcollected⟩

theorem Registered.spinStep (hok : Registered s) : Registered s.spinStep.2 := by
  unfold IsolatedExecutor.spinStep
  split
  · exact hok
  · exact hok.turn nofun
  · -- collecting
    next monitor l looks found hspin =>
    refine hok.turn fun g hg => ?_
    rw [hspin]
    rcases List.mem_append.mp hg with hg | hg
    · exact .inl hg
    · exact .inr (alive_of_look hg)
  · -- everything has been looked at
    next monitor found hspin =>
    refine hok.turn fun g hg => .inl ?_
    rw [hspin]
    split at hg
    · cases hg
    · exact hg
  · -- the second mutex
    next monitor found hspin =>
    split
    · exact hok
    · split
      · exact hok.turn fun g hg => .inl (by rw [hspin]; exact hg)
      · split
        · exact hok.turn nofun
        · exact hok.of_same ⟨rfl, rfl, rfl, rfl, rfl, rfl, rfl, fun _ => rfl, fun _ h => h, nofun⟩
  · -- spawning
    next monitor g' left hspin =>
    refine hok.turn fun g hg => .inl ?_
    rw [hspin]
    split at hg
    · exact List.mem_cons_of_mem _ hg
    · exact hg
  · exact hok.turn nofun
  · next monitor g' left hspin => exact hok.spawnChildExecutor hspin
  · -- the head of the loop
    refine hok.turn fun g hg => ?_
    split at hg <;> cases hg
  · -- after the wait
    split
    · exact hok.turn nofun
    · exact hok.turn nofun
  · -- out of the loop
    split
    · exact hok
    · exact hok.turn nofun
  · -- the next child is cancelled
    next c left hspin =>
    have hcancel := SameRegistry.cancelChild (s := s) c
    exact hok.of_same ⟨rfl, rfl, rfl, rfl, rfl, rfl, rfl, hcancel.childGroup, hcancel.childStage,
      nofun⟩
  · exact hok.of_same ⟨rfl, rfl, rfl, rfl, rfl, rfl, rfl, fun _ => rfl, fun _ h => h, nofun⟩
  · -- the next child is joined
    split
    · exact hok.of_same ⟨rfl, rfl, rfl, rfl, rfl, rfl, rfl, fun _ => rfl, fun _ h => h, nofun⟩
    · exact hok
  · exact hok.of_same ⟨rfl, rfl, rfl, rfl, rfl, rfl, rfl, fun _ => rfl, fun _ h => h, nofun⟩

theorem Registered.step (hok : Registered s) (i : IsolatedInput) : Registered (s.step i).2 := by
  cases i with
  | createNode => exact hok.createNode
  | createCallbackGroup node auto =>
    simp only [IsolatedExecutor.step]
    split
    · next hnode => exact hok.createCallbackGroup hnode
    · exact hok
  | expireNode n => exact hok.expireNode
  | expireGroup g =>
    simp only [IsolatedExecutor.step]
    split
    · exact hok
    · exact hok.setGroup rfl rfl nofun fun c hc heq => heq ▸ hok.held c hc
  | associateElsewhere g =>
    simp only [IsolatedExecutor.step]
    split
    · next hfree =>
      -- a group that a child serves is not free, so nobody else can take it
      refine hok.setGroup rfl rfl id fun c hc heq => ?_
      have hheld := hok.held c hc
      rw [heq, hfree] at hheld
      cases hheld
    · exact hok
  | dissociateElsewhere g =>
    simp only [IsolatedExecutor.step]
    split
    · next helse =>
      -- nor can anybody else give it back
      refine hok.setGroup rfl rfl id fun c hc heq => ?_
      have hheld := hok.held c hc
      rw [heq, helse] at hheld
      cases hheld
    · exact hok
  | addNode t n =>
    simp only [IsolatedExecutor.step]
    split
    · exact hok.addNode n
    · exact hok
  | removeNode t n =>
    simp only [IsolatedExecutor.step]
    split
    · exact hok.removeNode n
    · exact hok
  | addCallbackGroup t g n =>
    simp only [IsolatedExecutor.step]
    split
    · next h =>
      simp only [Bool.and_eq_true] at h
      exact hok.addCallbackGroup h.1.2
    · exact hok
  | removeCallbackGroup t g =>
    simp only [IsolatedExecutor.step]
    split
    · exact hok.removeCallbackGroup g
    · exact hok
  | stopCallbackGroup t g =>
    simp only [IsolatedExecutor.step]
    split
    · exact hok.of_same SameRegistry.stopCallbackGroup
    · exact hok
  | cancel t =>
    simp only [IsolatedExecutor.step]
    split
    · exact hok.of_same
        ⟨rfl, rfl, rfl, rfl, rfl, rfl, rfl, fun _ => rfl, fun _ h => h, fun _ h => .inl h⟩
    · exact hok
  | advance t => exact hok.of_same SameRegistry.advance
  | callSpin =>
    simp only [IsolatedExecutor.step]
    split
    · exact hok.exit
    · split
      · exact hok.of_same ⟨rfl, rfl, rfl, rfl, rfl, rfl, rfl, fun _ => rfl, fun _ h => h, nofun⟩
      · exact hok
  | spinStep => exact hok.spinStep
  | childStep c =>
    simp only [IsolatedExecutor.step]
    split
    · next hc => exact hok.childStep hc
    · exact hok
  | shutdown =>
    exact hok.of_same
      ⟨rfl, rfl, rfl, rfl, rfl, rfl, rfl, fun _ => rfl, fun _ h => h, fun _ h => .inl h⟩

/-! ## The threads -/

/-- The threads stay where they are, in the vectors or on the way to be joined. -/
structure SameThreads (s s' : IsolatedExecutor) : Prop where
  children : s'.children = s.children
  childGroup : ∀ c, (s'.child c).group = (s.child c).group
  executors : s'.weakChildExecutors = s.weakChildExecutors
  callbackGroups : s'.childCallbackGroups = s.childCallbackGroups
  threads : s'.childThreads = s.childThreads
  takenOut : s'.takenOut = s.takenOut
  joined : s'.joined = s.joined
  firstChild : s'.firstChild = s.firstChild

theorem SameThreads.refl (s : IsolatedExecutor) : SameThreads s s :=
  ⟨rfl, fun _ => rfl, rfl, rfl, rfl, rfl, rfl, rfl⟩

theorem Threaded.of_same (hok : Threaded s) (h : SameThreads s s') (hspin : s'.spin = s.spin) :
    Threaded s' where
  executors := by rw [h.executors, h.threads, hok.executors]
  callbackGroups := by
    rw [h.callbackGroups, h.threads, hok.callbackGroups]
    exact List.map_congr_left fun c _ => (h.childGroup c).symm
  threadsLt := by rw [h.threads, h.children]; exact hok.threadsLt
  placed := by rw [h.children, h.threads, h.takenOut, h.joined, hspin]; exact hok.placed
  moved := by rw [hspin, h.threads]; exact hok.moved
  first := by rw [hspin, h.children, h.firstChild]; exact hok.first

/-- The thread in `spin` goes on, after it has started to spawn. -/
theorem Threaded.turn (hok : Threaded s) (h : SameThreads s s')
    (hthreads : s.spin.threads = []) (hthreads' : ∀ left, s'.spin ≠ .joining left)
    (hfirst : s'.spin = .entered ∨ (∃ looks found, s'.spin = .collecting false looks found) ∨
      (∃ found, s'.spin = .collected false found) → s'.children = s'.firstChild) :
    Threaded s' where
  executors := by rw [h.executors, h.threads, hok.executors]
  callbackGroups := by
    rw [h.callbackGroups, h.threads, hok.callbackGroups]
    exact List.map_congr_left fun c _ => (h.childGroup c).symm
  threadsLt := by rw [h.threads, h.children]; exact hok.threadsLt
  placed c hc := by
    rw [h.threads, h.takenOut, h.joined]
    have hold := hok.placed c (h.children ▸ hc)
    rw [hthreads] at hold
    exact hold.imp_right fun hold => hold.imp_right fun hold => hold.imp_right nofun
  moved left hleft := absurd hleft (hthreads' left)
  first := hfirst

/-- The child whose thread `stop_callback_group(g)` would take out. -/
def childOf (s : IsolatedExecutor) (g : Nat) : Option Nat :=
  (s.childCallbackGroups.findIdx? fun x => (s.group x).alive && x == g).bind (s.childThreads[·]?)

/-- **What `stop_callback_group` does**: it finds no child of the group, or it cancels the
first one, takes it out of the vectors and joins it, unless its own thread is the caller. -/
theorem Threaded.stopCallbackGroup_cases (hok : Threaded s) (t : Caller) (g : Nat) :
    (s.childOf g = none ∧ s.stopCallbackGroup t g = (some (.stopped t g), s)) ∨
    ∃ i c, s.childOf g = some c ∧ s.childThreads[i]? = some c ∧ (s.child c).group = g ∧
      s.stopCallbackGroup t g =
        (if t = .child c then some (.stopped t g) else none,
          { s.cancelChild c with
            childCallbackGroups := s.childCallbackGroups.eraseIdx i
            weakChildExecutors := s.weakChildExecutors.eraseIdx i
            childThreads := s.childThreads.eraseIdx i
            takenOut := c :: s.takenOut
            call := if t = .child c then s.call
              else Function.update s.call t (some (.joining g c)) }) := by
  have hlength : s.childCallbackGroups.length = s.childThreads.length := by
    rw [hok.callbackGroups, List.length_map]
  unfold IsolatedExecutor.stopCallbackGroup childOf
  rw [if_neg (by rw [hok.executors, hlength]; simp)]
  cases hfind : s.childCallbackGroups.findIdx? fun x => (s.group x).alive && x == g with
  | none => exact .inl ⟨rfl, rfl⟩
  | some i =>
    obtain ⟨hi, hp, -⟩ := List.findIdx?_eq_some_iff_getElem.mp hfind
    have hi' : i < s.childThreads.length := hlength ▸ hi
    have hthread : s.childThreads[i]? = some s.childThreads[i] := List.getElem?_eq_getElem hi'
    have hgroup : (s.child s.childThreads[i]).group = g := by
      simp only [Bool.and_eq_true, beq_iff_eq] at hp
      rw [← hp.2]
      simp only [hok.callbackGroups, List.getElem_map]
    refine .inr ⟨i, s.childThreads[i], hthread, hthread, hgroup, ?_⟩
    simp only [hok.executors, hthread]
    split <;> rfl

/-- Taking out one element leaves the others. -/
theorem mem_or_mem_eraseIdx {l : List Nat} {i a b : Nat} (hi : l[i]? = some a)
    (hb : b ∈ l) : b = a ∨ b ∈ l.eraseIdx i := by
  obtain ⟨j, hj⟩ := List.mem_iff_getElem?.mp hb
  by_cases hij : j = i
  · rw [hij, hi] at hj
    exact .inl (Option.some.inj hj).symm
  · exact .inr (List.mem_eraseIdx_iff_getElem?.mpr ⟨j, hij, hj⟩)

theorem Threaded.stopCallbackGroup (hok : Threaded s) : Threaded (s.stopCallbackGroup t g).2 := by
  rcases hok.stopCallbackGroup_cases t g with ⟨-, heq⟩ | ⟨i, c, -, hi, -, heq⟩
  · rw [heq]
    exact hok
  · rw [heq]
    refine ⟨?_, ?_, fun c' hc' => hok.threadsLt c' (List.mem_of_mem_eraseIdx hc'), fun c' hc' => ?_,
      fun left hleft => ?_, hok.first⟩
    · show s.weakChildExecutors.eraseIdx i = s.childThreads.eraseIdx i
      rw [hok.executors]
    · show s.childCallbackGroups.eraseIdx i =
        (s.childThreads.eraseIdx i).map fun c' => ((s.cancelChild c).child c').group
      simp only [cancelChild_group]
      rw [hok.callbackGroups, List.eraseIdx_map]
    · -- the thread that leaves the vectors was taken out
      show c' ∈ s.childThreads.eraseIdx i ∨ c' ∈ c :: s.takenOut ∨ c' ∈ s.joined ∨ _
      rcases hok.placed c' hc' with hin | hout | hrest
      · rcases mem_or_mem_eraseIdx hi hin with rfl | hin
        · exact .inr (.inl List.mem_cons_self)
        · exact .inl hin
      · exact .inr (.inl (List.mem_cons_of_mem _ hout))
      · exact .inr (.inr hrest)
    · show s.childThreads.eraseIdx i = []
      rw [hok.moved left hleft]
      rfl

theorem SameThreads.cancelChild (c : Nat) : SameThreads s (s.cancelChild c) :=
  ⟨rfl, cancelChild_group s c, rfl, rfl, rfl, rfl, rfl, rfl⟩

theorem Threaded.spawnChildExecutor (hok : Threaded s) {monitor : Bool} {left : List Nat}
    (hspin : s.spin = .spawn monitor g left) :
    Threaded (s.spawnChildExecutor monitor g left).2 := by
  have hthreads : s.spin.threads = [] := by rw [hspin]; rfl
  unfold IsolatedExecutor.spawnChildExecutor
  split
  · refine hok.turn ⟨rfl, fun _ => rfl, rfl, rfl, rfl, rfl, rfl, rfl⟩ hthreads nofun ?_
    rintro (h | ⟨looks, found, h⟩ | ⟨found, h⟩) <;> cases h
  · have hold : ∀ c ∈ s.childThreads, ((Function.update s.child s.children
        ⟨g, .started, false, 0⟩) c).group = (s.child c).group := fun c hc => by
      rw [Function.update_of_ne (Nat.ne_of_lt (hok.threadsLt c hc))]
    refine ⟨?_, ?_, fun c hc => ?_, fun c hc => ?_, fun _ h => (by cases h), ?_⟩
    · show s.weakChildExecutors ++ [s.children] = s.childThreads ++ [s.children]
      rw [hok.executors]
    · show s.childCallbackGroups ++ [g] = (s.childThreads ++ [s.children]).map fun c =>
        (Function.update s.child s.children ⟨g, .started, false, 0⟩ c).group
      rw [List.map_append, List.map_congr_left hold, hok.callbackGroups]
      simp only [List.map_cons, List.map_nil, Function.update_self]
    · rcases List.mem_append.mp hc with hc | hc
      · exact Nat.lt_succ_of_lt (hok.threadsLt c hc)
      · exact List.mem_singleton.mp hc ▸ Nat.lt_succ_self _
    · -- the new child is in the vectors, the others are where they were
      show c ∈ s.childThreads ++ [s.children] ∨ _
      by_cases heq : c = s.children
      · exact .inl (List.mem_append_right _ (List.mem_singleton.mpr heq))
      · have hlt : c < s.children := Nat.lt_of_le_of_ne (Nat.le_of_lt_succ hc) heq
        have hplaced := hok.placed c hlt
        rw [hthreads] at hplaced
        rcases hplaced with h | h | h | h
        · exact .inl (List.mem_append_left _ h)
        · exact .inr (.inl h)
        · exact .inr (.inr (.inl h))
        · cases h
    · rintro (h | ⟨looks, found, h⟩ | ⟨found, h⟩) <;> cases h

/-- The thread in `spin` goes on to a place where nothing is said of the children. -/
private theorem Threaded.goes (hok : Threaded s) {lock : Option ChildLock} {running : Bool}
    {pos : SpinPos} (hthreads : s.spin.threads = [])
    (hjoining : ∀ left, pos ≠ .joining left) (hentered : pos ≠ .entered)
    (hcollecting : ∀ looks found, pos = .collecting false looks found → s.children = s.firstChild)
    (hcollected : ∀ found, pos = .collected false found → s.children = s.firstChild) :
    Threaded { s with childResourcesMutex := lock, spinning := running, spin := pos } := by
  refine hok.turn ⟨rfl, fun _ => rfl, rfl, rfl, rfl, rfl, rfl, rfl⟩ hthreads hjoining ?_
  rintro (h | ⟨looks, found, h⟩ | ⟨found, h⟩)
  · exact absurd h hentered
  · exact hcollecting looks found h
  · exact hcollected found h

theorem Threaded.spinStep (hok : Threaded s) : Threaded s.spinStep.2 := by
  unfold IsolatedExecutor.spinStep
  split
  · exact hok
  · -- `spin` begins
    next hspin =>
    exact hok.goes (by rw [hspin]; rfl) nofun nofun (fun _ _ _ => hok.first (.inl hspin)) nofun
  · -- the next look
    next monitor l looks found hspin =>
    refine hok.goes (by rw [hspin]; rfl) nofun nofun (fun _ _ h => ?_) nofun
    -- the first collection is made before there is any child
    obtain rfl : monitor = false := by injection h
    exact hok.first (.inr (.inl ⟨_, _, hspin⟩))
  · -- everything has been looked at
    next monitor found hspin =>
    have hthreads : s.spin.threads = [] := by rw [hspin]; rfl
    split
    · exact hok.goes hthreads nofun nofun nofun nofun
    · refine hok.goes hthreads nofun nofun nofun fun _ h => ?_
      obtain rfl : monitor = false := by injection h
      exact hok.first (.inr (.inl ⟨_, _, hspin⟩))
  · -- the second mutex
    next monitor found hspin =>
    have hthreads : s.spin.threads = [] := by rw [hspin]; rfl
    split
    · exact hok
    · split
      · exact hok.goes hthreads nofun nofun nofun nofun
      · split
        · exact hok.goes hthreads nofun nofun nofun nofun
        · exact hok.goes hthreads nofun nofun nofun nofun
  · -- the next group that was found
    next monitor g' left hspin =>
    have hthreads : s.spin.threads = [] := by rw [hspin]; rfl
    split
    · exact hok.goes hthreads nofun nofun nofun nofun
    · exact hok.goes hthreads nofun nofun nofun nofun
  · next hspin => exact hok.goes (by rw [hspin]; rfl) nofun nofun nofun nofun
  · next monitor g' left hspin => exact hok.spawnChildExecutor hspin
  · -- the head of the loop
    next hspin =>
    have hthreads : s.spin.threads = [] := by rw [hspin]; rfl
    split
    · exact hok.goes hthreads nofun nofun nofun nofun
    · exact hok.goes hthreads nofun nofun nofun nofun
  · -- after the wait
    next hspin =>
    have hthreads : s.spin.threads = [] := by rw [hspin]; rfl
    split
    · exact hok.goes hthreads nofun nofun nofun nofun
    · exact hok.goes hthreads nofun nofun nofun nofun
  · -- out of the loop
    next hspin =>
    split
    · exact hok
    · exact hok.goes (by rw [hspin]; rfl) nofun nofun nofun nofun
  · -- the next child is cancelled
    next c left hspin =>
    refine hok.turn ⟨rfl, cancelChild_group s c, rfl, rfl, rfl, rfl, rfl, rfl⟩
      (by rw [hspin]; rfl) nofun ?_
    rintro (h | ⟨looks, found, h⟩ | ⟨found, h⟩) <;> cases h
  · -- the vectors are moved to what will be joined
    next hspin =>
    refine ⟨rfl, rfl, nofun, fun c hc => ?_, fun _ _ => rfl, ?_⟩
    · have hplaced := hok.placed c hc
      rw [hspin] at hplaced
      -- what was to be spawned is nothing, the rest has a place among the four lists
      rcases hplaced with h | h | h | h
      · exact .inr (.inr (.inr h))
      · exact .inr (.inl h)
      · exact .inr (.inr (.inl h))
      · cases h
    · rintro (h | ⟨looks, found, h⟩ | ⟨found, h⟩) <;> cases h
  · -- the next child is joined
    next c left hspin =>
    split
    · -- the first of the threads is joined
      refine ⟨hok.executors, hok.callbackGroups, hok.threadsLt, fun c' hc' => ?_,
        fun _ _ => hok.moved _ hspin, ?_⟩
      · show c' ∈ s.childThreads ∨ c' ∈ s.takenOut ∨ c' ∈ c :: s.joined ∨ c' ∈ left
        have hplaced := hok.placed c' hc'
        rw [hspin] at hplaced
        rcases hplaced with h | h | h | h
        · exact .inl h
        · exact .inr (.inl h)
        · exact .inr (.inr (.inl (List.mem_cons_of_mem _ h)))
        · rcases List.mem_cons.mp h with rfl | h
          · exact .inr (.inr (.inl List.mem_cons_self))
          · exact .inr (.inr (.inr h))
      · rintro (h | ⟨looks, found, h⟩ | ⟨found, h⟩) <;> cases h
    · exact hok
  · next hspin => exact hok.goes (by rw [hspin]; rfl) nofun nofun nofun nofun

/-- A child that changes stays a child of its group. -/
theorem setChild_group {x : ChildExecutor} (hx : x.group = (s.child c).group) (c' : Nat) :
    ((s.setChild c x).child c').group = (s.child c').group := by
  show (Function.update s.child c x c').group = _
  rw [Function.update_apply]
  split
  · next heq => rw [hx, heq]
  · rfl

theorem SameThreads.childStep : SameThreads s (s.childStep c) := by
  unfold IsolatedExecutor.childStep
  split
  · split
    · exact ⟨rfl, fun _ => rfl, rfl, rfl, rfl, rfl, rfl, rfl⟩
    · exact ⟨rfl, setChild_group rfl, rfl, rfl, rfl, rfl, rfl, rfl⟩
  · split
    · exact .refl s
    · exact ⟨rfl, setChild_group rfl, rfl, rfl, rfl, rfl, rfl, rfl⟩
  · exact .refl s

theorem SameThreads.advance : SameThreads s (s.advance t).2 := by
  unfold IsolatedExecutor.advance
  split
  · exact .refl s
  · split
    · exact ⟨rfl, fun _ => rfl, rfl, rfl, rfl, rfl, rfl, rfl⟩
    · exact .refl s
  · next c _ _ => exact ⟨rfl, cancelChild_group s c, rfl, rfl, rfl, rfl, rfl, rfl⟩
  · exact ⟨rfl, fun _ => rfl, rfl, rfl, rfl, rfl, rfl, rfl⟩
  · split
    · exact ⟨rfl, fun _ => rfl, rfl, rfl, rfl, rfl, rfl, rfl⟩
    · exact .refl s

theorem advance_spin : (s.advance t).2.spin = s.spin := by
  unfold IsolatedExecutor.advance
  split
  · rfl
  · split <;> rfl
  · rfl
  · rfl
  · split <;> rfl

theorem stopCallbackGroup_spin : (s.stopCallbackGroup t g).2.spin = s.spin := by
  unfold IsolatedExecutor.stopCallbackGroup
  split
  · rfl
  · split
    · rfl
    · split
      · split <;> rfl
      · rfl

theorem childStep_spin : (s.childStep c).spin = s.spin := by
  unfold IsolatedExecutor.childStep
  split
  · split <;> rfl
  · split <;> rfl
  · rfl

/-- The input changes groups, nodes and the registry and nothing else. -/
def registers : IsolatedInput → Bool
  | .stopCallbackGroup _ _ => false
  | .cancel _ => false
  | .advance _ => false
  | .callSpin => false
  | .spinStep => false
  | .childStep _ => false
  | _ => true

/-- The children, the vectors, the calls and the thread in `spin` stay. -/
structure Untouched (s s' : IsolatedExecutor) : Prop where
  children : s'.children = s.children
  child : s'.child = s.child
  executors : s'.weakChildExecutors = s.weakChildExecutors
  callbackGroups : s'.childCallbackGroups = s.childCallbackGroups
  threads : s'.childThreads = s.childThreads
  mutex : s'.childResourcesMutex = s.childResourcesMutex
  spin : s'.spin = s.spin
  call : s'.call = s.call
  takenOut : s'.takenOut = s.takenOut
  joined : s'.joined = s.joined
  firstChild : s'.firstChild = s.firstChild

theorem Threaded.of_untouched (hok : Threaded s) (h : Untouched s s') : Threaded s' :=
  hok.of_same ⟨h.children, fun _ => by rw [h.child], h.executors, h.callbackGroups, h.threads,
    h.takenOut, h.joined, h.firstChild⟩ h.spin

theorem untouched_step {i : IsolatedInput} (h : registers i = true) :
    Untouched s (s.step i).2 := by
  cases i with
  | createNode => exact ⟨rfl, rfl, rfl, rfl, rfl, rfl, rfl, rfl, rfl, rfl, rfl⟩
  | createCallbackGroup node auto =>
    simp only [IsolatedExecutor.step]
    split <;> exact ⟨rfl, rfl, rfl, rfl, rfl, rfl, rfl, rfl, rfl, rfl, rfl⟩
  | expireNode n => exact ⟨rfl, rfl, rfl, rfl, rfl, rfl, rfl, rfl, rfl, rfl, rfl⟩
  | expireGroup g =>
    simp only [IsolatedExecutor.step]
    split <;> exact ⟨rfl, rfl, rfl, rfl, rfl, rfl, rfl, rfl, rfl, rfl, rfl⟩
  | associateElsewhere g =>
    simp only [IsolatedExecutor.step]
    split <;> exact ⟨rfl, rfl, rfl, rfl, rfl, rfl, rfl, rfl, rfl, rfl, rfl⟩
  | dissociateElsewhere g =>
    simp only [IsolatedExecutor.step]
    split <;> exact ⟨rfl, rfl, rfl, rfl, rfl, rfl, rfl, rfl, rfl, rfl, rfl⟩
  | addNode t n =>
    simp only [IsolatedExecutor.step, IsolatedExecutor.addNode]
    split
    · split
      · exact ⟨rfl, rfl, rfl, rfl, rfl, rfl, rfl, rfl, rfl, rfl, rfl⟩
      · split <;> exact ⟨rfl, rfl, rfl, rfl, rfl, rfl, rfl, rfl, rfl, rfl, rfl⟩
    · exact ⟨rfl, rfl, rfl, rfl, rfl, rfl, rfl, rfl, rfl, rfl, rfl⟩
  | removeNode t n =>
    simp only [IsolatedExecutor.step, IsolatedExecutor.removeNode]
    split
    · split <;> exact ⟨rfl, rfl, rfl, rfl, rfl, rfl, rfl, rfl, rfl, rfl, rfl⟩
    · exact ⟨rfl, rfl, rfl, rfl, rfl, rfl, rfl, rfl, rfl, rfl, rfl⟩
  | addCallbackGroup t g n =>
    simp only [IsolatedExecutor.step, IsolatedExecutor.addCallbackGroup]
    split
    · split
      · exact ⟨rfl, rfl, rfl, rfl, rfl, rfl, rfl, rfl, rfl, rfl, rfl⟩
      · split <;> exact ⟨rfl, rfl, rfl, rfl, rfl, rfl, rfl, rfl, rfl, rfl, rfl⟩
    · exact ⟨rfl, rfl, rfl, rfl, rfl, rfl, rfl, rfl, rfl, rfl, rfl⟩
  | removeCallbackGroup t g =>
    simp only [IsolatedExecutor.step, IsolatedExecutor.removeCallbackGroup]
    split
    · split <;> exact ⟨rfl, rfl, rfl, rfl, rfl, rfl, rfl, rfl, rfl, rfl, rfl⟩
    · exact ⟨rfl, rfl, rfl, rfl, rfl, rfl, rfl, rfl, rfl, rfl, rfl⟩
  | shutdown => exact ⟨rfl, rfl, rfl, rfl, rfl, rfl, rfl, rfl, rfl, rfl, rfl⟩
  | _ => cases h

theorem Threaded.step (hok : Threaded s) (i : IsolatedInput) : Threaded (s.step i).2 := by
  cases i with
  | stopCallbackGroup t g =>
    simp only [IsolatedExecutor.step]
    split
    · exact hok.stopCallbackGroup
    · exact hok
  | cancel t =>
    simp only [IsolatedExecutor.step]
    split
    · exact hok.of_same ⟨rfl, fun _ => rfl, rfl, rfl, rfl, rfl, rfl, rfl⟩ rfl
    · exact hok
  | advance t => exact hok.of_same SameThreads.advance advance_spin
  | callSpin =>
    simp only [IsolatedExecutor.step]
    split
    · exact hok.of_same ⟨rfl, fun _ => rfl, rfl, rfl, rfl, rfl, rfl, rfl⟩ rfl
    · split
      · next hidle =>
        -- the children that are there are not of this call of `spin`
        refine ⟨hok.executors, hok.callbackGroups, hok.threadsLt, fun c hc => ?_, nofun,
          fun _ => rfl⟩
        have hplaced := hok.placed c hc
        rw [hidle] at hplaced
        exact hplaced
      · exact hok
  | spinStep => exact hok.spinStep
  | childStep c =>
    simp only [IsolatedExecutor.step]
    split
    · exact hok.of_same SameThreads.childStep childStep_spin
    · exact hok
  | _ => exact hok.of_untouched (untouched_step (by rfl))

/-! ## The children of a step -/

/-- The children keep their groups, and none starts again. -/
structure SameChildren (s s' : IsolatedExecutor) : Prop where
  children : s'.children = s.children
  group : ∀ c, (s'.child c).group = (s.child c).group
  stage : ∀ c, (s'.child c).stage ≠ .finished → (s.child c).stage ≠ .finished

theorem SameChildren.same (hn : s'.children = s.children) (hc : s'.child = s.child) :
    SameChildren s s' :=
  ⟨hn, fun _ => hc ▸ rfl, fun _ h => hc ▸ h⟩

theorem SameChildren.of_untouched (h : Untouched s s') : SameChildren s s' :=
  .same h.children h.child

theorem SameRegistry.sameChildren (h : SameRegistry s s') : SameChildren s s' :=
  ⟨h.children, h.childGroup, h.childStage⟩

theorem SameChildren.childStep : SameChildren s (s.childStep c) := by
  have hset : ∀ x : ChildExecutor, x.group = (s.child c).group →
      (x.stage ≠ .finished → (s.child c).stage ≠ .finished) →
      SameChildren s (s.setChild c x) := fun x hx hstage => by
    refine ⟨rfl, setChild_group hx, fun c' h => ?_⟩
    change (Function.update s.child c x c').stage ≠ _ at h
    rw [Function.update_apply] at h
    split at h
    · next heq => rw [heq]; exact hstage h
    · exact h
  unfold IsolatedExecutor.childStep
  split
  · next hstage =>
    split
    · exact .same rfl rfl
    · exact hset _ rfl fun _ => by rw [hstage]; exact nofun
  · split
    · exact .same rfl rfl
    · have hset' := hset { s.child c with stage := .finished, spinning := false } rfl
        fun h => absurd rfl h
      exact ⟨hset'.children, hset'.group, hset'.stage⟩
  · exact .same rfl rfl

theorem SameChildren.spinStep (hspawn : ∀ monitor g left, s.spin ≠ .spawn monitor g left) :
    SameChildren s s.spinStep.2 := by
  unfold IsolatedExecutor.spinStep
  split
  case h_8 monitor g left hspin => exact absurd hspin (hspawn monitor g left)
  case h_12 c left _ =>
    exact ⟨rfl, cancelChild_group s c, fun c' h => (cancelChild_stage s c c') ▸ h⟩
  case h_5 =>
    split
    · exact .same rfl rfl
    · split
      · exact .same rfl rfl
      · split <;> exact .same rfl rfl
  case h_10 => split <;> exact .same rfl rfl
  case h_11 => split <;> exact .same rfl rfl
  case h_14 => split <;> exact .same rfl rfl
  all_goals exact .same rfl rfl

end IsolatedExecutor

open IsolatedExecutor

/-- An event of the executor. -/
abbrev IsolatedEvent := Event IsolatedExecutor IsolatedInput (Option IsolatedReply)

/-- The invariants hold over every run. -/
theorem isolatedExecutor_sound {G : IsolatedExecutor → IsolatedInput → Prop}
    {tr : List IsolatedEvent} {s : IsolatedExecutor} (hr : Run isolatedExecutor G tr s) :
    Registered s ∧ Threaded s := by
  refine hr.invariant (P := fun s => Registered s ∧ Threaded s) (fun s hs => ?_) fun s i hok _ => ?_
  · obtain rfl : s = .fresh := hs
    exact ⟨.fresh, .fresh⟩
  · show Registered (if s.exited then (none, s) else s.step i).2 ∧
      Threaded (if s.exited then (none, s) else s.step i).2
    split
    · exact hok
    · exact ⟨hok.1.step i, hok.2.step i⟩

end Agnocast
