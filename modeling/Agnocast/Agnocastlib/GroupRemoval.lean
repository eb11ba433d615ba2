import Agnocast.Agnocastlib.IsolatedExecutorSafety

/-!
# The client library — removing a group from the callback-isolated executor

The bridge manager removes a group from the registry, stops its child and then destroys what
the group's callbacks use. A collection of the thread in `spin` that has the group already is
not undone by the removal: the collection and the spawning are under different mutexes, and
nothing looks at the registry again in between.

* `Gone`                 — nothing will spawn a child of the group.
* `Teardown`             — a group was removed, stopped and not added again.
* `groups_isolated`      — one child a group, aligned vectors, threads joined at the return
  of `spin`, and no child of a group that was removed while no collection had it.
* `removed_group_respawned` — the run in which a collection had it.
-/

namespace Agnocast

open Transition

namespace IsolatedExecutor

variable {s s' : IsolatedExecutor} {c g n : Nat} {t : Caller} {i : IsolatedInput}

/-! ## Groups that are gone -/

/-- What the look may put on the list is the group. -/
def MayFind (s : IsolatedExecutor) (g : Nat) : Look → Prop
  | .manual g' _ => g' = g
  | .node n => (s.group g).automaticallyAddToExecutorWithNode = true ∧ s.nodeAlive n = true ∧
      (s.group g).node = some n
  | .group g' => g' = g ∧ (s.group g).automaticallyAddToExecutorWithNode = true

/-- The input adds the group, by hand or with its node. -/
def AddsAgain (s : IsolatedExecutor) (g : Nat) : IsolatedInput → Prop
  | .addCallbackGroup _ g' _ => g' = g
  | .addNode _ n =>
    (s.group g).automaticallyAddToExecutorWithNode = true ∧ (s.group g).node = some n
  | _ => False

/-- Neither the registry nor the thread in `spin` has the group. -/
structure Gone (s : IsolatedExecutor) (g : Nat) : Prop where
  known : g < s.groups
  manual : ∀ e ∈ s.weakGroupsToNodes, e.1 ≠ g
  node : (s.group g).automaticallyAddToExecutorWithNode = true →
    ∀ n ∈ s.weakNodes, s.nodeAlive n = true → (s.group g).node ≠ some n
  collected : ¬ s.Collected g
  looks : ∀ monitor looks found, s.spin = .collecting monitor looks found →
    ∀ l ∈ looks, ¬ s.MayFind g l

/-- What `remove_callback_group` leaves of a group that no collection has. -/
theorem Gone.of_removed (hok : Registered s) (hfree : s.mutexFree = true)
    (halive : (s.group g).alive = true) (hmem : s.weakGroupsToNodes.any (·.1 = g) = true)
    (hcollected : ¬ s.Collected g) :
    Gone { s with weakGroupsToNodes := s.weakGroupsToNodes.filter (·.1 ≠ g) } g where
  known := hok.groupLt g halive
  manual e he := by simpa using (List.mem_filter.mp he).2
  node hauto n hn hnl := by
    obtain ⟨e, he, heq⟩ := List.any_eq_true.mp hmem
    obtain rfl : e.1 = g := by simpa using heq
    exact hok.manualApart e he halive hauto n hn hnl
  collected := hcollected
  looks monitor looks found hspin := by
    change s.spin = _ at hspin
    unfold mutexFree at hfree
    rw [hspin] at hfree
    cases hfree

/-- The group stays what it is, nothing is added and the thread in `spin` stays. -/
structure Fewer (s s' : IsolatedExecutor) (g : Nat) : Prop where
  groups : s.groups ≤ s'.groups
  node : (s'.group g).node = (s.group g).node
  automatic : (s'.group g).automaticallyAddToExecutorWithNode =
    (s.group g).automaticallyAddToExecutorWithNode
  nodeAlive : ∀ n, (s.group g).node = some n → s'.nodeAlive n = true → s.nodeAlive n = true
  manual : ∀ e ∈ s'.weakGroupsToNodes, e ∈ s.weakGroupsToNodes
  weakNodes : ∀ n ∈ s'.weakNodes, n ∈ s.weakNodes

theorem Fewer.same (hgroups : s'.groups = s.groups) (hgroup : s'.group = s.group)
    (halive : s'.nodeAlive = s.nodeAlive) (hmanual : s'.weakGroupsToNodes = s.weakGroupsToNodes)
    (hnodes : s'.weakNodes = s.weakNodes) : Fewer s s' g :=
  ⟨Nat.le_of_eq hgroups.symm, hgroup ▸ rfl, hgroup ▸ rfl, fun _ _ h => halive ▸ h,
    fun _ h => hmanual ▸ h, fun _ h => hnodes ▸ h⟩

theorem Fewer.mayFind (h : Fewer s s' g) {l : Look} (hfind : s'.MayFind g l) : s.MayFind g l := by
  cases l with
  | manual g' n => exact hfind
  | node n =>
    obtain ⟨hauto, hnl, hnode⟩ := hfind
    rw [h.automatic] at hauto
    rw [h.node] at hnode
    exact ⟨hauto, h.nodeAlive n hnode hnl, hnode⟩
  | group g' => exact ⟨hfind.1, h.automatic ▸ hfind.2⟩

/-- The thread in `spin` goes on, and its list gets no group that is gone. -/
theorem Gone.turn (hgone : Gone s g) (h : Fewer s s' g) (hcollected : ¬ s'.Collected g)
    (hlooks : ∀ monitor looks found, s'.spin = .collecting monitor looks found →
      ∀ l ∈ looks, ¬ s.MayFind g l) : Gone s' g where
  known := Nat.lt_of_lt_of_le hgone.known h.groups
  manual e he := hgone.manual e (h.manual e he)
  node hauto n hn hnl hnode := by
    rw [h.automatic] at hauto
    rw [h.node] at hnode
    exact hgone.node hauto n (h.weakNodes n hn) (h.nodeAlive n hnode hnl) hnode
  collected := hcollected
  looks monitor looks found hspin l hl hfind :=
    hlooks monitor looks found hspin l hl (h.mayFind hfind)

theorem Gone.keep (hgone : Gone s g) (h : Fewer s s' g) (hspin : s'.spin = s.spin) : Gone s' g := by
  refine hgone.turn h ?_ ?_
  · unfold Collected
    rw [hspin]
    exact hgone.collected
  · rw [hspin]
    exact hgone.looks

/-- A group changes and stays a group of its node. -/
theorem Gone.setGroup (hgone : Gone s g) {g' : Nat} {x : IsolatedGroup}
    (hnode : x.node = (s.group g').node)
    (hauto : x.automaticallyAddToExecutorWithNode =
      (s.group g').automaticallyAddToExecutorWithNode) : Gone (s.setGroup g' x) g := by
  refine hgone.keep ⟨Nat.le_refl _, ?_, ?_, fun _ _ h => h, fun _ h => h, fun _ h => h⟩ rfl
  · show (Function.update s.group g' x g).node = _
    rw [Function.update_apply]
    split
    · next heq => rw [hnode, heq]
    · rfl
  · show (Function.update s.group g' x g).automaticallyAddToExecutorWithNode = _
    rw [Function.update_apply]
    split
    · next heq => rw [hauto, heq]
    · rfl

theorem Gone.exit (hgone : Gone s g) : Gone s.exit g :=
  hgone.keep (.same rfl rfl rfl rfl rfl) rfl

theorem Gone.addNode (hgone : Gone s g)
    (hother : ¬ s.AddsAgain g (.addNode t n)) : Gone (s.addNode n) g := by
  unfold IsolatedExecutor.addNode
  split
  · exact hgone.exit
  · split
    · exact hgone.exit
    · refine { hgone with node := fun hauto m hm hnl hnode => ?_ }
      rcases List.mem_append.mp hm with hm | hm
      · exact hgone.node hauto m hm hnl hnode
      · obtain rfl := List.mem_singleton.mp hm
        exact hother ⟨hauto, hnode⟩

theorem Gone.addCallbackGroup (hgone : Gone s g) {g' : Nat} (hother : g' ≠ g) :
    Gone (s.addCallbackGroup g' n) g := by
  unfold IsolatedExecutor.addCallbackGroup
  split
  · exact hgone.exit
  · split
    · exact hgone.exit
    · refine { hgone with manual := fun e he => ?_ }
      rcases List.mem_append.mp he with he | he
      · exact hgone.manual e he
      · obtain rfl := List.mem_singleton.mp he
        exact hother

/-! ## The steps of the thread in `spin` -/

/-- A collection begins, and nothing that it will look at leads to the group. -/
theorem Gone.startCollecting (hgone : Gone s g) (monitor : Bool) :
    Gone (s.startCollecting monitor) g := by
  refine hgone.turn (.same rfl rfl rfl rfl rfl) (fun h => (by cases h)) fun monitor' looks found hspin l hl => ?_
  obtain ⟨rfl, rfl, rfl⟩ : monitor = monitor' ∧ _ ∧ _ := by
    injection hspin with h₁ h₂ h₃
    exact ⟨h₁, h₂, h₃⟩
  rcases List.mem_append.mp hl with hl | hl
  · obtain ⟨e, he, rfl⟩ := List.mem_map.mp hl
    exact hgone.manual e he
  · obtain ⟨m, hm, rfl⟩ := List.mem_map.mp hl
    rintro ⟨hauto, hnl, hnode⟩
    exact hgone.node hauto m hm hnl hnode

/-- A look that does not lead to the group does not find it, and nothing that it adds does. -/
theorem not_mayFind_look (monitor : Bool) {l : Look} (h : ¬ s.MayFind g l) :
    g ∉ (s.look monitor l).2 ∧ ∀ l' ∈ (s.look monitor l).1, ¬ s.MayFind g l' := by
  cases l with
  | manual g' n =>
    refine ⟨fun hmem => ?_, fun _ h => (by cases h)⟩
    simp only [look] at hmem
    split at hmem
    · exact h (List.mem_singleton.mp hmem).symm
    · cases hmem
  | node n =>
    refine ⟨fun hmem => (by cases hmem), fun l' hl' hfind => ?_⟩
    simp only [look] at hl'
    split at hl'
    · next hnl =>
      -- the groups of the node, among which the group would be
      obtain ⟨g', hg', rfl⟩ := List.mem_map.mp hl'
      obtain ⟨rfl, hauto⟩ := hfind
      have hnode := (List.mem_filter.mp hg').2
      simp only [callbackGroupInNode, Bool.and_eq_true, decide_eq_true_eq] at hnode
      exact h ⟨hauto, hnl, hnode.1⟩
    · cases hl'
  | group g' =>
    refine ⟨fun hmem => ?_, fun _ h => (by cases h)⟩
    simp only [look] at hmem
    split at hmem
    · next hcond =>
      simp only [Bool.and_eq_true] at hcond
      obtain rfl := List.mem_singleton.mp hmem
      exact h ⟨rfl, hcond.1.2⟩
    · cases hmem

/-- The thread in `spin` goes on, and its list gets shorter. -/
private theorem Gone.goes (hgone : Gone s g) {lock : Option ChildLock} {running : Bool}
    {pos : SpinPos} (hgroups : g ∈ pos.groups → g ∈ s.spin.groups)
    (hlooks : ∀ monitor looks found, pos = .collecting monitor looks found →
      ∀ l ∈ looks, ¬ s.MayFind g l) :
    Gone { s with childResourcesMutex := lock, spinning := running, spin := pos } g :=
  hgone.turn (.same rfl rfl rfl rfl rfl)
    (fun h => hgone.collected (hgroups h)) hlooks

theorem Gone.spawnChildExecutor (hgone : Gone s g) {monitor : Bool} {g' : Nat} {left : List Nat}
    (hspin : s.spin = .spawn monitor g' left) :
    Gone (s.spawnChildExecutor monitor g' left).2 g := by
  unfold IsolatedExecutor.spawnChildExecutor
  split
  · exact hgone.goes nofun nofun
  · have hset : Gone (s.setGroup g' { s.group g' with associated := some (.child s.children) }) g :=
      hgone.setGroup rfl rfl
    refine hset.turn (.same rfl rfl rfl rfl rfl) (fun h => ?_) nofun
    refine hgone.collected ?_
    unfold Collected
    rw [hspin]
    exact List.mem_cons_of_mem _ h

theorem Gone.spinStep (hgone : Gone s g) : Gone s.spinStep.2 g := by
  unfold IsolatedExecutor.spinStep
  split
  · exact hgone
  · exact hgone.startCollecting false
  · -- the next look
    next monitor l looks found hspin =>
    have hlooks := hgone.looks _ _ _ hspin
    have hfind := not_mayFind_look monitor (hlooks l List.mem_cons_self)
    refine hgone.turn (.same rfl rfl rfl rfl rfl) (fun h => ?_) fun monitor' looks' found' hspin' l' hl' => ?_
    · rcases List.mem_append.mp h with h | h
      · exact hgone.collected (by unfold Collected; rw [hspin]; exact h)
      · exact hfind.1 h
    · obtain rfl : _ = looks' := by injection hspin'
      rcases List.mem_append.mp hl' with hl' | hl'
      · exact hfind.2 l' hl'
      · exact hlooks l' (List.mem_cons_of_mem _ hl')
  · -- everything has been looked at
    next monitor found hspin =>
    refine hgone.goes (fun h => ?_) fun _ _ _ h => ?_
    · rw [hspin]
      split at h
      · cases h
      · exact h
    · split at h <;> cases h
  · -- the second mutex
    next monitor found hspin =>
    split
    · exact hgone
    · split
      · exact hgone.goes (fun h => by rw [hspin]; exact h) nofun
      · split <;> exact hgone.goes nofun nofun
  · -- the next group that was found
    next monitor g' left hspin =>
    refine hgone.goes (fun h => ?_) fun _ _ _ h => ?_
    · rw [hspin]
      split at h
      · exact List.mem_cons_of_mem _ h
      · exact h
    · split at h <;> cases h
  · exact hgone.goes nofun nofun
  · next monitor g' left hspin => exact hgone.spawnChildExecutor hspin
  · -- the head of the loop
    refine hgone.goes (fun h => ?_) fun _ _ _ h => ?_
    · split at h <;> cases h
    · split at h <;> cases h
  · -- after the wait
    split
    · exact hgone.startCollecting true
    · exact hgone.goes nofun nofun
  · -- out of the loop
    split
    · exact hgone
    · exact hgone.goes nofun nofun
  · exact hgone.turn (.same rfl rfl rfl rfl rfl) nofun nofun
  · exact hgone.turn (.same rfl rfl rfl rfl rfl) nofun nofun
  · -- the next child is joined
    split
    · exact hgone.turn (.same rfl rfl rfl rfl rfl) nofun nofun
    · exact hgone
  · exact hgone.goes nofun nofun

theorem Gone.createCallbackGroup (hgone : Gone s g) {node : Option Nat} {auto : Bool} : Gone
    { s.setGroup s.groups ⟨auto, node, true, none⟩ with groups := s.groups + 1 } g := by
  have hold : (Function.update s.group s.groups ⟨auto, node, true, none⟩) g = s.group g :=
    Function.update_of_ne (Nat.ne_of_lt hgone.known) _ _
  exact hgone.keep ⟨Nat.le_succ _, congrArg IsolatedGroup.node hold,
    congrArg IsolatedGroup.automaticallyAddToExecutorWithNode hold, fun _ _ h => h, fun _ h => h,
    fun _ h => h⟩ rfl

/-- **A group that is gone stays so** until it is added again. -/
theorem Gone.step (hgone : Gone s g) (hok : Registered s) (hother : ¬ s.AddsAgain g i) :
    Gone (s.step i).2 g := by
  cases i with
  | createNode =>
    -- the new node is not the one of the group
    refine hgone.keep ⟨Nat.le_refl _, rfl, rfl, fun n hnode h => ?_, fun _ h => h, fun _ h => h⟩ rfl
    change Function.update s.nodeAlive s.nodes true n = true at h
    rwa [Function.update_of_ne (Nat.ne_of_lt (hok.nodeLt g n hnode))] at h
  | createCallbackGroup node auto =>
    simp only [IsolatedExecutor.step]
    split
    · exact hgone.createCallbackGroup
    · exact hgone
  | expireNode n =>
    refine hgone.keep ⟨Nat.le_refl _, rfl, rfl, fun m _ h => ?_, fun _ h => h, fun _ h => h⟩ rfl
    change Function.update s.nodeAlive n false m = true at h
    rw [Function.update_apply] at h
    split at h
    · cases h
    · exact h
  | expireGroup g' =>
    simp only [IsolatedExecutor.step]
    split
    · exact hgone
    · exact hgone.setGroup rfl rfl
  | associateElsewhere g' =>
    simp only [IsolatedExecutor.step]
    split
    · exact hgone.setGroup rfl rfl
    · exact hgone
  | dissociateElsewhere g' =>
    simp only [IsolatedExecutor.step]
    split
    · exact hgone.setGroup rfl rfl
    · exact hgone
  | addNode t n =>
    simp only [IsolatedExecutor.step]
    split
    · exact hgone.addNode hother
    · exact hgone
  | removeNode t n =>
    simp only [IsolatedExecutor.step, removeNode]
    split
    · split
      · exact hgone.keep ⟨Nat.le_refl _, rfl, rfl, fun _ _ h => h, fun _ h => h,
          fun _ h => (List.mem_filter.mp h).1⟩ rfl
      · exact hgone.exit
    · exact hgone
  | addCallbackGroup t g' n =>
    simp only [IsolatedExecutor.step]
    split
    · exact hgone.addCallbackGroup hother
    · exact hgone
  | removeCallbackGroup t g' =>
    simp only [IsolatedExecutor.step, removeCallbackGroup]
    split
    · split
      · exact hgone.keep ⟨Nat.le_refl _, rfl, rfl, fun _ _ h => h,
          fun _ h => (List.mem_filter.mp h).1, fun _ h => h⟩ rfl
      · exact hgone.exit
    · exact hgone
  | stopCallbackGroup t g' =>
    simp only [IsolatedExecutor.step]
    split
    · have h := SameRegistry.stopCallbackGroup (s := s) (t := t) (g := g')
      exact hgone.keep (.same h.groups h.group h.nodeAlive h.weakGroupsToNodes h.weakNodes)
        stopCallbackGroup_spin
    · exact hgone
  | cancel t =>
    simp only [IsolatedExecutor.step]
    split
    · exact hgone.keep (.same rfl rfl rfl rfl rfl) rfl
    · exact hgone
  | advance t =>
    have h := SameRegistry.advance (s := s) (t := t)
    exact hgone.keep (.same h.groups h.group h.nodeAlive h.weakGroupsToNodes h.weakNodes)
      advance_spin
  | callSpin =>
    simp only [IsolatedExecutor.step]
    split
    · exact hgone.exit
    · split
      · exact hgone.turn (.same rfl rfl rfl rfl rfl) (by rintro ⟨⟩) (by rintro _ _ _ ⟨⟩)
      · exact hgone
  | spinStep => exact hgone.spinStep
  | childStep c =>
    simp only [IsolatedExecutor.step]
    split
    · unfold childStep
      split
      · split
        · exact hgone.exit
        · exact hgone.keep (.same rfl rfl rfl rfl rfl) rfl
      · split
        · exact hgone
        · have hfinished : Gone (s.setChild c { s.child c with
              stage := .finished, spinning := false }) g :=
            hgone.keep (.same rfl rfl rfl rfl rfl) rfl
          exact hfinished.setGroup rfl rfl
      · exact hgone
    · exact hgone
  | shutdown => exact hgone.keep (.same rfl rfl rfl rfl rfl) rfl

/-! ## The children and the calls -/

/-- **Where children come from**: a child that runs after a step ran before it, for the same
group, or the thread in `spin` had its group on the list. -/
theorem running_step (h : (s.step i).2.Running c) :
    (s.Running c ∧ ((s.step i).2.child c).group = (s.child c).group) ∨
      s.Collected ((s.step i).2.child c).group := by
  -- every other step starts no child
  have hkept : ∀ s', SameChildren s s' → s'.Running c →
      s.Running c ∧ (s'.child c).group = (s.child c).group := fun s' hs hrun =>
    ⟨⟨hs.children ▸ hrun.1, hs.stage c hrun.2⟩, hs.group c⟩
  by_cases hspawn : i = .spinStep ∧ ∃ monitor g left, s.spin = .spawn monitor g left
  · -- the new child is of the group at the head of the list
    obtain ⟨rfl, monitor, g, left, hspin⟩ := hspawn
    have hg : s.Collected g := by
      unfold Collected
      rw [hspin]
      exact List.mem_cons_self
    have heq : (s.step .spinStep).2 = (s.spawnChildExecutor monitor g left).2 := by
      show s.spinStep.2 = _
      unfold IsolatedExecutor.spinStep
      rw [hspin]
    rw [heq] at h ⊢
    unfold spawnChildExecutor at h ⊢
    split at h
    · exact .inl (hkept _ (.same rfl rfl) h)
    · by_cases hc : c = s.children
      · subst hc
        refine .inr ?_
        show s.Collected (Function.update s.child s.children _ s.children).group
        rw [Function.update_self]
        exact hg
      · have hlt : c < s.children := Nat.lt_of_le_of_ne (Nat.le_of_lt_succ h.1) hc
        have hold : (Function.update s.child s.children ⟨g, .started, false, 0⟩) c = s.child c :=
          Function.update_of_ne hc _ _
        have hstage : ((Function.update s.child s.children ⟨g, .started, false, 0⟩) c).stage
          ≠ .finished := h.2
        rw [hold] at hstage
        exact .inl ⟨⟨hlt, hstage⟩, congrArg ChildExecutor.group hold⟩
  · refine .inl (hkept _ ?_ h)
    cases i with
    | stopCallbackGroup t g =>
      simp only [IsolatedExecutor.step]
      split
      · exact SameRegistry.stopCallbackGroup.sameChildren
      · exact .same rfl rfl
    | cancel t =>
      simp only [IsolatedExecutor.step]
      split <;> exact .same rfl rfl
    | advance t => exact SameRegistry.advance.sameChildren
    | callSpin =>
      simp only [IsolatedExecutor.step]
      split
      · exact .same rfl rfl
      · split <;> exact .same rfl rfl
    | spinStep =>
      exact .spinStep fun monitor g left hspin => hspawn ⟨rfl, monitor, g, left, hspin⟩
    | childStep c' =>
      simp only [IsolatedExecutor.step]
      split
      · exact .childStep
      · exact .same rfl rfl
    | _ => exact .of_untouched (untouched_step (by rfl))

theorem call_of_canCall (h : s.canCall t = true) : s.call t = none := by
  cases t with
  | thread id => exact Option.isNone_iff_eq_none.mp h
  | child c =>
    simp only [canCall, Bool.and_eq_true] at h
    exact Option.isNone_iff_eq_none.mp h.2

/-- The calls of a step: a call goes on by itself. -/
theorem call_step (h : i ≠ .advance t) (hcall : s.call t ≠ none) :
    (s.step i).2.call t = s.call t := by
  -- who may make a call is in none, so it is another thread
  have hother : ∀ {t' x}, s.canCall t' = true → Function.update s.call t' x t = s.call t :=
    fun hcan => by
      refine Function.update_of_ne (fun heq => hcall ?_) _ _
      rw [heq]
      exact call_of_canCall hcan
  cases i with
  | stopCallbackGroup t' g =>
    simp only [IsolatedExecutor.step, Bool.and_eq_true]
    split
    · next hcan =>
      unfold stopCallbackGroup
      split
      · rfl
      · split
        · rfl
        · split
          · split
            · rfl
            · exact hother hcan.1.1
          · rfl
    · rfl
  | cancel t' =>
    simp only [IsolatedExecutor.step]
    split
    · next hcan => exact hother hcan
    · rfl
  | advance t' =>
    have hne : t ≠ t' := fun heq => h (heq ▸ rfl)
    show (s.advance t').2.call t = _
    unfold advance
    split
    · rfl
    · split
      · exact Function.update_of_ne hne _ _
      · rfl
    · exact Function.update_of_ne hne _ _
    · exact Function.update_of_ne hne _ _
    · split
      · exact Function.update_of_ne hne _ _
      · rfl
  | callSpin =>
    simp only [IsolatedExecutor.step]
    split
    · rfl
    · split <;> rfl
  | spinStep =>
    show s.spinStep.2.call t = _
    unfold spinStep spawnChildExecutor
    split <;> (try split) <;> (try split) <;> (try split) <;> rfl
  | childStep c' =>
    simp only [IsolatedExecutor.step, childStep]
    split
    · split
      · split <;> rfl
      · split <;> rfl
      · rfl
    · rfl
  | _ => exact congrFun (Untouched.call (untouched_step (by rfl))) t

theorem advance_joining (h : s.call t = some (.joining g c)) :
    s.advance t = if (s.child c).stage = .finished then
      (some (.stopped t g), { s with call := Function.update s.call t none }) else (none, s) := by
  unfold advance
  rw [h]

/-- Who returns from `stop_callback_group` has found nothing to join, or has joined. -/
theorem stopped_step {g : Nat} (h : (s.step i).1 = some (.stopped t g)) :
    (i = .stopCallbackGroup t g ∧ s.call t = none) ∨
      ∃ c, i = .advance t ∧ s.call t = some (.joining g c) ∧ (s.child c).stage = .finished := by
  cases i with
  -- the lists do not agree, no child is of the group, or it is the caller's own
  | stopCallbackGroup t' g' =>
    simp only [IsolatedExecutor.step, Bool.and_eq_true] at h
    split at h
    · next hcan =>
      refine .inl ?_
      unfold stopCallbackGroup at h
      split at h
      · cases h
        exact ⟨rfl, call_of_canCall hcan.1.1⟩
      · split at h
        · cases h
          exact ⟨rfl, call_of_canCall hcan.1.1⟩
        · split at h
          · split at h
            · cases h
              exact ⟨rfl, call_of_canCall hcan.1.1⟩
            · cases h
          · cases h
            exact ⟨rfl, call_of_canCall hcan.1.1⟩
    · cases h
  -- the join is over
  | advance t' =>
    change (s.advance t').1 = _ at h
    unfold advance at h
    split at h
    · cases h
    · cases h
    · cases h
    · cases h
    · next g' c hcall =>
      split at h
      · next hstage =>
        cases h
        exact .inr ⟨c, rfl, hcall, hstage⟩
      · cases h
  | removeCallbackGroup t' g' =>
    simp only [IsolatedExecutor.step, removeCallbackGroup] at h
    split at h
    · split at h <;> cases h
    · cases h
  | spinStep =>
    change s.spinStep.1 = _ at h
    unfold spinStep spawnChildExecutor at h
    split at h <;> (try split at h) <;> (try split at h) <;> (try split at h) <;> cases h
  | _ => cases h

end IsolatedExecutor

open IsolatedExecutor

/-! ## Removed and stopped -/

/-- The call gets `child_resources_mutex_`. -/
def IsolatedExecutor.Stops (s : IsolatedExecutor) (t : Caller) (g : Nat) : Prop :=
  s.exited = false ∧ s.canCall t = true ∧ s.childResourcesMutex = none ∧
    (s.group g).alive = true

instance (s : IsolatedExecutor) (t : Caller) (g : Nat) : Decidable (s.Stops t g) :=
  inferInstanceAs (Decidable (_ ∧ _ ∧ _ ∧ _))

/-- **The teardown of a group**: `remove_callback_group(g)` has returned, after it
`stop_callback_group(g)` of the thread has gone to its critical section and has returned, and
the group was not added again since. -/
structure Teardown (g : Nat) (t : Caller) (after : List IsolatedEvent) (stop : IsolatedEvent)
    (between : List IsolatedEvent) (remove : IsolatedEvent) : Prop where
  removed : remove.output = some (.removed g)
  input : stop.input = .stopCallbackGroup t g
  stops : stop.pre.Stops t g
  returned : ∃ ev ∈ after ++ [stop], ev.output = some (.stopped t g)
  notAdded : ∀ ev ∈ after ++ stop :: between, ¬ ev.pre.AddsAgain g ev.input

/-- What runs for the group is the child that `stop_callback_group` finds, in a thread that is
not the caller's. -/
def IsolatedExecutor.Finds (s : IsolatedExecutor) (t : Caller) (g : Nat) : Prop :=
  ∀ c, s.Running c → (s.child c).group = g → s.childOf g = some c ∧ t ≠ .child c

section Run

variable {G : IsolatedExecutor → IsolatedInput → Prop} {tr : List IsolatedEvent}
  {s : IsolatedExecutor} {g : Nat} {t : Caller}

private theorem isolatedExecutor_step (s : IsolatedExecutor) (i : IsolatedInput) :
    isolatedExecutor.step s i = if s.exited then (none, s) else s.step i := rfl

/-- Only `remove_callback_group` says that a group was removed. -/
theorem gone_of_removed {i : IsolatedInput} (hok : Registered s)
    (hremoved : (isolatedExecutor.step s i).1 = some (.removed g)) (hcollected : ¬ s.Collected g) :
    (isolatedExecutor.step s i).2.Gone g := by
  rw [isolatedExecutor_step] at hremoved ⊢
  split at hremoved
  · cases hremoved
  · next hexited =>
    rw [if_neg hexited]
    cases i with
    | removeCallbackGroup t' g' =>
      simp only [IsolatedExecutor.step, Bool.and_eq_true] at hremoved ⊢
      split at hremoved
      · next hcan =>
        rw [if_pos hcan]
        unfold removeCallbackGroup at hremoved ⊢
        split at hremoved
        · next hmem =>
          cases hremoved
          rw [if_pos hmem]
          exact .of_removed hok hcan.1.2 hcan.2 hmem hcollected
        · cases hremoved
      · cases hremoved
    | stopCallbackGroup t' g' =>
      simp only [IsolatedExecutor.step, stopCallbackGroup] at hremoved
      split at hremoved <;> (try split at hremoved) <;> (try split at hremoved) <;>
        (try split at hremoved) <;> (try split at hremoved) <;> cases hremoved
    | advance t' =>
      simp only [IsolatedExecutor.step, IsolatedExecutor.advance] at hremoved
      split at hremoved <;> (try split at hremoved) <;> cases hremoved
    | spinStep =>
      simp only [IsolatedExecutor.step, spinStep, spawnChildExecutor] at hremoved
      split at hremoved <;> (try split at hremoved) <;> (try split at hremoved) <;>
        (try split at hremoved) <;> cases hremoved
    | _ => cases hremoved

/-- The group stays gone over the rest of the run. -/
theorem gone_since {remove : IsolatedEvent} {early later : List IsolatedEvent}
    (hremoved : remove.output = some (.removed g)) (hcollected : ¬ remove.pre.Collected g)
    (hr : Run isolatedExecutor G (later ++ remove :: early) s)
    (hother : ∀ ev ∈ later, ¬ ev.pre.AddsAgain g ev.input) : s.Gone g := by
  refine hr.since (P := fun later s => (∀ ev ∈ later, ¬ ev.pre.AddsAgain g ev.input) → s.Gone g)
    (fun s hs _ => ?_) (fun later s i hs hgone _ hother => ?_) hother
  · cases hs with
    | step i hr _ => exact gone_of_removed (isolatedExecutor_sound hr).1 hremoved hcollected
  · have h := hgone fun ev hev => hother ev (List.mem_cons_of_mem _ hev)
    rw [isolatedExecutor_step]
    split
    · exact h
    · exact h.step (isolatedExecutor_sound hs).1 (hother _ List.mem_cons_self)

/-- From the critical section of `stop_callback_group` on, what runs for the group is what the call
joins, and nothing runs for it when the call has returned. -/
structure JoinedSince (g : Nat) (t : Caller) (since : List IsolatedEvent) (s : IsolatedExecutor) :
    Prop where
  joining : ∀ c, s.Running c → (s.child c).group = g → s.call t = some (.joining g c)
  ended : (∃ ev ∈ since, ev.output = some (.stopped t g)) →
    ∀ c, s.Running c → (s.child c).group ≠ g

/-- The critical section, when it finds what runs for the group. -/
theorem stopCallbackGroup_joining (hok : Threaded s) (hfinds : s.Finds t g) {c : Nat}
    (hc : (s.stopCallbackGroup t g).2.Running c)
    (hg : ((s.stopCallbackGroup t g).2.child c).group = g) :
    (s.stopCallbackGroup t g).1 = none ∧
      (s.stopCallbackGroup t g).2.call t = some (.joining g c) := by
  have hsame := SameRegistry.stopCallbackGroup (s := s) (t := t) (g := g)
  -- what runs for the group afterwards has run before
  have hold : s.Running c := ⟨hsame.children ▸ hc.1, hsame.childStage c hc.2⟩
  obtain ⟨hchild, hne⟩ := hfinds c hold ((hsame.childGroup c).symm.trans hg)
  rcases hok.stopCallbackGroup_cases t g with ⟨hnone, -⟩ | ⟨i, c', hsome, -, -, heq⟩
  · rw [hnone] at hchild
    cases hchild
  · obtain rfl : c' = c := Option.some.inj (hsome.symm.trans hchild)
    rw [if_neg hne, if_neg hne] at heq
    rw [heq]
    exact ⟨rfl, Function.update_self _ _ _⟩

theorem JoinedSince.of_stops {stop : IsolatedEvent} (hok : Threaded stop.pre)
    (hinput : stop.input = .stopCallbackGroup t g) (hstops : stop.pre.Stops t g)
    (hfinds : stop.pre.Finds t g)
    (hout : stop.output = (isolatedExecutor.step stop.pre stop.input).1) :
    JoinedSince g t [stop] (isolatedExecutor.step stop.pre stop.input).2 := by
  obtain ⟨hexited, hcan, hlock, halive⟩ := hstops
  have hstep : isolatedExecutor.step stop.pre stop.input = stop.pre.stopCallbackGroup t g := by
    rw [isolatedExecutor_step, hinput, hexited]
    simp only [IsolatedExecutor.step, hcan, hlock, halive, Option.isNone_none, Bool.and_self,
      if_true, Bool.false_eq_true, if_false]
  rw [hstep] at hout ⊢
  refine ⟨fun c hc hg => (stopCallbackGroup_joining hok hfinds hc hg).2, fun hret c hc hg => ?_⟩
  -- the call that joins has not returned
  obtain ⟨ev, hev, hret⟩ := hret
  obtain rfl := List.mem_singleton.mp hev
  rw [hout, (stopCallbackGroup_joining hok hfinds hc hg).1] at hret
  cases hret

/-- A later step: nothing spawns a child of the group, and the call joins only a child that is
gone. -/
theorem JoinedSince.step {since : List IsolatedEvent} (h : JoinedSince g t since s)
    (hgone : s.Gone g) (i : IsolatedInput) :
    JoinedSince g t (⟨s, i, (isolatedExecutor.step s i).1⟩ :: since)
      (isolatedExecutor.step s i).2 := by
  rw [isolatedExecutor_step]
  split
  · refine ⟨h.joining, fun hret => h.ended ?_⟩
    obtain ⟨ev, hev, hret⟩ := hret
    rcases List.mem_cons.mp hev with rfl | hev
    · cases hret
    · exact ⟨ev, hev, hret⟩
  -- a child of the group that runs now ran before
  have hold {c : Nat} (hc : (s.step i).2.Running c) (hg : ((s.step i).2.child c).group = g) :
      s.Running c ∧ (s.child c).group = g := by
    rcases running_step hc with ⟨hrun, hsame⟩ | hlist
    · exact ⟨hrun, hsame.symm.trans hg⟩
    · exact absurd (hg ▸ hlist) hgone.collected
  refine ⟨fun c hc hg => ?_, fun hret c hc hg => ?_⟩
  · obtain ⟨hc', hg'⟩ := hold hc hg
    have hcall := h.joining c hc' hg'
    by_cases hi : i = .advance t
    · -- the call goes on waiting for its child
      have hsame : s.step i = (none, s) := by
        rw [hi]
        show s.advance t = _
        rw [advance_joining hcall, if_neg hc'.2]
      rw [hsame]
      exact hcall
    · have hnot : s.call t ≠ none := by
        rw [hcall]
        simp
      rw [call_step hi hnot, hcall]
  · obtain ⟨hc', hg'⟩ := hold hc hg
    have hcall := h.joining c hc' hg'
    obtain ⟨ev, hev, hret⟩ := hret
    rcases List.mem_cons.mp hev with rfl | hev
    · -- the return is this step
      rcases stopped_step hret with ⟨-, hnone⟩ | ⟨c', hi, hcall', hstage⟩
      · rw [hnone] at hcall
        cases hcall
      · rw [hcall] at hcall'
        obtain rfl : c = c' := by
          injection hcall' with h
          injection h
        exact hc'.2 hstage
    · exact h.ended ⟨ev, hev, hret⟩ c hc' hg'

/-- **A torn down group has no child**: nothing spawns one any more, and what ran for it was
joined by the call of `stop_callback_group` that has returned. -/
theorem no_child_of_teardown {after between early : List IsolatedEvent}
    {stop remove : IsolatedEvent}
    (hr : Run isolatedExecutor G (after ++ stop :: (between ++ remove :: early)) s)
    (hdown : Teardown g t after stop between remove) (hcollected : ¬ remove.pre.Collected g)
    (hfinds : stop.pre.Finds t g) (c : Nat) (hc : s.Running c) : (s.child c).group ≠ g := by
  have hjoined := hr.since
    (P := fun later s => (∀ ev ∈ later ++ stop :: between, ¬ ev.pre.AddsAgain g ev.input) →
      JoinedSince g t (later ++ [stop]) s)
    (fun s hs _ => ?_) (fun later s i hs ih _ hother => ?_) hdown.notAdded
  · exact hjoined.ended hdown.returned c hc
  · have hs' : Run isolatedExecutor G ([] ++ stop :: (between ++ remove :: early)) s := hs
    obtain ⟨hpre, -, hout, -⟩ := hs'.event
    obtain rfl : (isolatedExecutor.step stop.pre stop.input).2 = s := by
      cases hs with
      | step i _ _ => rfl
    exact .of_stops (isolatedExecutor_sound hpre).2 hdown.input hdown.stops hfinds hout
  · have hbefore : ∀ ev ∈ later ++ stop :: between, ¬ ev.pre.AddsAgain g ev.input := fun ev hev =>
      hother ev (List.mem_cons_of_mem _ hev)
    have hs' : Run isolatedExecutor G ((later ++ stop :: between) ++ remove :: early) s := by
      rw [List.append_assoc]
      exact hs
    exact (ih hbefore).step (gone_since hdown.removed hcollected hs' hbefore) i

/-- `spin` returns when it has joined all, or before it has spawned any. -/
theorem spinReturned_step {i : IsolatedInput} (h : (s.step i).1 = some .spinReturned) :
    s.spin = .joining [] ∨ ∃ found, s.spin = .collected false found := by
  cases i with
  | spinStep =>
    change s.spinStep.1 = _ at h
    unfold spinStep at h
    split at h
    case h_5 monitor found hspin =>
      split at h
      · cases h
      · split at h
        · cases h
        · split at h
          · cases h
          · next hmonitor => exact .inr ⟨found, by rw [hspin, Bool.eq_false_iff.mpr hmonitor]⟩
    case h_8 =>
      unfold spawnChildExecutor at h
      split at h <;> cases h
    case h_15 hspin => exact .inl hspin
    all_goals cases h
  | removeCallbackGroup t' g' =>
    simp only [IsolatedExecutor.step, removeCallbackGroup] at h
    split at h
    · split at h <;> cases h
    · cases h
  | stopCallbackGroup t' g' =>
    simp only [IsolatedExecutor.step, stopCallbackGroup] at h
    split at h <;> (try split at h) <;> (try split at h) <;>
      (try split at h) <;> (try split at h) <;> cases h
  | advance t' =>
    simp only [IsolatedExecutor.step, IsolatedExecutor.advance] at h
    split at h <;> (try split at h) <;> cases h
  | _ => cases h

theorem joined_of_spinReturned {i : IsolatedInput} (hok : Threaded s)
    (h : (s.step i).1 = some .spinReturned) {c : Nat} (hfirst : s.firstChild ≤ c)
    (hc : c < s.children) : c ∈ s.joined ∨ c ∈ s.takenOut := by
  rcases spinReturned_step h with hspin | ⟨found, hspin⟩
  · have hplaced := hok.placed c hc
    rw [hok.moved _ hspin, hspin] at hplaced
    rcases hplaced with h | h | h | h
    · cases h
    · exact .inr h
    · exact .inl h
    · cases h
  · -- nothing was spawned since `spin` was called
    have hnone := hok.first (.inr (.inr ⟨found, hspin⟩))
    omega

end Run

/-- **What holds of the groups over every run.** No two children run for one group; the
vectors are aligned; for a group that was removed while no collection had it, and stopped in
another thread than the one that runs for it, no child runs any more; and when `spin` returns,
the threads that it has started were joined or taken out. -/
theorem groups_isolated {tr : List IsolatedEvent} {s : IsolatedExecutor}
    (hr : Run isolatedExecutor anyStep tr s) :
    (∀ c c', s.Running c → s.Running c' → (s.child c).group = (s.child c').group → c = c') ∧
    (s.weakChildExecutors = s.childThreads ∧
      s.childCallbackGroups = s.childThreads.map fun c => (s.child c).group) ∧
    (∀ g t after stop between remove early,
      tr = after ++ stop :: (between ++ remove :: early) →
      Teardown g t after stop between remove →
      ¬ remove.pre.Collected g → stop.pre.Finds t g →
        ∀ c, s.Running c → (s.child c).group ≠ g) ∧
    (∀ ev ∈ tr, ev.output = some .spinReturned →
      ∀ c, ev.pre.firstChild ≤ c → c < ev.pre.children → c ∈ ev.pre.joined ∨ c ∈ ev.pre.takenOut) := by
  have hok := isolatedExecutor_sound hr
  refine ⟨fun c c' => hok.1.unique, ⟨hok.2.executors, hok.2.callbackGroups⟩, ?_, ?_⟩
  · rintro g t after stop between remove early rfl hdown hcollected hfinds c hc
    exact no_child_of_teardown hr hdown hcollected hfinds c hc
  · intro ev hev hreturned c hfirst hc
    obtain ⟨later, early, rfl⟩ := List.append_of_mem hev
    obtain ⟨hpre, -, hout, -⟩ := hr.event
    rw [hout, isolatedExecutor_step] at hreturned
    split at hreturned
    · cases hreturned
    · exact joined_of_spinReturned (isolatedExecutor_sound hpre).2 hreturned hfirst hc

/-- A bridge is torn down: its group was spawned, is removed and stopped, and its child ends. -/
theorem groups_isolated_of_bridge :
    let s := (isolatedExecutor.exec .fresh [] [.createNode, .createCallbackGroup (some 0) false,
      .addCallbackGroup (.thread 0) 0 0, .callSpin, .spinStep, .spinStep, .spinStep, .spinStep,
      .spinStep, .spinStep, .spinStep, .childStep 0, .removeCallbackGroup (.thread 0) 0,
      .stopCallbackGroup (.thread 0) 0, .childStep 0, .advance (.thread 0)]).2
    s.children = 1 ∧ ∀ c, s.Running c → (s.child c).group ≠ 0 := by
  refine ⟨by decide, ?_⟩
  refine (groups_isolated ((Run.init rfl).exec (isolatedExecutor.guarded_anyStep _ _))).2.2.1
    0 (.thread 0) [_, _] _ [] _ _ rfl ⟨rfl, rfl, by decide, ⟨_, List.mem_cons_self, rfl⟩, ?_⟩
    (by decide) (fun c hc _ => ?_)
  · intro ev hev
    simp only [List.cons_append, List.nil_append, List.mem_cons, List.not_mem_nil, or_false] at hev
    rcases hev with rfl | rfl | rfl <;> exact id
  · obtain rfl : c = 0 := Nat.lt_one_iff.mp hc.1
    exact ⟨rfl, nofun⟩

/-- **A group that was removed and stopped runs again**: the monitor has collected it when it
is removed, and spawns it afterwards. -/
theorem removed_group_respawned :
    ¬ ∀ (tr : List IsolatedEvent) (s : IsolatedExecutor), Run isolatedExecutor anyStep tr s →
      ∀ g t after stop between remove early, tr = after ++ stop :: (between ++ remove :: early) →
        Teardown g t after stop between remove → ∀ c, s.Running c → (s.child c).group ≠ g := by
  intro h
  refine h _ _ ((Run.init rfl).exec (isolatedExecutor.guarded_anyStep _ [.createNode,
    .createCallbackGroup (some 0) false, .callSpin, .spinStep, .spinStep, .spinStep, .spinStep,
    .addCallbackGroup (.thread 0) 0 0, .spinStep, .spinStep, .spinStep, .spinStep,
    .removeCallbackGroup (.thread 0) 0, .stopCallbackGroup (.thread 0) 0, .spinStep, .spinStep,
    .spinStep, .childStep 0]))
    0 (.thread 0) [_, _, _, _] _ [] _ _ rfl
    ⟨rfl, rfl, by decide, ⟨_, List.mem_append_right _ List.mem_cons_self, rfl⟩, ?_⟩
    0 (by decide) (by decide)
  intro ev hev
  simp only [List.cons_append, List.nil_append, List.mem_cons, List.not_mem_nil, or_false] at hev
  rcases hev with rfl | rfl | rfl | rfl | rfl <;> exact id

end Agnocast
