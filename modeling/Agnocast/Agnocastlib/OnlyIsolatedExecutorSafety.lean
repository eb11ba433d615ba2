import Mathlib.Data.List.Nodup
import Mathlib.Data.List.Perm.Basic
import Agnocast.Agnocastlib.OnlyIsolatedExecutor

/-!
# The client library — the flags of the executor without ROS 2

As long as nothing is added by hand while it spins and no node is removed, the flag of a group is set
by the call that adds it or by the one child that serves it.

* `Registered`   — the invariant of the groups' flags, with one lemma for each call.
* `SameRegistry` — the steps that leave it alone.
* `Registered.childStep`, `Registered.spawnChildExecutor` — a child gives its group up, and gets it.
-/

namespace Agnocast

open Transition

namespace OnlyIsolatedExecutor

variable {s s' : OnlyIsolatedExecutor} {g n c : Nat}

/-! ## Groups and calls -/

/-- The group is taken in with its node. -/
def Through (s : OnlyIsolatedExecutor) (g : Nat) : Prop :=
  (s.group g).automaticallyAddToExecutorWithNode = true ∧ (s.group g).node ∈ s.weakNodes

theorem isManual_iff : s.isManual g = true ↔
    ∃ e ∈ s.weakGroupsAssociatedWithExecutorToNodes, e.1 = g := by
  simp [isManual]

theorem isBeingAdded_iff : s.isBeingAdded g = true ↔ g ∈ s.calls.filterMap OnlyCall.addedGroup := by
  simp [isBeingAdded, List.mem_filterMap]

theorem mem_addedGroup : g ∈ s.calls.filterMap OnlyCall.addedGroup ↔
    ∃ n, OnlyCall.addCallbackGroup g n ∈ s.calls := by
  rw [List.mem_filterMap]
  constructor
  · rintro ⟨call, hmem, hcall⟩
    cases call with
    | addCallbackGroup g' n =>
      obtain rfl : g' = g := Option.some.inj hcall
      exact ⟨n, hmem⟩
    | removeNode n => cases hcall
    | cancel => cases hcall
    | cancelling => cases hcall
  · rintro ⟨n, hmem⟩
    exact ⟨_, hmem, rfl⟩

theorem isAdded_iff : s.isAdded g = true ↔ (s.group g).alive = true ∧
    (s.isManual g = true ∨ s.Through g ∧ s.nodeAlive (s.group g).node = true) := by
  simp [isAdded, Through, and_assoc]

/-! ## The registry -/

/-- **The registry**: what it names exists, a group that is added by hand is not taken in with its
node, and a flag that is set has been set by a call, or by the one child that serves the group. -/
structure Registered (s : OnlyIsolatedExecutor) : Prop where
  exited : s.exited = false
  nodeLt : ∀ n, s.nodeAlive n = true → n < s.nodes
  groupLt : ∀ g, (s.group g).alive = true → g < s.groups
  groupNode : ∀ g, (s.group g).alive = true → (s.group g).node < s.nodes
  nodesNodup : s.weakNodes.Nodup
  manualLt : ∀ g, s.isManual g = true → g < s.groups
  manualAlive : ∀ e ∈ s.weakGroupsAssociatedWithExecutorToNodes, s.nodeAlive e.2 = true
  callOk : ∀ g n, .addCallbackGroup g n ∈ s.calls →
    s.nodeAlive n = true ∧ (s.group g).alive = true ∧ s.isManual g = false
  addedOnce : (s.calls.filterMap OnlyCall.addedGroup).Nodup
  noRemove : ∀ n, .removeNode n ∉ s.calls
  apart : ∀ g, (s.group g).alive = true → s.isManual g = true ∨ s.isBeingAdded g = true →
    ¬s.Through g
  flag : ∀ g, (s.group g).alive = true → (s.group g).associated = true →
    s.isManual g = true ∨ s.isBeingAdded g = true ∨ ∃ c, s.Serves c g
  serves : ∀ c g, s.Serves c g →
    g < s.groups ∧ (s.group g).associated = true ∧ s.Through g
  once : ∀ g c c', s.Serves c g → s.Serves c' g → c = c'

theorem Registered.fresh : Registered fresh := by
  refine ⟨rfl, nofun, nofun, nofun, List.nodup_nil, nofun, nofun, nofun, List.nodup_nil, nofun, nofun,
    nofun, fun c g h => ?_, fun g c c' h => ?_⟩ <;> exact absurd h.1 (Nat.not_lt_zero c)

/-- Nothing happens to the registry and to what the children serve. -/
structure SameRegistry (s s' : OnlyIsolatedExecutor) : Prop where
  exited : s'.exited = s.exited
  nodes : s'.nodes = s.nodes
  nodeAlive : s'.nodeAlive = s.nodeAlive
  groups : s'.groups = s.groups
  group : s'.group = s.group
  manual : s'.weakGroupsAssociatedWithExecutorToNodes = s.weakGroupsAssociatedWithExecutorToNodes
  weakNodes : s'.weakNodes = s.weakNodes
  added : s'.calls.filterMap OnlyCall.addedGroup = s.calls.filterMap OnlyCall.addedGroup
  calls : ∀ call ∈ s'.calls, call ∈ s.calls ∨ call = .cancel ∨ call = .cancelling
  serves : ∀ c g, s'.Serves c g ↔ s.Serves c g

namespace SameRegistry

theorem isManual (h : SameRegistry s s') (g : Nat) : s'.isManual g = s.isManual g := by
  unfold OnlyIsolatedExecutor.isManual
  rw [h.manual]

theorem isBeingAdded (h : SameRegistry s s') (g : Nat) : s'.isBeingAdded g = s.isBeingAdded g := by
  rw [Bool.eq_iff_iff, isBeingAdded_iff, isBeingAdded_iff, h.added]

theorem through (h : SameRegistry s s') (g : Nat) : s'.Through g ↔ s.Through g := by
  unfold Through
  rw [h.group, h.weakNodes]

end SameRegistry

theorem Registered.of_same (hok : Registered s) (h : SameRegistry s s') : Registered s' where
  exited := h.exited.trans hok.exited
  nodeLt := h.nodeAlive ▸ h.nodes ▸ hok.nodeLt
  groupLt := h.group ▸ h.groups ▸ hok.groupLt
  groupNode := h.group ▸ h.nodes ▸ hok.groupNode
  nodesNodup := h.weakNodes ▸ hok.nodesNodup
  manualLt g hg := h.groups ▸ hok.manualLt g (h.isManual g ▸ hg)
  manualAlive := h.manual ▸ h.nodeAlive ▸ hok.manualAlive
  callOk g n hmem := by
    rw [h.nodeAlive, h.group, h.isManual]
    rcases h.calls _ hmem with hmem | hcall | hcall
    · exact hok.callOk g n hmem
    · cases hcall
    · cases hcall
  addedOnce := h.added ▸ hok.addedOnce
  noRemove n hmem := by
    rcases h.calls _ hmem with hmem | hcall | hcall
    · exact hok.noRemove n hmem
    · cases hcall
    · cases hcall
  apart g halive hadded := by
    rw [h.through]
    rw [h.isManual, h.isBeingAdded] at hadded
    exact hok.apart g (h.group ▸ halive) hadded
  flag g halive hflag := by
    rw [h.isManual, h.isBeingAdded]
    simp only [h.serves]
    exact hok.flag g (h.group ▸ halive) (h.group ▸ hflag)
  serves c g hc := by
    rw [h.groups, h.group, h.through]
    exact hok.serves c g ((h.serves c g).mp hc)
  once g c c' hc hc' := hok.once g c c' ((h.serves c g).mp hc) ((h.serves c' g).mp hc')

/-- A group that a call adds is there, and not added yet. -/
theorem Registered.beingAdded (hok : Registered s) (h : s.isBeingAdded g = true) :
    (s.group g).alive = true ∧ s.isManual g = false ∧ g < s.groups := by
  obtain ⟨n, hmem⟩ := mem_addedGroup.mp (isBeingAdded_iff.mp h)
  obtain ⟨_, halive, hmanual⟩ := hok.callOk g n hmem
  exact ⟨halive, hmanual, hok.groupLt g halive⟩

/-! ## Nodes and groups come and go -/

theorem Registered.createNode (hok : Registered s) : Registered (s.move .createNode) := by
  have hmono {n : Nat} (h : s.nodeAlive n = true) :
      Function.update s.nodeAlive s.nodes true n = true := by
    rw [Function.update_apply]
    split
    · rfl
    · exact h
  refine { hok with
    nodeLt := fun n hn => ?_
    groupNode := fun g hg => Nat.lt_succ_of_lt (hok.groupNode g hg)
    manualAlive := fun e he => hmono (hok.manualAlive e he)
    callOk := fun g n hmem => ⟨hmono (hok.callOk g n hmem).1, (hok.callOk g n hmem).2⟩ }
  change Function.update s.nodeAlive s.nodes true n = true at hn
  rw [Function.update_apply] at hn
  split at hn
  · next heq => exact heq ▸ Nat.lt_succ_self _
  · exact Nat.lt_succ_of_lt (hok.nodeLt n hn)

@[simp] theorem setGroup_group {x : OnlyGroup} {g' : Nat} :
    (s.setGroup g x).group g' = if g' = g then x else s.group g' :=
  Function.update_apply ..

/-- One group changes, and keeps its node; it may expire if no call holds it, and its flag says
whether it has been added or is served. -/
theorem Registered.setGroup (hok : Registered s) {x : OnlyGroup}
    (hnode : x.node = (s.group g).node)
    (hauto : x.automaticallyAddToExecutorWithNode =
      (s.group g).automaticallyAddToExecutorWithNode)
    (halive : x.alive = true → (s.group g).alive = true)
    (hheld : s.isBeingAdded g = true → x.alive = true)
    (hflag : x.alive = true → x.associated = true →
      s.isManual g = true ∨ s.isBeingAdded g = true ∨ ∃ c, s.Serves c g)
    (hserved : ∀ c, s.Serves c g → x.associated = true) : Registered (s.setGroup g x) := by
  have hnode' (g' : Nat) : ((s.setGroup g x).group g').node = (s.group g').node := by
    rw [setGroup_group]
    split
    · next h => rw [hnode, h]
    · rfl
  have halive' {g' : Nat} (h : ((s.setGroup g x).group g').alive = true) :
      (s.group g').alive = true := by
    rw [setGroup_group] at h
    split at h
    · next heq => exact heq ▸ halive h
    · exact h
  -- which group comes through its node is as it was, as the flag for that and the node are kept
  have hthrough (g' : Nat) : (s.setGroup g x).Through g' ↔ s.Through g' := by
    have hauto' : ((s.setGroup g x).group g').automaticallyAddToExecutorWithNode =
        (s.group g').automaticallyAddToExecutorWithNode := by
      rw [setGroup_group]
      split
      · next h => rw [hauto, h]
      · rfl
    unfold Through
    rw [hauto', hnode']
    rfl
  refine { hok with
    groupLt := fun g' h => hok.groupLt g' (halive' h)
    groupNode := fun g' h => by
      rw [hnode']
      exact hok.groupNode g' (halive' h)
    callOk := fun g' n hmem => ⟨(hok.callOk g' n hmem).1, ?_, (hok.callOk g' n hmem).2.2⟩
    apart := fun g' h hadded => (hthrough g').not.mpr (hok.apart g' (halive' h) hadded)
    flag := fun g' h hset => ?_
    serves := fun c g' hc => ?_ }
  · rw [setGroup_group]
    split
    · next heq =>
      subst heq
      exact hheld (isBeingAdded_iff.mpr (mem_addedGroup.mpr ⟨n, hmem⟩))
    · exact (hok.callOk g' n hmem).2.1
  · rw [setGroup_group] at h hset
    split at h
    · next heq =>
      subst heq
      rw [if_pos rfl] at hset
      exact hflag h hset
    · next hne =>
      rw [if_neg hne] at hset
      exact hok.flag g' h hset
  · obtain ⟨hlt, hset, hthru⟩ := hok.serves c g' hc
    refine ⟨hlt, ?_, (hthrough g').mpr hthru⟩
    rw [setGroup_group]
    split
    · next heq => exact hserved c (heq ▸ hc)
    · exact hset

theorem Registered.createCallbackGroup (hok : Registered s) {auto : Bool}
    (hn : s.nodeAlive n = true) : Registered (s.move (.createCallbackGroup n auto)) := by
  have hget (g : Nat) : (s.move (.createCallbackGroup n auto)).group g =
      if g = s.groups then ⟨auto, n, true, false⟩ else s.group g := setGroup_group
  have hold {g : Nat} (h : g < s.groups) :
      (s.move (.createCallbackGroup n auto)).group g = s.group g := by
    rw [hget, if_neg (Nat.ne_of_lt h)]
  have hthrough {g : Nat} (h : g < s.groups) :
      (s.move (.createCallbackGroup n auto)).Through g ↔ s.Through g := by
    unfold Through
    rw [hold h]
    rfl
  -- a group is the new one, or it was there
  have hcases {g : Nat} (h : ((s.move (.createCallbackGroup n auto)).group g).alive = true) :
      g = s.groups ∨ g < s.groups ∧ (s.group g).alive = true := by
    rw [hget] at h
    split at h
    · next heq => exact .inl heq
    · exact .inr ⟨hok.groupLt g h, h⟩
  refine { hok with
    groupLt := fun g h => ?_
    groupNode := fun g h => ?_
    manualLt := fun g h => Nat.lt_succ_of_lt (hok.manualLt g h)
    callOk := fun g n' hmem => ?_
    apart := fun g h hadded => ?_
    flag := fun g h hset => ?_
    serves := fun c g hc => ?_ }
  · rcases hcases h with heq | ⟨hlt, _⟩
    · exact heq ▸ Nat.lt_succ_self _
    · exact Nat.lt_succ_of_lt hlt
  · rcases hcases h with heq | ⟨hlt, halive⟩
    · rw [hget, if_pos heq]
      exact hok.nodeLt n hn
    · rw [hold hlt]
      exact hok.groupNode g halive
  · obtain ⟨hnode, halive, hmanual⟩ := hok.callOk g n' hmem
    rw [hold (hok.groupLt g halive)]
    exact ⟨hnode, halive, hmanual⟩
  · rcases hcases h with heq | ⟨hlt, halive⟩
    · rcases hadded with hmanual | hbeing
      · exact absurd (hok.manualLt g hmanual) (heq ▸ Nat.lt_irrefl _)
      · exact absurd (hok.beingAdded hbeing).2.2 (heq ▸ Nat.lt_irrefl _)
    · exact (hthrough hlt).not.mpr (hok.apart g halive hadded)
  · rcases hcases h with heq | ⟨hlt, halive⟩
    · rw [hget, if_pos heq] at hset
      cases hset
    · rw [hold hlt] at hset
      exact hok.flag g halive hset
  · obtain ⟨hlt, hset, hthru⟩ := hok.serves c g hc
    rw [hold hlt]
    exact ⟨Nat.lt_succ_of_lt hlt, hset, (hthrough hlt).mpr hthru⟩

theorem Registered.expireNode (hok : Registered s)
    (hallowed : s.allowed (.expireNode n) = true) : Registered (s.move (.expireNode n)) := by
  show Registered (if s.holdsNode n then s else _)
  split
  · exact hok
  next hheld =>
  have hkeep {m : Nat} (hm : s.nodeAlive m = true) (hne : m ≠ n) :
      Function.update s.nodeAlive n false m = true := by
    rw [Function.update_of_ne hne]
    exact hm
  refine { hok with
    nodeLt := fun m hm => hok.nodeLt m ?_
    manualAlive := fun e he => hkeep (hok.manualAlive e he) ?_
    callOk := fun g m hmem => ⟨hkeep (hok.callOk g m hmem).1 ?_, (hok.callOk g m hmem).2⟩ }
  · change Function.update s.nodeAlive n false m = true at hm
    rw [Function.update_apply] at hm
    split at hm
    · cases hm
    · exact hm
  · have hall : ∀ e ∈ s.weakGroupsAssociatedWithExecutorToNodes, e.2 ≠ n := by
      simpa [allowed] using hallowed
    exact hall e he
  · rintro rfl
    refine hheld ?_
    unfold holdsNode
    rw [Bool.or_eq_true]
    exact .inr (List.any_eq_true.mpr ⟨_, hmem, decide_eq_true rfl⟩)

theorem Registered.expireGroup (hok : Registered s) : Registered (s.move (.expireGroup g)) := by
  show Registered (if s.holdsGroup g then s else _)
  split
  · exact hok
  next hheld =>
  have hbeing : s.isBeingAdded g = false := by
    unfold holdsGroup at hheld
    rw [Bool.or_eq_true, not_or] at hheld
    exact Bool.eq_false_iff.mpr hheld.2
  refine hok.setGroup rfl rfl nofun (fun h => ?_) nofun fun c hc => (hok.serves c g hc).2.1
  rw [hbeing] at h
  cases h

/-! ## What is added and removed -/

theorem Registered.addNode (hok : Registered s) (hallowed : s.allowed (.addNode n) = true) :
    Registered (s.addNode n) := by
  obtain ⟨⟨_, hnew⟩, hall⟩ : (s.nodeAlive n = true ∧ n ∉ s.weakNodes) ∧
      ∀ g < s.groups, ((s.group g).alive = false ∨ ¬(s.group g).node = n) ∨
        s.isManual g = false ∧ s.isBeingAdded g = false := by
    simpa [allowed] using hallowed
  have hnone (g : Nat) (hlt : g < s.groups) (halive : (s.group g).alive = true)
      (hnode : (s.group g).node = n) : s.isManual g = false ∧ s.isBeingAdded g = false := by
    refine (hall g hlt).resolve_left fun h => h.elim (fun hdead => ?_) fun hne => hne hnode
    rw [halive] at hdead
    cases hdead
  -- no group of the node has been added by hand
  have hno : ¬(s.weakGroupsAssociatedWithExecutorToNodes.any fun e =>
      (s.group e.1).alive && (s.group e.1).node = n) = true := by
    intro hany
    obtain ⟨e, he, hgroup⟩ := List.any_eq_true.mp hany
    obtain ⟨halive, hnode⟩ : (s.group e.1).alive = true ∧ (s.group e.1).node = n := by
      simpa using hgroup
    have hmanual : s.isManual e.1 = true := isManual_iff.mpr ⟨e, he, rfl⟩
    rw [(hnone e.1 (hok.groupLt _ halive) halive hnode).1] at hmanual
    cases hmanual
  unfold OnlyIsolatedExecutor.addNode
  rw [if_neg hno, if_neg hnew]
  refine { hok with
    nodesNodup := ?_
    apart := fun g halive hadded hthru => ?_
    serves := fun c g hc => ?_ }
  · exact List.nodup_append.mpr ⟨hok.nodesNodup, List.nodup_singleton n, fun m hm m' hm' => by
      rintro rfl
      exact hnew (List.mem_singleton.mp hm' ▸ hm)⟩
  · rcases List.mem_append.mp hthru.2 with hmem | hmem
    · exact hok.apart g halive hadded ⟨hthru.1, hmem⟩
    · obtain ⟨hmanual, hbeing⟩ :=
        hnone g (hok.groupLt g halive) halive (List.mem_singleton.mp hmem)
      rcases hadded with hadded | hadded
      · exact absurd hadded (Bool.eq_false_iff.mp hmanual)
      · exact absurd hadded (Bool.eq_false_iff.mp hbeing)
  · obtain ⟨hlt, hset, hauto, hnode⟩ := hok.serves c g hc
    exact ⟨hlt, hset, hauto, List.mem_append_left _ hnode⟩

theorem Registered.addCallbackGroup (hok : Registered s)
    (hallowed : s.allowed (.addCallbackGroup g n) = true) : Registered (s.addCallbackGroup g n) := by
  obtain ⟨⟨⟨⟨⟨halive, hnode⟩, hnodeAlive⟩, hmanual⟩, hbeing⟩, hthru⟩ :
      (((((s.group g).alive = true ∧ (s.group g).node = n) ∧ s.nodeAlive n = true) ∧
        s.isManual g = false) ∧ s.isBeingAdded g = false) ∧
        ((s.group g).automaticallyAddToExecutorWithNode = false ∨ n ∉ s.weakNodes) := by
    simpa [allowed] using hallowed
  have hnot : ¬s.Through g := by
    rintro ⟨hauto, hmem⟩
    refine hthru.elim (fun hmanual => ?_) fun hnew => hnew (hnode ▸ hmem)
    rw [hauto] at hmanual
    cases hmanual
  -- nobody has set the flag
  have hfree : ¬(s.group g).associated = true := by
    intro hset
    rcases hok.flag g halive hset with h | h | ⟨c, hc⟩
    · rw [hmanual] at h
      cases h
    · rw [hbeing] at h
      cases h
    · exact hnot (hok.serves c g hc).2.2
  unfold OnlyIsolatedExecutor.addCallbackGroup
  rw [if_neg hfree]
  have hadded : (s.calls ++ [OnlyCall.addCallbackGroup g n]).filterMap OnlyCall.addedGroup =
      s.calls.filterMap OnlyCall.addedGroup ++ [g] := List.filterMap_append
  have hmem {g' : Nat} : OnlyIsolatedExecutor.isBeingAdded
      { s with calls := s.calls ++ [.addCallbackGroup g n] } g' = true ↔
      s.isBeingAdded g' = true ∨ g' = g := by
    rw [isBeingAdded_iff, isBeingAdded_iff]
    show g' ∈ (s.calls ++ [OnlyCall.addCallbackGroup g n]).filterMap OnlyCall.addedGroup ↔ _
    rw [hadded, List.mem_append, List.mem_singleton]
  have hcalls : Registered { s with calls := s.calls ++ [.addCallbackGroup g n] } := by
    refine { hok with
      callOk := fun g' n' hcall => ?_
      addedOnce := ?_
      noRemove := fun n' hcall => ?_
      apart := fun g' halive' hadded' => ?_
      flag := fun g' halive' hset => ?_ }
    · rcases List.mem_append.mp hcall with hcall | hcall
      · exact hok.callOk g' n' hcall
      · cases List.mem_singleton.mp hcall
        exact ⟨hnodeAlive, halive, hmanual⟩
    · rw [hadded]
      refine List.nodup_append.mpr ⟨hok.addedOnce, List.nodup_singleton g, fun g' hg' x hx => ?_⟩
      rintro rfl
      rw [List.mem_singleton.mp hx, ← isBeingAdded_iff, hbeing] at hg'
      cases hg'
    · rcases List.mem_append.mp hcall with hcall | hcall
      · exact hok.noRemove n' hcall
      · cases List.mem_singleton.mp hcall
    · rcases hadded' with h | h
      · exact hok.apart g' halive' (.inl h)
      · rcases hmem.mp h with h | rfl
        · exact hok.apart g' halive' (.inr h)
        · exact hnot
    · rcases hok.flag g' halive' hset with h | h | h
      · exact .inl h
      · exact .inr (.inl (hmem.mpr (.inl h)))
      · exact .inr (.inr h)
  exact hcalls.setGroup rfl rfl id (fun _ => halive)
    (fun _ _ => .inr (.inl (hmem.mpr (.inr rfl)))) fun _ _ => rfl

theorem Registered.removeCallbackGroup (hok : Registered s)
    (hallowed : s.allowed (.removeCallbackGroup g) = true) :
    Registered (s.removeCallbackGroup g) := by
  obtain ⟨halive, hmanual⟩ : (s.group g).alive = true ∧ s.isManual g = true := by
    simpa [allowed] using hallowed
  have hnot := hok.apart g halive (.inl hmanual)
  have hbeing : ¬s.isBeingAdded g = true := by
    intro h
    rw [(hok.beingAdded h).2.1] at hmanual
    cases hmanual
  have hcleared : Registered (s.setAssociated g false) :=
    hok.setGroup rfl rfl id (fun _ => halive) nofun
      fun c hc => absurd (hok.serves c g hc).2.2 hnot
  unfold OnlyIsolatedExecutor.removeCallbackGroup
  split
  · next hnone =>
    obtain ⟨e, he, heq⟩ := isManual_iff.mp hmanual
    exact absurd (decide_eq_true heq) (List.find?_eq_none.mp hnone e he)
  next e hfind =>
  have hnode : ¬(!s.nodeAlive e.2) = true := by
    simp [hok.manualAlive e (List.mem_of_find?_eq_some hfind)]
  rw [if_neg hnode]
  -- the entries of other groups stay
  have hmem {g' : Nat} : OnlyIsolatedExecutor.isManual { s.setAssociated g false with
      weakGroupsAssociatedWithExecutorToNodes :=
        s.weakGroupsAssociatedWithExecutorToNodes.filter fun e => e.1 ≠ g } g' = true ↔
      s.isManual g' = true ∧ g' ≠ g := by
    rw [isManual_iff, isManual_iff]
    constructor
    · rintro ⟨e, he, rfl⟩
      obtain ⟨he, hne⟩ := List.mem_filter.mp he
      exact ⟨⟨e, he, rfl⟩, of_decide_eq_true hne⟩
    · rintro ⟨⟨e, he, rfl⟩, hne⟩
      exact ⟨e, List.mem_filter.mpr ⟨he, decide_eq_true hne⟩, rfl⟩
  refine { hcleared with
    manualLt := fun g' h => hok.manualLt g' (hmem.mp h).1
    manualAlive := fun e he => hok.manualAlive e (List.mem_filter.mp he).1
    callOk := fun g' n hcall => ?_
    apart := fun g' halive' hadded => ?_
    flag := fun g' halive' hset => ?_ }
  · obtain ⟨hn, halive', hmanual'⟩ := hcleared.callOk g' n hcall
    refine ⟨hn, halive', Bool.eq_false_iff.mpr fun h => ?_⟩
    exact absurd (hmem.mp h).1 (Bool.eq_false_iff.mp hmanual')
  · exact hcleared.apart g' halive' (hadded.imp_left fun h => (hmem.mp h).1)
  · by_cases heq : g' = g
    · subst heq
      change ((s.setGroup g' _).group g').associated = true at hset
      rw [setGroup_group, if_pos rfl] at hset
      cases hset
    · exact (hcleared.flag g' halive' hset).imp_left fun h => hmem.mpr ⟨h, heq⟩

/-- The calls without one of them. -/
private theorem perm_of_call {k : Nat} {call : OnlyCall} (hk : s.calls[k]? = some call) :
    s.calls.Perm (call :: s.calls.eraseIdx k) := by
  obtain ⟨hlt, rfl⟩ := List.getElem?_eq_some_iff.mp hk
  exact (List.getElem_cons_eraseIdx_perm hlt).symm

theorem Registered.advance_add (hok : Registered s) {k : Nat}
    (hk : s.calls[k]? = some (.addCallbackGroup g n)) : Registered (s.advance k) := by
  have hperm := perm_of_call hk
  have hcall : OnlyCall.addCallbackGroup g n ∈ s.calls := List.mem_of_getElem? hk
  obtain ⟨hnode, halive, hmanual⟩ := hok.callOk g n hcall
  have hadded : (g :: (s.calls.eraseIdx k).filterMap OnlyCall.addedGroup).Nodup :=
    (hperm.filterMap OnlyCall.addedGroup).nodup_iff.mp hok.addedOnce
  unfold OnlyIsolatedExecutor.advance
  rw [hk]
  dsimp only
  split
  · exact hok
  rw [if_neg (Bool.eq_false_iff.mp hmanual)]
  -- the group changes from one list to the other
  have hmem {g' : Nat} : OnlyIsolatedExecutor.isManual { s with
      calls := s.calls.eraseIdx k
      weakGroupsAssociatedWithExecutorToNodes :=
        s.weakGroupsAssociatedWithExecutorToNodes ++ [(g, n)] } g' = true ↔
      s.isManual g' = true ∨ g' = g := by
    unfold OnlyIsolatedExecutor.isManual
    rw [List.any_append, Bool.or_eq_true, List.any_cons, List.any_nil, Bool.or_false,
      decide_eq_true_iff]
    exact or_congr_right ⟨Eq.symm, Eq.symm⟩
  have hbeing {g' : Nat} : OnlyIsolatedExecutor.isBeingAdded { s with
      calls := s.calls.eraseIdx k
      weakGroupsAssociatedWithExecutorToNodes :=
        s.weakGroupsAssociatedWithExecutorToNodes ++ [(g, n)] } g' = true ↔
      s.isBeingAdded g' = true ∧ g' ≠ g := by
    rw [isBeingAdded_iff, isBeingAdded_iff, (hperm.filterMap OnlyCall.addedGroup).mem_iff]
    show g' ∈ (s.calls.eraseIdx k).filterMap OnlyCall.addedGroup ↔
      g' ∈ g :: (s.calls.eraseIdx k).filterMap OnlyCall.addedGroup ∧ g' ≠ g
    rw [List.mem_cons]
    constructor
    · intro h
      exact ⟨.inr h, fun heq => (List.nodup_cons.mp hadded).1 (heq ▸ h)⟩
    · rintro ⟨h, hne⟩
      exact h.resolve_left hne
  refine { hok with
    manualLt := fun g' h => ?_
    manualAlive := fun e he => ?_
    callOk := fun g' n' h => ?_
    addedOnce := (List.nodup_cons.mp hadded).2
    noRemove := fun n' h => hok.noRemove n' ((List.eraseIdx_sublist ..).subset h)
    apart := fun g' halive' h => hok.apart g' halive' ?_
    flag := fun g' halive' hset => ?_ }
  · rcases hmem.mp h with h | rfl
    · exact hok.manualLt g' h
    · exact hok.groupLt g' halive
  · rcases List.mem_append.mp he with he | he
    · exact hok.manualAlive e he
    · rw [List.mem_singleton.mp he]
      exact hnode
  · obtain ⟨hn, halive', hmanual'⟩ := hok.callOk g' n' ((List.eraseIdx_sublist ..).subset h)
    refine ⟨hn, halive', Bool.eq_false_iff.mpr fun hm => ?_⟩
    have hne : g' ≠ g := by
      rintro rfl
      exact (List.nodup_cons.mp hadded).1 (List.mem_filterMap.mpr ⟨_, h, rfl⟩)
    exact absurd ((hmem.mp hm).resolve_right hne) (Bool.eq_false_iff.mp hmanual')
  · rcases h with h | h
    · rcases hmem.mp h with h | rfl
      · exact .inl h
      · exact .inr (isBeingAdded_iff.mpr (mem_addedGroup.mpr ⟨n, hcall⟩))
    · exact .inr (hbeing.mp h).1
  · rcases hok.flag g' halive' hset with h | h | h
    · exact .inl (hmem.mpr (.inl h))
    · by_cases heq : g' = g
      · exact .inl (hmem.mpr (.inr heq))
      · exact .inr (.inl (hbeing.mpr ⟨h, heq⟩))
    · exact .inr (.inr h)

/-! ## The children -/

@[simp] theorem setChild_child {x : OnlyChild} {c' : Nat} :
    (s.setChild c x).child c' = if c' = c then x else s.child c' :=
  Function.update_apply ..

/-- A child changes, but not the group that it serves. -/
theorem serves_setChild {x : OnlyChild} (hgroup : x.group = (s.child c).group)
    (hstage : x.stage = .finished ↔ (s.child c).stage = .finished) (c' g : Nat) :
    (s.setChild c x).Serves c' g ↔ s.Serves c' g := by
  unfold Serves
  rw [setChild_child]
  split
  · next heq =>
    subst heq
    rw [hgroup, ne_eq, hstage]
    rfl
  · rfl

theorem SameRegistry.refl (s : OnlyIsolatedExecutor) : SameRegistry s s :=
  ⟨rfl, rfl, rfl, rfl, rfl, rfl, rfl, rfl, fun _ h => .inl h, fun _ _ => .rfl⟩

theorem SameRegistry.setChild {x : OnlyChild} (hgroup : x.group = (s.child c).group)
    (hstage : x.stage = .finished ↔ (s.child c).stage = .finished) :
    SameRegistry s (s.setChild c x) :=
  ⟨rfl, rfl, rfl, rfl, rfl, rfl, rfl, rfl, fun _ h => .inl h, serves_setChild hgroup hstage⟩

theorem SameRegistry.trans {s'' : OnlyIsolatedExecutor} (h : SameRegistry s s')
    (h' : SameRegistry s' s'') : SameRegistry s s'' where
  exited := h'.exited.trans h.exited
  nodes := h'.nodes.trans h.nodes
  nodeAlive := h'.nodeAlive.trans h.nodeAlive
  groups := h'.groups.trans h.groups
  group := h'.group.trans h.group
  manual := h'.manual.trans h.manual
  weakNodes := h'.weakNodes.trans h.weakNodes
  added := h'.added.trans h.added
  calls call hcall := (h'.calls call hcall).elim (h.calls call) .inr
  serves c g := (h'.serves c g).trans (h.serves c g)

theorem SameRegistry.cancelChild (c : Nat) : SameRegistry s (s.cancelChild c) := by
  unfold OnlyIsolatedExecutor.cancelChild
  split
  · exact .refl s
  · exact .setChild rfl .rfl

theorem SameRegistry.cancelChildren : SameRegistry s s.cancelChildren := by
  have hall (l : List Nat) (s : OnlyIsolatedExecutor) :
      SameRegistry s (l.foldl OnlyIsolatedExecutor.cancelChild s) := by
    induction l generalizing s with
    | nil => exact .refl s
    | cons c l ih => exact (SameRegistry.cancelChild c).trans (ih _)
  exact hall s.weakChildExecutors s

section setAssociated

variable {b : Bool} {g' : Nat}

@[simp] theorem setAssociated_alive :
    ((s.setAssociated g b).group g').alive = (s.group g').alive := by
  unfold setAssociated
  rw [setGroup_group]
  split
  · next h => rw [h]
  · rfl

@[simp] theorem setAssociated_node :
    ((s.setAssociated g b).group g').node = (s.group g').node := by
  unfold setAssociated
  rw [setGroup_group]
  split
  · next h => rw [h]
  · rfl

@[simp] theorem setAssociated_auto :
    ((s.setAssociated g b).group g').automaticallyAddToExecutorWithNode =
      (s.group g').automaticallyAddToExecutorWithNode := by
  unfold setAssociated
  rw [setGroup_group]
  split
  · next h => rw [h]
  · rfl

theorem setAssociated_associated :
    ((s.setAssociated g b).group g').associated = if g' = g then b else (s.group g').associated := by
  unfold setAssociated
  rw [setGroup_group]
  split <;> rfl

@[simp] theorem setAssociated_through : (s.setAssociated g b).Through g' ↔ s.Through g' := by
  unfold Through
  rw [setAssociated_auto, setAssociated_node]
  rfl

@[simp] theorem serves_setAssociated : (s.setAssociated g b).Serves c g' ↔ s.Serves c g' :=
  .rfl

end setAssociated

/-- A child that has ended serves nothing. -/
theorem serves_finish {x : OnlyChild} (hstage : x.stage = .finished) {c' g : Nat} :
    (s.setChild c x).Serves c' g ↔ s.Serves c' g ∧ c' ≠ c := by
  unfold Serves
  rw [setChild_child]
  split
  · next heq => exact ⟨fun h => absurd hstage h.2.1, fun h => absurd heq h.2⟩
  · next hne => exact ⟨fun h => ⟨h, hne⟩, And.left⟩

/-- A flag changes with what the children serve, and says what it should. -/
theorem Registered.setFlag (hok : Registered s) {b : Bool}
    (heq : s' = { s.setAssociated g b with
      children := s'.children
      child := s'.child
      weakChildExecutors := s'.weakChildExecutors
      childThreads := s'.childThreads
      spin := s'.spin })
    (hflag : ∀ g', (s.group g').alive = true → (if g' = g then b else (s.group g').associated) = true →
      s.isManual g' = true ∨ s.isBeingAdded g' = true ∨ ∃ c, s'.Serves c g')
    (hserves : ∀ c g', s'.Serves c g' → g' < s.groups ∧
      (if g' = g then b else (s.group g').associated) = true ∧ s.Through g')
    (honce : ∀ g c c', s'.Serves c g → s'.Serves c' g → c = c') : Registered s' := by
  -- nothing of the registry but the flag is different
  obtain ⟨hmanual, hbeing, hthru, hassociated⟩ :
      (∀ g', s'.isManual g' = s.isManual g') ∧ (∀ g', s'.isBeingAdded g' = s.isBeingAdded g') ∧
      (∀ g', s'.Through g' ↔ s.Through g') ∧
      ∀ g', (s'.group g').associated = if g' = g then b else (s.group g').associated := by
    rw [heq]
    exact ⟨fun _ => rfl, fun _ => rfl, fun _ => setAssociated_through,
      fun _ => setAssociated_associated⟩
  have halive (g' : Nat) : (s'.group g').alive = (s.group g').alive := by
    rw [heq]
    exact setAssociated_alive
  have hnode (g' : Nat) : (s'.group g').node = (s.group g').node := by
    rw [heq]
    exact setAssociated_node
  obtain ⟨hexited, hnodes, hnodeAlive, hgroups, hentries, hweak, hcalls⟩ :
      s'.exited = s.exited ∧ s'.nodes = s.nodes ∧ s'.nodeAlive = s.nodeAlive ∧
      s'.groups = s.groups ∧ s'.weakGroupsAssociatedWithExecutorToNodes =
        s.weakGroupsAssociatedWithExecutorToNodes ∧
      s'.weakNodes = s.weakNodes ∧ s'.calls = s.calls := by
    rw [heq]
    exact ⟨rfl, rfl, rfl, rfl, rfl, rfl, rfl⟩
  exact
    { exited := hexited.trans hok.exited
      nodeLt := hnodeAlive ▸ hnodes ▸ hok.nodeLt
      groupLt := fun g' h => hgroups ▸ hok.groupLt g' (halive g' ▸ h)
      groupNode := fun g' h => by
        rw [hnode, hnodes]
        exact hok.groupNode g' (halive g' ▸ h)
      nodesNodup := hweak ▸ hok.nodesNodup
      manualLt := fun g' h => hgroups ▸ hok.manualLt g' (hmanual g' ▸ h)
      manualAlive := hnodeAlive ▸ hentries ▸ hok.manualAlive
      callOk := fun g' n hmem => by
        rw [hnodeAlive, halive, hmanual]
        exact hok.callOk g' n (hcalls ▸ hmem)
      addedOnce := hcalls ▸ hok.addedOnce
      noRemove := hcalls ▸ hok.noRemove
      apart := fun g' h hadded => by
        rw [hmanual, hbeing] at hadded
        exact (hthru g').not.mpr (hok.apart g' (halive g' ▸ h) hadded)
      flag := fun g' h hset => by
        rw [hmanual, hbeing]
        exact hflag g' (halive g' ▸ h) (hassociated g' ▸ hset)
      serves := fun c g' h => by
        rw [hgroups, hassociated, hthru]
        exact hserves c g' h
      once := honce }

/-- **A child that ends** clears the flag of its group: no other child serves it. -/
theorem Registered.childStep (hok : Registered s)
    (hstarted : ∀ c, (s.child c).stage = .started → (s.child c).spinning = false)
    (hbeyond : ∀ c, s.children ≤ c → (s.child c).stage = .finished) (c : Nat) :
    Registered (s.childStep c) := by
  unfold OnlyIsolatedExecutor.childStep
  split
  · next hstage =>
    rw [if_neg (Bool.eq_false_iff.mp (hstarted c hstage))]
    exact hok.of_same (.setChild rfl (by simp [hstage]))
  · next hstage =>
    split
    · exact hok
    have hc : s.Serves c (s.child c).group := by
      refine ⟨Nat.lt_of_not_le fun hle => ?_, by simp [hstage], rfl⟩
      rw [hbeyond c hle] at hstage
      cases hstage
    have hfinish {c' g : Nat} : ((s.setChild c { s.child c with
        stage := .finished, spinning := false }).setAssociated
          (s.child c).group false).Serves c' g ↔ s.Serves c' g ∧ c' ≠ c :=
      serves_setAssociated.trans (serves_finish rfl)
    refine hok.setFlag rfl (fun g halive hset => ?_) (fun c' g h => ?_)
      fun g c₁ c₂ h₁ h₂ => hok.once g c₁ c₂ (hfinish.mp h₁).1 (hfinish.mp h₂).1
    · split at hset
      · cases hset
      next hne =>
      rcases hok.flag g halive hset with hmanual | hbeing | ⟨c', hc'⟩
      · exact .inl hmanual
      · exact .inr (.inl hbeing)
      · refine .inr (.inr ⟨c', hfinish.mpr ⟨hc', ?_⟩⟩)
        rintro rfl
        exact hne hc'.2.2.symm
    · obtain ⟨hc', hne⟩ := hfinish.mp h
      -- another child serves another group
      have hother : g ≠ (s.child c).group := fun heq => hne (hok.once g c' c hc' (heq ▸ hc))
      rw [if_neg hother]
      exact hok.serves c' g hc'
  · exact hok

section spawn

variable {monitor : Bool} {left : List Nat}

/-- What a new child is given. -/
theorem spawnChildExecutor_eq (hfree : (s.group g).associated = false) :
    s.spawnChildExecutor monitor g left =
      { (s.setAssociated g true).setChild s.children ⟨g, .started, false, false⟩ with
        children := s.children + 1
        weakChildExecutors := s.weakChildExecutors ++ [s.children]
        childThreads := s.childThreads ++ [s.children]
        spin := .spawning monitor left } :=
  if_neg (Bool.eq_false_iff.mp hfree)

theorem serves_spawn (hfree : (s.group g).associated = false) {g' : Nat} :
    (s.spawnChildExecutor monitor g left).Serves c g' ↔
      s.Serves c g' ∨ c = s.children ∧ g' = g := by
  rw [spawnChildExecutor_eq hfree]
  unfold Serves
  show c < s.children + 1 ∧ (Function.update s.child s.children _ c).stage ≠ _ ∧
    (Function.update s.child s.children _ c).group = g' ↔ _
  rw [Function.update_apply]
  split
  · next heq =>
    subst heq
    constructor
    · rintro ⟨_, _, rfl⟩
      exact .inr ⟨rfl, rfl⟩
    · rintro (h | ⟨_, rfl⟩)
      · exact absurd h.1 (Nat.lt_irrefl _)
      · exact ⟨Nat.lt_succ_self _, nofun, rfl⟩
  · next hne =>
    constructor
    · rintro ⟨hlt, h⟩
      exact .inl ⟨Nat.lt_of_le_of_ne (Nat.le_of_lt_succ hlt) hne, h⟩
    · rintro (⟨hlt, h⟩ | h)
      · exact ⟨Nat.lt_succ_of_lt hlt, h⟩
      · exact absurd h.1 hne

/-- **A spawned child** serves a group whose flag was clear, so that no other child does. -/
theorem Registered.spawnChildExecutor (hok : Registered s)
    (halive : (s.group g).alive = true) (hthru : s.Through g)
    (hfree : (s.group g).associated = false) :
    Registered (s.spawnChildExecutor monitor g left) := by
  have hnone (c : Nat) : ¬s.Serves c g := fun hc => by
    rw [(hok.serves c g hc).2.1] at hfree
    cases hfree
  refine hok.setFlag (by rw [spawnChildExecutor_eq hfree]; rfl) (fun g' halive' hset => ?_)
    (fun c g' h => ?_) fun g' c c' h h' => ?_
  · split at hset
    · next heq => exact .inr (.inr ⟨s.children, (serves_spawn hfree).mpr (.inr ⟨rfl, heq⟩)⟩)
    · rcases hok.flag g' halive' hset with hmanual | hbeing | ⟨c, hc⟩
      · exact .inl hmanual
      · exact .inr (.inl hbeing)
      · exact .inr (.inr ⟨c, (serves_spawn hfree).mpr (.inl hc)⟩)
  · rcases (serves_spawn hfree).mp h with hc | ⟨_, rfl⟩
    · have hne : g' ≠ g := fun heq => hnone c (heq ▸ hc)
      rw [if_neg hne]
      exact hok.serves c g' hc
    · rw [if_pos rfl]
      exact ⟨hok.groupLt g' halive, rfl, hthru⟩
  · rcases (serves_spawn hfree).mp h with hc | ⟨rfl, rfl⟩ <;>
      rcases (serves_spawn hfree).mp h' with hc' | ⟨rfl, heq⟩
    · exact hok.once g' c c' hc hc'
    · exact absurd (heq ▸ hc) (hnone c)
    · exact absurd hc' (hnone c')
    · rfl

end spawn

end OnlyIsolatedExecutor

end Agnocast
