import Mathlib.Data.List.Nodup
import Mathlib.Data.List.Perm.Basic
import Agnocast.Agnocastlib.IsolatedExecutor

/-!
# The bridge manager — its executor

The bridge manager runs its bridges on a `CallbackIsolatedAgnocastExecutor`. It adds the callback
groups of a bridge by hand and removes and stops them when the bridge goes. A group that is added
twice, or removed without being there, makes the executor exit the process.

* `GroupRegistry`  — the groups that were added by hand, and the calls so far.
* `Holds`          — these groups and no others, and every group of the past is removed and stopped.
* `Holds.addIfPresent`, `Holds.removeAndStop` — what the manager does keeps that.
* `groupRegistry_addCallbackGroup`, `groupRegistry_removeCallbackGroup` — the registry of the
  executor's own model.

A function is `none` when the process exits.
-/

namespace Agnocast

/-- A call of the manager. -/
inductive GroupCall
  | add (g : Nat)
  | remove (g : Nat)
  | stop (g : Nat)
  deriving DecidableEq, Repr

def GroupCall.group : GroupCall → Nat
  | .add g | .remove g | .stop g => g

/-- `weak_groups_to_nodes_`, the groups that a node of the executor has added already, and the
calls, newest first. -/
structure GroupRegistry where
  addedWithNode : Nat → Bool
  groups : List Nat
  calls : List GroupCall

namespace GroupRegistry

variable (x : GroupRegistry)

def addCallbackGroup (g : Nat) : Option GroupRegistry :=
  if x.addedWithNode g then none
  else if g ∈ x.groups then none
  else some { x with groups := x.groups ++ [g], calls := .add g :: x.calls }

def removeCallbackGroup (g : Nat) : Option GroupRegistry :=
  if g ∈ x.groups then
    some { x with groups := x.groups.erase g, calls := .remove g :: x.calls }
  else none

/-- `stop_callback_group`, as far as the registry goes. -/
def stopCallbackGroup (g : Nat) : GroupRegistry := { x with calls := .stop g :: x.calls }

/-- `if (group) { add_callback_group(group) }`. -/
def addIfPresent : Option Nat → Option GroupRegistry
  | none => some x
  | some g => x.addCallbackGroup g

/-- `if (group) { remove_callback_group(group); stop_callback_group(group) }`. -/
def removeAndStop : Option Nat → Option GroupRegistry
  | none => some x
  | some g => (x.removeCallbackGroup g).map fun x => x.stopCallbackGroup g

/-! ## Every group is removed and stopped -/

/-- The calls on a group that was added, removed and stopped `k` times. -/
def rounds (g : Nat) : Nat → List GroupCall
  | 0 => []
  | k + 1 => .stop g :: .remove g :: .add g :: rounds g k

/-- The calls on a group. -/
def callsOn (g : Nat) (calls : List GroupCall) : List GroupCall :=
  calls.filter fun c => c.group = g

theorem callsOn_cons (g : Nat) (c : GroupCall) (calls : List GroupCall) :
    callsOn g (c :: calls) = if c.group = g then c :: callsOn g calls else callsOn g calls := by
  unfold callsOn
  rw [List.filter_cons]
  simp

/-- **Every group** was added, removed and stopped in turn, and is added once more if it is
there. -/
def Balanced : Prop :=
  ∀ g, ∃ k, callsOn g x.calls = (if g ∈ x.groups then [.add g] else []) ++ rounds g k

/-- The groups are `held`, each once. -/
structure Holds (held : List Nat) : Prop where
  perm : x.groups.Perm held
  nodup : x.groups.Nodup
  balanced : x.Balanced

variable {x} {x' : GroupRegistry} {held held' : List Nat} {g : Nat} {group : Option Nat}

theorem Holds.empty (addedWithNode : Nat → Bool) :
    (GroupRegistry.mk addedWithNode [] []).Holds [] :=
  ⟨.nil, .nil, fun _ => ⟨0, rfl⟩⟩

theorem Holds.of_perm (h : x.Holds held) (hp : held.Perm held') : x.Holds held' :=
  { h with perm := h.perm.trans hp }

theorem Holds.mem_iff (h : x.Holds held) : g ∈ x.groups ↔ g ∈ held := h.perm.mem_iff

/-- What `add_callback_group` does, unless the process exits. -/
theorem addCallbackGroup_eq_some (h : x.addCallbackGroup g = some x') :
    x.addedWithNode g = false ∧ g ∉ x.groups ∧
      x' = { x with groups := x.groups ++ [g], calls := .add g :: x.calls } := by
  unfold addCallbackGroup at h
  split at h
  · cases h
  next hnode =>
  split at h
  · cases h
  next hnew => exact ⟨by simpa using hnode, hnew, (Option.some.inj h).symm⟩

theorem Holds.addCallbackGroup (h : x.Holds held) (hadd : x.addCallbackGroup g = some x') :
    x'.Holds (g :: held) := by
  obtain ⟨-, hnew, rfl⟩ := addCallbackGroup_eq_some hadd
  refine ⟨?_, ?_, fun g' => ?_⟩
  · exact List.perm_append_comm.trans (h.perm.cons g)
  · exact List.nodup_append'.mpr ⟨h.nodup, List.nodup_singleton _,
      List.disjoint_singleton.mpr hnew⟩
  · obtain ⟨k, hk⟩ := h.balanced g'
    refine ⟨k, ?_⟩
    rw [callsOn_cons, hk]
    by_cases hg : g = g'
    · subst hg
      simp [GroupCall.group, hnew]
    · simp [GroupCall.group, hg, Ne.symm hg]

/-- A group that is there is removed and stopped, and the process does not exit. -/
theorem removeAndStop_of_mem (hmem : g ∈ x.groups) :
    x.removeAndStop (some g) =
      some { x with groups := x.groups.erase g, calls := .stop g :: .remove g :: x.calls } := by
  show (x.removeCallbackGroup g).map _ = _
  unfold removeCallbackGroup
  rw [if_pos hmem]
  rfl

private theorem holds_removed (h : x.Holds (g :: held)) :
    (GroupRegistry.mk x.addedWithNode (x.groups.erase g)
      (.stop g :: .remove g :: x.calls)).Holds held := by
  have hmem : g ∈ x.groups := h.mem_iff.mpr List.mem_cons_self
  refine ⟨?_, h.nodup.erase g, fun g' => ?_⟩
  · have hperm := h.perm.erase g
    rwa [List.erase_cons_head] at hperm
  · obtain ⟨k, hk⟩ := h.balanced g'
    by_cases hg : g = g'
    · -- one more round
      subst hg
      refine ⟨k + 1, ?_⟩
      rw [if_pos hmem] at hk
      rw [callsOn_cons, callsOn_cons, hk, if_neg h.nodup.not_mem_erase]
      simp [GroupCall.group, rounds]
    · refine ⟨k, ?_⟩
      rw [callsOn_cons, callsOn_cons, hk]
      simp [GroupCall.group, hg, List.mem_erase_of_ne (Ne.symm hg)]

/-! ## What the manager does -/

/-- The groups that a bridge may have. -/
theorem Holds.addIfPresent (h : x.Holds held) (hadd : x.addIfPresent group = some x') :
    x'.Holds (group.toList ++ held) := by
  cases group with
  | none =>
    obtain rfl := Option.some.inj hadd
    exact h
  | some g => exact h.addCallbackGroup hadd

/-- **The group of a bridge is removed and stopped**; the process does not exit. -/
theorem Holds.removeAndStop (h : x.Holds (group.toList ++ held)) :
    ∃ x', x.removeAndStop group = some x' ∧ x'.Holds held ∧
      x'.calls = group.toList.flatMap (fun g => [.stop g, .remove g]) ++ x.calls := by
  cases group with
  | none => exact ⟨x, rfl, h, rfl⟩
  | some g =>
    exact ⟨_, removeAndStop_of_mem (h.mem_iff.mpr List.mem_cons_self), holds_removed h, rfl⟩

/-- The process exits when the group is there already, or its node has added it. -/
theorem addIfPresent_eq_none (h : x.addIfPresent group = none) :
    ∃ g, group = some g ∧ (x.addedWithNode g = true ∨ g ∈ x.groups) := by
  cases group with
  | none => cases h
  | some g =>
    refine ⟨g, rfl, ?_⟩
    by_contra hno
    rw [not_or] at hno
    have h : x.addCallbackGroup g = none := h
    unfold GroupRegistry.addCallbackGroup at h
    rw [if_neg hno.1, if_neg hno.2] at h
    cases h

theorem mem_of_addIfPresent (h : x.addIfPresent group = some x') (hmem : g ∈ x'.groups) :
    g ∈ x.groups ∨ group = some g := by
  cases group with
  | none =>
    obtain rfl := Option.some.inj h
    exact .inl hmem
  | some g' =>
    obtain ⟨-, -, rfl⟩ := addCallbackGroup_eq_some h
    rcases List.mem_append.mp hmem with hmem | hmem
    · exact .inl hmem
    · exact .inr (congrArg some (List.mem_singleton.mp hmem).symm)

theorem addIfPresent_addedWithNode (h : x.addIfPresent group = some x') :
    x'.addedWithNode = x.addedWithNode := by
  cases group with
  | none =>
    obtain rfl := Option.some.inj h
    rfl
  | some g =>
    obtain ⟨-, -, rfl⟩ := addCallbackGroup_eq_some h
    rfl

theorem addIfPresent_calls (h : x.addIfPresent group = some x') :
    x'.calls = group.toList.map .add ++ x.calls := by
  cases group with
  | none =>
    obtain rfl := Option.some.inj h
    rfl
  | some g =>
    obtain ⟨-, -, rfl⟩ := addCallbackGroup_eq_some h
    rfl

end GroupRegistry

/-! ## The executor's own model -/

namespace IsolatedExecutor

variable (s : IsolatedExecutor)

/-- The registry of the executor, for a caller that has made these calls. -/
def groupRegistry (calls : List GroupCall) : GroupRegistry where
  addedWithNode g := (s.group g).automaticallyAddToExecutorWithNode &&
    s.weakNodes.any fun m => s.nodeAlive m && s.callbackGroupInNode m g
  groups := s.weakGroupsToNodes.map Prod.fst
  calls := calls

private theorem any_fst_iff {l : List (Nat × Nat)} {g : Nat} :
    (l.any fun e => e.1 = g) = true ↔ g ∈ l.map Prod.fst := by
  rw [List.any_eq_true, List.mem_map]
  simp

/-- `add_callback_group` of the executor, seen by the manager. -/
theorem groupRegistry_addCallbackGroup (hrun : s.exited = false) (calls : List GroupCall)
    (g n : Nat) :
    (s.groupRegistry calls).addCallbackGroup g =
      if (s.addCallbackGroup g n).exited then none
      else some ((s.addCallbackGroup g n).groupRegistry (.add g :: calls)) := by
  unfold GroupRegistry.addCallbackGroup addCallbackGroup
  have hmem : g ∈ (s.groupRegistry calls).groups ↔
      (s.weakGroupsToNodes.any fun e => e.1 = g) = true := any_fst_iff.symm
  by_cases hnode : ((s.group g).automaticallyAddToExecutorWithNode &&
      s.weakNodes.any fun m => s.nodeAlive m && s.callbackGroupInNode m g) = true
  · have hadded : (s.groupRegistry calls).addedWithNode g = true := hnode
    rw [if_pos hadded, if_pos hnode]
    rfl
  · have hadded : ¬ (s.groupRegistry calls).addedWithNode g = true := hnode
    rw [if_neg hadded, if_neg hnode]
    by_cases hin : (s.weakGroupsToNodes.any fun e => e.1 = g) = true
    · rw [if_pos (hmem.mpr hin), if_pos hin]
      rfl
    · rw [if_neg fun h => hin (hmem.mp h), if_neg hin, if_neg (by simp [hrun])]
      simp [groupRegistry, callbackGroupInNode]

/-- `remove_callback_group` of the executor, seen by the manager. -/
theorem groupRegistry_removeCallbackGroup (hrun : s.exited = false)
    (hnodup : (s.weakGroupsToNodes.map Prod.fst).Nodup) (calls : List GroupCall) (g : Nat) :
    (s.groupRegistry calls).removeCallbackGroup g =
      if (s.removeCallbackGroup g).2.exited then none
      else some ((s.removeCallbackGroup g).2.groupRegistry (.remove g :: calls)) := by
  unfold GroupRegistry.removeCallbackGroup removeCallbackGroup
  have hmem : g ∈ (s.groupRegistry calls).groups ↔
      (s.weakGroupsToNodes.any fun e => e.1 = g) = true := any_fst_iff.symm
  by_cases hin : (s.weakGroupsToNodes.any fun e => e.1 = g) = true
  · rw [if_pos (hmem.mpr hin), if_pos hin]
    have herase : (s.weakGroupsToNodes.map Prod.fst).erase g =
        (s.weakGroupsToNodes.filter fun e => e.1 ≠ g).map Prod.fst := by
      rw [hnodup.erase_eq_filter, List.filter_map]
      congr 1
      refine List.filter_congr fun e _ => ?_
      by_cases he : e.1 = g <;> simp [he]
    simp [groupRegistry, callbackGroupInNode, hrun, herase]
  · rw [if_neg fun h => hin (hmem.mp h), if_neg hin]
    rfl

end IsolatedExecutor

end Agnocast
