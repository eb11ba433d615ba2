import Mathlib.Algebra.Group.Nat.Defs
import Mathlib.Data.Finset.Basic
import Mathlib.Data.List.Forall2
import Mathlib.Data.List.Nodup
import Mathlib.Data.List.Perm.Basic

/-!
# Keyed tables in iteration order

A chained hash table seen through the order in which a full iteration visits its
nodes: a list. Where a new node lands in that order is decided by the hash
function, so `hashAdd` takes the place as an argument and every fact about it is
independent of the place (`hashAdd_perm`). Nodes are looked up, changed and
removed by a key; what a lookup finds is determined as soon as the keys are
pairwise distinct (`lookup_eq_some_iff`).
-/

namespace HTable

variable {α κ β : Type*}

/-- What stands on the right of a relation between two lists stands for something on the left. -/
theorem exists_of_forall₂ {R : α → β → Prop} {l : List α} {l' : List β} (h : List.Forall₂ R l l')
    {b : β} (hb : b ∈ l') : ∃ a ∈ l, R a b := by
  induction h with
  | nil => cases hb
  | cons hr _ ih =>
    rcases List.mem_cons.mp hb with rfl | hb
    · exact ⟨_, List.mem_cons_self, hr⟩
    · obtain ⟨a, ha, hr⟩ := ih hb
      exact ⟨a, List.mem_cons_of_mem _ ha, hr⟩

/-- Tables that agree in what `f` shows of their nodes have corresponding nodes. -/
theorem exists_of_map_eq {f : α → β} {l l' : List α} (h : l'.map f = l.map f) {a' : α}
    (ha' : a' ∈ l') : ∃ a ∈ l, f a = f a' :=
  List.mem_map.mp (h ▸ List.mem_map_of_mem ha')

/-! ## Adding a node -/

/-- Link a node at a place of the iteration order (clipped to its end). -/
def hashAdd (place : Nat) (l : List α) (a : α) : List α :=
  l.insertIdx (min place l.length) a

theorem hashAdd_perm (place : Nat) (l : List α) (a : α) : (hashAdd place l a).Perm (a :: l) :=
  List.perm_insertIdx a l (Nat.min_le_right ..)

@[simp] theorem mem_hashAdd {place : Nat} {l : List α} {a b : α} :
    b ∈ hashAdd place l a ↔ b = a ∨ b ∈ l := by
  rw [(hashAdd_perm place l a).mem_iff, List.mem_cons]

@[simp] theorem length_hashAdd (place : Nat) (l : List α) (a : α) :
    (hashAdd place l a).length = l.length + 1 := by
  rw [(hashAdd_perm place l a).length_eq, List.length_cons]

theorem nodup_map_hashAdd {place : Nat} {l : List α} {a : α} {f : α → β} :
    ((hashAdd place l a).map f).Nodup ↔ f a ∉ l.map f ∧ (l.map f).Nodup := by
  rw [((hashAdd_perm place l a).map f).nodup_iff, List.map_cons, List.nodup_cons]

theorem countP_hashAdd (place : Nat) (l : List α) (a : α) (p : α → Bool) :
    (hashAdd place l a).countP p = l.countP p + if p a then 1 else 0 := by
  rw [(hashAdd_perm place l a).countP_eq, List.countP_cons]

/-! ## Looking a node up -/

variable [DecidableEq κ] {key : α → κ}

/-- The first node whose key is `k`. -/
def lookup (key : α → κ) (k : κ) (l : List α) : Option α := l.find? fun a => key a = k

theorem mem_of_lookup {k : κ} {l : List α} {a : α} (h : lookup key k l = some a) :
    a ∈ l ∧ key a = k :=
  ⟨List.mem_of_find?_eq_some h, by simpa using List.find?_some h⟩

theorem lookup_eq_none_iff {k : κ} {l : List α} : lookup key k l = none ↔ ∀ a ∈ l, key a ≠ k := by
  simp [lookup]

theorem lookup_isSome_iff {k : κ} {l : List α} :
    (lookup key k l).isSome ↔ ∃ a ∈ l, key a = k := by
  simp [lookup]

omit [DecidableEq κ] in
/-- Nodes with distinct keys are equal as soon as their keys are. -/
theorem eq_of_key_eq {l : List α} (hnd : (l.map key).Nodup) {a b : α} (ha : a ∈ l) (hb : b ∈ l)
    (h : key a = key b) : a = b :=
  List.inj_on_of_nodup_map hnd ha hb h

theorem lookup_eq_some_iff {k : κ} {l : List α} (hnd : (l.map key).Nodup) {a : α} :
    lookup key k l = some a ↔ a ∈ l ∧ key a = k := by
  refine ⟨mem_of_lookup, fun ⟨ha, hk⟩ => ?_⟩
  cases hb : lookup key k l with
  | none => exact absurd hk (lookup_eq_none_iff.mp hb a ha)
  | some b =>
    obtain ⟨hbl, hbk⟩ := mem_of_lookup hb
    rw [eq_of_key_eq hnd hbl ha (hbk.trans hk.symm)]

theorem lookup_self {l : List α} (hnd : (l.map key).Nodup) {a : α} (ha : a ∈ l) :
    lookup key (key a) l = some a :=
  (lookup_eq_some_iff hnd).mpr ⟨ha, rfl⟩

/-- Tables with distinct keys and the same nodes of a key find the same there. -/
theorem lookup_congr {l l' : List α} (hnd : (l.map key).Nodup) (hnd' : (l'.map key).Nodup) {k : κ}
    (h : ∀ a, key a = k → (a ∈ l ↔ a ∈ l')) : lookup key k l = lookup key k l' := by
  ext a
  have hl : lookup key k l = some a ↔ a ∈ l ∧ key a = k := lookup_eq_some_iff hnd
  have hl' : lookup key k l' = some a ↔ a ∈ l' ∧ key a = k := lookup_eq_some_iff hnd'
  rw [hl, hl']
  exact and_congr_left (h a)

/-! ## Removing a node -/

/-- Unlink the node whose key is `k`. -/
def hashDel (key : α → κ) (k : κ) (l : List α) : List α := l.filter fun a => key a ≠ k

@[simp] theorem mem_hashDel {k : κ} {l : List α} {a : α} :
    a ∈ hashDel key k l ↔ a ∈ l ∧ key a ≠ k := by
  simp [hashDel]

theorem hashDel_sublist (k : κ) (l : List α) : (hashDel key k l).Sublist l := List.filter_sublist

theorem lookup_hashDel_self (k : κ) (l : List α) : lookup key k (hashDel key k l) = none :=
  lookup_eq_none_iff.mpr fun _ ha => (mem_hashDel.mp ha).2

theorem lookup_hashDel_of_ne {k k' : κ} (h : k' ≠ k) (l : List α) :
    lookup key k' (hashDel key k l) = lookup key k' l := by
  rw [lookup, hashDel, List.find?_filter]
  refine congrArg (fun p => l.find? p) (funext fun a => ?_)
  by_cases hk : key a = k'
  · simp [hk, h]
  · simp [hk]

theorem nodup_map_hashDel {k : κ} {l : List α} {f : α → β} (hnd : (l.map f).Nodup) :
    ((hashDel key k l).map f).Nodup :=
  hnd.sublist ((hashDel_sublist k l).map f)

/-- Unlinking a node of a table with distinct keys takes out that node alone. -/
theorem hashDel_perm {l : List α} (hnd : (l.map key).Nodup) {a : α} (ha : a ∈ l) :
    l.Perm (a :: hashDel key (key a) l) := by
  induction l with
  | nil => cases ha
  | cons b l ih =>
    obtain ⟨hb, hnd⟩ := List.nodup_cons.mp hnd
    rw [hashDel]
    rcases List.mem_cons.mp ha with rfl | ha
    · have hall : (l.filter fun x => key x ≠ key a) = l :=
        List.filter_eq_self.mpr fun x hx => by
          simpa using fun h => hb (List.mem_map.mpr ⟨x, hx, h⟩)
      rw [List.filter_cons_of_neg (by simp), hall]
    · have hne : key b ≠ key a := fun h => hb (h ▸ List.mem_map_of_mem ha)
      rw [List.filter_cons_of_pos (by simpa using hne)]
      exact ((ih hnd ha).cons b).trans (.swap _ _ _)

theorem countP_hashDel {l : List α} (hnd : (l.map key).Nodup) {a : α} (ha : a ∈ l) (p : α → Bool) :
    l.countP p = (hashDel key (key a) l).countP p + if p a then 1 else 0 := by
  rw [(hashDel_perm hnd ha).countP_eq, List.countP_cons]

/-! ## Changing a node in place -/

/-- Apply `f` to the node whose key is `k`. -/
def modify (key : α → κ) (k : κ) (f : α → α) (l : List α) : List α :=
  l.map fun a => if key a = k then f a else a

theorem mem_modify {k : κ} {f : α → α} {l : List α} {b : α} :
    b ∈ modify key k f l ↔ ∃ a ∈ l, b = if key a = k then f a else a := by
  simp [modify, eq_comm]

@[simp] theorem length_modify (k : κ) (f : α → α) (l : List α) :
    (modify key k f l).length = l.length := by
  simp [modify]

/-- A change that keeps `g` keeps the list of all `g`s. -/
theorem map_modify {k : κ} {f : α → α} {g : α → β} (hg : ∀ a, g (f a) = g a) (l : List α) :
    (modify key k f l).map g = l.map g := by
  rw [modify, List.map_map]
  refine List.map_congr_left fun a _ => ?_
  simp only [Function.comp_apply]
  split
  · exact hg a
  · rfl

theorem modify_congr {k : κ} {f g : α → α} {l : List α} (h : ∀ a ∈ l, key a = k → f a = g a) :
    modify key k f l = modify key k g l := by
  refine List.map_congr_left fun a ha => ?_
  split
  · next hk => exact h a ha hk
  · rfl

/-- Two changes of the same node are one. -/
theorem modify_modify {k : κ} {f g : α → α} (hg : ∀ a, key (g a) = key a) (l : List α) :
    modify key k f (modify key k g l) = modify key k (f ∘ g) l := by
  rw [modify, modify, modify, List.map_map]
  refine List.map_congr_left fun a _ => ?_
  simp only [Function.comp_apply]
  by_cases h : key a = k
  · rw [if_pos h, if_pos (by rw [hg, h]), if_pos h]
  · rw [if_neg h, if_neg h, if_neg h]

theorem mem_modify_of_ne {k : κ} {f : α → α} {l : List α} {a : α} (ha : a ∈ l) (h : key a ≠ k) :
    a ∈ modify key k f l :=
  mem_modify.mpr ⟨a, ha, by rw [if_neg h]⟩

theorem mem_modify_of_eq {k : κ} {f : α → α} {l : List α} {a : α} (ha : a ∈ l) (h : key a = k) :
    f a ∈ modify key k f l :=
  mem_modify.mpr ⟨a, ha, by rw [if_pos h]⟩

theorem lookup_modify {k k' : κ} {f : α → α} (hf : ∀ a, key (f a) = key a) (l : List α) :
    lookup key k' (modify key k f l) =
      if k' = k then (lookup key k l).map f else lookup key k' l := by
  rw [lookup, modify, List.find?_map]
  have hpred : ((fun a => decide (key a = k')) ∘ fun a => if key a = k then f a else a) =
      fun a => decide (key a = k') := by
    funext a
    simp only [Function.comp_apply]
    split
    · rw [hf]
    · rfl
  rw [hpred]
  show Option.map _ (lookup key k' l) = _
  cases h : lookup key k' l with
  | none =>
    split
    · next hk => rw [← hk, h]; rfl
    · rfl
  | some a =>
    have hka : key a = k' := (mem_of_lookup h).2
    split
    · next hk => rw [← hk, h]; simp [hka]
    · next hk => simp [hka, hk]

end HTable
