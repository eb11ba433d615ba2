import Mathlib.Data.List.Nodup
import Mathlib.Data.List.Perm.Subperm
import Mathlib.Data.List.Range
import Mathlib.Logic.Function.Basic

/-!
# Tables with linear probing

A fixed number of slots, each free or with a key. The search for a key starts at the key's home and
ends at the first slot that is free or has the key.

* `Chained`        — the invariant: every key is where its search ends.
* `Chained.unique` — so a key is at one place.
* `Chained.insert` — a key may be put at the free slot where its search ends.
* `find_isSome`    — a search ends when a slot is free.
-/

namespace Probing

variable {K : Type*} {home : K → Nat} {size : Nat} {slots : Nat → Option K} {k k' : K}

/-- The search for a key ends at this slot. -/
def Stops (slots : Nat → Option K) (k : K) (i : Nat) : Prop := slots i = none ∨ slots i = some k

instance [DecidableEq K] (slots : Nat → Option K) (k : K) (i : Nat) : Decidable (Stops slots k i) :=
  inferInstanceAs (Decidable (_ ∨ _))

variable [DecidableEq K]

/-- The search for a key from a slot on, over so many slots. -/
def find (size : Nat) (slots : Nat → Option K) (k : K) : Nat → Nat → Option Nat
  | 0, _ => none
  | fuel + 1, i => if Stops slots k i then some i else find size slots k fuel ((i + 1) % size)

theorem find_stops {fuel i j : Nat} (h : find size slots k fuel i = some j) : Stops slots k j := by
  induction fuel generalizing i with
  | zero => cases h
  | succ fuel ih =>
    unfold find at h
    split at h
    · next hstops =>
      cases h
      exact hstops
    · exact ih h

theorem find_lt {fuel i j : Nat} (hi : i < size) (h : find size slots k fuel i = some j) :
    j < size := by
  induction fuel generalizing i with
  | zero => cases h
  | succ fuel ih =>
    unfold find at h
    split at h
    · cases h
      exact hi
    · exact ih (Nat.mod_lt _ (Nat.zero_lt_of_lt hi)) h

/-- A search that does not end has seen every slot on its way. -/
theorem find_eq_none {fuel i : Nat} (hi : i < size) (h : find size slots k fuel i = none) :
    ∀ d < fuel, ¬ Stops slots k ((i + d) % size) := by
  induction fuel generalizing i with
  | zero => exact fun d hd => absurd hd (Nat.not_lt_zero d)
  | succ fuel ih =>
    unfold find at h
    split at h
    · cases h
    next hgoes =>
    intro d hd
    cases d with
    | zero =>
      rw [Nat.add_zero, Nat.mod_eq_of_lt hi]
      exact hgoes
    | succ d =>
      have hnext := ih (Nat.mod_lt _ (Nat.zero_lt_of_lt hi)) h d (Nat.lt_of_succ_lt_succ hd)
      rwa [Nat.mod_add_mod, Nat.add_assoc, Nat.add_comm 1 d] at hnext

/-- **The search ends** when some slot is free. -/
theorem find_isSome {i j : Nat} (hi : i < size) (hj : j < size) (hfree : slots j = none) :
    ∃ s, find size slots k size i = some s := by
  refine Option.ne_none_iff_exists'.mp fun hnone => ?_
  have hgoes := find_eq_none hi hnone
  by_cases hle : i ≤ j
  · refine hgoes (j - i) (by omega) (.inl ?_)
    rwa [Nat.add_sub_cancel' hle, Nat.mod_eq_of_lt hj]
  · -- it comes round
    refine hgoes (j + size - i) (by omega) (.inl ?_)
    rwa [Nat.add_sub_cancel' (by omega), Nat.add_mod_right, Nat.mod_eq_of_lt hj]

/-- A key put into a free slot is in nobody's way. -/
private theorem find_update_of_ne {fuel i j s : Nat} (hfree : slots s = none) (hj : j ≠ s)
    (h : find size slots k' fuel i = some j) :
    find size (Function.update slots s (some k)) k' fuel i = some j := by
  induction fuel generalizing i with
  | zero => cases h
  | succ fuel ih =>
    unfold find at h ⊢
    split at h
    · next hstops =>
      cases h
      refine if_pos ?_
      unfold Stops
      rw [Function.update_of_ne hj]
      exact hstops
    · next hgoes =>
      have hs : i ≠ s := fun heq => hgoes (.inl (heq ▸ hfree))
      rw [if_neg, ih h]
      unfold Stops
      rw [Function.update_of_ne hs]
      exact hgoes

/-- A key is found where it was put. -/
private theorem find_update_self {fuel i s : Nat} (h : find size slots k fuel i = some s) :
    find size (Function.update slots s (some k)) k fuel i = some s := by
  induction fuel generalizing i with
  | zero => cases h
  | succ fuel ih =>
    by_cases hs : i = s
    · unfold find
      rw [if_pos (.inr (hs ▸ Function.update_self ..)), hs]
    · unfold find at h ⊢
      split at h
      · exact absurd (Option.some.inj h) hs
      · next hgoes =>
        rw [if_neg, ih h]
        unfold Stops
        rw [Function.update_of_ne hs]
        exact hgoes

/-- Every key is where its search ends. -/
def Chained (home : K → Nat) (size : Nat) (slots : Nat → Option K) : Prop :=
  ∀ i < size, ∀ k, slots i = some k → find size slots k size (home k) = some i

namespace Chained

theorem free (home : K → Nat) (size : Nat) : Chained home size fun _ => none :=
  fun _ _ _ h => nomatch h

variable (h : Chained home size slots)

include h

/-- A key is at one place. -/
theorem unique {i j : Nat} (hi : i < size) (hj : j < size) (hki : slots i = some k)
    (hkj : slots j = some k) : i = j :=
  Option.some.inj ((h i hi k hki).symm.trans (h j hj k hkj))

/-- **The key may be put there.** -/
theorem insert {i : Nat} (hfind : find size slots k size (home k) = some i)
    (hfree : slots i = none) : Chained home size (Function.update slots i (some k)) := by
  intro j hj k' hk'
  by_cases hji : j = i
  · subst hji
    rw [Function.update_self] at hk'
    cases hk'
    exact find_update_self hfind
  · rw [Function.update_of_ne hji] at hk'
    exact find_update_of_ne hfree hji (h j hj k' hk')

/-- Fewer keys than slots leave a slot free. -/
theorem exists_free {keys : List K} (hkeys : ∀ i < size, ∀ k, slots i = some k → k ∈ keys)
    (hlt : keys.length < size) : ∃ i < size, slots i = none := by
  by_contra hfull
  have hsome (i : Nat) (hi : i < size) : ∃ k, slots i = some k :=
    Option.ne_none_iff_exists'.mp fun hnone => hfull ⟨i, hi, hnone⟩
  -- what the slots hold differs from slot to slot
  have hnodup : ((List.range size).map slots).Nodup := by
    refine List.Nodup.map_on (fun i hi j hj heq => ?_) List.nodup_range
    have hi := List.mem_range.mp hi
    obtain ⟨k, hk⟩ := hsome i hi
    exact h.unique hi (List.mem_range.mp hj) hk (heq ▸ hk)
  have hsub : (List.range size).map slots ⊆ keys.map some := by
    intro slot hslot
    obtain ⟨i, hi, rfl⟩ := List.mem_map.mp hslot
    have hi := List.mem_range.mp hi
    obtain ⟨k, hk⟩ := hsome i hi
    exact hk ▸ List.mem_map_of_mem (hkeys i hi k hk)
  have hle := (hnodup.subperm hsub).length_le
  rw [List.length_map, List.length_range, List.length_map] at hle
  omega

end Chained

end Probing
