import Mathlib.Data.List.Perm.Basic
import Mathlib.Data.List.Count

/-!
# Threads as a bag of program counters

Threads that run the same code differ only in where they are. They are a list in which the
order says nothing, and a step of one of them replaces an item by what it becomes.

* `replace`      — one item becomes others.
* `cons_replace` — nothing else changes.
-/

namespace Bag

variable {α β : Type*} [DecidableEq α] {l bs : List α} {a x : α}

/-- One item becomes others. -/
def replace (l : List α) (a : α) (bs : List α) : List α := bs ++ l.erase a

/-- **Nothing else changes**: with the old item put back, the bag has gained the new ones. -/
theorem cons_replace (ha : a ∈ l) : (a :: replace l a bs).Perm (bs ++ l) := by
  have hback : (bs ++ a :: l.erase a).Perm (bs ++ l) :=
    (List.perm_cons_erase ha).symm.append_left bs
  exact List.perm_middle.symm.trans hback

theorem mem_replace (h : x ∈ replace l a bs) : x ∈ bs ∨ x ∈ l :=
  (List.mem_append.mp h).imp id List.mem_of_mem_erase

theorem mem_replace_of_ne (hx : x ∈ l) (hne : x ≠ a) : x ∈ replace l a bs :=
  List.mem_append_right _ ((List.mem_erase_of_ne hne).mpr hx)

/-- **Somebody is responsible**: what one item was responsible for, its successors are. -/
theorem exists_replace {P Q : α → Prop} (h : ∃ x ∈ l, P x) (hother : ∀ x, P x → Q x)
    (ha : P a → ∃ b ∈ bs, Q b) : ∃ x ∈ replace l a bs, Q x := by
  obtain ⟨x, hx, hpx⟩ := h
  by_cases heq : x = a
  · subst heq
    obtain ⟨b, hb, hqb⟩ := ha hpx
    exact ⟨b, List.mem_append_left _ hb, hqb⟩
  · exact ⟨x, mem_replace_of_ne hx heq, hother x hpx⟩

theorem countP_replace (p : α → Bool) (ha : a ∈ l) (bs : List α) :
    (replace l a bs).countP p + (if p a then 1 else 0) = bs.countP p + l.countP p := by
  rw [← List.countP_append, ← (cons_replace ha).countP_eq p, List.countP_cons]

theorem filterMap_replace (f : α → Option β) (ha : a ∈ l) (bs : List α) :
    ((f a).toList ++ (replace l a bs).filterMap f).Perm (bs.filterMap f ++ l.filterMap f) := by
  rw [← List.filterMap_append]
  refine List.Perm.trans (List.Perm.of_eq ?_) ((cons_replace ha).filterMap f)
  rw [List.filterMap_cons]
  cases f a <;> rfl

/-- What becomes of an item has the same part in `f`. -/
theorem filterMap_replace_perm {f : α → Option β} (ha : a ∈ l) (bs : List α)
    (hbs : (bs.filterMap f).Perm (f a).toList) :
    ((replace l a bs).filterMap f).Perm (l.filterMap f) :=
  (List.perm_append_left_iff _).mp ((filterMap_replace f ha bs).trans (hbs.append_right _))

end Bag
