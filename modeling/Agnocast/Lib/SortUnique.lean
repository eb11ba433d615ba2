import Mathlib.Data.List.Sort

/-!
# Sorting and removing repetitions

`std::unique` keeps the first element of every run of equal ones. After a sort the runs are the
classes of equal elements, so one element of each class is left, and it is the least one.

* `pairwise_unique` — no two elements that are left have the same key.
* `exists_mem_unique`, `le_of_mem_unique` — every key is left, by its least element.
* `sortUnique_eq_self` — what is strictly sorted stays as it is.
-/

namespace SortUnique

variable {α κ : Type*} [DecidableEq κ] (key : α → κ)

/-- The elements of a list that come after the kept element `a`. -/
def uniqueAfter (a : α) : List α → List α
  | [] => []
  | b :: l => if key a = key b then uniqueAfter a l else b :: uniqueAfter b l

/-- `std::unique`, for elements that are equal if their keys are. -/
def unique : List α → List α
  | [] => []
  | a :: l => a :: uniqueAfter key a l

variable {key} {a b : α} {l : List α}

theorem uniqueAfter_sublist : (uniqueAfter key a l).Sublist l := by
  induction l generalizing a with
  | nil => exact .slnil
  | cons b l ih =>
    unfold uniqueAfter
    split
    · exact ih.cons b
    · exact ih.cons_cons b

theorem unique_sublist : (unique key l).Sublist l := by
  cases l with
  | nil => exact .slnil
  | cons a l => exact uniqueAfter_sublist.cons_cons a

theorem mem_of_mem_unique (h : a ∈ unique key l) : a ∈ l := unique_sublist.subset h

/-- Every key is that of the kept element or is left. -/
theorem exists_mem_uniqueAfter (h : b ∈ l) :
    key b = key a ∨ ∃ c ∈ uniqueAfter key a l, key c = key b := by
  induction l generalizing a with
  | nil => cases h
  | cons x l ih =>
    unfold uniqueAfter
    by_cases hx : key a = key x
    · rw [if_pos hx]
      rcases List.mem_cons.mp h with rfl | h
      · exact .inl hx.symm
      · exact ih h
    · rw [if_neg hx]
      rcases List.mem_cons.mp h with rfl | h
      · exact .inr ⟨b, List.mem_cons_self, rfl⟩
      · rcases ih (a := x) h with hbx | ⟨c, hc, hcb⟩
        · exact .inr ⟨x, List.mem_cons_self, hbx.symm⟩
        · exact .inr ⟨c, List.mem_cons_of_mem _ hc, hcb⟩

/-- **Every key is left.** -/
theorem exists_mem_unique (h : b ∈ l) : ∃ c ∈ unique key l, key c = key b := by
  cases l with
  | nil => cases h
  | cons a l =>
    rcases List.mem_cons.mp h with rfl | h
    · exact ⟨b, List.mem_cons_self, rfl⟩
    · have hleft : key b = key a ∨ ∃ c ∈ uniqueAfter key a l, key c = key b :=
        exists_mem_uniqueAfter h
      rcases hleft with hba | ⟨c, hc, hcb⟩
      · exact ⟨a, List.mem_cons_self, hba.symm⟩
      · exact ⟨c, List.mem_cons_of_mem _ hc, hcb⟩

section Sorted

-- the sort looks at the key first, so that equal keys are neighbours
variable {r : α → α → Prop} (hkey : ∀ x y z, r x y → r y z → key x = key z → key x = key y)

include hkey

private theorem uniqueAfter_ne (hsorted : (a :: l).Pairwise r) :
    ∀ c ∈ uniqueAfter key a l, key a ≠ key c := by
  induction l with
  | nil => exact fun c hc => nomatch hc
  | cons x l ih =>
    obtain ⟨hall, hrest⟩ := List.pairwise_cons.mp hsorted
    obtain ⟨hx, hl⟩ := List.pairwise_cons.mp hrest
    unfold uniqueAfter
    split
    · exact ih (List.pairwise_cons.mpr ⟨fun c hc => hall c (List.mem_cons_of_mem _ hc), hl⟩)
    · next hne =>
      intro c hc
      rcases List.mem_cons.mp hc with rfl | hc
      · exact hne
      · have hmem : c ∈ l := uniqueAfter_sublist.subset hc
        exact fun heq => hne (hkey a x c (hall x List.mem_cons_self) (hx c hmem) heq)

private theorem pairwise_uniqueAfter (hsorted : (a :: l).Pairwise r) :
    (uniqueAfter key a l).Pairwise fun x y => key x ≠ key y := by
  induction l generalizing a with
  | nil => exact .nil
  | cons x l ih =>
    obtain ⟨hall, hrest⟩ := List.pairwise_cons.mp hsorted
    unfold uniqueAfter
    split
    · exact ih (List.pairwise_cons.mpr ⟨fun c hc => hall c (List.mem_cons_of_mem _ hc),
        (List.pairwise_cons.mp hrest).2⟩)
    · exact List.pairwise_cons.mpr ⟨uniqueAfter_ne hkey hrest, ih hrest⟩

/-- **No key is left twice.** -/
theorem pairwise_unique (hsorted : l.Pairwise r) :
    (unique key l).Pairwise fun x y => key x ≠ key y := by
  cases l with
  | nil => exact .nil
  | cons a l =>
    exact List.pairwise_cons.mpr ⟨uniqueAfter_ne hkey hsorted, pairwise_uniqueAfter hkey hsorted⟩

private theorem uniqueAfter_least (hrefl : ∀ x, r x x) (hsorted : (a :: l).Pairwise r) {c : α}
    (hc : c ∈ uniqueAfter key a l) (hb : b ∈ l) (heq : key b = key c) : r c b := by
  induction l generalizing a with
  | nil => cases hb
  | cons x l ih =>
    obtain ⟨hall, hrest⟩ := List.pairwise_cons.mp hsorted
    obtain ⟨hx, hl⟩ := List.pairwise_cons.mp hrest
    unfold uniqueAfter at hc
    split at hc
    · next hax =>
      have hskip : (a :: l).Pairwise r :=
        List.pairwise_cons.mpr ⟨fun y hy => hall y (List.mem_cons_of_mem _ hy), hl⟩
      rcases List.mem_cons.mp hb with rfl | hb
      · exact absurd (hax.trans heq) (uniqueAfter_ne hkey hskip c hc)
      · exact ih hskip hc hb
    · rcases List.mem_cons.mp hc with rfl | hc
      · rcases List.mem_cons.mp hb with rfl | hb
        · exact hrefl _
        · exact hx b hb
      · rcases List.mem_cons.mp hb with rfl | hb
        · exact absurd heq (uniqueAfter_ne hkey hrest c hc)
        · exact ih hrest hc hb

/-- **What is left is the least of its key.** -/
theorem le_of_mem_unique (hrefl : ∀ x, r x x) (hsorted : l.Pairwise r) {c : α}
    (hc : c ∈ unique key l) (hb : b ∈ l) (heq : key b = key c) : r c b := by
  cases l with
  | nil => cases hb
  | cons a l =>
    obtain ⟨ha, _⟩ := List.pairwise_cons.mp hsorted
    rcases List.mem_cons.mp hc with rfl | hc
    · rcases List.mem_cons.mp hb with rfl | hb
      · exact hrefl _
      · exact ha b hb
    · rcases List.mem_cons.mp hb with rfl | hb
      · exact absurd heq (uniqueAfter_ne hkey hsorted c hc)
      · exact uniqueAfter_least hkey hrefl hsorted hc hb heq

end Sorted

/-! ## Numbers -/

variable {ν : Type*} [LinearOrder ν] {ns : List ν}

/-- A sort and `std::unique`. -/
def sortUnique (ns : List ν) : List ν := unique id (ns.insertionSort (· ≤ ·))

theorem mem_sortUnique {n : ν} : n ∈ sortUnique ns ↔ n ∈ ns := by
  unfold sortUnique
  constructor
  · intro h
    exact (List.mem_insertionSort _).mp (mem_of_mem_unique h)
  · intro h
    have hsorted : n ∈ ns.insertionSort (· ≤ ·) := (List.mem_insertionSort _).mpr h
    have hleft : ∃ c ∈ unique id (ns.insertionSort (· ≤ ·)), id c = id n := exists_mem_unique hsorted
    obtain ⟨m, hm, rfl⟩ := hleft
    exact hm

/-- The numbers that are left are strictly sorted. -/
theorem pairwise_sortUnique : (sortUnique ns).Pairwise (· < ·) := by
  have hsorted : (ns.insertionSort (· ≤ ·)).Pairwise (· ≤ ·) := List.pairwise_insertionSort ..
  have hne : (sortUnique ns).Pairwise fun x y => id x ≠ id y :=
    pairwise_unique (fun x y z hxy hyz hxz => le_antisymm hxy (hyz.trans_eq (Eq.symm hxz))) hsorted
  exact ((hsorted.sublist unique_sublist).and hne).imp fun h => lt_of_le_of_ne h.1 h.2

private theorem uniqueAfter_eq_self {a : ν} (h : (a :: ns).Pairwise (· < ·)) :
    uniqueAfter id a ns = ns := by
  induction ns generalizing a with
  | nil => rfl
  | cons b ns ih =>
    obtain ⟨ha, hrest⟩ := List.pairwise_cons.mp h
    unfold uniqueAfter
    have hne : ¬id a = id b := (ha b List.mem_cons_self).ne
    rw [if_neg hne, ih hrest]

/-- **What is strictly sorted stays as it is.** -/
theorem sortUnique_eq_self (h : ns.Pairwise (· < ·)) : sortUnique ns = ns := by
  unfold sortUnique
  rw [(h.imp le_of_lt).insertionSort_eq]
  cases ns with
  | nil => rfl
  | cons a ns => exact congrArg (a :: ·) (uniqueAfter_eq_self h)

end SortUnique
