import Mathlib.Data.List.DropRight
import Mathlib.Order.Lattice

/-!
# The newest accepted elements of an ordered list

A list kept oldest first, a test `p` for the elements that count, and a test
`stop` that holds of everything older than some point. The *window* is the last
`n` elements that count and lie after that point.

Two scans that start at the newest element find it:

* `scanBack` returns the part of the list from the oldest element of the window
  on, and the size of the window (`scanBack_spec`);
* `scanOldest` returns the oldest element of the window (`scanOldest_spec`).
-/

namespace Window

variable {α : Type*}

/-- The newest `n` elements that `p` accepts and that lie after the point where
`stop` ends. -/
def window (p stop : α → Bool) (n : Nat) (l : List α) : List α :=
  (l.filter fun a => !stop a && p a).rtake n

/-- Walk back from the newest element. `after` is what was walked over, `node` the
part of it from its oldest accepted element on, `k` how many were accepted. -/
def scanBack (p stop : α → Bool) (n : Nat) : (backwards after node : List α) → Nat → List α × Nat
  | [], _, node, k => (node, k)
  | a :: back, after, node, k =>
    if stop a then (node, k)
    else if p a then
      if k + 1 ≥ n then (a :: after, k + 1)
      else scanBack p stop n back (a :: after) (a :: after) (k + 1)
    else scanBack p stop n back (a :: after) node k

/-- Walk back from the newest element, remembering the last accepted one, until
`n` were accepted. -/
def scanOldest (p stop : α → Bool) (n : Nat) : (backwards : List α) → Nat → Option α → Option α
  | [], _, candidate => candidate
  | a :: back, k, candidate =>
    if ¬ k < n then candidate
    else if stop a then candidate
    else if p a then scanOldest p stop n back (k + 1) (some a)
    else scanOldest p stop n back k candidate

/-! ## The last elements of a list -/

theorem rtake_of_length_le {n : Nat} {l : List α} (h : l.length ≤ n) : l.rtake n = l := by
  rw [List.rtake, Nat.sub_eq_zero_of_le h, List.drop_zero]

theorem rtake_append_of_length {n : Nat} (l : List α) {l' : List α} (h : l'.length = n) :
    (l ++ l').rtake n = l' := by
  rw [List.rtake, List.length_append, h, Nat.add_sub_cancel, List.drop_left]

variable {p stop : α → Bool} {n : Nat}

theorem window_sublist (l : List α) : (window p stop n l).Sublist l :=
  (List.drop_sublist _ _).trans List.filter_sublist

theorem mem_window {a : α} {l : List α} (h : a ∈ window p stop n l) :
    a ∈ l ∧ stop a = false ∧ p a = true := by
  obtain ⟨hl, ha⟩ := List.mem_filter.mp (List.mem_of_mem_drop h)
  rw [Bool.and_eq_true, Bool.not_eq_true'] at ha
  exact ⟨hl, ha.1, ha.2⟩

theorem length_window (l : List α) :
    (window p stop n l).length = min n (l.filter fun a => !stop a && p a).length := by
  rw [window, List.rtake, List.length_drop]
  omega

@[simp] theorem window_nil : window p stop n [] = [] := by simp [window]

@[simp] theorem window_zero (l : List α) : window p stop 0 l = [] := by
  rw [← List.length_eq_zero_iff, length_window, Nat.zero_min]

/-- What the window is once the walk has seen `after`, nothing of it stopped: all
accepted elements of `after`, if everything older is stopped or enough were accepted. -/
private theorem window_eq_of_walked {older after : List α}
    (hafter : ∀ a ∈ after, stop a = false)
    (h : ((∀ a ∈ older, stop a = true) ∧ (after.filter p).length ≤ n) ∨
      (after.filter p).length = n) :
    window p stop n (older ++ after) = after.filter p := by
  have hfilter : (after.filter fun a => !stop a && p a) = after.filter p :=
    List.filter_congr fun a ha => by rw [hafter a ha, Bool.not_false, Bool.true_and]
  rw [window, List.filter_append, hfilter]
  rcases h with ⟨holder, hlen⟩ | hlen
  · have : (older.filter fun a => !stop a && p a) = [] :=
      List.filter_eq_nil_iff.mpr fun a ha => by rw [holder a ha]; simp
    rw [this, List.nil_append, rtake_of_length_le hlen]
  · exact rtake_append_of_length _ hlen

/-- In a sorted list, what is greater than the last element of a first part is the
second part. -/
theorem filter_after_last {κ : Type*} [LinearOrder κ] {key : α → κ} {l l' : List α} {a : α}
    (hsorted : (l ++ l').Pairwise fun x y => key x < key y) (ha : l.getLast? = some a) :
    ((l ++ l').filter fun x => decide (key a < key x)) = l' := by
  obtain ⟨hl, _, hcross⟩ := List.pairwise_append.mp hsorted
  obtain ⟨init, rfl⟩ := List.getLast?_eq_some_iff.mp ha
  have hle : ∀ x ∈ init ++ [a], ¬ key a < key x := by
    intro x hx
    rcases List.mem_append.mp hx with hx | hx
    · exact ((List.pairwise_append.mp hl).2.2 x hx a (by simp)).le.not_gt
    · rw [List.mem_singleton.mp hx]
      exact lt_irrefl _
  rw [List.filter_append, List.filter_eq_nil_iff.mpr fun x hx => by simpa using hle x hx,
    List.nil_append, List.filter_eq_self.mpr fun x hx => by simpa using hcross a (by simp) x hx]

/-- Everything older than a stopped element is stopped. -/
private theorem older_stopped {a : α} {back after : List α}
    (hmono : ((a :: back).reverse ++ after).Pairwise fun a b => stop b = true → stop a = true)
    (ha : stop a = true) : ∀ b ∈ (a :: back).reverse, stop b = true := by
  intro b hb
  rw [List.reverse_cons, List.mem_append, List.mem_singleton] at hb
  rcases hb with hb | rfl
  · rw [List.reverse_cons, List.append_assoc, List.pairwise_append] at hmono
    exact hmono.2.2 b hb a (by simp) ha
  · exact ha

/-! ## The two scans -/

/-- **`scanBack` finds the window**: its result is the end of the list, what `p`
accepts of it is the window, and the count is the window's size. -/
theorem scanBack_spec (back after node : List α) (k : Nat)
    (hmono : (back.reverse ++ after).Pairwise fun a b => stop b = true → stop a = true)
    (hafter : ∀ a ∈ after, stop a = false) (hsuffix : node <:+ after)
    (hnode : node.filter p = after.filter p) (hk : (after.filter p).length = k) (hkn : k < n) :
    (scanBack p stop n back after node k).1 <:+ back.reverse ++ after ∧
    (scanBack p stop n back after node k).1.filter p = window p stop n (back.reverse ++ after) ∧
    (scanBack p stop n back after node k).2 = (window p stop n (back.reverse ++ after)).length := by
  induction back generalizing after node k with
  | nil =>
    rw [scanBack, window_eq_of_walked hafter (.inl ⟨by simp, by omega⟩)]
    exact ⟨by simpa using hsuffix, hnode, hk.symm⟩
  | cons a back ih =>
    have hassoc : (a :: back).reverse ++ after = back.reverse ++ a :: after := by simp
    rw [scanBack]
    cases hstop : stop a with
    -- everything further back stops as well
    | true =>
      rw [if_pos rfl, window_eq_of_walked hafter (.inl ⟨older_stopped hmono hstop, by omega⟩)]
      exact ⟨hsuffix.trans (List.suffix_append _ _), hnode, hk.symm⟩
    | false =>
      rw [if_neg (by simp), hassoc]
      rw [hassoc] at hmono
      have hafter' : ∀ b ∈ a :: after, stop b = false := by
        intro b hb
        rcases List.mem_cons.mp hb with rfl | hb
        · exact hstop
        · exact hafter b hb
      cases hp : p a with
      | true =>
        rw [if_pos rfl]
        have hk' : ((a :: after).filter p).length = k + 1 := by
          rw [List.filter_cons_of_pos hp, List.length_cons, hk]
        split
        · rw [window_eq_of_walked hafter' (.inr (by omega))]
          exact ⟨List.suffix_append _ _, rfl, hk'.symm⟩
        · exact ih (a :: after) (a :: after) (k + 1) hmono hafter' (List.suffix_refl _) rfl hk'
            (by omega)
      | false =>
        rw [if_neg (by simp)]
        have hfilter : (a :: after).filter p = after.filter p :=
          List.filter_cons_of_neg (by simp [hp])
        exact ih (a :: after) node k hmono hafter' (hsuffix.trans (List.suffix_cons a after))
          (by rw [hfilter, hnode]) (by rw [hfilter, hk]) hkn

/-- **`scanOldest` finds the oldest element of the window.** -/
theorem scanOldest_spec (back after : List α) (k : Nat)
    (hmono : (back.reverse ++ after).Pairwise fun a b => stop b = true → stop a = true)
    (hafter : ∀ a ∈ after, stop a = false) (hk : (after.filter p).length = k) (hkn : k ≤ n) :
    scanOldest p stop n back k (after.filter p).head? =
      (window p stop n (back.reverse ++ after)).head? := by
  induction back generalizing after k with
  | nil => rw [scanOldest, window_eq_of_walked hafter (.inl ⟨by simp, by omega⟩)]
  | cons a back ih =>
    have hassoc : (a :: back).reverse ++ after = back.reverse ++ a :: after := by simp
    rw [scanOldest]
    split
    · rw [window_eq_of_walked hafter (.inr (by omega))]
    · cases hstop : stop a with
      | true =>
        rw [if_pos rfl, window_eq_of_walked hafter (.inl ⟨older_stopped hmono hstop, by omega⟩)]
      | false =>
        rw [if_neg (by simp), hassoc]
        rw [hassoc] at hmono
        have hafter' : ∀ b ∈ a :: after, stop b = false := by
          intro b hb
          rcases List.mem_cons.mp hb with rfl | hb
          · exact hstop
          · exact hafter b hb
        cases hp : p a with
        | true =>
          have hfilter : (a :: after).filter p = a :: after.filter p := List.filter_cons_of_pos hp
          have := ih (a :: after) (k + 1) hmono hafter' (by rw [hfilter, List.length_cons, hk])
            (by omega)
          rwa [hfilter, List.head?_cons] at this
        | false =>
          have hfilter : (a :: after).filter p = after.filter p :=
            List.filter_cons_of_neg (by simp [hp])
          have := ih (a :: after) k hmono hafter' (by rw [hfilter, hk]) hkn
          rwa [hfilter] at this

end Window
