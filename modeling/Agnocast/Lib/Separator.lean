import Mathlib.Data.List.Basic

/-!
# Words joined by a separator

A word may read as `u ++ s ++ v` in more than one way, since `s` may occur in `u`
and in `v` too.

* `eq_of_append_cons_eq` — the part behind the last `c` of a word is determined.
* `split_cases`          — two readings of one word agree, or the longer first part
  runs over a whole `s` of the other reading, or over a part of one.
-/

namespace Separator

variable {α : Type*} {s : List α}

private theorem nil_of_cons_eq {c : α} {t d d' : List α} (hd : c ∉ d)
    (h : c :: d = t ++ c :: d') : t = [] := by
  cases t with
  | nil => rfl
  | cons a t =>
    -- the other `c` would lie inside `d`
    rw [List.cons_append, List.cons.injEq] at h
    simp [h.2] at hd

/-- Parts without `c` behind a `c` are equal when the words are. -/
theorem eq_of_append_cons_eq {c : α} {u u' d d' : List α} (hd : c ∉ d) (hd' : c ∉ d')
    (h : u ++ c :: d = u' ++ c :: d') : u = u' ∧ d = d' := by
  rcases List.append_eq_append_iff.mp h with ⟨t, rfl, ht⟩ | ⟨t, rfl, ht⟩
  · obtain rfl := nil_of_cons_eq hd ht
    exact ⟨(List.append_nil u).symm, (List.cons.inj ht).2⟩
  · obtain rfl := nil_of_cons_eq hd' ht
    exact ⟨List.append_nil u', (List.cons.inj ht).2.symm⟩

/-- **The readings of one word.** With the first part of one reading at most as long as
that of the other, both are the same, or the longer first part contains the separator of
the shorter reading and the other's lies in the last part, or the two separators overlap. -/
theorem split_cases {u u' v v' : List α} (h : u ++ (s ++ v) = u' ++ (s ++ v'))
    (hle : u.length ≤ u'.length) :
    (u' = u ∧ v = v') ∨ (∃ x, u' = u ++ s ++ x ∧ v = x ++ s ++ v') ∨
      ∃ t y, t ≠ [] ∧ y ≠ [] ∧ s = t ++ y ∧ u' = u ++ t ∧ y ++ v = s ++ v' := by
  have hlonger : ∃ t, u' = u ++ t ∧ s ++ v = t ++ (s ++ v') := by
    rcases List.append_eq_append_iff.mp h with ⟨t, hu, ht⟩ | ⟨t, hu, ht⟩
    · exact ⟨t, hu, ht⟩
    · have hlen := congrArg List.length hu
      rw [List.length_append] at hlen
      have ht0 : t = [] := List.length_eq_zero_iff.mp (by omega)
      subst ht0
      exact ⟨[], by simpa using hu.symm, by simpa using ht.symm⟩
  obtain ⟨t, rfl, ht⟩ := hlonger
  rcases List.append_eq_append_iff.mp ht with ⟨x, rfl, hx⟩ | ⟨y, hy, hx⟩
  · exact .inr (.inl ⟨x, (List.append_assoc ..).symm, by simpa using hx⟩)
  · cases t with
    | nil =>
      rw [List.nil_append] at hy
      subst hy
      exact .inl ⟨List.append_nil u, List.append_cancel_left hx.symm⟩
    | cons a t =>
      cases y with
      | nil =>
        rw [List.append_nil] at hy
        exact .inr (.inl ⟨[], by simp [hy], by simpa using hx.symm⟩)
      | cons b y => exact .inr (.inr ⟨_, _, List.cons_ne_nil _ _, List.cons_ne_nil _ _, hy, rfl, hx.symm⟩)

end Separator
