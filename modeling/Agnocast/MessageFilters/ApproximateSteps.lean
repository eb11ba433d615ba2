import Agnocast.MessageFilters.ApproximateTime
import Mathlib.Algebra.Order.BigOperators.Group.Finset

/-!
# The message filters — the steps of ApproximateTime

What the helpers, the search over virtual times and an iteration of `process` do, as equations
between states.

* `advance`, `published`, `deleted` — the states the helpers lead to when the counter is right.
* `Search`              — what holds while there is a pivot.
* `virtualSearch_step`  — one round of the search over virtual times.
* `Inv`                 — the representation invariant.
* `iteration_cases`     — what an iteration does: a front is dropped, or moved aside below a
  candidate, or the candidate is published.

The virtual search works on `advance`: the state it started from with so many messages moved
aside. Giving up takes exactly these back, and publishing does not depend on them, since it
looks at what is held (past buffer and deque) only.
-/

namespace Agnocast.MessageFilters.ApproximateTime

variable {n : ℕ} {α : Type} {p : Parameters n} {s : ApproximateTime n α}

/-! ## Boundaries -/

section Boundary

variable (times : Fin (n + 1) → ℤ)

private theorem foldl_latest (l : List (Fin (n + 1))) (b : Fin (n + 1) × ℤ)
    (hb : b.2 = times b.1) :
    let b' := l.foldl (fun b i => if (decide (times i < b.2)).xor true then (i, times i) else b) b
    b'.2 = times b'.1 ∧ b.2 ≤ b'.2 ∧ ∀ i ∈ l, times i ≤ b'.2 := by
  induction l generalizing b with
  | nil => simp [hb]
  | cons i l ih =>
    rw [List.foldl_cons]
    by_cases hlt : times i < b.2
    · obtain ⟨hat, hle, hall⟩ := ih b hb
      rw [if_neg (by simp [hlt])]
      refine ⟨hat, hle, fun j hj => ?_⟩
      rcases List.mem_cons.mp hj with rfl | hj
      · exact hlt.le.trans hle
      · exact hall j hj
    · obtain ⟨hat, hle, hall⟩ := ih (i, times i) rfl
      rw [if_pos (by simp [hlt])]
      refine ⟨hat, (Int.not_lt.mp hlt).trans hle, fun j hj => ?_⟩
      rcases List.mem_cons.mp hj with rfl | hj
      · exact hle
      · exact hall j hj

private theorem foldl_earliest (l : List (Fin (n + 1))) (b : Fin (n + 1) × ℤ)
    (hb : b.2 = times b.1) :
    let b' := l.foldl (fun b i => if (decide (times i < b.2)).xor false then (i, times i) else b) b
    b'.2 = times b'.1 ∧ b'.2 ≤ b.2 ∧ ∀ i ∈ l, b'.2 ≤ times i := by
  induction l generalizing b with
  | nil => simp [hb]
  | cons i l ih =>
    rw [List.foldl_cons]
    by_cases hlt : times i < b.2
    · obtain ⟨hat, hle, hall⟩ := ih (i, times i) rfl
      rw [if_pos (by simp [hlt])]
      refine ⟨hat, hle.trans hlt.le, fun j hj => ?_⟩
      rcases List.mem_cons.mp hj with rfl | hj
      · exact hle
      · exact hall j hj
    · obtain ⟨hat, hle, hall⟩ := ih b hb
      rw [if_neg (by simp [hlt])]
      refine ⟨hat, hle, fun j hj => ?_⟩
      rcases List.mem_cons.mp hj with rfl | hj
      · exact hle.trans (Int.not_lt.mp hlt)
      · exact hall j hj

theorem latest_time : (boundary times true).2 = times (boundary times true).1 :=
  (foldl_latest times _ (0, times 0) rfl).1

theorem earliest_time : (boundary times false).2 = times (boundary times false).1 :=
  (foldl_earliest times _ (0, times 0) rfl).1

/-- The latest time. -/
theorem le_latest (i : Fin (n + 1)) : times i ≤ (boundary times true).2 :=
  (foldl_latest times _ (0, times 0) rfl).2.2 i (List.mem_finRange i)

/-- The earliest time. -/
theorem earliest_le (i : Fin (n + 1)) : (boundary times false).2 ≤ times i :=
  (foldl_earliest times _ (0, times 0) rfl).2.2 i (List.mem_finRange i)

end Boundary

/-! ## Counting -/

section Counting

variable {d : Fin (n + 1) → List (StampedMsg α)} {i : Fin (n + 1)} {l : List (StampedMsg α)}

private theorem sum_update (f : List (StampedMsg α) → ℕ) (d : Fin (n + 1) → List (StampedMsg α))
    (i : Fin (n + 1)) (l : List (StampedMsg α)) :
    ∑ j, f (Function.update d i l j) + f (d i) = ∑ j, f (d j) + f l := by
  have hothers : ∑ j ∈ Finset.univ.erase i, f (Function.update d i l j) =
      ∑ j ∈ Finset.univ.erase i, f (d j) :=
    Finset.sum_congr rfl fun j hj => by rw [Function.update_of_ne (Finset.ne_of_mem_erase hj)]
  rw [← Finset.add_sum_erase _ _ (Finset.mem_univ i), Function.update_self, hothers,
    ← Finset.add_sum_erase _ (fun j => f (d j)) (Finset.mem_univ i)]
  omega

theorem total_update (d : Fin (n + 1) → List (StampedMsg α)) (i : Fin (n + 1))
    (l : List (StampedMsg α)) : total (Function.update d i l) + (d i).length = total d + l.length :=
  sum_update List.length d i l

theorem countNonEmpty_update (d : Fin (n + 1) → List (StampedMsg α)) (i : Fin (n + 1))
    (l : List (StampedMsg α)) : countNonEmpty (Function.update d i l) +
      (if (d i).isEmpty then 0 else 1) = countNonEmpty d + if l.isEmpty then 0 else 1 :=
  sum_update (fun l => if l.isEmpty then 0 else 1) d i l

/-- All deques have messages exactly when so many are counted. -/
theorem countNonEmpty_eq_iff : countNonEmpty d = n + 1 ↔ ∀ i, d i ≠ [] := by
  have hone (j : Fin (n + 1)) : (if (d j).isEmpty then 0 else 1) ≤ 1 := by split <;> omega
  constructor
  · intro hall i hempty
    have hlt : countNonEmpty d < ∑ _j : Fin (n + 1), 1 :=
      Finset.sum_lt_sum (fun j _ => hone j) ⟨i, Finset.mem_univ i, by simp [hempty]⟩
    simp at hlt
    omega
  · intro hall
    have hsum : countNonEmpty d = ∑ _j : Fin (n + 1), 1 :=
      Finset.sum_congr rfl fun j _ => by simp [hall j]
    simpa using hsum

theorem countNonEmpty_le : countNonEmpty d ≤ n + 1 := by
  have hsum : countNonEmpty d ≤ ∑ _j : Fin (n + 1), 1 :=
    Finset.sum_le_sum fun j _ => by split <;> omega
  simpa using hsum

end Counting

/-! ## The helpers, on a counter that is right -/

/-- The messages held for an input. -/
def held (s : ApproximateTime n α) (i : Fin (n + 1)) : List (StampedMsg α) :=
  s.past i ++ s.deques i

/-- The counter is the number of deques that are not empty. -/
def Counted (s : ApproximateTime n α) : Prop := s.numNonEmptyDeques = countNonEmpty s.deques

/-- The front of a deque is gone. -/
def deleted (s : ApproximateTime n α) (i : Fin (n + 1)) : ApproximateTime n α :=
  { s with
    deques := Function.update s.deques i (s.deques i).tail
    numNonEmptyDeques := countNonEmpty (Function.update s.deques i (s.deques i).tail) }

/-- So many messages of every deque are in the past buffers. -/
def advance (s : ApproximateTime n α) (moves : Fin (n + 1) → ℕ) : ApproximateTime n α :=
  { s with
    past := fun i => s.past i ++ (s.deques i).take (moves i)
    deques := fun i => (s.deques i).drop (moves i)
    numNonEmptyDeques := countNonEmpty fun i => (s.deques i).drop (moves i) }

/-- The front of one deque is in its past buffer. -/
def moved (s : ApproximateTime n α) (i : Fin (n + 1)) : ApproximateTime n α :=
  s.advance (Function.update (fun _ => 0) i 1)

/-- The candidate and the pivot are gone, and of what was held the first message of each. -/
def published (s : ApproximateTime n α) : ApproximateTime n α :=
  { s with
    candidate := Tuple.empty
    pivot := none
    past := fun _ => []
    deques := fun i => (s.held i).tail
    numNonEmptyDeques := countNonEmpty fun i => (s.held i).tail }

theorem allNonEmpty_iff (hc : Counted s) : s.allNonEmpty = true ↔ ∀ i, s.deques i ≠ [] := by
  rw [allNonEmpty, decide_eq_true_eq, hc, countNonEmpty_eq_iff]

theorem held_advance (s : ApproximateTime n α) (moves : Fin (n + 1) → ℕ) (i : Fin (n + 1)) :
    (s.advance moves).held i = s.held i := by
  show (s.past i ++ (s.deques i).take (moves i)) ++ (s.deques i).drop (moves i) = _
  rw [List.append_assoc, List.take_append_drop]
  rfl

theorem notBetter_advance (s : ApproximateTime n α) (moves : Fin (n + 1) → ℕ) (e t : ℤ) :
    (s.advance moves).notBetter p e t = s.notBetter p e t := rfl

theorem counted_advance (s : ApproximateTime n α) (moves : Fin (n + 1) → ℕ) :
    Counted (s.advance moves) := rfl

theorem advance_advance (s : ApproximateTime n α) (moves more : Fin (n + 1) → ℕ) :
    (s.advance moves).advance more = s.advance (moves + more) := by
  simp only [advance, Pi.add_apply, List.take_add, List.drop_drop, List.append_assoc]

theorem advance_moved (s : ApproximateTime n α) (moves : Fin (n + 1) → ℕ) (i : Fin (n + 1)) :
    (s.advance moves).moved i = s.advance (Function.update moves i (moves i + 1)) := by
  rw [moved, advance_advance]
  congr 1
  funext j
  by_cases hj : j = i
  · subst hj
    simp
  · simp [hj]

theorem advance_zero (hc : Counted s) : s.advance (fun _ => 0) = s := by
  simp only [advance, List.take_zero, List.append_nil, List.drop_zero]
  rw [← hc]

theorem published_advance (s : ApproximateTime n α) (moves : Fin (n + 1) → ℕ) :
    (s.advance moves).published = s.published := by
  simp only [published, held_advance]
  rfl

theorem counted_moved (s : ApproximateTime n α) (i : Fin (n + 1)) : Counted (s.moved i) := rfl

theorem deques_moved (s : ApproximateTime n α) (i : Fin (n + 1)) :
    (s.moved i).deques = Function.update s.deques i (s.deques i).tail := by
  funext j
  show (s.deques j).drop _ = _
  by_cases hj : j = i
  · subst hj
    simp
  · simp [hj]

theorem past_moved (s : ApproximateTime n α) {i : Fin (n + 1)} {m : StampedMsg α}
    {rest : List (StampedMsg α)} (h : s.deques i = m :: rest) :
    (s.moved i).past = Function.update s.past i (s.past i ++ [m]) := by
  funext j
  show s.past j ++ (s.deques j).take _ = _
  by_cases hj : j = i
  · subst hj
    simp [h]
  · simp [hj]

/-- A counter that was right before the front of a deque went. -/
private theorem count_of_tail (hc : Counted s) {i : Fin (n + 1)} {m : StampedMsg α}
    {rest : List (StampedMsg α)} (h : s.deques i = m :: rest) :
    (if rest.isEmpty then s.numNonEmptyDeques - 1 else s.numNonEmptyDeques) =
      countNonEmpty (Function.update s.deques i rest) := by
  have hcount := countNonEmpty_update s.deques i rest
  rw [h] at hcount
  rw [hc]
  split_ifs at hcount ⊢ <;> simp_all
  omega

theorem dequeDeleteFront_eq (hc : Counted s) {i : Fin (n + 1)} (h : s.deques i ≠ []) :
    s.dequeDeleteFront i = some (s.deleted i) := by
  obtain ⟨m, rest, hd⟩ := List.exists_cons_of_ne_nil h
  rw [dequeDeleteFront, hd]
  simp only [count_of_tail hc hd, deleted, hd, List.tail_cons]

theorem dequeMoveFrontToPast_eq (hc : Counted s) {i : Fin (n + 1)} (h : s.deques i ≠ []) :
    s.dequeMoveFrontToPast i = some (s.moved i) := by
  obtain ⟨m, rest, hd⟩ := List.exists_cons_of_ne_nil h
  have hdeques : (s.moved i).deques = Function.update s.deques i rest := by
    rw [deques_moved, hd, List.tail_cons]
  rw [dequeMoveFrontToPast, hd]
  simp only [count_of_tail hc hd, ← hdeques, ← past_moved s hd]
  rfl

/-- `recover` puts the last messages of the past buffer back in front of the deque. -/
theorem recoverLoop_eq (k : ℕ) (v q : List (StampedMsg α)) (h : k ≤ v.length) :
    recoverLoop k (v, q) = (v.take (v.length - k), v.drop (v.length - k) ++ q) := by
  induction k generalizing v q with
  | zero => simp [recoverLoop]
  | succ k ih =>
    obtain ⟨w, m, rfl⟩ := List.eq_nil_or_concat v |>.resolve_left (by rintro rfl; simp at h)
    rw [List.concat_eq_append] at h ⊢
    rw [List.length_append, List.length_singleton] at h
    have hlen : (w ++ [m]).length - (k + 1) = w.length - k := by simp
    rw [recoverLoop, List.dropLast_concat, List.getLast?_concat, ih _ _ (by omega), hlen,
      List.take_append_of_le_length (by omega), List.drop_append_of_le_length (by omega)]
    simp

theorem recoverAll_deques (s : ApproximateTime n α) : s.recoverAll.deques = s.held := by
  funext i
  show (recoverLoop _ _).2 = _
  rw [recoverLoop_eq _ _ _ le_rfl, Nat.sub_self]
  rfl

theorem recoverAll_past (s : ApproximateTime n α) : s.recoverAll.past = fun _ => [] := by
  funext i
  show (recoverLoop _ _).1 = _
  rw [recoverLoop_eq _ _ _ le_rfl, Nat.sub_self]
  rfl

theorem counted_recoverAll (s : ApproximateTime n α) : Counted s.recoverAll := rfl

/-- Giving up the search over virtual times takes back exactly what it moved. -/
theorem recoverMoves_advance (hc : Counted s) {moves : Fin (n + 1) → ℕ}
    (h : ∀ i, moves i ≤ (s.deques i).length) : (s.advance moves).recoverMoves moves = some s := by
  have hloop (i : Fin (n + 1)) :
      recoverLoop (moves i) ((s.advance moves).past i, (s.advance moves).deques i) =
        (s.past i, s.deques i) := by
    have hlen : ((s.past i) ++ (s.deques i).take (moves i)).length - moves i = (s.past i).length := by
      rw [List.length_append, List.length_take_of_le (h i)]
      omega
    show recoverLoop (moves i) (s.past i ++ (s.deques i).take (moves i), (s.deques i).drop (moves i))
      = _
    rw [recoverLoop_eq _ _ _ (by rw [List.length_append, List.length_take_of_le (h i)]; omega), hlen,
      List.take_left, List.drop_left, List.take_append_drop]
  have hmoves : ∀ i, moves i ≤ ((s.advance moves).past i).length := fun i => by
    show _ ≤ (s.past i ++ (s.deques i).take (moves i)).length
    rw [List.length_append, List.length_take_of_le (h i)]
    omega
  rw [recoverMoves, if_pos hmoves]
  simp only [hloop]
  rw [← hc]
  rfl

theorem publishCandidate_eq (h : ∀ i, s.held i ≠ []) :
    s.publishCandidate = some ([s.candidate], s.published) := by
  have hheld : recoverAll { s with candidate := Tuple.empty, pivot := none } =
      { s with
        candidate := Tuple.empty
        pivot := none
        past := fun _ => []
        deques := s.held
        numNonEmptyDeques := countNonEmpty s.held } := by
    have hd := recoverAll_deques { s with candidate := Tuple.empty, pivot := none }
    have hp := recoverAll_past { s with candidate := Tuple.empty, pivot := none }
    have hn := counted_recoverAll { s with candidate := Tuple.empty, pivot := none }
    rw [Counted, hd] at hn
    simp only [recoverAll] at hd hp hn ⊢
    rw [hn, hd, hp]
    rfl
  rw [publishCandidate, recoverAndDelete, hheld, if_pos h]
  rfl

/-! ## The search from a pivot -/

/-- What holds while there is a pivot. -/
structure Search (s : ApproximateTime n α) (q : Fin (n + 1)) : Prop where
  pivot_eq : s.pivot = some q
  candidate_eq : ∀ i, s.candidate i = (s.held i).head?
  held_ne : ∀ i, s.held i ≠ []
  past_pivot : s.past q = []
  pivot_time : ∀ m, (s.deques q).head? = some m → m.stamp = s.pivotTime
  undropped : ∀ i, s.hasDroppedMessages i = false

namespace Search

variable {q : Fin (n + 1)}

/-- The message of the pivot stands at the front of its deque. -/
theorem pivot_front (h : Search s q) :
    ∃ m rest, s.deques q = m :: rest ∧ s.candidate q = some m ∧ m.stamp = s.pivotTime := by
  have hne := h.held_ne q
  have hcand := h.candidate_eq q
  rw [held, h.past_pivot, List.nil_append] at hne hcand
  obtain ⟨m, rest, hd⟩ := List.exists_cons_of_ne_nil hne
  rw [hd] at hcand
  exact ⟨m, rest, hd, hcand, h.pivot_time m (by rw [hd]; rfl)⟩

/-- Moving fronts of other deques aside keeps it. -/
theorem advance (h : Search s q) {moves : Fin (n + 1) → ℕ} (hq : moves q = 0) :
    Search (s.advance moves) q where
  pivot_eq := h.pivot_eq
  candidate_eq i := by
    rw [held_advance]
    exact h.candidate_eq i
  held_ne i := by
    rw [held_advance]
    exact h.held_ne i
  past_pivot := by
    show s.past q ++ (s.deques q).take (moves q) = []
    rw [h.past_pivot, hq]
    rfl
  pivot_time m hm := by
    have hdrop : (s.advance moves).deques q = s.deques q := by
      show (s.deques q).drop (moves q) = _
      rw [hq, List.drop_zero]
    rw [hdrop] at hm
    exact h.pivot_time m hm
  undropped := h.undropped

theorem moved (h : Search s q) {i : Fin (n + 1)} (hi : i ≠ q) : Search (s.moved i) q :=
  h.advance (by simp [Ne.symm hi])

end Search

theorem getVirtualTime_of_cons {i : Fin (n + 1)} {m : StampedMsg α} {rest : List (StampedMsg α)}
    (h : s.deques i = m :: rest) : s.getVirtualTime p i = some m.stamp := by
  rw [getVirtualTime, h]

/-- The virtual time of an empty deque is no earlier than the pivot. -/
theorem getVirtualTime_of_nil {i : Fin (n + 1)} (h : s.deques i = []) {t : ℤ}
    (ht : s.getVirtualTime p i = some t) : ∃ m, (s.past i).getLast? = some m ∧
      t = max (m.stamp + p.interMessageLowerBounds i) s.pivotTime := by
  rw [getVirtualTime, h] at ht
  obtain ⟨m, hm, rfl⟩ := Option.map_eq_some_iff.mp ht
  refine ⟨m, hm, ?_⟩
  split
  · omega
  · omega

theorem virtualTimes_eq (h : ∀ i, s.held i ≠ []) : ∃ times, s.virtualTimes p = some times ∧
    ∀ i, s.getVirtualTime p i = some (times i) := by
  have hsome (i : Fin (n + 1)) : (s.getVirtualTime p i).isSome := by
    cases hd : s.deques i with
    | cons m rest => rw [getVirtualTime_of_cons hd]; rfl
    | nil =>
      have hne := h i
      rw [held, hd, List.append_nil] at hne
      rw [getVirtualTime, hd]
      simpa using hne
  refine ⟨fun i => (s.getVirtualTime p i).get (hsome i), ?_, fun i => ?_⟩
  · rw [virtualTimes, dif_pos hsome]
  · rw [Option.some_get]

/-- Where the cost of one start time is too high and that of another is not, the other one is
later. -/
theorem lt_of_notBetter {e t t' : ℤ} (h : s.notBetter p e t = true) (h' : s.notBetter p e t' = false) :
    t < t' := by
  rw [notBetter, decide_eq_true_eq] at h
  rw [notBetter, decide_eq_false_iff_not, not_le] at h'
  have hlt : ((t - s.candidateStart : ℤ) : ℚ) < ((t' - s.candidateStart : ℤ) : ℚ) := h.trans_lt h'
  have := Rat.intCast_lt_intCast.mp hlt
  omega

/-- **A round of the search over virtual times**: the candidate is published, the search is
given up and everything is as it was before it, or the oldest front is moved aside. The tests
are each other's negation at the pivot, so the pivot's front is never moved. -/
theorem virtualSearch_step {q : Fin (n + 1)} (hc : Counted s) (hs : Search s q)
    {moves : Fin (n + 1) → ℕ} (hq : moves q = 0) (hmoves : ∀ i, moves i ≤ (s.deques i).length)
    (fuel : ℕ) : ∃ times, (∀ i, (s.advance moves).getVirtualTime p i = some (times i)) ∧
      ((s.notBetter p (boundary times true).2 s.pivotTime = true ∧
          virtualSearch p s.numNonEmptyDeques (fuel + 1) (s.advance moves) moves =
            some ([s.candidate], s.published)) ∨
        virtualSearch p s.numNonEmptyDeques (fuel + 1) (s.advance moves) moves = some ([], s) ∨
        ∃ i m rest, i ≠ q ∧ (s.advance moves).deques i = m :: rest ∧
          m.stamp = (boundary times false).2 ∧ m.stamp < s.pivotTime ∧
          s.notBetter p (boundary times true).2 m.stamp = true ∧
          virtualSearch p s.numNonEmptyDeques (fuel + 1) (s.advance moves) moves =
            virtualSearch p s.numNonEmptyDeques fuel
              (s.advance (Function.update moves i (moves i + 1)))
              (Function.update moves i (moves i + 1))) := by
  have hsa : Search (s.advance moves) q := hs.advance hq
  obtain ⟨times, htimes, hat⟩ := virtualTimes_eq (p := p) hsa.held_ne
  refine ⟨times, hat, ?_⟩
  rw [virtualSearch, htimes]
  simp only [Option.bind_eq_bind, Option.bind_some, notBetter_advance]
  by_cases hopt : s.notBetter p (boundary times true).2 s.pivotTime = true
  · refine .inl ⟨hopt, ?_⟩
    rw [if_pos (by exact hopt), publishCandidate_eq hsa.held_ne, published_advance]
    rfl
  · rw [if_neg (by exact hopt)]
    by_cases hgive : s.notBetter p (boundary times true).2 (boundary times false).2 = true
    · refine .inr (.inr ?_)
      have hlt : (boundary times false).2 < s.pivotTime :=
        lt_of_notBetter hgive (by simpa using hopt)
      -- the front that starts the interval is a real one, and not the pivot's
      have hstart := hat (boundary times false).1
      rw [← earliest_time times] at hstart
      have hne : (boundary times false).1 ≠ q := fun heq => by
        obtain ⟨m, rest, hd, -, hm⟩ := hsa.pivot_front
        rw [heq, getVirtualTime_of_cons hd] at hstart
        have hm' : m.stamp = s.pivotTime := hm
        have := Option.some.inj hstart
        omega
      cases hd : (s.advance moves).deques (boundary times false).1 with
      | nil =>
        obtain ⟨m, -, ht⟩ := getVirtualTime_of_nil hd hstart
        have ht' : (boundary times false).2 =
          max (m.stamp + p.interMessageLowerBounds (boundary times false).1) s.pivotTime := ht
        omega
      | cons m rest =>
        rw [getVirtualTime_of_cons hd] at hstart
        have hm := Option.some.inj hstart
        have hmove := dequeMoveFrontToPast_eq (counted_advance s moves)
          (i := (boundary times false).1) (by rw [hd]; exact List.cons_ne_nil _ _)
        rw [advance_moved] at hmove
        refine ⟨_, m, rest, hne, hd, hm, hm ▸ hlt, hm ▸ hgive, ?_⟩
        have hpivot : (s.advance moves).pivot = some q := hsa.pivot_eq
        rw [if_neg (by simpa using hgive), if_pos ⟨by rw [hpivot]; simpa using hne, hlt⟩, hmove]
        rfl
    · refine .inr (.inl ?_)
      rw [if_pos (by simpa using hgive), recoverMoves_advance hc hmoves]
      simp

/-- The search over virtual times ends: it publishes, or leaves everything as it was. -/
theorem virtualSearch_ends {q : Fin (n + 1)} (hc : Counted s) (hs : Search s q)
    {moves : Fin (n + 1) → ℕ} (hq : moves q = 0) (hmoves : ∀ i, moves i ≤ (s.deques i).length)
    {fuel : ℕ} (hfuel : total (s.advance moves).deques < fuel) :
    virtualSearch p s.numNonEmptyDeques fuel (s.advance moves) moves =
        some ([s.candidate], s.published) ∨
      virtualSearch p s.numNonEmptyDeques fuel (s.advance moves) moves = some ([], s) := by
  induction fuel generalizing moves with
  | zero => omega
  | succ fuel ih =>
    obtain ⟨times, -, ⟨-, hpub⟩ | hgive | ⟨i, m, rest, hi, hd, -, -, -, hnext⟩⟩ :=
      virtualSearch_step (p := p) hc hs hq hmoves fuel
    · exact .inl hpub
    · exact .inr hgive
    · have hlen : moves i < (s.deques i).length := by
        have hd' : (s.deques i).drop (moves i) = m :: rest := hd
        by_contra hle
        rw [List.drop_eq_nil_of_le (by omega)] at hd'
        cases hd'
      have htotal : total (s.advance (Function.update moves i (moves i + 1))).deques + 1 =
          total (s.advance moves).deques := by
        have h := total_update (s.advance moves).deques i rest
        rw [hd, List.length_cons] at h
        rw [← advance_moved, deques_moved, hd, List.tail_cons]
        omega
      rw [hnext]
      refine ih (by rw [Function.update_of_ne (Ne.symm hi)]; exact hq) (fun j => ?_) (by omega)
      by_cases hj : j = i
      · subst hj
        rw [Function.update_self]
        omega
      · rw [Function.update_of_ne hj]
        exact hmoves j

/-! ## An iteration -/

/-- The representation invariant: the counter is right, and there is a search from a pivot or
nothing is set aside. -/
def Inv (s : ApproximateTime n α) : Prop :=
  Counted s ∧ ((s.pivot = none ∧ ∀ i, s.past i = []) ∨ ∃ q, Search s q)

/-- The earliest of the fronts. -/
abbrev first (fronts : Fin (n + 1) → StampedMsg α) : Fin (n + 1) × ℤ :=
  boundary (fun i => (fronts i).stamp) false

/-- The latest of the fronts. -/
abbrev last (fronts : Fin (n + 1) → StampedMsg α) : Fin (n + 1) × ℤ :=
  boundary (fun i => (fronts i).stamp) true

/-- There is no pivot, and the fronts are no candidate. -/
def drops (p : Parameters n) (s : ApproximateTime n α) (fronts : Fin (n + 1) → StampedMsg α) :
    Prop :=
  s.pivot = none ∧ (p.maxIntervalDuration < (last fronts).2 - (first fronts).2 ∨
    s.hasDroppedMessages (last fronts).1 = true)

/-- The state with the candidate the iteration goes on with: the one there is, or the fronts. -/
def settled (p : Parameters n) (s : ApproximateTime n α) (fronts : Fin (n + 1) → StampedMsg α) :
    ApproximateTime n α :=
  let s := s.clearDropped (last fronts).1
  if s.pivot = none then
    { s.makeCandidate fronts (first fronts).2 (last fronts).2 with
      pivot := some (last fronts).1
      pivotTime := (last fronts).2 }
  else if s.notBetter p (last fronts).2 (first fronts).2 then s
  else s.makeCandidate fronts (first fronts).2 (last fronts).2

section Iteration

variable {fronts : Fin (n + 1) → StampedMsg α} {checks : Checks n α}

theorem exists_fronts (h : ∀ i, s.deques i ≠ []) :
    ∃ f, s.fronts = some f ∧ ∀ i, (s.deques i).head? = some (f i) :=
  ⟨_, by rw [ApproximateTime.fronts, dif_pos h], fun i => List.head?_eq_some_head (h i)⟩

theorem settled_deques : (settled p s fronts).deques = s.deques := by
  rw [settled]
  split_ifs <;> rfl

theorem counted_settled (hc : Counted s) : Counted (settled p s fronts) := by
  rw [settled]
  split_ifs <;> exact hc

/-- An iteration drops the first of the fronts, or moves it aside below the candidate and
checks. -/
theorem iteration_eq (checks : Checks n α) (hc : Counted s) (hall : ∀ i, s.deques i ≠ [])
    (hfronts : s.fronts = some fronts) :
    (drops p s fronts → iteration p checks s =
      some ([], (s.clearDropped (last fronts).1).deleted (first fronts).1)) ∧
    (¬ drops p s fronts → (settled p s fronts).pivot ≠ none → iteration p checks s =
      checks ((settled p s fronts).moved (first fronts).1) (first fronts).1 (last fronts).2) := by
  have hflag : (s.clearDropped (last fronts).1).hasDroppedMessages (last fronts).1 =
      s.hasDroppedMessages (last fronts).1 := if_neg (by simp)
  have hdel : (s.clearDropped (last fronts).1).dequeDeleteFront (first fronts).1 =
      some ((s.clearDropped (last fronts).1).deleted (first fronts).1) :=
    dequeDeleteFront_eq (s := s.clearDropped (last fronts).1) hc (hall _)
  have hmove : (settled p s fronts).dequeMoveFrontToPast (first fronts).1 =
      some ((settled p s fronts).moved (first fronts).1) :=
    dequeMoveFrontToPast_eq (counted_settled hc) (by rw [settled_deques]; exact hall _)
  constructor
  · rintro ⟨hpivot, hbad⟩
    have hpivot' : (s.clearDropped (last fronts).1).pivot = none := hpivot
    rw [iteration, searchStep, hfronts]
    simp only [Option.bind_eq_bind, Option.bind_some, hpivot', if_true]
    by_cases hspan : p.maxIntervalDuration < (last fronts).2 - (first fronts).2
    · rw [if_pos hspan, hdel]
      rfl
    · rw [if_neg hspan, if_pos (by rw [hflag]; exact hbad.resolve_left hspan), hdel]
      rfl
  · intro hkeep hset
    have hset' : ((settled p s fronts).moved (first fronts).1).pivot ≠ none := hset
    suffices hstep : s.searchStep p = some ((settled p s fronts).moved (first fronts).1,
        some ((first fronts).1, (last fronts).2)) by
      rw [iteration, hstep]
      simp only [Option.bind_eq_bind, Option.bind_some, if_neg hset']
    rw [searchStep, hfronts]
    simp only [Option.bind_eq_bind, Option.bind_some]
    by_cases hpivot : (s.clearDropped (last fronts).1).pivot = none
    · have hgood := not_or.mp fun h => hkeep ⟨hpivot, h⟩
      rw [settled, if_pos hpivot] at hmove ⊢
      rw [if_pos hpivot, if_neg hgood.1, if_neg (by rw [hflag]; exact hgood.2), hmove]
      rfl
    · rw [if_neg hpivot]
      by_cases hnot : (s.clearDropped (last fronts).1).notBetter p (last fronts).2 (first fronts).2
      · rw [settled, if_neg hpivot, if_pos hnot] at hmove ⊢
        rw [if_pos hnot, hmove]
        rfl
      · rw [settled, if_neg hpivot, if_neg hnot] at hmove ⊢
        rw [if_neg hnot, hmove]
        rfl

/-- A candidate that is made of the fronts is what is held in front. -/
theorem search_settled (hinv : Inv s) (hheads : ∀ i, (s.deques i).head? = some (fronts i))
    (hkeep : ¬ drops p s fronts) : ∃ q, Search (settled p s fronts) q := by
  have hne (i : Fin (n + 1)) : s.deques i ≠ [] := fun h => by
    have := hheads i
    rw [h] at this
    cases this
  rw [settled]
  obtain ⟨hpivot, -⟩ | ⟨q, hs⟩ := hinv.2
  · have hgood := not_or.mp fun h => hkeep ⟨hpivot, h⟩
    rw [if_pos (by exact hpivot)]
    refine ⟨(last fronts).1, rfl, fun i => (hheads i).symm, hne, rfl, fun m hm => ?_, fun i => ?_⟩
    · have hm' := (hheads (last fronts).1).symm.trans hm
      rw [← Option.some.inj hm']
      exact (latest_time fun i => (fronts i).stamp).symm
    · show (if i ≠ (last fronts).1 then false else s.hasDroppedMessages i) = false
      split_ifs with hi
      · rfl
      · rw [not_not.mp hi]
        simpa using hgood.2
  · have hflags : ∀ i, (s.clearDropped (last fronts).1).hasDroppedMessages i = false := fun i => by
      show (if i ≠ (last fronts).1 then false else s.hasDroppedMessages i) = false
      split_ifs
      · rfl
      · exact hs.undropped i
    have hpivot : ¬ (s.clearDropped (last fronts).1).pivot = none := by
      show ¬ s.pivot = none
      rw [hs.pivot_eq]
      simp
    rw [if_neg hpivot]
    split_ifs
    · exact ⟨q, hs.pivot_eq, hs.candidate_eq, hs.held_ne, hs.past_pivot, hs.pivot_time, hflags⟩
    · exact ⟨q, hs.pivot_eq, fun i => (hheads i).symm, hne, rfl, hs.pivot_time, hflags⟩

/-- Checks that publish the candidate, or leave the state as it is while the pivot's own
message was not moved. -/
def Sound (checks : Checks n α) : Prop :=
  ∀ (u : ApproximateTime n α) (q i : Fin (n + 1)) (e : ℤ), Counted u → Search u q →
    checks (u.moved i) i e = some ([u.candidate], u.published) ∨
      (i ≠ q ∧ checks (u.moved i) i e = some ([], u.moved i))

theorem publishCandidate_moved {u : ApproximateTime n α} {q : Fin (n + 1)} (hs : Search u q)
    (i : Fin (n + 1)) : (u.moved i).publishCandidate = some ([u.candidate], u.published) := by
  rw [publishCandidate_eq fun j => by rw [moved, held_advance]; exact hs.held_ne j, moved,
    published_advance]
  rfl

theorem sound_publishChecks (p : Parameters n) :
    Sound (publishChecks p : Checks n α) := by
  intro u q i e hc hs
  have hpivot : (u.moved i).pivot = some q := hs.pivot_eq
  rw [publishChecks, hpivot]
  by_cases hi : i = q
  · rw [if_pos (by rw [hi]), publishCandidate_moved hs]
    exact .inl rfl
  · rw [if_neg (by simpa using hi)]
    split_ifs
    · exact .inl (publishCandidate_moved hs i)
    · have hzero := advance_zero (counted_moved u i)
      have hfuel : total ((u.moved i).advance fun _ => 0).deques < total (u.moved i).deques + 1 := by
        rw [hzero]
        omega
      have hend := virtualSearch_ends (p := p) (counted_moved u i) (hs.moved hi) rfl
        (fun _ => Nat.zero_le _) hfuel
      rw [hzero] at hend
      obtain hpub | hgive := hend
      · rw [hpub, moved, published_advance]
        exact .inl rfl
      · exact .inr ⟨hi, hgive⟩
    · exact .inr ⟨hi, rfl⟩

/-- **What an iteration does.** -/
theorem iteration_cases (hchecks : Sound checks) (hinv : Inv s) (hall : s.allNonEmpty = true) :
    ∃ f : Fin (n + 1) → StampedMsg α, (∀ i, (s.deques i).head? = some (f i)) ∧
      ((drops p s f ∧ iteration p checks s =
          some ([], (s.clearDropped (last f).1).deleted (first f).1)) ∨
        (¬ drops p s f ∧ ∃ q, Search (settled p s f) q ∧
          (iteration p checks s =
              some ([(settled p s f).candidate], (settled p s f).published) ∨
            ((first f).1 ≠ q ∧
              iteration p checks s = some ([], (settled p s f).moved (first f).1))))) := by
  have hne := (allNonEmpty_iff hinv.1).mp hall
  obtain ⟨f, hf, hheads⟩ := exists_fronts hne
  refine ⟨f, hheads, ?_⟩
  obtain ⟨hdrop, hkeep⟩ := iteration_eq (p := p) checks hinv.1 hne hf
  by_cases h : drops p s f
  · exact .inl ⟨h, hdrop h⟩
  · obtain ⟨q, hs⟩ := search_settled hinv hheads h
    refine .inr ⟨h, q, hs, ?_⟩
    rw [hkeep h (by rw [hs.pivot_eq]; simp)]
    exact hchecks _ q _ _ (counted_settled hinv.1) hs

end Iteration

end Agnocast.MessageFilters.ApproximateTime
