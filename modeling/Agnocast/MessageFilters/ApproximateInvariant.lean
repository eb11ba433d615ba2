import Agnocast.MessageFilters.ApproximateSteps

/-!
# The message filters — the representation invariant of ApproximateTime

* `Consumes`            — what is held only loses messages from the front, and what is emitted is
  among these, in order.
* `iteration_spec`      — no assertion fails in an iteration, the invariant stays, and the loop
  comes closer to its end.
* `addWith_spec`        — the same for an add; `addWith_cases` tells what an add does.
* `approximate_time_invariant` — the invariant after any adds.
* `approximate_search_ends` — the loops of an add end: every iteration that they come to does, and
  brings them closer to the end.
-/

namespace Agnocast.MessageFilters.ApproximateTime

variable {n : ℕ} {α : Type} {p : Parameters n} {s : ApproximateTime n α}

section Iteration

variable {fronts : Fin (n + 1) → StampedMsg α} {checks : Checks n α}

/-! ## What an iteration keeps -/

/-- Of what was held, a part is gone from the front; what was emitted is among it, in order. -/
def Consumes (s : ApproximateTime n α) (out : List (Tuple (Fin (n + 1)) α))
    (s' : ApproximateTime n α) : Prop :=
  ∀ i, ∃ gone emitted : List (StampedMsg α), s.held i = gone ++ s'.held i ∧
    (out.map fun t => t i) = emitted.map some ∧ emitted.Sublist gone

namespace Consumes

variable {s₁ s₂ : ApproximateTime n α} {out out' : List (Tuple (Fin (n + 1)) α)}

theorem trans (h : Consumes s out s₁) (h' : Consumes s₁ out' s₂) :
    Consumes s (out ++ out') s₂ := by
  intro i
  obtain ⟨gone, emitted, hheld, hmap, hsub⟩ := h i
  obtain ⟨gone', emitted', hheld', hmap', hsub'⟩ := h' i
  refine ⟨gone ++ gone', emitted ++ emitted', ?_, ?_, hsub.append hsub'⟩
  · rw [hheld, hheld', List.append_assoc]
  · rw [List.map_append, List.map_append, hmap, hmap']

/-- Where nothing is emitted. -/
theorem of_suffix (h : ∀ i, ∃ gone, s.held i = gone ++ s₁.held i) : Consumes s [] s₁ := by
  intro i
  obtain ⟨gone, hheld⟩ := h i
  exact ⟨gone, [], hheld, rfl, List.nil_sublist _⟩

theorem refl (s : ApproximateTime n α) : Consumes s [] s := of_suffix fun _ => ⟨[], rfl⟩

theorem length_le (h : Consumes s out s₁) (i : Fin (n + 1)) :
    (s₁.held i).length ≤ (s.held i).length := by
  obtain ⟨gone, -, hheld, -⟩ := h i
  rw [hheld, List.length_append]
  omega

end Consumes

theorem held_settled (i : Fin (n + 1)) : ∃ gone, s.held i = gone ++ (settled p s fronts).held i := by
  rw [settled]
  split_ifs
  · exact ⟨s.past i, rfl⟩
  · exact ⟨[], rfl⟩
  · exact ⟨s.past i, rfl⟩

theorem consumes_settled : Consumes s [] (settled p s fronts) := .of_suffix held_settled

theorem consumes_moved (i : Fin (n + 1)) : Consumes s [] (s.moved i) :=
  .of_suffix fun j => ⟨[], by rw [moved, held_advance, List.nil_append]⟩

theorem consumes_deleted (hpast : ∀ i, s.past i = []) (i : Fin (n + 1)) :
    Consumes s [] (s.deleted i) := by
  refine .of_suffix fun j => ⟨if j = i then (s.deques i).take 1 else [], ?_⟩
  show s.past j ++ s.deques j = _ ++ (s.past j ++ Function.update s.deques i (s.deques i).tail j)
  rw [hpast]
  split_ifs with hj
  · subst hj
    rw [Function.update_self, List.nil_append, List.nil_append, ← List.drop_one,
      List.take_append_drop]
  · rw [Function.update_of_ne hj]
    rfl

theorem consumes_published {q : Fin (n + 1)} (hs : Search s q) :
    Consumes s [s.candidate] s.published := by
  intro i
  obtain ⟨m, rest, hd⟩ := List.exists_cons_of_ne_nil (hs.held_ne i)
  have hcand := hs.candidate_eq i
  rw [hd] at hcand
  refine ⟨[m], [m], ?_, by rw [List.map_singleton, hcand]; rfl, List.Sublist.refl _⟩
  show s.held i = [m] ++ ([] ++ (s.held i).tail)
  rw [hd]
  rfl

/-- How far a state is from the end of the loop. -/
def measure (s : ApproximateTime n α) : ℕ :=
  total s.held * (total s.held + 2) + total s.deques

theorem total_le {a b : Fin (n + 1) → List (StampedMsg α)}
    (h : ∀ i, (a i).length ≤ (b i).length) : total a ≤ total b :=
  Finset.sum_le_sum fun i _ => h i

theorem total_lt {a b : Fin (n + 1) → List (StampedMsg α)}
    (h : ∀ i, (a i).length ≤ (b i).length) (i : Fin (n + 1))
    (hi : (a i).length < (b i).length) : total a < total b :=
  Finset.sum_lt_sum (fun i _ => h i) ⟨i, Finset.mem_univ i, hi⟩

theorem total_deques_le (s : ApproximateTime n α) : total s.deques ≤ total s.held :=
  total_le fun i => by
    rw [held, List.length_append]
    omega

theorem measure_lt_of_held {s' : ApproximateTime n α} (h : total s'.held < total s.held) :
    measure s' < measure s := by
  have hd := total_deques_le s'
  have hmul : total s'.held * (total s'.held + 2) ≤ total s'.held * (total s.held + 1) :=
    Nat.mul_le_mul_left _ (by omega)
  have hmul' : (total s'.held + 1) * (total s.held + 1) ≤ total s.held * (total s.held + 1) :=
    Nat.mul_le_mul_right _ h
  rw [measure, measure]
  rw [Nat.add_mul] at hmul'
  have hsplit : total s.held * (total s.held + 2) =
      total s.held * (total s.held + 1) + total s.held := by
    rw [Nat.mul_add, Nat.mul_add]
    omega
  omega

theorem measure_lt_of_deques {s' : ApproximateTime n α} (h : total s'.held ≤ total s.held)
    (hd : total s'.deques < total s.deques) : measure s' < measure s :=
  Nat.add_lt_add_of_le_of_lt (Nat.mul_le_mul h (by omega)) hd

theorem measure_le (s : ApproximateTime n α) : measure s ≤ s.processFuel := by
  have hd := total_deques_le s
  show measure s ≤ (total s.held + 1) * (total s.held + 2)
  rw [measure, Nat.add_mul]
  omega

/-- **An iteration does not fail**, keeps the invariant, and comes closer to the end. -/
theorem iteration_spec (hchecks : Sound checks) (hinv : Inv s) (hall : s.allNonEmpty = true) :
    ∃ out s', iteration p checks s = some (out, s') ∧ Inv s' ∧ Consumes s out s' ∧
      measure s' < measure s := by
  have hne := (allNonEmpty_iff hinv.1).mp hall
  obtain ⟨f, -, ⟨hdrop, hit⟩ | ⟨-, q, hs, hit | ⟨hi, hit⟩⟩⟩ := iteration_cases (p := p) hchecks hinv hall
  · -- without a pivot the front of a deque is what is held in front
    have hpast := (hinv.2.resolve_right fun ⟨q, hs⟩ => by
      have hpivot := hdrop.1
      rw [hs.pivot_eq] at hpivot
      cases hpivot).2
    have hcons : Consumes s [] ((s.clearDropped (last f).1).deleted (first f).1) :=
      consumes_deleted (s := s.clearDropped (last f).1) hpast _
    refine ⟨_, _, hit, ⟨rfl, .inl ⟨hdrop.1, hpast⟩⟩, hcons, ?_⟩
    refine measure_lt_of_held (total_lt hcons.length_le (first f).1 ?_)
    show (s.past _ ++ Function.update s.deques _ _ _).length < (s.past _ ++ s.deques _).length
    rw [Function.update_self, List.length_append, List.length_append, List.length_tail]
    have hpos := List.length_pos_iff.mpr (hne (first f).1)
    show _ + ((s.deques (first f).1).length - 1) < _
    omega
  · have hcons := consumes_settled.trans (consumes_published hs)
    refine ⟨_, _, hit, ⟨rfl, .inl ⟨rfl, fun _ => rfl⟩⟩, hcons, ?_⟩
    refine measure_lt_of_held (total_lt hcons.length_le (first f).1 ?_)
    show ([] ++ ((settled p s f).held _).tail).length < _
    rw [List.nil_append, List.length_tail]
    have hpos := List.length_pos_iff.mpr (hs.held_ne (first f).1)
    have hset : Consumes s [] (settled p s f) := consumes_settled
    have hle := hset.length_le (first f).1
    omega
  · have hcons := consumes_settled.trans (consumes_moved (s := settled p s f) (first f).1)
    refine ⟨_, _, hit, ⟨rfl, .inr ⟨q, hs.moved hi⟩⟩, hcons, ?_⟩
    refine measure_lt_of_deques (total_le hcons.length_le) ?_
    have htotal := total_update s.deques (first f).1 (s.deques (first f).1).tail
    have hpos := List.length_pos_iff.mpr (hne (first f).1)
    rw [List.length_tail] at htotal
    rw [deques_moved, settled_deques]
    omega

/-! ## The loop and `add` -/

theorem process_spec (hchecks : Sound checks) (hinv : Inv s) :
    ∃ out s', process p checks s = some (out, s') ∧ Inv s' ∧ Consumes s out s' ∧
      s'.allNonEmpty = false := by
  have hloop : ∃ out s', Loop.whileLoop allNonEmpty (iteration p checks) s.processFuel s =
      some (out, s') ∧ Inv s' ∧ s'.allNonEmpty = false := by
    refine Loop.whileLoop_spec (fun s hinv hall => ?_) hinv (measure_le s)
    obtain ⟨out, s', hit, hinv', -, hlt⟩ := iteration_spec (p := p) hchecks hinv hall
    exact ⟨out, s', hit, hinv', hlt⟩
  obtain ⟨out, s', hrun, hinv', hstop⟩ := hloop
  refine ⟨out, s', hrun, hinv', ?_, hstop⟩
  refine (Loop.steps_of_whileLoop hrun).1.invariant (P := fun s out s' => Inv s → Consumes s out s')
    (fun s _ => .refl s) (fun s out s₁ out' s₂ hall hit ih hinv => ?_) hinv
  obtain ⟨out₁, s₁', hit', hinv', hcons, -⟩ := iteration_spec (p := p) hchecks hinv hall
  rw [hit] at hit'
  obtain ⟨rfl, rfl⟩ := Prod.mk.inj (Option.some.inj hit')
  exact hcons.trans (ih hinv')

theorem held_pushBack (s : ApproximateTime n α) (i : Fin (n + 1)) (m : StampedMsg α) :
    (s.pushBack (i, m)).held = Function.update s.held i (s.held i ++ [m]) := by
  funext j
  show s.past j ++ Function.update s.deques i (s.deques i ++ [m]) j = _
  by_cases hj : j = i
  · subst hj
    rw [Function.update_self, Function.update_self, ← List.append_assoc]
    rfl
  · rw [Function.update_of_ne hj, Function.update_of_ne hj]
    rfl

theorem head?_append_of_ne_nil {l : List (StampedMsg α)} (h : l ≠ []) (m : StampedMsg α) :
    (l ++ [m]).head? = l.head? := by
  obtain ⟨m', rest, rfl⟩ := List.exists_cons_of_ne_nil h
  rfl

theorem inv_pushBack (hinv : Inv s) (a : Add (Fin (n + 1)) α) : Inv (s.pushBack a) := by
  obtain ⟨i, m⟩ := a
  constructor
  · have hcount := countNonEmpty_update s.deques i (s.deques i ++ [m])
    have hc : s.numNonEmptyDeques = countNonEmpty s.deques := hinv.1
    show (if (s.deques i).isEmpty then s.numNonEmptyDeques + 1 else s.numNonEmptyDeques) =
      countNonEmpty (Function.update s.deques i (s.deques i ++ [m]))
    rw [hc]
    split_ifs at hcount ⊢ <;> simp_all
  · refine hinv.2.imp (fun h => h) fun ⟨q, hs⟩ => ⟨q, ?_⟩
    have hheads (j : Fin (n + 1)) : ((s.pushBack (i, m)).held j).head? = (s.held j).head? := by
      rw [held_pushBack]
      by_cases hj : j = i
      · subst hj
        rw [Function.update_self, head?_append_of_ne_nil (hs.held_ne j)]
      · rw [Function.update_of_ne hj]
    refine ⟨hs.pivot_eq, fun j => ?_, fun j hnil => ?_, hs.past_pivot, fun m' hm' => ?_,
      hs.undropped⟩
    · rw [hheads]
      exact hs.candidate_eq j
    · have hhead := hheads j
      rw [hnil, List.head?_nil] at hhead
      exact hs.held_ne j (List.head?_eq_none_iff.mp hhead.symm)
    · have hdeque (t : ApproximateTime n α) (hp : t.past q = []) : t.deques q = t.held q := by
        rw [held, hp, List.nil_append]
      rw [hdeque (s.pushBack (i, m)) hs.past_pivot, hheads, ← hdeque s hs.past_pivot] at hm'
      exact hs.pivot_time m' hm'

theorem receive_spec (hchecks : Sound checks) (hinv : Inv s) (hstop : s.allNonEmpty = false)
    (a : Add (Fin (n + 1)) α) :
    ∃ out s', receive p s checks a = some (out, s') ∧ Inv s' ∧ Consumes (s.pushBack a) out s' ∧
      s'.allNonEmpty = false := by
  rw [receive]
  by_cases h : ((s.deques a.1).isEmpty && (s.pushBack a).allNonEmpty) = true
  · rw [if_pos h]
    exact process_spec hchecks (inv_pushBack hinv a)
  · rw [if_neg h]
    refine ⟨_, _, rfl, inv_pushBack hinv a, .refl _, ?_⟩
    cases hempty : (s.deques a.1).isEmpty with
    | true => simpa [hempty] using h
    | false =>
      have hsame : (s.pushBack a).numNonEmptyDeques = s.numNonEmptyDeques :=
        if_neg (by rw [hempty]; exact Bool.false_ne_true)
      rw [allNonEmpty, hsame]
      exact hstop

theorem counted_update_held {i : Fin (n + 1)} {m : StampedMsg α} {rest : List (StampedMsg α)}
    (h : s.held i = m :: rest) (hrest : rest ≠ []) :
    countNonEmpty (Function.update s.held i rest) = countNonEmpty s.held := by
  have hcount := countNonEmpty_update s.held i rest
  rw [h, if_neg (by simp), if_neg (by simpa using hrest)] at hcount
  omega

/-- Everything is back in the deques, less the oldest message of one input. -/
def overflowed (s : ApproximateTime n α) (i : Fin (n + 1)) : ApproximateTime n α :=
  { s with
    past := fun _ => []
    deques := Function.update s.held i (s.held i).tail
    numNonEmptyDeques := countNonEmpty s.held
    hasDroppedMessages := Function.update s.hasDroppedMessages i true }

/-- The state from which the search starts again. -/
abbrev cancelled (s : ApproximateTime n α) (i : Fin (n + 1)) : ApproximateTime n α :=
  { s.overflowed i with candidate := Tuple.empty, pivot := none }

theorem limitQueue_eq {i : Fin (n + 1)} (hover : s.overflows p i = true) :
    limitQueue p s checks i =
      if s.pivot = none then some ([], s.overflowed i)
      else process p checks (s.cancelled i) := by
  have hd := recoverAll_deques s
  have hp := recoverAll_past s
  have hn : s.recoverAll.numNonEmptyDeques = countNonEmpty s.held := by
    rw [← hd]
    rfl
  have hne : s.held i ≠ [] := fun h => by
    have hlen := congrArg List.length h
    rw [held, List.length_append, List.length_nil] at hlen
    rw [overflows, decide_eq_true_eq] at hover
    omega
  obtain ⟨m, rest, hm⟩ := List.exists_cons_of_ne_nil hne
  have hdi : s.recoverAll.deques i = m :: rest := by rw [hd, hm]
  rw [limitQueue, if_pos hover]
  simp only [hdi]
  rw [hd, hp, hn, cancelled, overflowed, hm]
  rfl

theorem held_overflowed (s : ApproximateTime n α) (i : Fin (n + 1)) :
    (s.overflowed i).held = Function.update s.held i (s.held i).tail := rfl

theorem consumes_overflowed (s : ApproximateTime n α) (i : Fin (n + 1)) :
    Consumes s [] (s.overflowed i) := by
  refine .of_suffix fun j => ⟨if j = i then (s.held i).take 1 else [], ?_⟩
  rw [held_overflowed]
  split_ifs with hj
  · subst hj
    rw [Function.update_self, ← List.drop_one, List.take_append_drop]
  · rw [Function.update_of_ne hj]
    rfl

theorem overflows_iff {i : Fin (n + 1)} :
    s.overflows p i = true ↔ p.queueSize < (s.held i).length := by
  rw [overflows, decide_eq_true_eq, held, List.length_append, Nat.add_comm]

/-- The queue that overflowed still has a message, so the counter stays right. -/
theorem counted_overflowed (hsize : 1 ≤ p.queueSize) {i : Fin (n + 1)}
    (hover : s.overflows p i = true) : countNonEmpty (s.overflowed i).deques = countNonEmpty s.held := by
  rw [overflows_iff] at hover
  obtain ⟨m, rest, hm⟩ := List.exists_cons_of_ne_nil (l := s.held i) fun h => by
    rw [h, List.length_nil] at hover
    omega
  have hrest : rest ≠ [] := List.ne_nil_of_length_pos (by
    rw [hm, List.length_cons] at hover
    omega)
  show countNonEmpty (Function.update s.held i (s.held i).tail) = _
  rw [hm, List.tail_cons, counted_update_held hm hrest]

theorem inv_cancelled (hsize : 1 ≤ p.queueSize) {i : Fin (n + 1)}
    (hover : s.overflows p i = true) : Inv (s.cancelled i) :=
  ⟨(counted_overflowed hsize hover).symm, .inl ⟨rfl, fun _ => rfl⟩⟩

/-- A queue that overflows gives up its oldest message, and the search starts again. -/
theorem limitQueue_spec (hchecks : Sound checks) (hinv : Inv s) (hstop : s.allNonEmpty = false)
    (hsize : 1 ≤ p.queueSize) (i : Fin (n + 1)) :
    ∃ out s', limitQueue p s checks i = some (out, s') ∧ Inv s' ∧ Consumes s out s' ∧
      s'.allNonEmpty = false ∧
      ((s.held i).length ≤ p.queueSize + 1 → (s'.held i).length ≤ p.queueSize) := by
  by_cases hover : s.overflows p i = true
  · have hlong := overflows_iff.mp hover
    have hcons := consumes_overflowed s i
    have hbound {out : List (Tuple (Fin (n + 1)) α)} {s' : ApproximateTime n α}
        (h : Consumes (s.overflowed i) out s') (hle : (s.held i).length ≤ p.queueSize + 1) :
        (s'.held i).length ≤ p.queueSize := by
      have hle' := h.length_le i
      rw [held_overflowed, Function.update_self, List.length_tail] at hle'
      omega
    rw [limitQueue_eq hover]
    by_cases hpivot : s.pivot = none
    · have hpast := (hinv.2.resolve_right fun ⟨q, hs⟩ => by
        rw [hs.pivot_eq] at hpivot
        cases hpivot).2
      have hheld : s.held = s.deques := by
        funext j
        rw [held, hpast, List.nil_append]
      rw [if_pos hpivot]
      refine ⟨_, _, rfl, ⟨(counted_overflowed hsize hover).symm, .inl ⟨hpivot, fun _ => rfl⟩⟩, hcons,
        ?_, hbound (.refl _)⟩
      show decide (countNonEmpty s.held = n + 1) = false
      rw [hheld, ← hinv.1]
      exact hstop
    · rw [if_neg hpivot]
      obtain ⟨out, s', hrun, hinv', hcons', hstop'⟩ := process_spec (p := p) hchecks
        (inv_cancelled hsize hover)
      exact ⟨out, s', hrun, hinv', hcons.trans hcons', hstop', hbound hcons'⟩
  · rw [limitQueue, if_neg hover]
    rw [overflows_iff, not_lt] at hover
    exact ⟨_, _, rfl, hinv, .refl s, hstop, fun _ => hover⟩

/-- Between adds: some deque is empty, and no queue is too long. -/
def Ready (p : Parameters n) (s : ApproximateTime n α) : Prop :=
  Inv s ∧ s.allNonEmpty = false ∧ ∀ i, (s.held i).length ≤ p.queueSize

theorem ready_new : Ready p (new : ApproximateTime n α) := by
  refine ⟨⟨?_, .inl ⟨rfl, fun _ => rfl⟩⟩, by simp [allNonEmpty, new], fun _ => Nat.zero_le _⟩
  show 0 = countNonEmpty _
  simp [countNonEmpty, new]

/-- **An add does not fail** and keeps the invariant. -/
theorem addWith_spec (hchecks : Sound checks) (hsize : 1 ≤ p.queueSize) (hs : Ready p s)
    (a : Add (Fin (n + 1)) α) :
    ∃ out s', addWith p checks s a = some (out, s') ∧ Ready p s' ∧
      Consumes (s.pushBack a) out s' := by
  obtain ⟨hinv, hstop, hlen⟩ := hs
  obtain ⟨out, s₁, hreceive, hinv₁, hcons, hstop₁⟩ := receive_spec (p := p) hchecks hinv hstop a
  obtain ⟨out', s₂, hlimit, hinv₂, hcons', hstop₂, hbound⟩ :=
    limitQueue_spec (p := p) hchecks hinv₁ hstop₁ hsize a.1
  refine ⟨out ++ out', s₂, ?_, ⟨hinv₂, hstop₂, fun j => ?_⟩, hcons.trans hcons'⟩
  · rw [addWith, hreceive]
    simp only [Option.bind_eq_bind, Option.bind_some, hlimit]
    rfl
  · have hpush := hcons.length_le j
    rw [held_pushBack s a.1 a.2] at hpush
    by_cases hj : j = a.1
    · subst hj
      rw [Function.update_self, List.length_append, List.length_singleton] at hpush
      exact hbound (hpush.trans (Nat.succ_le_succ (hlen a.1)))
    · rw [Function.update_of_ne hj] at hpush
      exact (hcons'.length_le j).trans (hpush.trans (hlen j))

/-- The iterations of `process` with these checks. -/
abbrev Searches (p : Parameters n) (checks : Checks n α) :=
  Loop.Steps allNonEmpty (iteration p checks)

theorem searches_of_receive {a : Add (Fin (n + 1)) α} {out : List (Tuple (Fin (n + 1)) α)}
    {s' : ApproximateTime n α} (h : receive p s checks a = some (out, s')) :
    Searches p checks (s.pushBack a) out s' := by
  rw [receive] at h
  split at h
  · exact (Loop.steps_of_whileLoop h).1
  · obtain ⟨rfl, rfl⟩ := Prod.mk.inj (Option.some.inj h)
    exact .refl _

/-- An add to a queue that does not overflow. -/
theorem addWith_of_fits {a : Add (Fin (n + 1)) α} {out : List (Tuple (Fin (n + 1)) α)}
    {s' : ApproximateTime n α} (h : receive p s checks a = some (out, s'))
    (hfits : s'.overflows p a.1 = false) : addWith p checks s a = some (out, s') := by
  rw [addWith, h]
  simp only [Option.bind_eq_bind, Option.bind_some, limitQueue, hfits, Bool.false_eq_true, if_false,
    List.append_nil, Option.pure_def]

/-- **What an add does**: iterations, then nothing more, or the oldest message of the input goes,
with more iterations when there was a candidate. -/
theorem addWith_cases {a : Add (Fin (n + 1)) α} {out : List (Tuple (Fin (n + 1)) α)}
    {s' : ApproximateTime n α} (h : addWith p checks s a = some (out, s')) :
    ∃ out₁ s₁, Searches p checks (s.pushBack a) out₁ s₁ ∧
      ((s₁.overflows p a.1 = false ∧ out = out₁ ∧ s' = s₁) ∨
        (s₁.overflows p a.1 = true ∧ s₁.pivot = none ∧ out = out₁ ∧ s' = s₁.overflowed a.1) ∨
        (s₁.overflows p a.1 = true ∧ ∃ out₂, out = out₁ ++ out₂ ∧
          Searches p checks (s₁.cancelled a.1) out₂ s')) := by
  obtain ⟨⟨out₁, s₁⟩, hreceive, h⟩ := Option.bind_eq_some_iff.mp h
  obtain ⟨⟨out₂, s₂⟩, hlimit, h⟩ := Option.bind_eq_some_iff.mp h
  obtain ⟨rfl, rfl⟩ := Prod.mk.inj (Option.some.inj h)
  refine ⟨out₁, s₁, searches_of_receive hreceive, ?_⟩
  cases hover : s₁.overflows p a.1 with
  | true =>
    rw [limitQueue_eq hover] at hlimit
    split at hlimit
    · next hpivot =>
      obtain ⟨rfl, rfl⟩ := Prod.mk.inj (Option.some.inj hlimit)
      exact .inr (.inl ⟨rfl, hpivot, List.append_nil _, rfl⟩)
    · exact .inr (.inr ⟨rfl, out₂, rfl, (Loop.steps_of_whileLoop hlimit).1⟩)
  | false =>
    rw [limitQueue, if_neg (by rw [hover]; exact Bool.false_ne_true)] at hlimit
    obtain ⟨rfl, rfl⟩ := Prod.mk.inj (Option.some.inj hlimit)
    exact .inl ⟨rfl, List.append_nil _, rfl⟩

/-- The policy with these checks after any adds. -/
theorem tryFeed_addWith (hchecks : Sound checks) (hsize : 1 ≤ p.queueSize)
    (adds : List (Add (Fin (n + 1)) α)) :
    ∃ out s', tryFeed (addWith p checks) new adds = some (out, s') ∧ Ready p s' := by
  refine tryFeed_history (P := fun _ _ s => Ready p s) ready_new (fun _ _ s₁ a _ hs => ?_) adds
  obtain ⟨out, s', hadd, hs', -⟩ := addWith_spec hchecks hsize hs a
  exact ⟨out, s', hadd, hs'⟩

end Iteration

/-! ## After any adds -/

/-- **The representation invariant.** After any adds no assertion has failed; no input holds
more than the queue size; the counter is the number of deques that are not empty, and one is;
without a pivot nothing is set aside; with a pivot the candidate is what is held in front, the
pivot's own message is the front of its deque, and no flag is set. -/
theorem approximate_time_invariant (p : Parameters n) (hsize : 1 ≤ p.queueSize)
    (adds : List (Add (Fin (n + 1)) α)) :
    ∃ out s, run p adds = some (out, s) ∧
      (∀ i, (s.deques i).length + (s.past i).length ≤ p.queueSize) ∧
      s.numNonEmptyDeques = (Finset.univ.filter fun i => s.deques i ≠ []).card ∧
      s.numNonEmptyDeques < n + 1 ∧
      (s.pivot = none → ∀ i, s.past i = []) ∧
      (∀ q, s.pivot = some q →
        (∀ i, ∃ m, (s.past i ++ s.deques i).head? = some m ∧ s.candidate i = some m) ∧
        (∃ m, (s.deques q).head? = some m ∧ s.candidate q = some m) ∧
        ∀ i, s.hasDroppedMessages i = false) := by
  -- each bullet reads a part off the invariant of the run
  obtain ⟨out, s, hrun, ⟨hc, hpivot⟩, hstop, hlen⟩ :=
    tryFeed_addWith (sound_publishChecks p) hsize adds
  refine ⟨out, s, hrun, fun i => ?_, ?_, ?_, fun hnone => ?_, fun q hq => ?_⟩
  · have h := hlen i
    rw [held, List.length_append] at h
    omega
  · rw [hc, countNonEmpty, Finset.card_filter]
    refine Finset.sum_congr rfl fun i _ => ?_
    cases hd : s.deques i <;> simp
  · have hle : s.numNonEmptyDeques ≤ n + 1 := by
      rw [hc]
      exact countNonEmpty_le
    rw [allNonEmpty, decide_eq_false_iff_not] at hstop
    omega
  · rcases hpivot with ⟨-, hpast⟩ | ⟨q, hs⟩
    · exact hpast
    · rw [hs.pivot_eq] at hnone
      cases hnone
  · obtain ⟨hnone, -⟩ | ⟨q', hs⟩ := hpivot
    · rw [hnone] at hq
      cases hq
    · obtain rfl : q' = q := Option.some.inj (hs.pivot_eq.symm.trans hq)
      refine ⟨fun i => ?_, ?_, hs.undropped⟩
      · obtain ⟨m, rest, hd⟩ := List.exists_cons_of_ne_nil (hs.held_ne i)
        have hcand := hs.candidate_eq i
        rw [hd] at hcand
        rw [held] at hd
        exact ⟨m, by rw [hd]; rfl, hcand⟩
      · obtain ⟨m, rest, hd, hcand, -⟩ := hs.pivot_front
        exact ⟨m, by rw [hd]; rfl, hcand⟩

theorem approximate_time_invariant_of_two :
    ∃ out s, run ⟨1, 10, 1 / 10, fun _ => 0⟩
        ([(0, ⟨5, ()⟩), (1, ⟨7, ()⟩), (0, ⟨6, ()⟩)] : List (Add (Fin 2) Unit)) = some (out, s) ∧
      (∀ i, (s.deques i).length + (s.past i).length ≤ 1) ∧ s.numNonEmptyDeques < 2 := by
  obtain ⟨out, s, hrun, hlen, -, hlt, -⟩ := approximate_time_invariant
    ⟨1, 10, 1 / 10, fun _ => 0⟩ le_rfl
    ([(0, ⟨5, ()⟩), (1, ⟨7, ()⟩), (0, ⟨6, ()⟩)] : List (Add (Fin 2) Unit))
  exact ⟨out, s, hrun, hlen, hlt⟩

/-! ## The search ends -/

/-- The loop of `process` from here: no iteration that it comes to takes the front of an empty
deque, fails an assertion or searches forever over virtual times, each brings it closer to the
end, and it stops with an empty deque. -/
structure SearchEnds (p : Parameters n) (s : ApproximateTime n α) : Prop where
  iterates : ∀ out u, Searches p (publishChecks p) s out u → u.allNonEmpty = true →
    (∀ i, u.deques i ≠ []) ∧
      ∃ out' u', iteration p (publishChecks p) u = some (out', u') ∧ measure u' < measure u
  stops : ∃ out s', process p (publishChecks p) s = some (out, s') ∧
    Searches p (publishChecks p) s out s' ∧ s'.numNonEmptyDeques < n + 1

theorem lt_of_not_allNonEmpty {s : ApproximateTime n α} (hc : Counted s)
    (hstop : s.allNonEmpty = false) : s.numNonEmptyDeques < n + 1 := by
  have hle : s.numNonEmptyDeques ≤ n + 1 := by
    rw [hc]
    exact countNonEmpty_le
  rw [allNonEmpty, decide_eq_false_iff_not] at hstop
  omega

/-- Every state that the iterations come to has the invariant. -/
theorem inv_of_searches {checks : Checks n α} (hchecks : Sound checks) {s u : ApproximateTime n α}
    {out : List (Tuple (Fin (n + 1)) α)} (h : Searches p checks s out u) (hinv : Inv s) : Inv u := by
  induction h with
  | refl s => exact hinv
  | step hall hit _ ih =>
    obtain ⟨_, _, hit', hinv', -, -⟩ := iteration_spec (p := p) hchecks hinv hall
    rw [hit] at hit'
    obtain ⟨rfl, rfl⟩ := Prod.mk.inj (Option.some.inj hit')
    exact ih hinv'

theorem searchEnds_of_inv (p : Parameters n) {s : ApproximateTime n α} (hinv : Inv s) :
    SearchEnds p s where
  iterates out u hsteps hall := by
    have hinv' := inv_of_searches (sound_publishChecks p) hsteps hinv
    obtain ⟨out', u', hit, -, -, hlt⟩ :=
      iteration_spec (p := p) (sound_publishChecks p) hinv' hall
    exact ⟨(allNonEmpty_iff hinv'.1).mp hall, out', u', hit, hlt⟩
  stops := by
    obtain ⟨out, s', hrun, hinv', -, hstop⟩ := process_spec (p := p) (sound_publishChecks p) hinv
    exact ⟨out, s', hrun, (Loop.steps_of_whileLoop hrun).1, lt_of_not_allNonEmpty hinv'.1 hstop⟩

/-- **The search ends.** After any adds, a further message starts searches that end: the one for
the message, and the one for the queue that overflows. The add leaves an empty deque. -/
theorem approximate_search_ends (p : Parameters n) (hsize : 1 ≤ p.queueSize)
    (adds : List (Add (Fin (n + 1)) α)) (a : Add (Fin (n + 1)) α) :
    ∃ out s, run p adds = some (out, s) ∧ SearchEnds p (s.pushBack a) ∧
      (∀ out₁ s₁, receive p s (publishChecks p) a = some (out₁, s₁) →
        s₁.overflows p a.1 = true → SearchEnds p (s₁.cancelled a.1)) ∧
      ∃ out' s', add p s a = some (out', s') ∧ s'.numNonEmptyDeques < n + 1 := by
  have hsound := sound_publishChecks (α := α) p
  obtain ⟨out, s, hrun, hready⟩ := tryFeed_addWith hsound hsize adds
  refine ⟨out, s, hrun, searchEnds_of_inv p (inv_pushBack hready.1 a), fun out₁ s₁ hfirst hover =>
    ?_, ?_⟩
  · obtain ⟨_, _, hfirst', hinv, -⟩ := receive_spec (p := p) hsound hready.1 hready.2.1 a
    rw [hfirst] at hfirst'
    obtain ⟨rfl, rfl⟩ := Prod.mk.inj (Option.some.inj hfirst')
    exact searchEnds_of_inv p (inv_cancelled hsize hover)
  · obtain ⟨out', s', hadd, hready', -⟩ := addWith_spec hsound hsize hready a
    exact ⟨out', s', hadd, lt_of_not_allNonEmpty hready'.1.1 hready'.2.1⟩

/-- Messages out of order, with equal stamps, into queues of one message. -/
theorem approximate_search_ends_of_two :
    ∃ out s, run ⟨1, 10, 1 / 10, fun _ => 0⟩
        ([(0, ⟨5, ()⟩), (1, ⟨5, ()⟩), (0, ⟨3, ()⟩)] : List (Add (Fin 2) Unit)) = some (out, s) ∧
      ∃ out' s', add ⟨1, 10, 1 / 10, fun _ => 0⟩ s (1, ⟨4, ()⟩) = some (out', s') ∧
        s'.numNonEmptyDeques < 2 := by
  obtain ⟨out, s, hrun, -, -, hadd⟩ := approximate_search_ends ⟨1, 10, 1 / 10, fun _ => 0⟩ le_rfl
    ([(0, ⟨5, ()⟩), (1, ⟨5, ()⟩), (0, ⟨3, ()⟩)] : List (Add (Fin 2) Unit)) (1, ⟨4, ()⟩)
  exact ⟨out, s, hrun, hadd⟩

end Agnocast.MessageFilters.ApproximateTime
