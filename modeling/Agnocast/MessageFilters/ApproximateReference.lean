import Agnocast.MessageFilters.ApproximateOutput

/-!
# The message filters — the exhaustive search

The reference publishes a candidate only when the search from its pivot is exhausted by messages
that are there. What has not arrived yet is put behind the deques (`extend`): the steps of the
search look at the fronts, so they are the same before and after it.

* `publishExhausted`     — the checks of the reference.
* `reference`            — the reference after some adds.
* `iteration_extend`     — an iteration of the reference does the same on more messages.
* `steps_of_optimal`     — where no later combination of messages is better than the candidate
  and every input has a message after the pivot, the reference publishes the candidate.
-/

namespace Agnocast.MessageFilters.ApproximateTime

variable {n : ℕ} {α : Type} {p : Parameters n} {s : ApproximateTime n α}

/-- The publish checks without the two tests for early publication. -/
def publishExhausted : Checks n α := fun s startIndex _ =>
  if some startIndex = s.pivot then s.publishCandidate else some ([], s)

/-- The reference after these adds. -/
def reference (p : Parameters n) (adds : List (Add (Fin (n + 1)) α)) : Option (Signalled n α) :=
  tryFeed (addWith p publishExhausted) new adds

theorem publishExhausted_pivot {u : ApproximateTime n α} {q : Fin (n + 1)} (hs : Search u q)
    (e : ℤ) : publishExhausted (u.moved q) q e = some ([u.candidate], u.published) := by
  have hpivot : (u.moved q).pivot = some q := hs.pivot_eq
  rw [publishExhausted, hpivot, if_pos rfl, publishCandidate_moved hs]

theorem publishExhausted_of_ne {u : ApproximateTime n α} {q i : Fin (n + 1)} (hs : Search u q)
    (hi : i ≠ q) (e : ℤ) : publishExhausted (u.moved i) i e = some ([], u.moved i) := by
  have hpivot : (u.moved i).pivot = some q := hs.pivot_eq
  rw [publishExhausted, hpivot, if_neg (by simpa using hi)]

theorem sound_publishExhausted : Sound (publishExhausted : Checks n α) := by
  intro u q i e _ hs
  by_cases hi : i = q
  · subst hi
    exact .inl (publishExhausted_pivot hs e)
  · exact .inr ⟨hi, publishExhausted_of_ne hs hi e⟩

/-! ## More messages behind the deques -/

/-- These messages behind the deques. -/
def extend (s : ApproximateTime n α) (later : Fin (n + 1) → List (StampedMsg α)) :
    ApproximateTime n α :=
  { s with
    deques := fun i => s.deques i ++ later i
    numNonEmptyDeques := countNonEmpty fun i => s.deques i ++ later i }

section Extend

variable {later : Fin (n + 1) → List (StampedMsg α)} {f : Fin (n + 1) → StampedMsg α}

theorem counted_extend (s : ApproximateTime n α) (later : Fin (n + 1) → List (StampedMsg α)) :
    Counted (s.extend later) := rfl

theorem held_extend (i : Fin (n + 1)) : (s.extend later).held i = s.held i ++ later i :=
  (List.append_assoc ..).symm

/-- A state with other deques, counted anew, is determined by them. -/
theorem extend_congr {d : Fin (n + 1) → List (StampedMsg α)}
    (h : ∀ i, d i = s.deques i ++ later i) :
    { s with deques := d, numNonEmptyDeques := countNonEmpty d } = s.extend later := by
  obtain rfl : d = fun i => s.deques i ++ later i := funext h
  rfl

theorem deleted_extend {i : Fin (n + 1)} (h : s.deques i ≠ []) :
    (s.extend later).deleted i = (s.deleted i).extend later := by
  refine extend_congr (s := s.deleted i) fun j => ?_
  show Function.update (fun k => s.deques k ++ later k) i (s.deques i ++ later i).tail j =
    Function.update s.deques i (s.deques i).tail j ++ later j
  by_cases hj : j = i
  · subst hj
    rw [Function.update_self, Function.update_self, List.tail_append_of_ne_nil h]
  · rw [Function.update_of_ne hj, Function.update_of_ne hj]

theorem past_moved_extend (later : Fin (n + 1) → List (StampedMsg α)) {i : Fin (n + 1)}
    (h : s.deques i ≠ []) :
    ((s.extend later).moved i).past = (s.moved i).past := by
  obtain ⟨m, rest, hd⟩ := List.exists_cons_of_ne_nil h
  have hd' : (s.extend later).deques i = m :: (rest ++ later i) := by
    show s.deques i ++ later i = _
    rw [hd]
    rfl
  rw [past_moved _ hd, past_moved _ hd']
  rfl

theorem moved_extend {i : Fin (n + 1)} (h : s.deques i ≠ []) :
    (s.extend later).moved i = (s.moved i).extend later := by
  have hdeques : ((s.extend later).moved i).deques = fun j => (s.moved i).deques j ++ later j := by
    funext j
    rw [deques_moved, deques_moved]
    by_cases hj : j = i
    · subst hj
      rw [Function.update_self, Function.update_self, ← List.tail_append_of_ne_nil h]
      rfl
    · rw [Function.update_of_ne hj, Function.update_of_ne hj]
      rfl
  have hpast := past_moved_extend later h
  show { s with
    past := ((s.extend later).moved i).past
    deques := ((s.extend later).moved i).deques
    numNonEmptyDeques := countNonEmpty ((s.extend later).moved i).deques } = _
  rw [hdeques, hpast]
  rfl

theorem published_extend (h : ∀ i, s.held i ≠ []) :
    (s.extend later).published = s.published.extend later := by
  refine extend_congr (s := s.published) fun i => ?_
  show ((s.extend later).held i).tail = (s.held i).tail ++ later i
  rw [held_extend, List.tail_append_of_ne_nil (h i)]

theorem settled_extend : settled p (s.extend later) f = (settled p s f).extend later := by
  have hpivot : ((s.extend later).clearDropped (last f).1).pivot =
    (s.clearDropped (last f).1).pivot := rfl
  have hnot : ((s.extend later).clearDropped (last f).1).notBetter p (last f).2 (first f).2 =
    (s.clearDropped (last f).1).notBetter p (last f).2 (first f).2 := rfl
  rw [settled, settled, hpivot, hnot]
  split_ifs <;> rfl

theorem extend_deques_ne (h : ∀ i, s.deques i ≠ []) (i : Fin (n + 1)) :
    (s.extend later).deques i ≠ [] :=
  List.append_ne_nil_of_left_ne_nil (h i) _

theorem fronts_extend (h : ∀ i, s.deques i ≠ []) : (s.extend later).fronts = s.fronts := by
  rw [ApproximateTime.fronts, ApproximateTime.fronts, dif_pos (extend_deques_ne h), dif_pos h]
  congr 1
  funext i
  exact List.head_append_of_ne_nil (h i)

theorem Search.extend {q : Fin (n + 1)} (h : Search s q) : Search (s.extend later) q where
  pivot_eq := h.pivot_eq
  candidate_eq i := by
    rw [held_extend, List.head?_append_of_ne_nil _ (h.held_ne i)]
    exact h.candidate_eq i
  held_ne i := by
    rw [held_extend]
    exact List.append_ne_nil_of_left_ne_nil (h.held_ne i) _
  past_pivot := h.past_pivot
  pivot_time m hm := by
    obtain ⟨m', rest, hd, -, ht⟩ := h.pivot_front
    have hm' : (s.deques q ++ later q).head? = some m := hm
    rw [hd] at hm'
    rw [← Option.some.inj hm']
    exact ht
  undropped := h.undropped

/-- What arrives on one input, in front of what arrives later. -/
def arrive (a : Add (Fin (n + 1)) α) (later : Fin (n + 1) → List (StampedMsg α)) :
    Fin (n + 1) → List (StampedMsg α) :=
  fun i => (if a.1 = i then [a.2] else []) ++ later i

theorem extend_pushBack (a : Add (Fin (n + 1)) α) :
    (s.pushBack a).extend later = s.extend (arrive a later) := by
  refine extend_congr (s := s) fun i => ?_
  show Function.update s.deques a.1 (s.deques a.1 ++ [a.2]) i ++ later i = _ ++ (_ ++ _)
  by_cases hi : a.1 = i
  · subst hi
    rw [Function.update_self, if_pos rfl, List.append_assoc]
  · rw [Function.update_of_ne (Ne.symm hi), if_neg hi]
    rfl

/-- **An iteration of the reference does the same on more messages.** -/
theorem iteration_extend (hinv : Inv s) (hall : s.allNonEmpty = true)
    {out : List (Tuple (Fin (n + 1)) α)} {s' : ApproximateTime n α}
    (h : iteration p publishExhausted s = some (out, s')) :
    iteration p publishExhausted (s.extend later) = some (out, s'.extend later) := by
  have hne := (allNonEmpty_iff hinv.1).mp hall
  obtain ⟨f, hf, hheads⟩ := exists_fronts hne
  have hf' : (s.extend later).fronts = some f := by rw [fronts_extend hne, hf]
  obtain ⟨hdrop, hkeep⟩ := iteration_eq (p := p) publishExhausted hinv.1 hne hf
  obtain ⟨hdrop', hkeep'⟩ := iteration_eq (p := p) publishExhausted
    (counted_extend s later) (extend_deques_ne hne) hf'
  by_cases hd : drops p s f
  · rw [hdrop hd] at h
    obtain ⟨rfl, rfl⟩ := Prod.mk.inj (Option.some.inj h)
    rw [hdrop' hd]
    exact congrArg (fun s => some ([], s))
      (deleted_extend (s := s.clearDropped (last f).1) (hne (first f).1))
  · obtain ⟨q, hs⟩ := search_settled hinv hheads hd
    have hfront : (settled p s f).deques (first f).1 ≠ [] := by
      rw [settled_deques]
      exact hne _
    have hpivot : (settled p s f).pivot ≠ none := by
      rw [hs.pivot_eq]
      simp
    rw [hkeep hd hpivot] at h
    rw [hkeep' hd (by rw [settled_extend]; exact hpivot), settled_extend]
    by_cases hi : (first f).1 = q
    · rw [hi, publishExhausted_pivot hs] at h
      obtain ⟨rfl, rfl⟩ := Prod.mk.inj (Option.some.inj h)
      rw [hi, publishExhausted_pivot hs.extend, published_extend hs.held_ne]
      rfl
    · rw [publishExhausted_of_ne hs hi] at h
      obtain ⟨rfl, rfl⟩ := Prod.mk.inj (Option.some.inj h)
      rw [publishExhausted_of_ne hs.extend hi, moved_extend hfront]

end Extend

/-! ## A candidate that stays -/

/-- No combination of messages in the deques with the pivot's own message is better. -/
def Optimal (p : Parameters n) (s : ApproximateTime n α) (q : Fin (n + 1)) : Prop :=
  ∀ r : Fin (n + 1) → StampedMsg α, (∀ i, r i ∈ s.deques i) → (r q).stamp = s.pivotTime →
    s.notBetter p (last r).2 (first r).2 = true

theorem Optimal.moved {q : Fin (n + 1)} (h : Optimal p s q) (i : Fin (n + 1)) :
    Optimal p (s.moved i) q := by
  intro r hr hq
  refine h r (fun j => ?_) hq
  have hj := hr j
  rw [deques_moved] at hj
  by_cases hji : j = i
  · subst hji
    rw [Function.update_self] at hj
    exact List.mem_of_mem_tail hj
  · rwa [Function.update_of_ne hji] at hj

/-- Clearing flags that are clear changes nothing. -/
theorem Search.clearDropped_eq {q : Fin (n + 1)} (h : Search s q) (i : Fin (n + 1)) :
    s.clearDropped i = s := by
  have hflags : (fun j => if j ≠ i then false else s.hasDroppedMessages j) =
      s.hasDroppedMessages := by
    funext j
    rw [h.undropped j, ite_self]
  rw [clearDropped, hflags]

/-- **The reference publishes an optimal candidate** once every input has a message after the
pivot: the search moves only fronts up to the pivot aside, so it gets to the pivot's own. -/
theorem steps_of_optimal {q : Fin (n + 1)} (hc : Counted s) (hs : Search s q)
    (hopt : Optimal p s q) (hlate : ∀ i, i ≠ q → ∃ m ∈ s.deques i, s.pivotTime < m.stamp) :
    Searches p publishExhausted s [s.candidate] s.published := by
  induction hsize : total s.deques using Nat.strong_induction_on generalizing s with
  | _ size ih =>
    obtain ⟨mq, rest, hdq, -, htime⟩ := hs.pivot_front
    have hne (i : Fin (n + 1)) : s.deques i ≠ [] := by
      by_cases hi : i = q
      · rw [hi, hdq]
        exact List.cons_ne_nil _ _
      · obtain ⟨m, hm, -⟩ := hlate i hi
        exact List.ne_nil_of_mem hm
    have hall := (allNonEmpty_iff hc).mpr hne
    obtain ⟨f, hf, hheads⟩ := exists_fronts hne
    have hpivot : s.pivot ≠ none := by
      rw [hs.pivot_eq]
      simp
    have hfq : (f q).stamp = s.pivotTime := hs.pivot_time _ (hheads q)
    -- the fronts are not better, so the candidate stays
    have hnot := hopt f (fun i => List.mem_of_mem_head? (hheads i)) hfq
    have hsettled : settled p s f = s := by
      rw [settled, hs.clearDropped_eq, if_neg hpivot, if_pos hnot]
    have hit := (iteration_eq (p := p) publishExhausted hc hne hf).2
      (fun hd => hpivot hd.1) (by rw [hsettled]; exact hpivot)
    rw [hsettled] at hit
    by_cases hi : (first f).1 = q
    · rw [hi, publishExhausted_pivot hs] at hit
      exact .single hall hit
    · rw [publishExhausted_of_ne hs hi] at hit
      have hsmaller : total (s.moved (first f).1).deques < total s.deques := by
        have htotal := total_update s.deques (first f).1 (s.deques (first f).1).tail
        have hpos := List.length_pos_iff.mpr (hne (first f).1)
        rw [List.length_tail] at htotal
        rw [deques_moved]
        omega
      -- the front that is moved is no later than the pivot
      have hstays : ∀ i, i ≠ q → ∃ m ∈ (s.moved (first f).1).deques i, s.pivotTime < m.stamp := by
        intro i hiq
        obtain ⟨m, hm, hlt⟩ := hlate i hiq
        refine ⟨m, ?_, hlt⟩
        rw [deques_moved]
        by_cases hif : i = (first f).1
        · obtain ⟨tail, hd⟩ := List.head?_eq_some_iff.mp (hheads i)
          rw [← hif, Function.update_self, hd, List.tail_cons]
          rw [hd] at hm
          refine (List.mem_cons.mp hm).resolve_left fun heq => ?_
          have hle := earliest_le (fun i => (f i).stamp) q
          rw [earliest_time, ← hif] at hle
          rw [heq] at hlt
          omega
        · rw [Function.update_of_ne hif]
          exact hm
      have hrest := ih _ (hsize ▸ hsmaller) (counted_moved s _) (hs.moved hi) (hopt.moved _) hstays
        rfl
      have hpublished : (s.moved (first f).1).published = s.published := published_advance s _
      rw [hpublished] at hrest
      exact (Loop.Steps.single hall hit).trans hrest

end Agnocast.MessageFilters.ApproximateTime
