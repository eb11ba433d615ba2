import Agnocast.MessageFilters.ApproximateInvariant
import Mathlib.Tactic.Linarith
import Mathlib.Tactic.NormNum

/-!
# The message filters — what ApproximateTime puts out

* `Spanned`                 — the candidate lies within the interval, and its end is the stamp of
  one of its messages.
* `steps_within`            — iterations emit tuples within the interval.
* `approximate_time_output` — after any adds: what came on an input is what is gone followed by
  what is held, and what was emitted is among the first, in order; and every tuple is within the
  interval when stamps do not go back.

A later candidate is taken over an earlier one only for a smaller spread. This needs that the
end of the candidate does not go back, so the second half holds for stamps that do not.
-/

namespace Agnocast.MessageFilters.ApproximateTime

variable {n : ℕ} {α : Type} {p : Parameters n} {s : ApproximateTime n α} {checks : Checks n α}

/-- Stamps do not go back. -/
def Ordered (l : List (StampedMsg α)) : Prop := l.Pairwise fun m m' => m.stamp ≤ m'.stamp

/-- The latest stamp is no more than this after the earliest one. -/
def Within (d : ℤ) (t : Tuple (Fin (n + 1)) α) : Prop :=
  ∀ i j m m', t i = some m → t j = some m' → m'.stamp - m.stamp ≤ d

/-- The noted times are the bounds of the candidate, and no further apart than allowed. -/
structure Spanned (p : Parameters n) (s : ApproximateTime n α) : Prop where
  bounds : ∀ i m, s.candidate i = some m → s.candidateStart ≤ m.stamp ∧ m.stamp ≤ s.candidateEnd
  end_eq : ∃ j m, s.candidate j = some m ∧ m.stamp = s.candidateEnd
  span : s.candidateEnd - s.candidateStart ≤ p.maxIntervalDuration

theorem Spanned.within (h : Spanned p s) : Within p.maxIntervalDuration s.candidate := by
  intro i j m m' hm hm'
  have hlow := (h.bounds i m hm).1
  have hhigh := (h.bounds j m' hm').2
  have hspan := h.span
  omega

/-- The fronts as a candidate. -/
theorem spanned_fronts {f : Fin (n + 1) → StampedMsg α} (hcand : ∀ i, s.candidate i = some (f i))
    (hstart : s.candidateStart = (first f).2) (hend : s.candidateEnd = (last f).2)
    (hspan : (last f).2 - (first f).2 ≤ p.maxIntervalDuration) : Spanned p s where
  bounds i m hm := by
    rw [hcand] at hm
    obtain rfl := Option.some.inj hm
    rw [hstart, hend]
    exact ⟨earliest_le (fun i => (f i).stamp) i, le_latest (fun i => (f i).stamp) i⟩
  end_eq := by
    refine ⟨(last f).1, f (last f).1, hcand _, ?_⟩
    rw [hend]
    exact (latest_time fun i => (f i).stamp).symm
  span := by
    rw [hstart, hend]
    exact hspan

/-- **A better candidate has a smaller spread**, since its end is no earlier. -/
theorem span_lt_of_better {e b : ℤ} (hp : 0 ≤ p.agePenalty) (hbetter : s.notBetter p e b = false)
    (hend : s.candidateEnd ≤ e) : e - b < s.candidateEnd - s.candidateStart := by
  rw [notBetter, decide_eq_false_iff_not, not_le] at hbetter
  have hage : (0 : ℚ) ≤ ((e - s.candidateEnd : ℤ) : ℚ) := Rat.intCast_nonneg.mpr (by omega)
  have hpenalty : ((e - s.candidateEnd : ℤ) : ℚ) ≤
      ((e - s.candidateEnd : ℤ) : ℚ) * (1 + p.agePenalty) := by nlinarith
  have hlt := Rat.intCast_lt_intCast.mp (hpenalty.trans_lt hbetter)
  omega

/-- In ordered messages the front of the deque is no earlier than what is held in front. -/
theorem head_le_front {i : Fin (n + 1)} {m m' : StampedMsg α} (hord : Ordered (s.held i))
    (hm : (s.held i).head? = some m) (hm' : (s.deques i).head? = some m') :
    m.stamp ≤ m'.stamp := by
  obtain ⟨rest, hd⟩ := List.head?_eq_some_iff.mp hm'
  rw [held, hd] at hord hm
  cases hpast : s.past i with
  | nil =>
    rw [hpast] at hm
    obtain rfl := Option.some.inj hm
    exact le_rfl
  | cons m₀ past =>
    rw [hpast] at hord hm
    obtain rfl := Option.some.inj hm
    exact List.rel_of_pairwise_cons hord (List.mem_append_right _ List.mem_cons_self)

/-! ## Iterations -/

/-- What iterations need and keep beside the representation invariant. -/
structure Tidy (p : Parameters n) (s : ApproximateTime n α) : Prop where
  inv : Inv s
  ordered : ∀ i, Ordered (s.held i)
  spanned : s.pivot ≠ none → Spanned p s

theorem Consumes.ordered {s' : ApproximateTime n α} {out : List (Tuple (Fin (n + 1)) α)}
    (h : Consumes s out s') (hord : ∀ i, Ordered (s.held i)) (i : Fin (n + 1)) :
    Ordered (s'.held i) := by
  obtain ⟨gone, -, hheld, -⟩ := h i
  have hi := hord i
  rw [hheld] at hi
  exact (List.pairwise_append.mp hi).2.1

/-- The candidate an iteration goes on with is within the interval. -/
theorem spanned_settled {f : Fin (n + 1) → StampedMsg α} (hp : 0 ≤ p.agePenalty) (h : Tidy p s)
    (hheads : ∀ i, (s.deques i).head? = some (f i)) (hkeep : ¬ drops p s f) :
    Spanned p (settled p s f) := by
  rw [settled]
  by_cases hpivot : (s.clearDropped (last f).1).pivot = none
  · rw [if_pos hpivot]
    have hspan := (not_or.mp fun h => hkeep ⟨hpivot, h⟩).1
    exact spanned_fronts (fun _ => rfl) rfl rfl (not_lt.mp hspan)
  · rw [if_neg hpivot]
    have hs := h.spanned hpivot
    by_cases hnot : (s.clearDropped (last f).1).notBetter p (last f).2 (first f).2 = true
    · rw [if_pos hnot]
      exact ⟨hs.bounds, hs.end_eq, hs.span⟩
    · rw [if_neg hnot]
      obtain ⟨q, hq⟩ := h.inv.2.resolve_left fun h => hpivot h.1
      -- the end of the candidate is a message at or before the front of its deque
      obtain ⟨j, m, hm, hmend⟩ := hs.end_eq
      rw [hq.candidate_eq] at hm
      have hle := head_le_front (h.ordered j) hm (hheads j)
      have hfront : (f j).stamp ≤ (last f).2 := le_latest (fun i => (f i).stamp) j
      have hbetter : s.notBetter p (last f).2 (first f).2 =
          false := Bool.eq_false_iff.mpr hnot
      have hlt := span_lt_of_better hp hbetter (by omega)
      exact spanned_fronts (fun _ => rfl) rfl rfl (hlt.le.trans hs.span)

/-- **Iterations emit tuples within the interval.** -/
theorem steps_within (hchecks : Sound checks) (hp : 0 ≤ p.agePenalty)
    {out : List (Tuple (Fin (n + 1)) α)} {s' : ApproximateTime n α}
    (hsteps : Searches p checks s out s') (h : Tidy p s) :
    (∀ t ∈ out, Within p.maxIntervalDuration t) ∧ Tidy p s' := by
  refine hsteps.invariant (P := fun s out s' => Tidy p s →
    (∀ t ∈ out, Within p.maxIntervalDuration t) ∧ Tidy p s')
    (fun s h => ⟨fun t ht => (List.not_mem_nil ht).elim, h⟩)
    (fun s out s₁ out' s₂ hall hit ih h => ?_) h
  suffices hone : (∀ t ∈ out, Within p.maxIntervalDuration t) ∧ Tidy p s₁ by
    obtain ⟨hout', hs₂⟩ := ih hone.2
    refine ⟨fun t ht => ?_, hs₂⟩
    rcases List.mem_append.mp ht with ht | ht
    · exact hone.1 t ht
    · exact hout' t ht
  obtain ⟨out₁, s₁', hit', hinv, hcons, -⟩ := iteration_spec (p := p) hchecks h.inv hall
  rw [hit] at hit'
  obtain ⟨rfl, rfl⟩ := Prod.mk.inj (Option.some.inj hit')
  have hord := hcons.ordered h.ordered
  obtain ⟨f, hheads, ⟨hdrop, hd⟩ | ⟨hkeep, q, -, hpub | ⟨-, hmove⟩⟩⟩ :=
    iteration_cases (p := p) hchecks h.inv hall
  · rw [hit] at hd
    obtain ⟨rfl, rfl⟩ := Prod.mk.inj (Option.some.inj hd)
    exact ⟨nofun, hinv, hord, fun hne => absurd hdrop.1 hne⟩
  · rw [hit] at hpub
    obtain ⟨rfl, rfl⟩ := Prod.mk.inj (Option.some.inj hpub)
    refine ⟨fun t ht => ?_, hinv, hord, fun hne => absurd rfl hne⟩
    rw [List.mem_singleton.mp ht]
    exact (spanned_settled hp h hheads hkeep).within
  · rw [hit] at hmove
    obtain ⟨rfl, rfl⟩ := Prod.mk.inj (Option.some.inj hmove)
    have hs := spanned_settled hp h hheads hkeep
    exact ⟨nofun, hinv, hord, fun _ => ⟨hs.bounds, hs.end_eq, hs.span⟩⟩

/-! ## After any adds -/

theorem ordered_pushBack (hord : ∀ i, Ordered (s.held i)) (a : Add (Fin (n + 1)) α)
    (h : Ordered (s.held a.1 ++ [a.2])) (i : Fin (n + 1)) : Ordered ((s.pushBack a).held i) := by
  rw [held_pushBack s a.1 a.2]
  by_cases hi : i = a.1
  · subst hi
    rw [Function.update_self]
    exact h
  · rw [Function.update_of_ne hi]
    exact hord i

theorem tidy_pushBack (h : Tidy p s) (a : Add (Fin (n + 1)) α)
    (ha : Ordered (s.held a.1 ++ [a.2])) : Tidy p (s.pushBack a) where
  inv := inv_pushBack h.inv a
  ordered := ordered_pushBack h.ordered a ha
  spanned hne := by
    have hs := h.spanned hne
    exact ⟨hs.bounds, hs.end_eq, hs.span⟩

/-- An add emits tuples within the interval. -/
theorem addWith_within (hchecks : Sound checks) (hp : 0 ≤ p.agePenalty) (hsize : 1 ≤ p.queueSize)
    {a : Add (Fin (n + 1)) α} {out : List (Tuple (Fin (n + 1)) α)} {s' : ApproximateTime n α}
    (hready : Ready p s) (hadd : addWith p checks s a = some (out, s')) (h : Tidy p s)
    (ha : Ordered (s.held a.1 ++ [a.2])) :
    (∀ t ∈ out, Within p.maxIntervalDuration t) ∧ Tidy p s' := by
  obtain ⟨out', s'', hadd', hready', hcons⟩ := addWith_spec hchecks hsize hready a
  rw [hadd] at hadd'
  obtain ⟨rfl, rfl⟩ := Prod.mk.inj (Option.some.inj hadd')
  have hpush := tidy_pushBack h a ha
  have hord := hcons.ordered hpush.ordered
  obtain ⟨out₁, s₁, hsteps, hrest⟩ := addWith_cases hadd
  obtain ⟨hout₁, hs₁⟩ := steps_within hchecks hp hsteps hpush
  rcases hrest with ⟨-, rfl, rfl⟩ | ⟨-, hpivot, rfl, rfl⟩ | ⟨hover, out₂, rfl, hsteps₂⟩
  · exact ⟨hout₁, hs₁⟩
  · exact ⟨hout₁, hready'.1, hord, fun hne => absurd hpivot hne⟩
  · have hcancelled : Tidy p (s₁.cancelled a.1) :=
      ⟨inv_cancelled hsize hover, (consumes_overflowed s₁ a.1).ordered hs₁.ordered,
        fun hne => absurd rfl hne⟩
    obtain ⟨hout₂, hs'⟩ := steps_within hchecks hp hsteps₂ hcancelled
    refine ⟨fun t ht => ?_, hs'⟩
    rcases List.mem_append.mp ht with ht | ht
    · exact hout₁ t ht
    · exact hout₂ t ht

/-- What came on an input is what is gone followed by what is held, and what was emitted is
among the first, in order. -/
def Accounts (adds : List (Add (Fin (n + 1)) α)) (out : List (Tuple (Fin (n + 1)) α))
    (s : ApproximateTime n α) : Prop :=
  ∀ i, ∃ gone emitted : List (StampedMsg α), received i adds = gone ++ s.held i ∧
    (out.map fun t => t i) = emitted.map some ∧ emitted.Sublist gone

theorem held_pushBack_apply (s : ApproximateTime n α) (a : Add (Fin (n + 1)) α) (i : Fin (n + 1)) :
    (s.pushBack a).held i = s.held i ++ (if a.1 = i then [a.2] else []) := by
  rw [held_pushBack s a.1 a.2]
  by_cases hi : a.1 = i
  · subst hi
    rw [Function.update_self, if_pos rfl]
  · rw [Function.update_of_ne (Ne.symm hi), if_neg hi, List.append_nil]

theorem Accounts.add {adds : List (Add (Fin (n + 1)) α)} {out out' : List (Tuple (Fin (n + 1)) α)}
    {s' : ApproximateTime n α} (h : Accounts adds out s) {a : Add (Fin (n + 1)) α}
    (hcons : Consumes (s.pushBack a) out' s') : Accounts (adds ++ [a]) (out ++ out') s' := by
  intro i
  obtain ⟨gone, emitted, hsplit, hmap, hsub⟩ := h i
  obtain ⟨gone', emitted', hsplit', hmap', hsub'⟩ := hcons i
  refine ⟨gone ++ gone', emitted ++ emitted', ?_, ?_, hsub.append hsub'⟩
  · rw [received_concat, hsplit, List.append_assoc, ← held_pushBack_apply, hsplit',
      List.append_assoc]
  · rw [List.map_append, List.map_append, hmap, hmap']

/-- The policy with these checks after any adds. -/
theorem tryFeed_output (hchecks : Sound checks) (hsize : 1 ≤ p.queueSize) (hp : 0 ≤ p.agePenalty)
    (adds : List (Add (Fin (n + 1)) α)) :
    ∃ out s', tryFeed (addWith p checks) new adds = some (out, s') ∧ Ready p s' ∧
      Accounts adds out s' ∧ ((∀ i, Ordered (received i adds)) →
        (∀ t ∈ out, Within p.maxIntervalDuration t) ∧ Tidy p s') := by
  refine tryFeed_history (P := fun adds out s' => Ready p s' ∧ Accounts adds out s' ∧
      ((∀ i, Ordered (received i adds)) →
        (∀ t ∈ out, Within p.maxIntervalDuration t) ∧ Tidy p s'))
    ⟨ready_new, fun i => ⟨[], [], rfl, rfl, List.Sublist.refl _⟩,
      fun _ => ⟨nofun, (ready_new (p := p)).1, fun _ => List.Pairwise.nil, fun h => absurd rfl h⟩⟩
    (fun adds out s₁ a _ ⟨hready, hacc, hwithin⟩ => ?_) adds
  obtain ⟨out', s₂, hadd, hready₂, hcons⟩ := addWith_spec hchecks hsize hready a
  refine ⟨out', s₂, hadd, hready₂, hacc.add hcons, fun hord => ?_⟩
  obtain ⟨hout, htidy⟩ := hwithin fun i => by
    have h := hord i
    rw [received_concat] at h
    exact (List.pairwise_append.mp h).1
  have ha : Ordered (s₁.held a.1 ++ [a.2]) := by
    obtain ⟨gone, -, hsplit, -⟩ := hacc a.1
    have h := hord a.1
    rw [received_concat, if_pos rfl, hsplit, List.append_assoc] at h
    exact (List.pairwise_append.mp h).2.1
  obtain ⟨hout', htidy₂⟩ := addWith_within hchecks hp hsize hready hadd htidy ha
  refine ⟨fun t ht => ?_, htidy₂⟩
  rcases List.mem_append.mp ht with ht | ht
  · exact hout t ht
  · exact hout' t ht

/-- **What the policy puts out.** After any adds, what came on an input is what is gone followed
by what is held, past buffer before deque; every emitted tuple has one message of each input,
and those of one input are among what is gone, in order and each once; and where stamps do not
go back on any input, every emitted tuple is within the interval. -/
theorem approximate_time_output (p : Parameters n) (hsize : 1 ≤ p.queueSize)
    (hp : 0 ≤ p.agePenalty) (adds : List (Add (Fin (n + 1)) α)) :
    ∃ out s, run p adds = some (out, s) ∧
      (∀ i, ∃ gone emitted : List (StampedMsg α),
        received i adds = gone ++ (s.past i ++ s.deques i) ∧
        (out.map fun t => t i) = emitted.map some ∧ emitted.Sublist gone) ∧
      ((∀ i, (received i adds).Pairwise fun m m' => m.stamp ≤ m'.stamp) →
        ∀ t ∈ out, ∀ i j m m', t i = some m → t j = some m' →
          m'.stamp - m.stamp ≤ p.maxIntervalDuration) := by
  obtain ⟨out, s, hrun, -, hacc, hwithin⟩ := tryFeed_output (sound_publishChecks p) hsize hp adds
  exact ⟨out, s, hrun, hacc, fun hord t ht => (hwithin hord).1 t ht⟩

theorem approximate_time_output_of_two :
    ∃ out s, run ⟨2, 10, 1 / 10, fun _ => 0⟩
        ([(0, ⟨5, ()⟩), (1, ⟨7, ()⟩), (0, ⟨8, ()⟩), (1, ⟨9, ()⟩)] : List (Add (Fin 2) Unit)) =
        some (out, s) ∧
      ∀ t ∈ out, ∀ i j m m', t i = some m → t j = some m' → m'.stamp - m.stamp ≤ 10 := by
  obtain ⟨out, s, hrun, -, hspan⟩ := approximate_time_output
    ⟨2, 10, 1 / 10, fun _ => 0⟩ (by decide) (by norm_num)
    ([(0, ⟨5, ()⟩), (1, ⟨7, ()⟩), (0, ⟨8, ()⟩), (1, ⟨9, ()⟩)] : List (Add (Fin 2) Unit))
  exact ⟨out, s, hrun, hspan (by decide)⟩

end Agnocast.MessageFilters.ApproximateTime
