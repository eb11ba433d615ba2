import Agnocast.MessageFilters.ExactTime
import Mathlib.Data.List.Nodup
import Mathlib.Data.List.Sort

/-!
# The message filters — what ExactTime puts together

* `add_spec`            — one add: the tuple of the stamp is completed and goes with all older
  ones, or waits.
* `Kept`                — every message received is in a tuple that was signalled, was dropped
  or waits, and in one only.
* `Matched`             — with increasing stamps the stamps signalled so far are those that
  every input has brought.
* `exact_time_matching` — both, over any adds.

Why no match is lost with increasing stamps: an older tuple is dropped when a newer stamp is
complete, so that every input is past the older stamp and what it lacks will not come.
-/

namespace Agnocast.MessageFilters

variable {n : ℕ} {α : Type*} {i : Fin (n + 1)} {m : StampedMsg α} {l : TimeToTuple n α}

/-! ## The map -/

/-- The keys of a map, in order. -/
def Sorted (l : TimeToTuple n α) : Prop := l.Pairwise fun x y => x.1 < y.1

/-- Where a message is put: after the older tuples and before the newer ones, into the tuple of
its stamp or into a new one. -/
theorem assign_split (i : Fin (n + 1)) (m : StampedMsg α) (h : Sorted l) :
    ∃ before t after, l.assign i m = before ++ (m.stamp, Function.update t i (some m)) :: after ∧
      (∀ x ∈ before, x.1 < m.stamp) ∧ (∀ x ∈ after, m.stamp < x.1) ∧
      (l = before ++ (m.stamp, t) :: after ∨ t = Tuple.empty ∧ l = before ++ after) := by
  induction l with
  | nil => exact ⟨[], Tuple.empty, [], rfl, nofun, nofun, .inr ⟨rfl, rfl⟩⟩
  | cons x rest ih =>
    obtain ⟨time, t⟩ := x
    obtain ⟨hx, hrest⟩ := List.pairwise_cons.mp h
    rw [TimeToTuple.assign]
    by_cases hlt : m.stamp < time
    · -- before the first tuple
      rw [if_pos hlt]
      refine ⟨[], Tuple.empty, (time, t) :: rest, rfl, nofun, fun y hy => ?_, .inr ⟨rfl, rfl⟩⟩
      rcases List.mem_cons.mp hy with rfl | hy
      · exact hlt
      · exact hlt.trans (hx y hy)
    · rw [if_neg hlt]
      by_cases heq : m.stamp = time
      · subst heq
        rw [if_pos rfl]
        exact ⟨[], t, rest, rfl, nofun, hx, .inl rfl⟩
      · rw [if_neg heq]
        obtain ⟨before, t', after, hassign, hbefore, hafter, hl⟩ := ih hrest
        refine ⟨(time, t) :: before, t', after, by rw [hassign, List.cons_append], ?_, hafter, ?_⟩
        · intro y hy
          rcases List.mem_cons.mp hy with rfl | hy
          · show time < m.stamp
            omega
          · exact hbefore y hy
        · exact hl.imp (fun h => by rw [h, List.cons_append])
            fun h => ⟨h.1, by rw [h.2, List.cons_append]⟩

section Middle

variable {before after : TimeToTuple n α} {time : ℤ} {t : Tuple (Fin (n + 1)) α}

/-- The map around a tuple is in order when both sides are. -/
theorem sorted_middle (hl : Sorted (before ++ after)) (hbefore : ∀ x ∈ before, x.1 < time)
    (hafter : ∀ x ∈ after, time < x.1) : Sorted (before ++ (time, t) :: after) := by
  obtain ⟨hb, ha, hba⟩ := List.pairwise_append.mp hl
  refine List.pairwise_append.mpr ⟨hb, List.pairwise_cons.mpr ⟨hafter, ha⟩, fun x hx y hy => ?_⟩
  rcases List.mem_cons.mp hy with rfl | hy
  · exact hbefore x hx
  · exact hba x hx y hy

theorem sorted_of_middle (h : Sorted (before ++ (time, t) :: after)) : Sorted (before ++ after) :=
  h.sublist (List.Sublist.append_left (List.sublist_cons_self _ _) _)

theorem lookup_middle (hbefore : ∀ x ∈ before, x.1 < time) :
    TimeToTuple.lookup (before ++ (time, t) :: after) time = t := by
  have hnone : before.find? (fun e => e.1 = time) = none :=
    List.find?_eq_none.mpr fun x hx => by
      have := hbefore x hx
      simp only [decide_eq_true_eq]
      omega
  rw [TimeToTuple.lookup, List.find?_append, hnone, Option.none_or,
    List.find?_cons_of_pos (by simp)]
  rfl

theorem erase_middle (hbefore : ∀ x ∈ before, x.1 < time) (hafter : ∀ x ∈ after, time < x.1) :
    TimeToTuple.erase (before ++ (time, t) :: after) time = before ++ after := by
  rw [TimeToTuple.erase, List.filter_append, List.filter_cons_of_neg (by simp)]
  congr 1
  · refine List.filter_eq_self.mpr fun x hx => ?_
    have := hbefore x hx
    simp only [ne_eq, decide_not, Bool.not_eq_true', decide_eq_false_iff_not]
    omega
  · refine List.filter_eq_self.mpr fun x hx => ?_
    have := hafter x hx
    simp only [ne_eq, decide_not, Bool.not_eq_true', decide_eq_false_iff_not]
    omega

theorem clearOldTuples_middle (hbefore : ∀ x ∈ before, x.1 < time)
    (hafter : ∀ x ∈ after, time < x.1) :
    ExactTime.clearOldTuples time (before ++ after) = (before.map Prod.snd, after) := by
  induction before with
  | nil =>
    cases after with
    | nil => rfl
    | cons x after =>
      have := hafter x List.mem_cons_self
      exact if_neg (by omega)
  | cons x before ih =>
    have := hbefore x List.mem_cons_self
    rw [List.cons_append, ExactTime.clearOldTuples, if_pos (by omega),
      ih fun y hy => hbefore y (List.mem_cons_of_mem _ hy)]
    rfl

end Middle

/-- The queue limit drops the oldest tuples and keeps no more than its size. -/
theorem dropOldest_spec (q : ℕ) (l : TimeToTuple n α) :
    ∃ old kept, l = old ++ kept ∧ ExactTime.dropOldest q l = (old.map Prod.snd, kept) ∧
      kept.length ≤ q := by
  induction l with
  | nil => exact ⟨[], [], rfl, rfl, Nat.zero_le _⟩
  | cons x rest ih =>
    rw [ExactTime.dropOldest]
    by_cases hlong : q < rest.length + 1
    · obtain ⟨old, kept, hrest, hdrop, hlength⟩ := ih
      rw [if_pos hlong]
      exact ⟨x :: old, kept, by rw [hrest, List.cons_append], by rw [hdrop]; rfl, hlength⟩
    · rw [if_neg hlong]
      exact ⟨[], x :: rest, rfl, rfl, Nat.le_of_not_lt hlong⟩

/-! ## One add -/

/-- The messages of a waiting tuple have its stamp. -/
def Own (l : TimeToTuple n α) : Prop := ∀ x ∈ l, ∀ j m, x.2 j = some m → m.stamp = x.1

/-- What an add does to the tuple of the stamp and those around it. -/
structure Added (e : ExactTime n α) (i : Fin (n + 1)) (m : StampedMsg α)
    (before : TimeToTuple n α) (t : Tuple (Fin (n + 1)) α) (after mid old : TimeToTuple n α)
    (signalled : List (ExactOutput n α)) : Prop where
  before_lt : ∀ x ∈ before, x.1 < m.stamp
  lt_after : ∀ x ∈ after, m.stamp < x.1
  split : e.tuples = before ++ (m.stamp, t) :: after ∨
    t = Tuple.empty ∧ e.tuples = before ++ after
  settled : (∀ j, (Function.update t i (some m) j).isSome) ∧
      signalled = .signal (Function.update t i (some m)) :: (before.map fun x => .drop x.2) ∧
      mid = after ∨
    ¬ (∀ j, (Function.update t i (some m) j).isSome) ∧ signalled = [] ∧
      mid = before ++ (m.stamp, Function.update t i (some m)) :: after
  limited : mid = old ++ (e.add (i, m)).2.tuples
  out_eq : (e.add (i, m)).1 = signalled ++ old.map fun x => .drop x.2
  queueSize_eq : (e.add (i, m)).2.queueSize = e.queueSize
  bounded : 0 < e.queueSize → (e.add (i, m)).2.tuples.length ≤ e.queueSize
  unlimited : e.queueSize = 0 → old = []

theorem limitQueue_spec (e : ExactTime n α) : ∃ old,
    e.tuples = old ++ e.limitQueue.2.tuples ∧ e.limitQueue.1 = old.map (fun x => .drop x.2) ∧
      e.limitQueue.2.queueSize = e.queueSize ∧
      (0 < e.queueSize → e.limitQueue.2.tuples.length ≤ e.queueSize) ∧
      (e.queueSize = 0 → old = []) := by
  rw [ExactTime.limitQueue]
  by_cases hq : 0 < e.queueSize
  · obtain ⟨old, kept, htuples, hdrop, hlength⟩ := dropOldest_spec e.queueSize e.tuples
    rw [if_pos hq, hdrop]
    refine ⟨old, htuples, ?_, rfl, fun _ => hlength, fun h0 => by omega⟩
    rw [List.map_map]
    rfl
  · rw [if_neg hq]
    exact ⟨[], rfl, rfl, rfl, fun h => absurd h hq, fun _ => rfl⟩

/-- The stamp of a full tuple is the key that its messages were put under. -/
theorem stamp_of_full {time : ℤ} {t : Tuple (Fin (n + 1)) α}
    (hown : ∀ j m, t j = some m → m.stamp = time) (hfull : ∀ j, (t j).isSome) :
    ((t 0).map StampedMsg.stamp).getD 0 = time := by
  obtain ⟨m, hm⟩ := Option.isSome_iff_exists.mp (hfull 0)
  rw [hm, Option.map_some, Option.getD_some]
  exact hown 0 m hm

theorem own_update {time : ℤ} {t : Tuple (Fin (n + 1)) α} {i : Fin (n + 1)} {m : StampedMsg α}
    (hown : ∀ j m, t j = some m → m.stamp = time) (hm : m.stamp = time) :
    ∀ j m', Function.update t i (some m) j = some m' → m'.stamp = time := by
  intro j m' h
  rw [Function.update_apply] at h
  split at h
  · obtain rfl := Option.some.inj h
    exact hm
  · exact hown j m' h

/-- **One add**: the tuple of the stamp is completed and goes with all older ones, or waits;
then the oldest ones beyond the queue size go. -/
theorem add_spec {e : ExactTime n α} (hsorted : Sorted e.tuples) (hown : Own e.tuples)
    (i : Fin (n + 1)) (m : StampedMsg α) :
    ∃ before t after mid old signalled, Added e i m before t after mid old signalled := by
  obtain ⟨before, t, after, hassign, hbefore, hafter, hsplit⟩ := assign_split i m hsorted
  have htown : ∀ j m', t j = some m' → m'.stamp = m.stamp := by
    rcases hsplit with h | ⟨rfl, -⟩
    · exact hown (m.stamp, t) (by rw [h]; exact List.mem_append_right _ List.mem_cons_self)
    · exact fun _ _ h => by cases h
  set t' := Function.update t i (some m) with ht'
  set e' : ExactTime n α := { e with tuples := e.tuples.assign i m } with he'
  have hlookup : TimeToTuple.lookup (e.tuples.assign i m) m.stamp = t' := by
    rw [hassign, lookup_middle hbefore]
  have hadd : e.add (i, m) = ((e'.signalFull t').1 ++ (e'.signalFull t').2.limitQueue.1,
      (e'.signalFull t').2.limitQueue.2) := by
    rw [ExactTime.add, hlookup]
    rfl
  by_cases hfull : ∀ j, (t' j).isSome
  · -- signalled, with the older ones dropped
    have hsignal : e'.signalFull t' = (.signal t' :: (before.map fun x => .drop x.2),
        { e' with lastSignalTime := m.stamp, tuples := after }) := by
      have hfull' : ExactTime.full t' = true := decide_eq_true hfull
      have herase : TimeToTuple.erase e'.tuples m.stamp = before ++ after := by
        rw [he', hassign, erase_middle hbefore hafter]
      rw [ExactTime.signalFull, if_pos hfull', stamp_of_full (own_update htown rfl) hfull]
      dsimp only
      rw [herase, clearOldTuples_middle hbefore hafter, List.map_map]
      rfl
    obtain ⟨old, htuples, hout, hq, hbounded, hunlimited⟩ := limitQueue_spec (e'.signalFull t').2
    rw [hsignal] at htuples hout hq hbounded hunlimited hadd
    refine ⟨before, t, after, after, old, _, hbefore, hafter, hsplit, .inl ⟨hfull, rfl, rfl⟩, ?_,
      ?_, ?_, ?_, hunlimited⟩
    · rw [hadd]; exact htuples
    · rw [hadd, hout]
    · rw [hadd]; exact hq
    · rw [hadd]; exact hbounded
  · have hsignal : e'.signalFull t' = ([], e') := by
      rw [ExactTime.signalFull, if_neg (by rw [ExactTime.full, decide_eq_true_eq]; exact hfull)]
    obtain ⟨old, htuples, hout, hq, hbounded, hunlimited⟩ := limitQueue_spec e'
    rw [hsignal] at hadd
    refine ⟨before, t, after, _, old, [], hbefore, hafter, hsplit, .inr ⟨hfull, rfl, rfl⟩, ?_,
      ?_, ?_, ?_, hunlimited⟩
    · rw [hadd, ← htuples, ← hassign]
    · rw [hadd, hout]
    · rw [hadd]; exact hq
    · rw [hadd]; exact hbounded

/-! ## Every message is in one tuple -/

section Outputs

variable (out more : List (ExactOutput n α)) (ts : TimeToTuple n α)

theorem emitted_append : emitted (out ++ more) = emitted out ++ emitted more := by
  induction out with
  | nil => rfl
  | cons o out ih => cases o <;> simp [emitted, ih]

theorem dropped_append : dropped (out ++ more) = dropped out ++ dropped more := by
  induction out with
  | nil => rfl
  | cons o out ih => cases o <;> simp [dropped, ih]

@[simp] theorem emitted_drops : emitted (ts.map fun x => ExactOutput.drop x.2) = [] := by
  induction ts with
  | nil => rfl
  | cons x ts ih => exact ih

@[simp] theorem dropped_drops :
    dropped (ts.map fun x => ExactOutput.drop x.2) = ts.map Prod.snd := by
  induction ts with
  | nil => rfl
  | cons x ts ih => exact congrArg (x.2 :: ·) ih

end Outputs

/-- The tuples signalled, dropped and waiting. -/
def placed (out : List (ExactOutput n α)) (e : ExactTime n α) : List (Tuple (Fin (n + 1)) α) :=
  emitted out ++ dropped out ++ e.tuples.map Prod.snd

/-- With the tuples that an add does not touch: what was there before and what is there now. -/
theorem placed_add {e : ExactTime n α} {before after mid old : TimeToTuple n α}
    {t : Tuple (Fin (n + 1)) α} {signalled : List (ExactOutput n α)}
    (h : Added e i m before t after mid old signalled) (out : List (ExactOutput n α)) :
    ∃ rest, (placed out e).Perm (t :: rest) ∧
        (placed (out ++ (e.add (i, m)).1) (e.add (i, m)).2).Perm
          (Function.update t i (some m) :: rest) ∨
      t = Tuple.empty ∧ (placed out e).Perm rest ∧
        (placed (out ++ (e.add (i, m)).1) (e.add (i, m)).2).Perm
          (Function.update t i (some m) :: rest) := by
  classical
  refine ⟨emitted out ++ dropped out ++ before.map Prod.snd ++ after.map Prod.snd, ?_⟩
  -- whether the tuple waits or is signalled, it is counted once
  have hnow : (placed (out ++ (e.add (i, m)).1) (e.add (i, m)).2).Perm
      (Function.update t i (some m) :: (emitted out ++ dropped out ++ before.map Prod.snd ++
        after.map Prod.snd)) := by
    rw [placed, h.out_eq, emitted_append, dropped_append, emitted_append, dropped_append]
    have hmid := congrArg (List.map Prod.snd) h.limited
    rw [List.map_append] at hmid
    rcases h.settled with ⟨-, hsig, hmid'⟩ | ⟨-, hsig, hmid'⟩
    · rw [hsig, emitted, dropped, emitted_drops, emitted_drops, dropped_drops, dropped_drops]
      rw [hmid'] at hmid
      rw [hmid, List.perm_iff_count]
      intro x
      simp only [List.count_append, List.count_cons, List.count_nil]
      omega
    · rw [hsig, emitted, dropped, emitted_drops, dropped_drops]
      rw [hmid', List.map_append, List.map_cons] at hmid
      rw [List.perm_iff_count]
      intro x
      have hcount := congrArg (List.count x) hmid
      simp only [List.count_append, List.count_cons, List.count_nil] at hcount ⊢
      omega
  -- a stamp that was there, or a new one
  rcases h.split with hsplit | ⟨hempty, hsplit⟩
  · refine .inl ⟨?_, hnow⟩
    rw [placed, hsplit, List.map_append, List.map_cons, List.perm_iff_count]
    intro x
    simp only [List.count_append, List.count_cons]
    omega
  · refine .inr ⟨hempty, ?_, hnow⟩
    rw [placed, hsplit, List.map_append, ← List.append_assoc]

/-- What holds after adds without a repeated stamp on an input. -/
structure Kept (adds : List (Add (Fin (n + 1)) α)) (out : List (ExactOutput n α))
    (e : ExactTime n α) : Prop where
  sorted : Sorted e.tuples
  own : Own e.tuples
  once : ∀ j, ((placed out e).filterMap fun t => t j).Perm (received j adds)

variable {adds : List (Add (Fin (n + 1)) α)} {out : List (ExactOutput n α)} {e : ExactTime n α}

theorem Kept.mem_received (h : Kept adds out e) {x : ℤ × Tuple (Fin (n + 1)) α}
    (hx : x ∈ e.tuples) {j : Fin (n + 1)} {m : StampedMsg α} (hj : x.2 j = some m) :
    m ∈ received j adds := by
  refine (h.once j).mem_iff.mp (List.mem_filterMap.mpr ⟨x.2, ?_, hj⟩)
  exact List.mem_append_right _ (List.mem_map_of_mem hx)

theorem Added.mid_sorted {before after mid old : TimeToTuple n α} {t : Tuple (Fin (n + 1)) α}
    {signalled : List (ExactOutput n α)} (h : Added e i m before t after mid old signalled)
    (hsorted : Sorted e.tuples) : Sorted mid := by
  have haround : Sorted (before ++ after) := by
    rcases h.split with hsplit | ⟨-, hsplit⟩
    · exact sorted_of_middle (hsplit ▸ hsorted)
    · exact hsplit ▸ hsorted
  rcases h.settled with ⟨-, -, rfl⟩ | ⟨-, -, rfl⟩
  · exact haround.sublist (List.sublist_append_right _ _)
  · exact sorted_middle haround h.before_lt h.lt_after

/-- The tuple that the message joins has the stamp of the message throughout. -/
theorem Added.tuple_own {before after mid old : TimeToTuple n α} {t : Tuple (Fin (n + 1)) α}
    {signalled : List (ExactOutput n α)} (h : Added e i m before t after mid old signalled)
    (hown : Own e.tuples) : ∀ j m', t j = some m' → m'.stamp = m.stamp := by
  rcases h.split with hsplit | ⟨rfl, -⟩
  · exact hown (m.stamp, t) (by rw [hsplit]; exact List.mem_append_right _ List.mem_cons_self)
  · exact fun _ _ h => by cases h

theorem Added.mid_own {before after mid old : TimeToTuple n α} {t : Tuple (Fin (n + 1)) α}
    {signalled : List (ExactOutput n α)} (h : Added e i m before t after mid old signalled)
    (hown : Own e.tuples) : Own mid := by
  have haround : ∀ x ∈ before ++ after, x ∈ e.tuples := fun x hx => by
    rcases h.split with hsplit | ⟨-, hsplit⟩
    · rw [hsplit]
      exact (List.Sublist.append_left (List.sublist_cons_self _ _) _).subset hx
    · exact hsplit ▸ hx
  rcases h.settled with ⟨-, -, rfl⟩ | ⟨-, -, rfl⟩
  · exact fun x hx => hown x (haround x (List.mem_append_right _ hx))
  · intro x hx
    rcases List.mem_append.mp hx with hx | hx
    · exact hown x (haround x (List.mem_append_left _ hx))
    · rcases List.mem_cons.mp hx with rfl | hx
      · exact own_update (h.tuple_own hown) rfl
      · exact hown x (haround x (List.mem_append_right _ hx))

/-- **One add keeps every message in one tuple** when its stamp is new on its input. -/
theorem Kept.add (h : Kept adds out e) (hnew : m.stamp ∉ (received i adds).map StampedMsg.stamp) :
    Kept (adds ++ [(i, m)]) (out ++ (e.add (i, m)).1) (e.add (i, m)).2 := by
  obtain ⟨before, t, after, mid, old, signalled, hadd⟩ := add_spec h.sorted h.own i m
  have hsub : (e.add (i, m)).2.tuples.Sublist mid := by
    rw [hadd.limited]
    exact List.sublist_append_right _ _
  refine ⟨(hadd.mid_sorted h.sorted).sublist hsub,
    fun x hx => hadd.mid_own h.own x (hsub.subset hx), fun j => ?_⟩
  -- the message finds its place in the tuple free
  have hfree : t i = none := by
    rcases hadd.split with hsplit | ⟨rfl, -⟩
    · cases hti : t i with
      | none => rfl
      | some m' =>
        have hmem : (m.stamp, t) ∈ e.tuples := by
          rw [hsplit]
          exact List.mem_append_right _ List.mem_cons_self
        have hseen := List.mem_map_of_mem (f := StampedMsg.stamp) (h.mem_received hmem hti)
        rw [h.own _ hmem i m' hti] at hseen
        exact absurd hseen hnew
    · rfl
  obtain ⟨rest, hplaced⟩ := placed_add hadd out
  have hbefore : ((placed out e).filterMap fun t => t j).Perm
      ((t j).toList ++ rest.filterMap fun t => t j) := by
    rcases hplaced with ⟨hperm, -⟩ | ⟨rfl, hperm, -⟩
    · refine (hperm.filterMap _).trans ?_
      rw [List.filterMap_cons]
      cases t j <;> exact .refl _
    · exact hperm.filterMap _
  have hnow : ((placed (out ++ (e.add (i, m)).1) (e.add (i, m)).2).filterMap fun t => t j).Perm
      ((Function.update t i (some m) j).toList ++ rest.filterMap fun t => t j) := by
    have hperm : (placed (out ++ (e.add (i, m)).1) (e.add (i, m)).2).Perm
        (Function.update t i (some m) :: rest) := hplaced.elim And.right fun h => h.2.2
    refine (hperm.filterMap _).trans ?_
    rw [List.filterMap_cons]
    cases Function.update t i (some m) j <;> exact .refl _
  refine hnow.trans ?_
  by_cases hj : j = i
  · subst hj
    rw [hfree] at hbefore
    rw [Function.update_self, received_concat_self]
    exact ((hbefore.symm.trans (h.once j)).cons m).trans (List.perm_append_singleton m _).symm
  · rw [Function.update_of_ne hj, received_concat_of_ne _ _ hj]
    exact hbefore.symm.trans (h.once j)

/-! ## Increasing stamps -/

/-- The stamp of a signalled tuple. -/
def stampOf (t : Tuple (Fin (n + 1)) α) : ℤ := ((t 0).map StampedMsg.stamp).getD 0

/-- Every input has brought this stamp. -/
def Complete (adds : List (Add (Fin (n + 1)) α)) (s : ℤ) : Prop :=
  ∀ j, ∃ m ∈ received j adds, m.stamp = s

/-- What holds after adds with increasing stamps and without a queue limit. -/
structure Matched (adds : List (Add (Fin (n + 1)) α)) (out : List (ExactOutput n α))
    (e : ExactTime n α) : Prop extends Kept adds out e where
  unlimited : e.queueSize = 0
  increasing : ((emitted out).map stampOf).Pairwise (· < ·)
  made : ∀ t ∈ emitted out, ∀ j, ∃ m ∈ received j adds, m.stamp = stampOf t ∧ t j = some m
  complete : ∀ s, Complete adds s → ∃ t ∈ emitted out, stampOf t = s
  /-- A message waits unless a stamp at least as new was signalled. -/
  waits : ∀ j, ∀ m ∈ received j adds,
    (∃ x ∈ e.tuples, x.2 j = some m) ∨ ∃ t ∈ emitted out, m.stamp ≤ stampOf t

theorem mem_received_concat {j : Fin (n + 1)} {m' : StampedMsg α} :
    m' ∈ received j (adds ++ [(i, m)]) ↔ m' ∈ received j adds ∨ j = i ∧ m' = m := by
  rw [received_concat, List.mem_append]
  by_cases h : i = j
  · simp [h]
  · simp [h, Ne.symm h]

/-- A stamp that an add completes is that of its message. -/
theorem complete_concat {s : ℤ} (h : Complete (adds ++ [(i, m)]) s) :
    Complete adds s ∨ s = m.stamp := by
  by_cases hs : s = m.stamp
  · exact .inr hs
  · refine .inl fun j => ?_
    obtain ⟨m', hm', hstamp⟩ := h j
    rcases mem_received_concat.mp hm' with hm' | ⟨-, rfl⟩
    · exact ⟨m', hm', hstamp⟩
    · exact absurd hstamp.symm hs

section Matched

variable {before after mid old : TimeToTuple n α} {t : Tuple (Fin (n + 1)) α}
  {signalled : List (ExactOutput n α)}

/-- Where a waiting tuple stands relative to the tuple of the stamp. -/
theorem Added.place (h : Added e i m before t after mid old signalled)
    {x : ℤ × Tuple (Fin (n + 1)) α} (hx : x ∈ e.tuples) :
    x ∈ before ∨ x = (m.stamp, t) ∨ x ∈ after := by
  rcases h.split with hsplit | ⟨-, hsplit⟩
  · rw [hsplit, List.mem_append, List.mem_cons] at hx
    exact hx
  · rw [hsplit, List.mem_append] at hx
    exact hx.imp_right .inr

/-- What was signalled is older than a new stamp, since its stamp came on that input too. -/
theorem Matched.older (h : Matched adds out e) (hnew : ∀ m' ∈ received i adds, m'.stamp < m.stamp)
    (ht : t ∈ emitted out) : stampOf t < m.stamp := by
  obtain ⟨m', hm', hstamp, -⟩ := h.made t ht i
  exact hstamp ▸ hnew m' hm'

theorem not_mem_of_newer (hnew : ∀ m' ∈ received i adds, m'.stamp < m.stamp) :
    m.stamp ∉ (received i adds).map StampedMsg.stamp := fun hmem => by
  obtain ⟨m', hm', heq⟩ := List.mem_map.mp hmem
  exact absurd (hnew m' hm') (by omega)

theorem Matched.made_concat (h : Matched adds out e) (a : Add (Fin (n + 1)) α)
    (ht : t ∈ emitted out) (j : Fin (n + 1)) :
    ∃ m' ∈ received j (adds ++ [a]), m'.stamp = stampOf t ∧ t j = some m' := by
  obtain ⟨m', hm', hrest⟩ := h.made t ht j
  refine ⟨m', ?_, hrest⟩
  rw [received_append]
  exact List.mem_append_left _ hm'

/-- The message completes its tuple. -/
theorem Matched.add_of_full (h : Matched adds out e)
    (hnew : ∀ m' ∈ received i adds, m'.stamp < m.stamp)
    (hadd : Added e i m before t after mid [] signalled)
    (hfull : ∀ j, (Function.update t i (some m) j).isSome)
    (hsig : signalled =
      .signal (Function.update t i (some m)) :: (before.map fun x => .drop x.2))
    (hmid : mid = after) :
    Matched (adds ++ [(i, m)]) (out ++ (e.add (i, m)).1) (e.add (i, m)).2 := by
  have hlimited : mid = (e.add (i, m)).2.tuples := hadd.limited
  have hemitted : emitted (out ++ (e.add (i, m)).1) =
      emitted out ++ [Function.update t i (some m)] := by
    rw [hadd.out_eq, hsig, emitted_append, List.map_nil, List.append_nil, emitted, emitted_drops]
  -- all messages of the tuple are of one stamp, that of the new one
  have hown := own_update (hadd.tuple_own h.own) (i := i) (m := m) rfl
  have hstamp : stampOf (Function.update t i (some m)) = m.stamp := stamp_of_full hown hfull
  have hlast : Function.update t i (some m) ∈ emitted out ++ [Function.update t i (some m)] :=
    List.mem_append_right _ (List.mem_singleton_self _)
  refine ⟨h.toKept.add (not_mem_of_newer hnew), hadd.queueSize_eq.trans h.unlimited, ?_, ?_, ?_, ?_⟩
  · -- its stamp is newer than those signalled before
    rw [hemitted, List.map_append, List.pairwise_append]
    refine ⟨h.increasing, List.pairwise_singleton _ _, fun s hs s' hs' => ?_⟩
    obtain ⟨t', ht', rfl⟩ := List.mem_map.mp hs
    obtain rfl := List.mem_singleton.mp hs'
    exact hstamp ▸ h.older hnew ht'
  · intro t' ht' j
    rw [hemitted, List.mem_append, List.mem_singleton] at ht'
    rcases ht' with ht' | rfl
    · exact h.made_concat _ ht' j
    · obtain ⟨m', hm'⟩ := Option.isSome_iff_exists.mp (hfull j)
      refine ⟨m', mem_received_concat.mpr ?_, (hown j m' hm').trans hstamp.symm, hm'⟩
      rw [Function.update_apply] at hm'
      split at hm'
      · next hj => exact .inr ⟨hj, (Option.some.inj hm').symm⟩
      · rcases hadd.split with hsplit | ⟨rfl, -⟩
        · have hmem : (m.stamp, t) ∈ e.tuples := by
            rw [hsplit]
            exact List.mem_append_right _ List.mem_cons_self
          exact .inl (h.mem_received hmem hm')
        · cases hm'
  · intro s hs
    rw [hemitted]
    rcases complete_concat hs with hs | rfl
    · obtain ⟨t', ht', heq⟩ := h.complete s hs
      exact ⟨t', List.mem_append_left _ ht', heq⟩
    · exact ⟨_, hlast, hstamp⟩
  · -- what waited for a stamp up to this one need not wait any more
    intro j m' hm'
    rw [hemitted, ← hlimited, hmid]
    rcases mem_received_concat.mp hm' with hm' | ⟨-, rfl⟩
    · rcases h.waits j m' hm' with ⟨x, hx, hxj⟩ | ⟨t', ht', hle⟩
      · have hkey := h.own x hx j m' hxj
        rcases hadd.place hx with hx' | rfl | hx'
        · have := hadd.before_lt x hx'
          exact .inr ⟨_, hlast, by omega⟩
        · exact .inr ⟨_, hlast, by rw [hstamp]; exact hkey.le⟩
        · exact .inl ⟨x, hx', hxj⟩
      · exact .inr ⟨t', List.mem_append_left _ ht', hle⟩
    · exact .inr ⟨_, hlast, hstamp.ge⟩

/-- The tuple of the message still lacks an input. -/
theorem Matched.add_of_waiting (h : Matched adds out e)
    (hnew : ∀ m' ∈ received i adds, m'.stamp < m.stamp)
    (hadd : Added e i m before t after mid [] signalled)
    (hnotFull : ¬ ∀ j, (Function.update t i (some m) j).isSome) (hsig : signalled = [])
    (hmid : mid = before ++ (m.stamp, Function.update t i (some m)) :: after) :
    Matched (adds ++ [(i, m)]) (out ++ (e.add (i, m)).1) (e.add (i, m)).2 := by
  have hlimited : mid = (e.add (i, m)).2.tuples := hadd.limited
  have hemitted : emitted (out ++ (e.add (i, m)).1) = emitted out := by
    rw [hadd.out_eq, hsig, emitted_append, List.map_nil, List.append_nil, emitted, List.append_nil]
  refine ⟨h.toKept.add (not_mem_of_newer hnew), hadd.queueSize_eq.trans h.unlimited, ?_, ?_, ?_, ?_⟩
  · rw [hemitted]
    exact h.increasing
  · rw [hemitted]
    exact fun t' ht' j => h.made_concat _ ht' j
  · intro s hs
    rw [hemitted]
    rcases complete_concat hs with hs' | rfl
    · exact h.complete s hs'
    · -- all other messages of the stamp wait in its tuple, which would be full
      refine absurd (fun j => ?_) hnotFull
      by_cases hj : j = i
      · rw [hj, Function.update_self]
        rfl
      · rw [Function.update_of_ne hj]
        obtain ⟨m', hm', hstamp⟩ := hs j
        have hm'' : m' ∈ received j adds :=
          (mem_received_concat.mp hm').resolve_right fun h => hj h.1
        rcases h.waits j m' hm'' with ⟨x, hx, hxj⟩ | ⟨t', ht', hle⟩
        · have hkey := h.own x hx j m' hxj
          rcases hadd.place hx with hx' | rfl | hx'
          · have := hadd.before_lt x hx'
            omega
          · exact Option.isSome_iff_exists.mpr ⟨m', hxj⟩
          · have := hadd.lt_after x hx'
            omega
        · have := h.older hnew ht'
          omega
  · intro j m' hm'
    rw [hemitted, ← hlimited, hmid]
    rcases mem_received_concat.mp hm' with hm' | ⟨rfl, rfl⟩
    · refine (h.waits j m' hm').imp_left fun ⟨x, hx, hxj⟩ => ?_
      rcases hadd.place hx with hx' | rfl | hx'
      · exact ⟨x, List.mem_append_left _ hx', hxj⟩
      · -- the tuple has room for the message, so this is another input
        have hj : j ≠ i := fun hj => by
          have hlt := hnew m' (hj ▸ hm')
          have heq : m'.stamp = m.stamp := h.own _ hx j m' hxj
          omega
        refine ⟨_, List.mem_append_right _ List.mem_cons_self, ?_⟩
        exact (Function.update_of_ne hj (some m) t).trans hxj
      · exact ⟨x, List.mem_append_right _ (List.mem_cons_of_mem _ hx'), hxj⟩
    · exact .inl ⟨_, List.mem_append_right _ List.mem_cons_self, Function.update_self ..⟩

/-- **One add keeps the stamps matched** when its stamp is newer than all on its input. -/
theorem Matched.add (h : Matched adds out e) (hnew : ∀ m' ∈ received i adds, m'.stamp < m.stamp) :
    Matched (adds ++ [(i, m)]) (out ++ (e.add (i, m)).1) (e.add (i, m)).2 := by
  obtain ⟨before, t, after, mid, old, signalled, hadd⟩ := add_spec h.sorted h.own i m
  obtain rfl := hadd.unlimited h.unlimited
  rcases hadd.settled with ⟨hfull, hsig, hmid⟩ | ⟨hnotFull, hsig, hmid⟩
  · exact h.add_of_full hnew hadd hfull hsig hmid
  · exact h.add_of_waiting hnew hadd hnotFull hsig hmid

end Matched

/-! ## Every run -/

/-- The policy after these adds. -/
def ExactTime.run (queueSize : ℕ) (adds : List (Add (Fin (n + 1)) α)) :
    List (ExactOutput n α) × ExactTime n α := feed ExactTime.add (.new queueSize) adds

/-- No stamp comes twice on an input. -/
def NoRepeats (adds : List (Add (Fin (n + 1)) α)) : Prop :=
  ∀ i, ((received i adds).map StampedMsg.stamp).Nodup

/-- The stamps of every input increase. -/
def Increasing (adds : List (Add (Fin (n + 1)) α)) : Prop :=
  ∀ i, ((received i adds).map StampedMsg.stamp).Pairwise (· < ·)

instance (adds : List (Add (Fin (n + 1)) α)) : Decidable (NoRepeats adds) :=
  inferInstanceAs (Decidable (∀ _ : Fin (n + 1), _))

instance (adds : List (Add (Fin (n + 1)) α)) : Decidable (Increasing adds) :=
  inferInstanceAs (Decidable (∀ _ : Fin (n + 1), _))

/-- The map never holds more than the queue size, whatever comes. -/
theorem run_bounded (q : ℕ) (hq : 0 < q) (adds : List (Add (Fin (n + 1)) α)) :
    (ExactTime.run q adds).2.tuples.length ≤ q := by
  have hsignal (e : ExactTime n α) (t) : (e.signalFull t).2.queueSize = e.queueSize := by
    rw [ExactTime.signalFull]
    split <;> rfl
  refine And.right (a := (ExactTime.run q adds).2.queueSize = q) (feed_history
    (P := fun _ _ (e : ExactTime n α) => e.queueSize = q ∧ e.tuples.length ≤ q)
    ⟨rfl, Nat.zero_le _⟩ (fun adds out e a ⟨hsize, _⟩ => ?_) adds)
  obtain ⟨old, -, -, hsame, hbounded, -⟩ := limitQueue_spec
    (ExactTime.signalFull { e with tuples := e.tuples.assign a.1 a.2 }
      ((e.tuples.assign a.1 a.2).lookup a.2.stamp)).2
  rw [hsignal] at hsame hbounded
  exact ⟨hsame.trans hsize, (hbounded (hsize ▸ hq)).trans_eq hsize⟩

theorem kept_new (q : ℕ) : Kept [] [] (ExactTime.new q : ExactTime n α) :=
  ⟨.nil, fun _ hx => absurd hx List.not_mem_nil, fun _ => .refl _⟩

theorem matched_new : Matched [] [] (ExactTime.new 0 : ExactTime n α) := by
  refine ⟨kept_new 0, rfl, .nil, fun _ ht => absurd ht List.not_mem_nil, fun s hs => ?_,
    fun _ _ hm => absurd hm List.not_mem_nil⟩
  obtain ⟨m, hm, -⟩ := hs 0
  exact absurd hm List.not_mem_nil

theorem kept_run (q : ℕ) (adds : List (Add (Fin (n + 1)) α)) (h : NoRepeats adds) :
    Kept adds (ExactTime.run q adds).1 (ExactTime.run q adds).2 := by
  refine feed_history (P := fun adds out e => NoRepeats adds → Kept adds out e)
    (fun _ => kept_new q) (fun adds out e a ih hnodup => ?_) adds h
  have hbefore : NoRepeats adds := fun j => by
    have h := hnodup j
    rw [received_append, List.map_append] at h
    exact (List.nodup_append.mp h).1
  refine (ih hbefore).add fun hmem => ?_
  have h := hnodup a.1
  rw [received_concat_self adds a.1 a.2, List.map_append] at h
  exact (List.nodup_append.mp h).2.2 _ hmem _ (List.mem_singleton_self _) rfl

theorem matched_run (adds : List (Add (Fin (n + 1)) α)) (h : Increasing adds) :
    Matched adds (ExactTime.run 0 adds).1 (ExactTime.run 0 adds).2 := by
  refine feed_history (P := fun adds out e => Increasing adds → Matched adds out e)
    (fun _ => matched_new) (fun adds out e a ih hincreasing => ?_) adds h
  have hbefore : Increasing adds := fun j => by
    have h := hincreasing j
    rw [received_append, List.map_append] at h
    exact (List.pairwise_append.mp h).1
  refine (ih hbefore).add fun m' hm' => ?_
  have h := hincreasing a.1
  rw [received_concat_self adds a.1 a.2, List.map_append] at h
  exact (List.pairwise_append.mp h).2.2 _ (List.mem_map_of_mem hm') _ (List.mem_singleton_self _)

/-- Signalled tuples of one stamp are equal: their messages are the only ones of the stamp. -/
theorem Matched.tuple_eq {adds' : List (Add (Fin (n + 1)) α)} {out' : List (ExactOutput n α)}
    {e' : ExactTime n α} (h : Matched adds out e) (h' : Matched adds' out' e')
    (hincreasing : Increasing adds) (hsame : ∀ i, received i adds' = received i adds)
    {t t' : Tuple (Fin (n + 1)) α} (ht : t ∈ emitted out) (ht' : t' ∈ emitted out')
    (hstamp : stampOf t = stampOf t') : t = t' := by
  funext j
  obtain ⟨m, hm, hms, htj⟩ := h.made t ht j
  obtain ⟨m', hm', hms', htj'⟩ := h'.made t' ht' j
  rw [hsame] at hm'
  have hnodup : ((received j adds).map StampedMsg.stamp).Nodup :=
    (hincreasing j).imp fun hlt => hlt.ne
  rw [htj, htj', List.inj_on_of_nodup_map hnodup hm hm' (by rw [hms, hms', hstamp])]

/-- The signals depend on what came on each input only. -/
theorem Matched.emitted_eq {adds' : List (Add (Fin (n + 1)) α)} {out' : List (ExactOutput n α)}
    {e' : ExactTime n α} (h : Matched adds out e) (h' : Matched adds' out' e')
    (hincreasing : Increasing adds) (hsame : ∀ i, received i adds' = received i adds) :
    emitted out' = emitted out := by
  have hcomplete (s : ℤ) : s ∈ (emitted out').map stampOf ↔ s ∈ (emitted out).map stampOf := by
    simp only [List.mem_map]
    constructor
    · rintro ⟨t, ht, rfl⟩
      exact h.complete _ fun j => by
        obtain ⟨m, hm, hstamp, -⟩ := h'.made t ht j
        exact ⟨m, hsame j ▸ hm, hstamp⟩
    · rintro ⟨t, ht, rfl⟩
      exact h'.complete _ fun j => by
        obtain ⟨m, hm, hstamp, -⟩ := h.made t ht j
        exact ⟨m, (hsame j).symm ▸ hm, hstamp⟩
  have hstamps : (emitted out').map stampOf = (emitted out).map stampOf :=
    h'.increasing.eq_of_mem_iff h.increasing hcomplete
  have hlength : (emitted out').length = (emitted out).length := by
    simpa only [List.length_map] using congrArg List.length hstamps
  refine List.ext_getElem hlength fun k hk' hk => ?_
  refine (h.tuple_eq h' hincreasing hsame (List.getElem_mem hk) (List.getElem_mem hk') ?_).symm
  have hat := congrArg (fun l => l[k]?) hstamps
  simp only [List.getElem?_map, List.getElem?_eq_getElem hk, List.getElem?_eq_getElem hk',
    Option.map_some, Option.some_inj] at hat
  exact hat.symm

/-- **ExactTime matching.** With increasing stamps on every input and no queue limit, what has
been signalled once these adds are done is, in increasing order, one tuple for every stamp that
all inputs have brought, made of the messages of that stamp, whatever the interleaving of the
inputs. With any order of arrival in which no input repeats a stamp, and any queue size, no more
tuples wait than the queue size when there is one, and every message received is in exactly one
of the tuples signalled, dropped and waiting. -/
theorem exact_time_matching (n : ℕ) (α : Type*) :
    (∀ adds : List (Add (Fin (n + 1)) α), Increasing adds →
      ((emitted (ExactTime.run 0 adds).1).map stampOf).Pairwise (· < ·) ∧
      (∀ s, s ∈ (emitted (ExactTime.run 0 adds).1).map stampOf ↔
        ∀ i, ∃ m ∈ received i adds, m.stamp = s) ∧
      (∀ t ∈ emitted (ExactTime.run 0 adds).1, ∀ i,
        ∃ m ∈ received i adds, m.stamp = stampOf t ∧ t i = some m) ∧
      ∀ adds' : List (Add (Fin (n + 1)) α), (∀ i, received i adds' = received i adds) →
        emitted (ExactTime.run 0 adds').1 = emitted (ExactTime.run 0 adds).1) ∧
    ∀ (q : ℕ) (adds : List (Add (Fin (n + 1)) α)), NoRepeats adds →
      (0 < q → (ExactTime.run q adds).2.tuples.length ≤ q) ∧
      ∀ i, (((emitted (ExactTime.run q adds).1 ++ dropped (ExactTime.run q adds).1 ++
          (ExactTime.run q adds).2.tuples.map Prod.snd).filterMap fun t => t i).Perm
        (received i adds)) ∧
        ((emitted (ExactTime.run q adds).1 ++ dropped (ExactTime.run q adds).1 ++
          (ExactTime.run q adds).2.tuples.map Prod.snd).filterMap fun t => t i).Nodup := by
  refine ⟨fun adds hincreasing => ?_, fun q adds hnodup => ?_⟩
  -- without a limit everything that can match does
  · have h := matched_run adds hincreasing
    refine ⟨h.increasing, fun s => ⟨fun hs i => ?_, fun hs => ?_⟩, h.made, fun adds' hsame => ?_⟩
    · obtain ⟨t, ht, rfl⟩ := List.mem_map.mp hs
      obtain ⟨m, hm, hstamp, -⟩ := h.made t ht i
      exact ⟨m, hm, hstamp⟩
    · obtain ⟨t, ht, rfl⟩ := h.complete s hs
      exact List.mem_map_of_mem ht
    · have hincreasing' : Increasing adds' := fun i => by
        rw [hsame]
        exact hincreasing i
      exact h.emitted_eq (matched_run adds' hincreasing') hincreasing hsame
  -- with one, nothing is lost or doubled
  · have h := kept_run q adds hnodup
    exact ⟨fun hq => run_bounded q hq adds, fun i =>
      ⟨h.once i, (h.once i).nodup_iff.mpr ((hnodup i).of_map _)⟩⟩

/-- Two inputs: the older stamp is complete only on one of them when the newer one is. -/
theorem exact_time_matching_of_two :
    let adds : List (Add (Fin 2) ℕ) := [(0, ⟨1, 10⟩), (0, ⟨2, 11⟩), (1, ⟨2, 20⟩), (1, ⟨3, 21⟩)]
    ((emitted (ExactTime.run 0 adds).1).map stampOf).Pairwise (· < ·) ∧
      (ExactTime.run 1 adds).2.tuples.length ≤ 1 := by
  intro adds
  have hincreasing : Increasing adds := by decide
  have hnodup : NoRepeats adds := by decide
  exact ⟨((exact_time_matching 1 ℕ).1 adds hincreasing).1,
    ((exact_time_matching 1 ℕ).2 1 adds hnodup).1 Nat.one_pos⟩

end Agnocast.MessageFilters
