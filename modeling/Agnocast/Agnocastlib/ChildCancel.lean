import Agnocast.Agnocastlib.IsolatedExecutorSafety

/-!
# The client library — cancelling the children

`cancel()` on a child clears its `spinning`, and its `spin` begins by setting it. Until the
thread of the child has got that far a cancel leaves no trace: the child enters its loop, and
who joins its thread waits for it. `stop_callback_group` and the end of `spin` cancel a child
once, take it out of the vectors and join its thread.

* `AllCancelsIssued`     — the executor cannot reach the child any more.
* `cancels_step`, `issued_step` — no cancel comes after that, and one has come before.
* `CancelsInLoop`        — the last cancel of a child comes when it has entered its loop.
* `no_cancel_lost`       — then no child is left in its loop, and no join waits for one.
* `cancel_lost_before_spin` — the run in which it comes before.
-/

namespace Agnocast

open Transition

/-- The thread in `spin` holds `child_resources_mutex_`. -/
def SpinPos.locks : SpinPos → Bool
  | .spawning _ _ => true
  | .spawn _ _ _ => true
  | .cancelling _ => true
  | _ => false

/-- The child that the end of `spin` cancels next. -/
def SpinPos.cancelsNext : SpinPos → Option Nat
  | .cancelling (c :: _) => some c
  | _ => none

namespace IsolatedExecutor

variable {s s' : IsolatedExecutor} {c g : Nat} {t : Caller} {i : IsolatedInput}

/-! ## Cancels that are still to come -/

/-- The child was taken out of the vectors, or the loop at the end of `spin`, which goes
through them for the last time, has passed it. -/
def AllCancelsIssued (s : IsolatedExecutor) (c : Nat) : Prop :=
  c ∉ s.weakChildExecutors ∨ ∃ left, s.spin = .cancelling left ∧ c ∉ left

theorem issued_congr (hexecutors : s'.weakChildExecutors = s.weakChildExecutors)
    (hspin : s'.spin = s.spin) : s'.AllCancelsIssued c ↔ s.AllCancelsIssued c := by
  unfold AllCancelsIssued
  rw [hexecutors, hspin]

/-- Away from the end of `spin` the vectors decide. -/
theorem issued_iff (h : ∀ left, s.spin ≠ .cancelling left) :
    s.AllCancelsIssued c ↔ c ∉ s.weakChildExecutors := by
  refine ⟨fun hissued => hissued.resolve_right ?_, .inl⟩
  rintro ⟨left, hspin, -⟩
  exact h left hspin

theorem issued_iff_of_cancelling {left : List Nat} (hspin : s.spin = .cancelling left)
    (hleft : ∀ c ∈ left, c ∈ s.weakChildExecutors) : s.AllCancelsIssued c ↔ c ∉ left := by
  refine ⟨fun hissued hmem => ?_, fun h => .inr ⟨left, hspin, h⟩⟩
  rcases hissued with h | ⟨left', hspin', h⟩
  · exact h (hleft c hmem)
  · rw [hspin] at hspin'
    injection hspin' with heq
    exact h (heq ▸ hmem)

/-- **The mutex**: who goes through the vectors holds it, and goes through children that are
in them. -/
structure Locked (s : IsolatedExecutor) : Prop where
  spin : s.spin.locks = true → s.childResourcesMutex = some .spin
  final : ∀ left, s.spin = .cancelling left → ∀ c ∈ left, c ∈ s.weakChildExecutors
  caller : ∀ t left, s.call t = some (.cancelling left) →
    s.childResourcesMutex = some (.caller t) ∧ ∀ c ∈ left, c ∈ s.weakChildExecutors

theorem Locked.fresh : Locked fresh := ⟨nofun, nofun, nofun⟩

theorem Locked.not_cancelling (hok : Locked s) (h : s.childResourcesMutex ≠ some .spin)
    (left : List Nat) : s.spin ≠ .cancelling left := fun hspin =>
  h (hok.spin (by rw [hspin]; rfl))

theorem Locked.not_calling (hok : Locked s) (h : ∀ t, s.childResourcesMutex ≠ some (.caller t))
    (t : Caller) (left : List Nat) : s.call t ≠ some (.cancelling left) := fun hcall =>
  h t (hok.caller t left hcall).1

theorem Locked.of_untouched (hok : Locked s) (h : Untouched s s') : Locked s' where
  spin := by rw [h.spin, h.mutex]; exact hok.spin
  final := by rw [h.spin, h.executors]; exact hok.final
  caller := by rw [h.call, h.mutex, h.executors]; exact hok.caller

/-- A call moves to where it does not hold the mutex. -/
theorem Locked.turnCall (hok : Locked s) {x : Option ApiCall} {running : Bool}
    (hx : ∀ left, x ≠ some (.cancelling left)) :
    Locked { s with spinning := running, call := Function.update s.call t x } := by
  refine ⟨hok.spin, hok.final, fun t' left hcall => ?_⟩
  change Function.update s.call t x t' = _ at hcall
  by_cases heq : t' = t
  · rw [heq, Function.update_self] at hcall
    exact absurd hcall (hx left)
  · rw [Function.update_of_ne heq] at hcall
    exact hok.caller t' left hcall

theorem Locked.stopCallbackGroup (hok : Locked s) (hthreaded : Threaded s)
    (hfree : s.childResourcesMutex = none) : Locked (s.stopCallbackGroup t g).2 := by
  rcases hthreaded.stopCallbackGroup_cases t g with ⟨-, heq⟩ | ⟨i, c, -, -, -, heq⟩
  · rw [heq]
    exact hok
  · -- nobody goes through the vectors when the mutex is free
    have hspin := hok.not_cancelling (by rw [hfree]; exact nofun)
    have hcall := hok.not_calling (by rw [hfree]; exact nofun)
    rw [heq]
    refine ⟨hok.spin, fun left h => absurd h (hspin left), fun t' left h => ?_⟩
    change (if t = .child c then s.call else
      Function.update s.call t (some (.joining g c))) t' = _ at h
    split at h
    · exact absurd h (hcall t' left)
    · rw [Function.update_apply] at h
      split at h
      · cases h
      · exact absurd h (hcall t' left)

theorem Locked.advance (hok : Locked s) : Locked (s.advance t).2 := by
  unfold IsolatedExecutor.advance
  split
  · exact hok
  · split
    · next hfree =>
      have hspin := hok.not_cancelling (by rw [hfree]; exact nofun)
      have hcall := hok.not_calling (by rw [hfree]; exact nofun)
      refine ⟨fun h => ?_, hok.final, fun t' left h => ?_⟩
      · have hheld := hok.spin h
        rw [hfree] at hheld
        cases hheld
      · change Function.update s.call t _ t' = _ at h
        by_cases heq : t' = t
        · rw [heq, Function.update_self] at h
          cases h
          exact ⟨heq ▸ rfl, fun _ h => h⟩
        · rw [Function.update_of_ne heq] at h
          exact absurd h (hcall t' left)
    · exact hok
  · next c left hcall =>
    obtain ⟨hheld, hleft⟩ := hok.caller t _ hcall
    refine ⟨hok.spin, hok.final, fun t' left' h => ?_⟩
    change Function.update s.call t _ t' = _ at h
    by_cases heq : t' = t
    · rw [heq, Function.update_self] at h
      cases h
      exact ⟨heq ▸ hheld, fun c' h => hleft c' (List.mem_cons_of_mem _ h)⟩
    · rw [Function.update_of_ne heq] at h
      exact hok.caller t' left' h
  · next hcall =>
    -- only this call held the mutex
    obtain ⟨hheld, -⟩ := hok.caller t _ hcall
    refine ⟨fun h => ?_, hok.final, fun t' left' h => ?_⟩
    · have hspin := hok.spin h
      rw [hheld] at hspin
      cases hspin
    · change Function.update s.call t _ t' = _ at h
      by_cases heq : t' = t
      · rw [heq, Function.update_self] at h
        cases h
      · rw [Function.update_of_ne heq] at h
        have hother := (hok.caller t' left' h).1
        rw [hheld] at hother
        injection hother with hother
        injection hother with hother
        exact absurd hother.symm heq
  · split
    · exact hok.turnCall nofun
    · exact hok

/-- The thread in `spin` goes on and leaves mutex and vectors as they are. -/
private theorem Locked.goes (hok : Locked s) {pos : SpinPos}
    (hlocks : pos.locks = true → s.spin.locks = true) (hpos : ∀ left, pos ≠ .cancelling left) :
    Locked { s with spin := pos } :=
  ⟨fun h => hok.spin (hlocks h), fun left h => absurd h (hpos left), hok.caller⟩

/-- It takes the mutex, which was free. -/
private theorem Locked.takes (hok : Locked s) (hfree : s.childResourcesMutex = none)
    {pos : SpinPos}
    (hpos : ∀ left, pos = .cancelling left → ∀ c ∈ left, c ∈ s.weakChildExecutors) :
    Locked { s with childResourcesMutex := some .spin, spin := pos } :=
  ⟨fun _ => rfl, hpos,
    fun t left h => absurd h (hok.not_calling (by rw [hfree]; exact nofun) t left)⟩

/-- It gives the mutex back. -/
private theorem Locked.releases (hok : Locked s) (hlocks : s.spin.locks = true)
    {pos : SpinPos} (hpos : pos.locks = false) {running : Bool} :
    Locked { s with childResourcesMutex := none, spinning := running, spin := pos } := by
  have hcall := hok.not_calling (by rw [hok.spin hlocks]; exact nofun)
  refine ⟨fun h => ?_, fun left h => ?_, fun t left h => absurd h (hcall t left)⟩
  · change pos.locks = true at h
    rw [hpos] at h
    cases h
  · change pos = _ at h
    rw [h] at hpos
    cases hpos

theorem Locked.spinStep (hok : Locked s) : Locked s.spinStep.2 := by
  unfold IsolatedExecutor.spinStep
  split
  · exact hok
  · exact hok.goes nofun nofun
  · exact hok.goes nofun nofun
  · -- everything has been looked at
    refine hok.goes (fun h => ?_) fun left h => ?_
    · split at h <;> cases h
    · split at h <;> cases h
  · -- the second mutex
    split
    · exact hok
    · next hfree =>
      split
      · exact hok.takes (not_not.mp hfree) nofun
      · split
        · exact hok.goes nofun nofun
        · exact ⟨nofun, nofun, hok.caller⟩
  · -- the next group that was found
    next monitor g left hspin =>
    refine hok.goes (fun _ => by rw [hspin]; rfl) fun left h => ?_
    split at h <;> cases h
  · next monitor hspin => exact hok.releases (by rw [hspin]; rfl) rfl
  · -- the spawn
    next monitor g left hspin =>
    have hlocks : s.spin.locks = true := by rw [hspin]; rfl
    unfold spawnChildExecutor
    split
    · exact hok.releases hlocks rfl
    -- `spin` holds the mutex, so no call does
    · have hcall := hok.not_calling (by rw [hok.spin hlocks]; exact nofun)
      exact ⟨fun _ => hok.spin hlocks, nofun, fun t left h => absurd h (hcall t left)⟩
  · -- the head of the loop
    refine hok.goes (fun h => ?_) fun left h => ?_
    · split at h <;> cases h
    · split at h <;> cases h
  · -- after the wait
    split
    · exact hok.goes nofun nofun
    · exact hok.goes nofun nofun
  · -- out of the loop
    split
    · exact hok
    · next hfree =>
      -- it takes the mutex to cancel, and all children are still to be passed
      refine hok.takes (not_not.mp hfree) fun left h c hc => ?_
      cases h
      exact hc
  · -- the next child is cancelled
    next c left hspin =>
    refine ⟨fun _ => hok.spin (by rw [hspin]; rfl), fun left' h c' hc' => ?_, hok.caller⟩
    cases h
    exact hok.final _ hspin c' (List.mem_cons_of_mem _ hc')
  · -- all children are cancelled
    next hspin =>
    have hcall := hok.not_calling (by rw [hok.spin (by rw [hspin]; rfl)]; exact nofun)
    exact ⟨nofun, nofun, fun t left h => absurd h (hcall t left)⟩
  · -- the next child is joined
    split
    · exact ⟨nofun, nofun, hok.caller⟩
    · exact hok
  · exact ⟨nofun, nofun, hok.caller⟩

theorem Locked.step (hok : Locked s) (hthreaded : Threaded s) (i : IsolatedInput) :
    Locked (s.step i).2 := by
  cases i with
  | stopCallbackGroup t g =>
    simp only [IsolatedExecutor.step, Bool.and_eq_true]
    split
    · next h => exact hok.stopCallbackGroup hthreaded (Option.isNone_iff_eq_none.mp h.1.2)
    · exact hok
  | cancel t =>
    simp only [IsolatedExecutor.step]
    split
    · exact hok.turnCall fun _ h => by cases h
    · exact hok
  | advance t => exact hok.advance
  | callSpin =>
    simp only [IsolatedExecutor.step]
    split
    · exact ⟨hok.spin, hok.final, hok.caller⟩
    · split
      · exact ⟨by rintro ⟨⟩, by rintro _ ⟨⟩, hok.caller⟩
      · exact hok
  | spinStep => exact hok.spinStep
  | childStep c =>
    simp only [IsolatedExecutor.step]
    split
    · unfold childStep
      split
      · split
        · exact ⟨hok.spin, hok.final, hok.caller⟩
        · exact ⟨hok.spin, hok.final, hok.caller⟩
      · split
        · exact hok
        · exact ⟨hok.spin, hok.final, hok.caller⟩
      · exact hok
    · exact hok
  | _ => exact hok.of_untouched (untouched_step (by rfl))

/-! ## What a step does to a child -/

/-- **What a step does to a child and to the cancels that are still to come**: the child stays,
its thread goes on, it is cancelled and will be again, or it is cancelled for the last time. -/
inductive ChildEffect (s : IsolatedExecutor) (i : IsolatedInput) (s' : IsolatedExecutor) (c : Nat) :
    Prop
  | stays (hchild : s'.child c = s.child c)
      (hissued : s'.AllCancelsIssued c ↔ s.AllCancelsIssued c)
  | goes (hi : i = .childStep c) (hs : s' = s.childStep c)
  | cancelled (hchild : s'.child c = (s.child c).cancel) (h : ¬ s.AllCancelsIssued c)
      (h' : ¬ s'.AllCancelsIssued c)
  | last (hchild : s'.child c = (s.child c).cancel) (h : ¬ s.AllCancelsIssued c)
      (h' : s'.AllCancelsIssued c)
      (hi : (∃ t g, i = .stopCallbackGroup t g ∧ s.childOf g = some c) ∨
        i = .spinStep ∧ s.spin.cancelsNext = some c)

theorem cancelChild_self : (s.cancelChild c).child c = (s.child c).cancel :=
  Function.update_self _ _ _

theorem cancelChild_of_ne {c' : Nat} (h : c' ≠ c) : (s.cancelChild c).child c' = s.child c' :=
  Function.update_of_ne h _ _

theorem stopCallbackGroup_effect (hthreaded : Threaded s) (hok : Locked s)
    (hfree : s.childResourcesMutex = none) :
    ChildEffect s (.stopCallbackGroup t g) (s.stopCallbackGroup t g).2 c := by
  have hspin := hok.not_cancelling (by rw [hfree]; exact nofun)
  rcases hthreaded.stopCallbackGroup_cases t g with ⟨-, heq⟩ | ⟨j, c', hfound, hj, -, heq⟩
  · rw [heq]
    exact .stays rfl Iff.rfl
  · have hj' : s.weakChildExecutors[j]? = some c' := by rw [hthreaded.executors]; exact hj
    have hin : c' ∈ s.weakChildExecutors := List.mem_of_getElem? hj'
    rw [heq]
    generalize hs' : ({ s.cancelChild c' with
      childCallbackGroups := s.childCallbackGroups.eraseIdx j
      weakChildExecutors := s.weakChildExecutors.eraseIdx j
      childThreads := s.childThreads.eraseIdx j
      takenOut := c' :: s.takenOut
      call := if t = .child c' then s.call
        else Function.update s.call t (some (.joining g c')) } : IsolatedExecutor) = s'
    have hissued' : s'.AllCancelsIssued c ↔ c ∉ s.weakChildExecutors.eraseIdx j := by
      subst hs'
      exact issued_iff hspin
    have hissued := issued_iff (c := c) hspin
    by_cases heq' : c = c'
    · subst heq'
      have hchild : s'.child c = (s.child c).cancel := by
        subst hs'
        exact cancelChild_self
      have hnot : ¬ s.AllCancelsIssued c := fun h => hissued.mp h hin
      by_cases hmem : c ∈ s.weakChildExecutors.eraseIdx j
      · exact .cancelled hchild hnot fun h => hissued'.mp h hmem
      · exact .last hchild hnot (hissued'.mpr hmem) (.inl ⟨t, g, rfl, hfound⟩)
    · -- another child is taken out
      refine .stays ?_ ?_
      · subst hs'
        exact cancelChild_of_ne heq'
      · rw [hissued', hissued]
        refine not_congr ⟨List.mem_of_mem_eraseIdx, fun h => ?_⟩
        exact (mem_or_mem_eraseIdx hj' h).resolve_left heq'

theorem advance_effect (hok : Locked s) : ChildEffect s (.advance t) (s.advance t).2 c := by
  unfold IsolatedExecutor.advance
  split
  · exact .stays rfl Iff.rfl
  · split
    · exact .stays rfl Iff.rfl
    · exact .stays rfl Iff.rfl
  · next c' left hcall =>
    obtain ⟨hheld, hleft⟩ := hok.caller t _ hcall
    by_cases heq : c = c'
    · -- the child is in the vectors, and the loop at the end of `spin` has not begun
      subst heq
      have hnot : ¬ s.AllCancelsIssued c := fun h =>
        (issued_iff (hok.not_cancelling (by rw [hheld]; exact nofun))).mp h
          (hleft c List.mem_cons_self)
      exact .cancelled cancelChild_self hnot hnot
    · exact .stays (cancelChild_of_ne heq) Iff.rfl
  · exact .stays rfl Iff.rfl
  · split
    · exact .stays rfl Iff.rfl
    · exact .stays rfl Iff.rfl

private theorem issued_turn {pos : SpinPos} {lock : Option ChildLock} {running : Bool}
    (h : ∀ left, s.spin ≠ .cancelling left) (hpos : ∀ left, pos ≠ .cancelling left) :
    AllCancelsIssued { s with childResourcesMutex := lock, spinning := running, spin := pos } c ↔
      s.AllCancelsIssued c := by
  rw [issued_iff h, issued_iff hpos]

theorem spinStep_effect (hok : Locked s) (hc : c < s.children) :
    ChildEffect s .spinStep s.spinStep.2 c := by
  unfold IsolatedExecutor.spinStep
  split
  · exact .stays rfl Iff.rfl
  · next hspin => exact .stays rfl (issued_turn (by rw [hspin]; exact nofun) nofun)
  · next hspin => exact .stays rfl (issued_turn (by rw [hspin]; exact nofun) nofun)
  · -- everything has been looked at
    next hspin =>
    refine .stays rfl (issued_turn (by rw [hspin]; exact nofun) fun left h => ?_)
    split at h <;> cases h
  · -- the second mutex
    next hspin =>
    have hnot : ∀ left, s.spin ≠ .cancelling left := by rw [hspin]; exact nofun
    split
    · exact .stays rfl Iff.rfl
    · split
      · exact .stays rfl (issued_turn hnot nofun)
      · split
        · exact .stays rfl (issued_turn hnot nofun)
        · exact .stays rfl (issued_turn hnot nofun)
  · -- the next group that was found
    next hspin =>
    refine .stays rfl (issued_turn (by rw [hspin]; exact nofun) fun left h => ?_)
    split at h <;> cases h
  · next hspin => exact .stays rfl (issued_turn (by rw [hspin]; exact nofun) nofun)
  · -- the spawn
    next monitor g left hspin =>
    have hnot : ∀ left, s.spin ≠ .cancelling left := by rw [hspin]; exact nofun
    unfold spawnChildExecutor
    split
    · exact .stays rfl (issued_turn hnot nofun)
    · -- another child comes into the vectors
      refine .stays (Function.update_of_ne (Nat.ne_of_lt hc) _ _) ?_
      rw [issued_iff hnot, issued_iff (by exact nofun)]
      show c ∉ s.weakChildExecutors ++ [s.children] ↔ _
      rw [List.mem_append, List.mem_singleton, or_iff_left (Nat.ne_of_lt hc)]
  · -- the head of the loop
    next hspin =>
    refine .stays rfl (issued_turn (by rw [hspin]; exact nofun) fun left h => ?_)
    split at h <;> cases h
  · -- after the wait
    next hspin =>
    have hnot : ∀ left, s.spin ≠ .cancelling left := by rw [hspin]; exact nofun
    split
    · exact .stays rfl (issued_turn hnot nofun)
    · exact .stays rfl (issued_turn hnot nofun)
  · -- out of the loop
    next hspin =>
    split
    · exact .stays rfl Iff.rfl
    · have hnot : ∀ left, s.spin ≠ .cancelling left := by rw [hspin]; exact nofun
      exact .stays rfl ((issued_iff_of_cancelling rfl fun _ h => h).trans (issued_iff hnot).symm)
  · -- the next child is cancelled
    next c' left hspin =>
    have hin := hok.final _ hspin
    have hissued := issued_iff_of_cancelling (c := c) hspin hin
    have hissued' : AllCancelsIssued { s.cancelChild c' with spin := .cancelling left } c ↔
        c ∉ left :=
      issued_iff_of_cancelling rfl fun _ h => hin _ (List.mem_cons_of_mem _ h)
    by_cases heq : c = c'
    · subst heq
      have hnot : ¬ s.AllCancelsIssued c := fun h => hissued.mp h List.mem_cons_self
      by_cases hmem : c ∈ left
      · exact .cancelled cancelChild_self hnot fun h => hissued'.mp h hmem
      · exact .last cancelChild_self hnot (hissued'.mpr hmem) (.inr ⟨rfl, by rw [hspin]; rfl⟩)
    · refine .stays (cancelChild_of_ne heq) ?_
      rw [hissued', hissued, List.mem_cons, or_iff_right heq]
  · -- all children are cancelled
    next hspin =>
    -- the vectors are emptied when the loop has passed all children
    refine .stays rfl (iff_of_true (.inl nofun) (.inr ⟨[], hspin, nofun⟩))
  · -- the next child is joined
    next hspin =>
    split
    · exact .stays rfl (issued_turn (s := { s with joined := _ :: s.joined })
        (by show ∀ left, s.spin ≠ _; rw [hspin]; exact nofun) nofun)
    · exact .stays rfl Iff.rfl
  · next hspin => exact .stays rfl (issued_turn (by rw [hspin]; exact nofun) nofun)

theorem step_effect (hthreaded : Threaded s) (hok : Locked s) (hc : c < s.children) :
    ChildEffect s i (s.step i).2 c := by
  cases i with
  | stopCallbackGroup t g =>
    simp only [IsolatedExecutor.step, Bool.and_eq_true]
    split
    · next h => exact stopCallbackGroup_effect hthreaded hok (Option.isNone_iff_eq_none.mp h.1.2)
    · exact .stays rfl Iff.rfl
  | cancel t =>
    simp only [IsolatedExecutor.step]
    split <;> exact .stays rfl Iff.rfl
  | advance t => exact advance_effect hok
  | callSpin =>
    simp only [IsolatedExecutor.step]
    split
    · exact .stays rfl Iff.rfl
    · split
      · next hidle =>
        have hnot : ∀ left, s.spin ≠ .cancelling left := fun left h => by
          rw [hidle] at h
          cases h
        exact .stays rfl ((issued_iff fun _ h => by cases h).trans (issued_iff hnot).symm)
      · exact .stays rfl Iff.rfl
  | spinStep => exact spinStep_effect hok hc
  | childStep c' =>
    simp only [IsolatedExecutor.step]
    split
    · by_cases heq : c' = c
      · subst heq
        exact .goes rfl rfl
      · refine .stays ?_ ?_
        · unfold childStep
          split
          · split
            · rfl
            · exact Function.update_of_ne (Ne.symm heq) _ _
          · split
            · rfl
            · exact Function.update_of_ne (Ne.symm heq) _ _
          · rfl
        · exact issued_congr SameThreads.childStep.executors childStep_spin
    · exact .stays rfl Iff.rfl
  | _ =>
    have h : ∀ {i s'}, Untouched s s' → ChildEffect s i s' c := fun h =>
      .stays (by rw [h.child]) (issued_congr h.executors h.spin)
    exact h (untouched_step (by rfl))

/-- **No cancel comes after the last one.** -/
theorem cancels_step (h : ChildEffect s i s' c) (hissued : s.AllCancelsIssued c) :
    (s'.child c).cancels = (s.child c).cancels ∧ s'.AllCancelsIssued c := by
  cases h with
  | stays hchild hiff => exact ⟨by rw [hchild], hiff.mpr hissued⟩
  | goes hi hs =>
    subst hs
    refine ⟨?_, (issued_congr SameThreads.childStep.executors childStep_spin).mpr hissued⟩
    unfold childStep
    split
    · split
      · rfl
      · rw [setChild_self]
    · split
      · rfl
      · show ((s.setChild c _).child c).cancels = _
        rw [setChild_self]
    · rfl
  | cancelled hchild hnot hnot' => exact absurd hissued hnot
  | last hchild hnot hissued' hi => exact absurd hissued hnot

/-- **The last cancel is one**: a child that runs is not given up without it. -/
theorem issued_step (h : ChildEffect s i s' c) (hnot : ¬ s.AllCancelsIssued c)
    (hissued : s'.AllCancelsIssued c) (hrunning : (s.child c).stage ≠ .finished) :
    (s'.child c).cancels = (s.child c).cancels + 1 := by
  cases h with
  | stays hchild hiff => exact absurd (hiff.mp hissued) hnot
  | goes hi hs =>
    subst hs
    exact absurd ((issued_congr SameThreads.childStep.executors childStep_spin).mp hissued) hnot
  | cancelled hchild _ hnot' => exact absurd hissued hnot'
  | last hchild _ _ hi => rw [hchild, ChildExecutor.cancels_cancel _ hrunning]

/-! ## Children that leave their loops -/

/-- The child does not stay in its loop: it has ended, or it is in the loop and was cancelled. -/
def Settled (s : IsolatedExecutor) (c : Nat) : Prop :=
  (s.child c).stage = .finished ∨ (s.child c).stage = .looping ∧ (s.child c).spinning = false

/-- The last cancel of a child comes when the child has entered its loop. -/
def CancelsInLoop (s : IsolatedExecutor) : IsolatedInput → Prop
  | .stopCallbackGroup _ g => ∀ c ∈ s.childOf g, (s.child c).stage ≠ .started
  | .spinStep => ∀ c ∈ s.spin.cancelsNext, (s.child c).stage ≠ .started
  | _ => True

instance (s : IsolatedExecutor) : ∀ i, Decidable (s.CancelsInLoop i)
  | .stopCallbackGroup _ g =>
    inferInstanceAs (Decidable (∀ c ∈ s.childOf g, (s.child c).stage ≠ .started))
  | .spinStep =>
    inferInstanceAs (Decidable (∀ c ∈ s.spin.cancelsNext, (s.child c).stage ≠ .started))
  | .createNode | .createCallbackGroup _ _ | .expireNode _ | .expireGroup _
  | .associateElsewhere _ | .dissociateElsewhere _ | .addNode _ _ | .removeNode _ _
  | .addCallbackGroup _ _ _ | .removeCallbackGroup _ _ | .cancel _ | .advance _ | .callSpin
  | .childStep _ | .shutdown => inferInstanceAs (Decidable True)

theorem Settled.cancel (h : s.Settled c) (hchild : s'.child c = (s.child c).cancel) :
    s'.Settled c := by
  unfold Settled at h ⊢
  rw [hchild, ChildExecutor.cancel_stage]
  refine h.imp_right fun h => ⟨h.1, ChildExecutor.cancel_spinning _ ?_⟩
  rw [h.1]
  exact nofun

theorem settled_of_cancel (hstage : (s.child c).stage ≠ .started)
    (hchild : s'.child c = (s.child c).cancel) : s'.Settled c := by
  unfold Settled
  rw [hchild, ChildExecutor.cancel_stage]
  cases h : (s.child c).stage with
  | started => exact absurd h hstage
  | looping => exact .inr ⟨rfl, ChildExecutor.cancel_spinning _ (by rw [h]; exact nofun)⟩
  | finished => exact .inl rfl

theorem Settled.childStep (h : s.Settled c) : (s.childStep c).Settled c := by
  unfold IsolatedExecutor.childStep
  rcases h with h | ⟨h, hspinning⟩
  · rw [h]
    exact .inl h
  · rw [h]
    split
    · cases ‹ChildStage.looping = .started›
    · split
      · exact .inr ⟨h, hspinning⟩
      · refine .inl ?_
        show ((s.setChild c _).child c).stage = _
        rw [setChild_self]
    · cases ‹ChildStage.looping = .finished›

theorem Settled.step (h : s.Settled c) (heffect : ChildEffect s i s' c) : s'.Settled c := by
  cases heffect with
  | stays hchild _ =>
    unfold Settled at h ⊢
    rwa [hchild]
  | goes hi hs => exact hs ▸ h.childStep
  | cancelled hchild _ _ => exact h.cancel hchild
  | last hchild _ _ _ => exact h.cancel hchild

/-- **Children that are given up leave their loops**, and so do those that are joined. -/
structure Leaves (s : IsolatedExecutor) : Prop where
  issued : ∀ c, c < s.children → s.AllCancelsIssued c → s.Settled c
  calls : ∀ t g c, s.call t = some (.joining g c) → c < s.children ∧ s.Settled c
  joins : ∀ c ∈ s.spin.threads, c < s.children ∧ s.Settled c

theorem Leaves.fresh : Leaves fresh := ⟨nofun, nofun, nofun⟩

/-- Who joins a child after a step has joined it before, or has just cancelled it. -/
theorem joining_step (hthreaded : Threaded s)
    (h : (s.step i).2.call t = some (.joining g c)) :
    s.call t = some (.joining g c) ∨ i = .stopCallbackGroup t g ∧ s.childOf g = some c ∧
      c < s.children ∧ (s.step i).2.child c = (s.child c).cancel := by
  cases i with
  | stopCallbackGroup t' g' =>
    simp only [IsolatedExecutor.step] at h ⊢
    split at h
    · next hcan =>
      rw [if_pos hcan]
      rcases hthreaded.stopCallbackGroup_cases t' g' with ⟨-, heq⟩ | ⟨j, c', hfound, hj, -, heq⟩
      · rw [heq] at h
        exact .inl h
      · rw [heq] at h ⊢
        change (if t' = .child c' then s.call else
          Function.update s.call t' (some (.joining g' c'))) t = _ at h
        split at h
        · exact .inl h
        -- only the caller starts to join, and it has cancelled the child before
        · by_cases ht : t = t'
          · subst ht
            rw [Function.update_self] at h
            cases h
            exact .inr ⟨rfl, hfound, hthreaded.threadsLt c (List.mem_of_getElem? hj),
              cancelChild_self⟩
          · rw [Function.update_of_ne ht] at h
            exact .inl h
    · exact .inl h
  | cancel t' =>
    simp only [IsolatedExecutor.step] at h
    split at h
    · change Function.update s.call t' _ t = _ at h
      rw [Function.update_apply] at h
      split at h
      · cases h
      · exact .inl h
    · exact .inl h
  | advance t' =>
    refine .inl ?_
    -- a call that goes on never turns into one that joins
    have hother : ∀ x, (∀ g c, x ≠ some (.joining g c)) →
        Function.update s.call t' x t = some (.joining g c) → s.call t = some (.joining g c) :=
      fun x hx h => by
        rw [Function.update_apply] at h
        split at h
        · exact absurd h (hx g c)
        · exact h
    change (s.advance t').2.call t = _ at h
    unfold advance at h
    split at h
    · exact h
    · split at h
      · exact hother _ (fun _ _ heq => by cases heq) h
      · exact h
    · exact hother _ (fun _ _ heq => by cases heq) h
    · exact hother _ (fun _ _ heq => by cases heq) h
    · split at h
      · exact hother _ (fun _ _ heq => by cases heq) h
      · exact h
  | callSpin =>
    simp only [IsolatedExecutor.step] at h
    split at h
    · exact .inl h
    · split at h <;> exact .inl h
  | spinStep =>
    change s.spinStep.2.call t = _ at h
    unfold spinStep spawnChildExecutor at h
    split at h <;> (try split at h) <;> (try split at h) <;> (try split at h) <;> exact .inl h
  | childStep c' =>
    simp only [IsolatedExecutor.step, childStep] at h
    split at h
    · split at h
      · split at h <;> exact .inl h
      · split at h <;> exact .inl h
      · exact .inl h
    · exact .inl h
  | _ => exact .inl ((congrFun (Untouched.call (untouched_step (by rfl))) t).symm.trans h)

/-- What `spin` joins after a step it has joined before, or it has passed all children. -/
theorem threads_step (h : c ∈ (s.step i).2.spin.threads) :
    c ∈ s.spin.threads ∨ s.spin = .cancelling [] ∧ c ∈ s.childThreads := by
  have hspin : ∀ {s' : IsolatedExecutor}, c ∈ s'.spin.threads → s'.spin = s.spin →
      c ∈ s.spin.threads := fun h heq => heq ▸ h
  cases i with
  | stopCallbackGroup t g =>
    simp only [IsolatedExecutor.step] at h
    split at h
    · exact .inl (hspin h stopCallbackGroup_spin)
    · exact .inl h
  | cancel t =>
    simp only [IsolatedExecutor.step] at h
    split at h <;> exact .inl h
  | advance t => exact .inl (hspin h advance_spin)
  | callSpin =>
    simp only [IsolatedExecutor.step] at h
    split at h
    · exact .inl h
    · split at h
      · cases h
      · exact .inl h
  | spinStep =>
    change c ∈ s.spinStep.2.spin.threads at h
    unfold spinStep at h
    split at h
    · exact .inl h
    · cases h
    · cases h
    · split at h <;> cases h
    · split at h
      · exact .inl h
      · split at h
        · cases h
        · split at h <;> cases h
    · split at h <;> cases h
    · cases h
    · unfold spawnChildExecutor at h
      split at h <;> cases h
    · split at h <;> cases h
    · split at h <;> cases h
    · split at h
      · exact .inl h
      · cases h
    · cases h
    -- all children have been passed, and their threads are moved over
    · next hspin' => exact .inr ⟨hspin', h⟩
    · next hspin' =>
      split at h
      · exact .inl (by rw [hspin']; exact List.mem_cons_of_mem _ h)
      · exact .inl h
    · cases h
  | childStep c' =>
    simp only [IsolatedExecutor.step] at h
    split at h
    · exact .inl (hspin h childStep_spin)
    · exact .inl h
  | _ => exact .inl (hspin h (Untouched.spin (untouched_step (by rfl))))

/-- A step adds no child, or one that is in the vectors. -/
theorem children_step : (s.step i).2.children = s.children ∨
    (s.step i).2.children = s.children + 1 ∧ s.children ∈ (s.step i).2.weakChildExecutors ∧
      ∀ left, (s.step i).2.spin ≠ .cancelling left := by
  cases i with
  | stopCallbackGroup t g =>
    simp only [IsolatedExecutor.step]
    split
    · exact .inl SameRegistry.stopCallbackGroup.children
    · exact .inl rfl
  | cancel t =>
    simp only [IsolatedExecutor.step]
    split <;> exact .inl rfl
  | advance t => exact .inl SameThreads.advance.children
  | callSpin =>
    simp only [IsolatedExecutor.step]
    split
    · exact .inl rfl
    · split <;> exact .inl rfl
  | spinStep =>
    -- only the spawn of a group makes one
    by_cases hspawn : ∃ monitor g left, s.spin = .spawn monitor g left
    · obtain ⟨monitor, g, left, hspin⟩ := hspawn
      have heq : (s.step .spinStep).2 = (s.spawnChildExecutor monitor g left).2 := by
        show s.spinStep.2 = _
        unfold IsolatedExecutor.spinStep
        rw [hspin]
      rw [heq]
      unfold spawnChildExecutor
      split
      · exact .inl rfl
      · exact .inr ⟨rfl, List.mem_append_right _ List.mem_cons_self, fun _ h => by cases h⟩
    · exact .inl (SameChildren.spinStep fun monitor g left hspin =>
        hspawn ⟨monitor, g, left, hspin⟩).children
  | childStep c' =>
    simp only [IsolatedExecutor.step]
    split
    · exact .inl SameThreads.childStep.children
    · exact .inl rfl
  | _ => exact .inl (Untouched.children (untouched_step (by rfl)))

theorem children_le_step : s.children ≤ (s.step i).2.children := by
  rcases children_step (s := s) (i := i) with h | ⟨h, -, -⟩ <;> omega

/-- A new child is in the vectors. -/
theorem not_issued_of_new (hlt : ¬ c < s.children) (hc : c < (s.step i).2.children) :
    ¬ (s.step i).2.AllCancelsIssued c := by
  rcases children_step (s := s) (i := i) with h | ⟨h, hmem, hspin⟩
  · exact absurd (h ▸ hc) hlt
  · obtain rfl : c = s.children := by omega
    rw [issued_iff hspin, not_not]
    exact hmem

theorem Leaves.step (hok : Leaves s) (hthreaded : Threaded s) (hlocked : Locked s)
    (hguard : s.CancelsInLoop i) : Leaves (s.step i).2 := by
  have heffect : ∀ c, c < s.children → ChildEffect s i (s.step i).2 c := fun c hc =>
    step_effect hthreaded hlocked hc
  refine ⟨fun c hc hissued => ?_, fun t g c hcall => ?_, fun c hc => ?_⟩
  · by_cases hlt : c < s.children
    · by_cases hold : s.AllCancelsIssued c
      · exact (hok.issued c hlt hold).step (heffect c hlt)
      · -- the last cancel has just come, and it finds the child in its loop
        cases heffect c hlt with
        | stays _ hiff => exact absurd (hiff.mp hissued) hold
        | goes hi hs =>
          rw [hs, issued_congr SameThreads.childStep.executors childStep_spin] at hissued
          exact absurd hissued hold
        | cancelled _ _ hnot => exact absurd hissued hnot
        | last hchild _ _ hi =>
          refine settled_of_cancel ?_ hchild
          rcases hi with ⟨t, g, rfl, hfound⟩ | ⟨rfl, hnext⟩
          · exact hguard c hfound
          · exact hguard c hnext
    · exact absurd hissued (not_issued_of_new hlt hc)
  · rcases joining_step hthreaded hcall with hold | ⟨rfl, hfound, hlt, hchild⟩
    · obtain ⟨hlt, hsettled⟩ := hok.calls t g c hold
      exact ⟨Nat.lt_of_lt_of_le hlt children_le_step, hsettled.step (heffect c hlt)⟩
    · exact ⟨Nat.lt_of_lt_of_le hlt children_le_step,
        settled_of_cancel (hguard c hfound) hchild⟩
  · rcases threads_step hc with hold | ⟨hspin, hmem⟩
    · obtain ⟨hlt, hsettled⟩ := hok.joins c hold
      exact ⟨Nat.lt_of_lt_of_le hlt children_le_step, hsettled.step (heffect c hlt)⟩
    · have hlt := hthreaded.threadsLt c hmem
      refine ⟨Nat.lt_of_lt_of_le hlt children_le_step, ?_⟩
      exact (hok.issued c hlt (.inr ⟨[], hspin, nofun⟩)).step (heffect c hlt)

end IsolatedExecutor

open IsolatedExecutor

section Run

variable {G : IsolatedExecutor → IsolatedInput → Prop} {tr : List IsolatedEvent}
  {s : IsolatedExecutor}

theorem locked_of_run (hr : Run isolatedExecutor G tr s) : Locked s := by
  refine hr.history (P := fun _ s => Locked s) (fun s hs => ?_) fun tr s i hr hok _ => ?_
  · obtain rfl : s = .fresh := hs
    exact .fresh
  · show Locked (if s.exited then (none, s) else s.step i).2
    split
    · exact hok
    · exact hok.step (isolatedExecutor_sound hr).2 i

theorem leaves_of_run (hr : Run isolatedExecutor CancelsInLoop tr s) : Leaves s := by
  refine hr.history (P := fun _ s => Leaves s) (fun s hs => ?_) fun tr s i hr hok hguard => ?_
  · obtain rfl : s = .fresh := hs
    exact .fresh
  · show Leaves (if s.exited then (none, s) else s.step i).2
    split
    · exact hok
    · exact hok.step (isolatedExecutor_sound hr).2 (locked_of_run hr) hguard

/-- **No cancel is lost**, over every run in which the last cancel of a child finds it in its
loop: no child is in its loop with `spinning` set when the executor has no cancel left for it,
and whoever joins a thread waits for one that has ended or was cancelled in its loop. -/
theorem no_cancel_lost (hr : Run isolatedExecutor CancelsInLoop tr s) :
    (∀ c, c < s.children → ¬ ((s.child c).stage = .looping ∧ (s.child c).spinning = true ∧
      s.AllCancelsIssued c)) ∧
    (∀ t g c, s.call t = some (.joining g c) →
      (s.child c).stage = .finished ∨ (s.child c).stage = .looping ∧ (s.child c).spinning = false) ∧
    (∀ left, s.spin = .joining left → ∀ c ∈ left,
      (s.child c).stage = .finished ∨ (s.child c).stage = .looping ∧ (s.child c).spinning = false) := by
  have hok := leaves_of_run hr
  refine ⟨?_, fun t g c hcall => (hok.calls t g c hcall).2, fun left hspin c hc => ?_⟩
  · rintro c hc ⟨hstage, hspinning, hissued⟩
    rcases hok.issued c hc hissued with h | ⟨-, h⟩
    · rw [hstage] at h
      cases h
    · rw [hspinning] at h
      cases h
  · exact (hok.joins c (by rw [hspin]; exact hc)).2

end Run

/-- A child is stopped in its loop. -/
theorem no_cancel_lost_of_stopped :
    let s := (isolatedExecutor.exec .fresh [] [.createNode, .createCallbackGroup (some 0) false,
      .addCallbackGroup (.thread 0) 0 0, .callSpin, .spinStep, .spinStep, .spinStep, .spinStep,
      .spinStep, .spinStep, .spinStep, .childStep 0, .stopCallbackGroup (.thread 0) 0]).2
    s.call (.thread 0) = some (.joining 0 0) ∧ (s.child 0).stage ≠ .started ∧
      (s.child 0).cancels = 1 := by
  refine ⟨by decide, fun hstage => ?_, by decide⟩
  have hguarded : isolatedExecutor.Guarded CancelsInLoop .fresh [.createNode,
      .createCallbackGroup (some 0) false, .addCallbackGroup (.thread 0) 0 0, .callSpin, .spinStep,
      .spinStep, .spinStep, .spinStep, .spinStep, .spinStep, .spinStep, .childStep 0,
      .stopCallbackGroup (.thread 0) 0] := by decide
  have h := no_cancel_lost ((Run.init rfl).exec hguarded)
  rcases h.2.1 (.thread 0) 0 0 (by decide) with h | h
  · rw [hstage] at h
    cases h
  · rw [hstage] at h
    cases h.1

/-- **A cancel is lost**: the group is stopped when the thread of its child has started and has
not entered `spin`. The child enters its loop, nothing cancels it any more, and the thread in
`stop_callback_group` joins it. -/
theorem cancel_lost_before_spin :
    ¬ ∀ (tr : List IsolatedEvent) (s : IsolatedExecutor), Run isolatedExecutor anyStep tr s →
      ∀ c, c < s.children → ¬ ((s.child c).stage = .looping ∧ (s.child c).spinning = true ∧
        s.AllCancelsIssued c) := by
  intro h
  refine h _ _ ((Run.init rfl).exec (isolatedExecutor.guarded_anyStep _ [.createNode,
    .createCallbackGroup (some 0) false, .addCallbackGroup (.thread 0) 0 0, .callSpin, .spinStep,
    .spinStep, .spinStep, .spinStep, .spinStep, .spinStep, .spinStep,
    .stopCallbackGroup (.thread 0) 0, .childStep 0])) 0 (by decide) ⟨by decide, by decide, .inl ?_⟩
  decide

end Agnocast
