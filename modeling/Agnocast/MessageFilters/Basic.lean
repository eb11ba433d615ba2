import Mathlib.Data.Fin.Basic
import Mathlib.Data.List.Induction

/-!
# The message filters — messages, tuples, and feeding a policy

A synchronizer has a number of inputs and a policy that decides which messages, one of each
input, are put out together. Messages come one at a time on any input (`add`); the policy
answers each with what it signals and a new state.

* `StampedMsg`, `Tuple` — a message with the stamp of its header; a message or nothing for
  each input.
* `feed`                — a policy after a list of adds: everything it put out, and its state.
* `tryFeed`             — the same for a policy whose `add` may fail.
* `received`            — what came on one input.
* `feed_history`        — what holds at first and is kept by every add holds after any adds.
-/

namespace Agnocast.MessageFilters

variable {ι α S O : Type*}

/-- There is a first input. -/
scoped instance (priority := 2000) neZero_inputs (n : ℕ) : @NeZero ℕ Zero.ofOfNat0 (n + 1) := ⟨n.succ_ne_zero⟩

/-- A message: the stamp of its header in nanoseconds, and the rest. -/
structure StampedMsg (α : Type*) where
  stamp : ℤ
  payload : α
  deriving DecidableEq, Repr

/-- The events of a tuple; `none` is an event without a message. -/
abbrev Tuple (ι α : Type*) := ι → Option (StampedMsg α)

/-- `Tuple()`. -/
def Tuple.empty : Tuple ι α := fun _ => none

/-- A message on an input. -/
abbrev Add (ι α : Type*) := ι × StampedMsg α

/-- A policy after these adds, the first one first. -/
def feed (add : S → Add ι α → List O × S) (s : S) : List (Add ι α) → List O × S
  | [] => ([], s)
  | a :: adds => ((add s a).1 ++ (feed add (add s a).2 adds).1, (feed add (add s a).2 adds).2)

theorem feed_append (add : S → Add ι α → List O × S) (s : S) (adds more : List (Add ι α)) :
    feed add s (adds ++ more) = ((feed add s adds).1 ++ (feed add (feed add s adds).2 more).1,
      (feed add (feed add s adds).2 more).2) := by
  induction adds generalizing s with
  | nil => rfl
  | cons a adds ih => rw [List.cons_append, feed, feed, ih, List.append_assoc]

theorem feed_concat (add : S → Add ι α → List O × S) (s : S) (adds : List (Add ι α))
    (a : Add ι α) : feed add s (adds ++ [a]) =
      ((feed add s adds).1 ++ (add (feed add s adds).2 a).1, (add (feed add s adds).2 a).2) := by
  rw [feed_append, feed, feed, List.append_nil]

/-- **The history rule.** What holds at first and is kept by every add holds after any adds,
of the adds, what was put out, and the state. -/
theorem feed_history {add : S → Add ι α → List O × S} {s : S}
    {P : List (Add ι α) → List O → S → Prop} (hinit : P [] [] s)
    (hstep : ∀ adds out s a, P adds out s → P (adds ++ [a]) (out ++ (add s a).1) (add s a).2)
    (adds : List (Add ι α)) : P adds (feed add s adds).1 (feed add s adds).2 := by
  induction adds using List.reverseRecOn with
  | nil => exact hinit
  | append_singleton adds a ih =>
    rw [feed_concat]
    exact hstep _ _ _ a ih

/-- As `feed`, for a policy whose `add` may fail. -/
def tryFeed (add : S → Add ι α → Option (List O × S)) (s : S) :
    List (Add ι α) → Option (List O × S)
  | [] => some ([], s)
  | a :: adds => do
    let (out, s₁) ← add s a
    let (out', s₂) ← tryFeed add s₁ adds
    return (out ++ out', s₂)

theorem tryFeed_concat {add : S → Add ι α → Option (List O × S)} {s s₁ s₂ : S}
    {adds : List (Add ι α)} {a : Add ι α} {out out' : List O}
    (h : tryFeed add s adds = some (out, s₁)) (ha : add s₁ a = some (out', s₂)) :
    tryFeed add s (adds ++ [a]) = some (out ++ out', s₂) := by
  induction adds generalizing s out with
  | nil =>
    obtain ⟨rfl, rfl⟩ := Prod.mk.inj (Option.some.inj h)
    rw [List.nil_append, tryFeed, ha]
    simp [tryFeed]
  | cons b adds ih =>
    obtain ⟨⟨out₁, s'⟩, hb, h⟩ := Option.bind_eq_some_iff.mp h
    obtain ⟨⟨out₂, s''⟩, hrest, h⟩ := Option.bind_eq_some_iff.mp h
    obtain ⟨rfl, rfl⟩ := Prod.mk.inj (Option.some.inj h)
    rw [List.cons_append, tryFeed, hb]
    simp only [Option.bind_eq_bind, Option.bind_some, ih hrest, Option.pure_def,
      List.append_assoc]

/-- **The history rule** for an `add` that does not fail where the predicate holds. -/
theorem tryFeed_history {add : S → Add ι α → Option (List O × S)} {s : S}
    {P : List (Add ι α) → List O → S → Prop} (hinit : P [] [] s)
    (hstep : ∀ adds out s₁ a, tryFeed add s adds = some (out, s₁) → P adds out s₁ →
      ∃ out' s₂, add s₁ a = some (out', s₂) ∧ P (adds ++ [a]) (out ++ out') s₂)
    (adds : List (Add ι α)) : ∃ out s₁, tryFeed add s adds = some (out, s₁) ∧ P adds out s₁ := by
  induction adds using List.reverseRecOn with
  | nil => exact ⟨[], s, rfl, hinit⟩
  | append_singleton adds a ih =>
    obtain ⟨out, s₁, hrun, hP⟩ := ih
    obtain ⟨out', s₂, ha, hP'⟩ := hstep adds out s₁ a hrun hP
    exact ⟨out ++ out', s₂, tryFeed_concat hrun ha, hP'⟩

/-! ## What came on an input -/

section Received

variable [DecidableEq ι]

/-- The messages on an input, in the order they came. -/
def received (i : ι) (adds : List (Add ι α)) : List (StampedMsg α) :=
  (adds.filter fun a => a.1 = i).map Prod.snd

@[simp] theorem received_nil (i : ι) : received i ([] : List (Add ι α)) = [] := rfl

theorem received_append (i : ι) (adds more : List (Add ι α)) :
    received i (adds ++ more) = received i adds ++ received i more := by
  rw [received, List.filter_append, List.map_append]
  rfl

theorem received_concat_self (adds : List (Add ι α)) (i : ι) (m : StampedMsg α) :
    received i (adds ++ [(i, m)]) = received i adds ++ [m] := by
  rw [received_append]
  simp [received]

theorem received_concat_of_ne (adds : List (Add ι α)) {i j : ι} (m : StampedMsg α) (h : j ≠ i) :
    received j (adds ++ [(i, m)]) = received j adds := by
  rw [received_append]
  simp [received, Ne.symm h]

/-- What came on an input after one more add. -/
theorem received_concat (adds : List (Add ι α)) (a : Add ι α) (i : ι) :
    received i (adds ++ [a]) = received i adds ++ (if a.1 = i then [a.2] else []) := by
  by_cases h : a.1 = i
  · obtain ⟨i', m⟩ := a
    obtain rfl : i' = i := h
    rw [received_concat_self, if_pos rfl]
  · obtain ⟨i', m⟩ := a
    rw [received_concat_of_ne adds m (Ne.symm h), if_neg h, List.append_nil]

end Received

end Agnocast.MessageFilters
