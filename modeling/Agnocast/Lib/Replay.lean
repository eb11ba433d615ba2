import Mathlib.Data.List.Basic

/-!
# Inputs that are fed twice

A machine answers inputs one after another. When an answer, once given, would be given again
whatever came in between, and giving it again changes nothing, then feeding a list of inputs a
second time answers the same and changes nothing.

* `feed_settled` — inputs whose answers are settled.
* `Settles.feed_answers` — the answers are settled at the end.
* `Settles.feed_feed` — the rule for feeding twice.
-/

namespace Replay

variable {S I O : Type*} (step : S → I → O × S)

/-- Feed the inputs one after another: the answers, and the state at the end. -/
def feed (s : S) : List I → List O × S
  | [] => ([], s)
  | i :: is => ((step s i).1 :: (feed (step s i).2 is).1, (feed (step s i).2 is).2)

variable {step} {P : S → Prop} {R : S → I → O → Prop}

/-- What every step keeps holds at the end. -/
theorem feed_invariant (hstep : ∀ s i, P s → P (step s i).2) {s : S} (hs : P s) (is : List I) :
    P (feed step s is).2 := by
  induction is generalizing s with
  | nil => exact hs
  | cons i is ih => exact ih (hstep s i hs)

/-- Settled answers are given again, and nothing changes. -/
theorem feed_settled {s : S} (hsettled : ∀ i o, R s i o → step s i = (o, s)) {is : List I}
    {os : List O} (h : List.Forall₂ (R s) is os) : feed step s is = (os, s) := by
  induction h with
  | nil => rfl
  | cons hio _ ih =>
    unfold feed
    rw [hsettled _ _ hio, ih]

/-- Answers that settle: an answer is settled when it is given, every further step keeps it, and
where it is settled the input gets it and changes nothing. -/
structure Settles (step : S → I → O × S) (P : S → Prop) (R : S → I → O → Prop) : Prop where
  invariant : ∀ s i, P s → P (step s i).2
  made : ∀ s i, P s → R (step s i).2 i (step s i).1
  kept : ∀ s i o j, P s → R s i o → R (step s j).2 i o
  settled : ∀ s i o, P s → R s i o → step s i = (o, s)

/-- **Answers are settled at the end.** -/
theorem Settles.feed_answers (h : Settles step P R) {s : S} (hs : P s) (is : List I) :
    List.Forall₂ (R (feed step s is).2) is (feed step s is).1 := by
  have hkept : ∀ (is : List I) (s : S) i o, P s → R s i o → R (feed step s is).2 i o := by
    intro is
    induction is with
    | nil => exact fun s i o _ hr => hr
    | cons j is ih => exact fun s i o hs hr => ih _ i o (h.invariant s j hs) (h.kept s i o j hs hr)
  induction is generalizing s with
  | nil => exact .nil
  | cons i is ih =>
    have hs' := h.invariant s i hs
    exact .cons (hkept is _ i _ hs' (h.made s i hs)) (ih hs')

/-- **The rule for feeding twice**: the second time is like the first. -/
theorem Settles.feed_feed (h : Settles step P R) {s : S} (hs : P s) (is : List I) :
    feed step (feed step s is).2 is = feed step s is :=
  feed_settled (fun i o => h.settled _ i o (feed_invariant h.invariant hs is))
    (h.feed_answers hs is)

end Replay
