import Agnocast.Lib.Transition

/-!
# Infinite executions

What a system does eventually, when some of its inputs keep coming.

* `Execution.run`     — every state of an execution ends a run.
* `Execution.leadsTo` — the rank rule: no step moves away from the goal, and the step that is
  awaited comes nearer.
-/

namespace Transition

variable {S I O : Type*} {T : System S I O} {G : S → I → Prop}

/-- An endless execution whose steps meet a guard. -/
structure Execution (T : System S I O) (G : S → I → Prop) where
  state : Nat → S
  input : Nat → I
  init : T.init (state 0)
  guard : ∀ k, G (state k) (input k)
  next : ∀ k, state (k + 1) = (T.step (state k) (input k)).2

namespace Execution

/-- The execution that gets these inputs. -/
def ofInputs (s : S) (inputs : Nat → I) (hinit : T.init s) (hguard : ∀ s k, G s (inputs k)) :
    Execution T G where
  state k := k.rec s fun k s => (T.step s (inputs k)).2
  input := inputs
  init := hinit
  guard k := hguard _ k
  next _ := rfl

variable (E : Execution T G)

/-- Every state of an execution ends a run. -/
theorem run (k : Nat) : ∃ tr, Run T G tr (E.state k) := by
  induction k with
  | zero => exact ⟨[], .init E.init⟩
  | succ k ih =>
    obtain ⟨tr, hrun⟩ := ih
    rw [E.next k]
    exact ⟨_, .step (E.input k) hrun (E.guard k)⟩

/-- **The rank rule.** From `P` on, every step reaches `Q`, or keeps `P` and lowers the rank, or
keeps both and still waits for the same inputs, none of which it was; and one of these comes. -/
theorem leadsTo (P Q : S → Prop) (rank : S → Nat) (awaits : S → I → Prop)
    (hstep : ∀ s i, (∃ tr, Run T G tr s) → G s i → P s →
      Q (T.step s i).2 ∨ (P (T.step s i).2 ∧ (rank (T.step s i).2 < rank s ∨
        (rank (T.step s i).2 = rank s ∧ ¬ awaits s i ∧ ∀ j, awaits s j → awaits (T.step s i).2 j))))
    (hfair : ∀ k, P (E.state k) → ∃ k', k ≤ k' ∧ awaits (E.state k) (E.input k'))
    {k : Nat} (hP : P (E.state k)) : ∃ k', k ≤ k' ∧ Q (E.state k') := by
  induction hr : rank (E.state k) using Nat.strongRecOn generalizing k with
  | ind r ih =>
    obtain ⟨k', hle, hawaits⟩ := hfair k hP
    -- the awaited input is `d` steps away
    obtain ⟨d, rfl⟩ := Nat.exists_eq_add_of_le hle
    clear hle
    induction d generalizing k with
    | zero =>
      rcases hstep _ _ (E.run k) (E.guard k) hP with hQ | ⟨hP', hlt | ⟨-, hno, -⟩⟩
      · exact ⟨k + 1, Nat.le_succ k, E.next k ▸ hQ⟩
      · rw [← E.next k] at hP' hlt
        obtain ⟨k', hle, hQ⟩ := ih _ (hr ▸ hlt) hP' rfl
        exact ⟨k', Nat.le_of_succ_le hle, hQ⟩
      · exact absurd hawaits hno
    | succ d ihd =>
      rcases hstep _ _ (E.run k) (E.guard k) hP with hQ | ⟨hP', hlt | ⟨heq, -, hkeeps⟩⟩
      · exact ⟨k + 1, Nat.le_succ k, E.next k ▸ hQ⟩
      · rw [← E.next k] at hP' hlt
        obtain ⟨k', hle, hQ⟩ := ih _ (hr ▸ hlt) hP' rfl
        exact ⟨k', Nat.le_of_succ_le hle, hQ⟩
      · have hawaits' := hkeeps _ hawaits
        rw [← E.next k] at hP' heq hawaits'
        have hinput : k + 1 + d = k + (d + 1) := by omega
        obtain ⟨k', hle, hQ⟩ := ihd hP' (heq.trans hr) (hinput ▸ hawaits')
        exact ⟨k', Nat.le_of_succ_le hle, hQ⟩

end Execution

end Transition
