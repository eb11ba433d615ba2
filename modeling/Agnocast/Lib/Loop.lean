import Mathlib.Data.List.Basic

/-!
# Loops that report

A loop whose body reports a list of things and may fail. The loop runs with fuel; it stops when
its condition is false.

* `Steps`             — iterations of the body, with what they reported.
* `whileLoop_spec`    — an invariant and a measure: enough fuel reaches the end, and the
  invariant holds there.
* `steps_of_whileLoop` — what the loop returns is reached by iterations and ends it.
* `Steps.report_prefix` — a run of iterations reports a prefix of what a finished one does.
-/

namespace Loop

variable {S O : Type*} {cond : S → Bool} {body : S → Option (List O × S)}

/-- `while (cond) body`, at most this often. -/
def whileLoop (cond : S → Bool) (body : S → Option (List O × S)) : ℕ → S → Option (List O × S)
  | 0, s => if cond s then none else some ([], s)
  | fuel + 1, s =>
    if cond s then do
      let (out, s₁) ← body s
      let (out', s₂) ← whileLoop cond body fuel s₁
      return (out ++ out', s₂)
    else some ([], s)

/-- Iterations from a state, with what they reported. -/
inductive Steps (cond : S → Bool) (body : S → Option (List O × S)) : S → List O → S → Prop
  | refl (s : S) : Steps cond body s [] s
  | step {s s₁ s₂ : S} {out out' : List O} (hcond : cond s = true) (hbody : body s = some (out, s₁))
      (hrest : Steps cond body s₁ out' s₂) : Steps cond body s (out ++ out') s₂

theorem Steps.single {s s₁ : S} {out : List O} (hcond : cond s = true)
    (hbody : body s = some (out, s₁)) : Steps cond body s out s₁ := by
  have h := Steps.step hcond hbody (.refl s₁)
  rwa [List.append_nil] at h

theorem Steps.trans {s s₁ s₂ : S} {out out' : List O} (h : Steps cond body s out s₁)
    (h' : Steps cond body s₁ out' s₂) : Steps cond body s (out ++ out') s₂ := by
  induction h with
  | refl s => exact h'
  | step hcond hbody _ ih =>
    rw [List.append_assoc]
    exact .step hcond hbody (ih h')

/-- An iteration carries invariants, and what is accumulated over the report. -/
theorem Steps.invariant {P : S → List O → S → Prop} (hrefl : ∀ s, P s [] s)
    (hstep : ∀ s out s₁ out' s₂, cond s = true → body s = some (out, s₁) → P s₁ out' s₂ →
      P s (out ++ out') s₂) {s s' : S} {out : List O} (h : Steps cond body s out s') :
    P s out s' := by
  induction h with
  | refl s => exact hrefl s
  | step hcond hbody _ ih => exact hstep _ _ _ _ _ hcond hbody ih

/-- **A run reports a prefix of a finished one**: iterations are determined by the state. -/
theorem Steps.report_prefix {s s₁ s₂ : S} {out out' : List O} (h : Steps cond body s out s₁)
    (h' : Steps cond body s out' s₂) (hstop : cond s₂ = false) :
    ∃ more, out' = out ++ more ∧ Steps cond body s₁ more s₂ := by
  induction h generalizing out' with
  | refl s => exact ⟨out', rfl, h'⟩
  | step hcond hbody _ ih =>
    cases h' with
    | refl => rw [hcond] at hstop; cases hstop
    | step hcond' hbody' hrest' =>
      rw [hbody] at hbody'
      obtain ⟨rfl, rfl⟩ := Prod.mk.inj (Option.some.inj hbody')
      obtain ⟨more, rfl, hmore⟩ := ih hrest'
      exact ⟨more, (List.append_assoc ..).symm, hmore⟩

/-- Of two runs from a state one continues the other. -/
theorem Steps.report_total {s s₁ s₂ : S} {out out' : List O} (h : Steps cond body s out s₁)
    (h' : Steps cond body s out' s₂) : (∃ more, out' = out ++ more) ∨ ∃ more, out = out' ++ more := by
  induction h generalizing out' with
  | refl s => exact .inl ⟨out', rfl⟩
  | @step s s₁ _ o o₁ hcond hbody hrest ih =>
    cases h' with
    | refl => exact .inr ⟨o ++ o₁, rfl⟩
    | step hcond' hbody' hrest' =>
      rw [hbody] at hbody'
      obtain ⟨rfl, rfl⟩ := Prod.mk.inj (Option.some.inj hbody')
      rcases ih hrest' with ⟨more, rfl⟩ | ⟨more, rfl⟩
      · exact .inl ⟨more, (List.append_assoc ..).symm⟩
      · exact .inr ⟨more, (List.append_assoc ..).symm⟩

theorem steps_of_whileLoop {fuel : ℕ} {s s' : S} {out : List O}
    (h : whileLoop cond body fuel s = some (out, s')) :
    Steps cond body s out s' ∧ cond s' = false := by
  induction fuel generalizing s out with
  | zero =>
    rw [whileLoop] at h
    split at h
    · cases h
    · next hcond =>
      obtain ⟨rfl, rfl⟩ := Prod.mk.inj (Option.some.inj h)
      exact ⟨.refl s, by simpa using hcond⟩
  | succ fuel ih =>
    rw [whileLoop] at h
    split at h
    · next hcond =>
      obtain ⟨⟨out₁, s₁⟩, hbody, h⟩ := Option.bind_eq_some_iff.mp h
      obtain ⟨⟨out₂, s₂⟩, hrest, h⟩ := Option.bind_eq_some_iff.mp h
      obtain ⟨rfl, rfl⟩ := Prod.mk.inj (Option.some.inj h)
      obtain ⟨hsteps, hstop⟩ := ih hrest
      exact ⟨.step hcond hbody hsteps, hstop⟩
    · next hcond =>
      obtain ⟨rfl, rfl⟩ := Prod.mk.inj (Option.some.inj h)
      exact ⟨.refl s, by simpa using hcond⟩

/-- **The loop rule.** The body keeps an invariant and does not fail under it, and a measure
goes down: with at least the measure as fuel the loop ends, in a state of the invariant. -/
theorem whileLoop_spec {Inv : S → Prop} {measure : S → ℕ}
    (hbody : ∀ s, Inv s → cond s = true →
      ∃ out s', body s = some (out, s') ∧ Inv s' ∧ measure s' < measure s)
    {fuel : ℕ} {s : S} (hs : Inv s) (hfuel : measure s ≤ fuel) :
    ∃ out s', whileLoop cond body fuel s = some (out, s') ∧ Inv s' ∧ cond s' = false := by
  induction fuel generalizing s with
  | zero =>
    cases hcond : cond s with
    | true =>
      obtain ⟨out, s', -, -, hlt⟩ := hbody s hs hcond
      omega
    | false => exact ⟨[], s, by rw [whileLoop, if_neg (by rw [hcond]; exact Bool.false_ne_true)], hs,
        hcond⟩
  | succ fuel ih =>
    cases hcond : cond s with
    | true =>
      obtain ⟨out, s₁, hb, hs₁, hlt⟩ := hbody s hs hcond
      obtain ⟨out', s₂, hloop, hs₂, hstop⟩ := ih hs₁ (by omega)
      refine ⟨out ++ out', s₂, ?_, hs₂, hstop⟩
      rw [whileLoop, if_pos hcond, hb]
      simp only [Option.bind_eq_bind, Option.bind_some, hloop]
      rfl
    | false => exact ⟨[], s, by rw [whileLoop, if_neg (by rw [hcond]; exact Bool.false_ne_true)], hs,
        hcond⟩

end Loop
