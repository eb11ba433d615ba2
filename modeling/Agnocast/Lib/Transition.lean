import Mathlib.Logic.Basic

/-!
# Transition systems with replies

A deterministic reactive system: a state, an input chosen by the environment,
and a step that answers and moves on. Nondeterminism of the environment (which
allocation fails, where a table puts a node) is part of the input, so one run is
a list of inputs together with what was answered.

A run is recorded **newest event first**, each event carrying the state it was
issued in. Properties of the past ("was granted and not given back since") are
then structural recursions over the trace, and an induction on a run peels off
the last step.

* `Run T G tr s`        — `tr` is a run of `T` that ends in `s`, every step of
  which meets the guard `G`.
* `Run.invariant`       — init + step ⇒ always, for state predicates.
* `Run.history`         — the same for predicates of the trace and the state.
* `Run.since`           — the same for what came after a point of the run.
* `Run.event`           — every event of a run was a step of the system, issued
  in a state that the run before it reached.
* `shown`               — what the answers of a run show of something.
-/

namespace Transition

/-- A deterministic system that answers every input. -/
structure System (S I O : Type*) where
  init : S → Prop
  step : S → I → O × S

/-- One step of a run, with the state it was taken in. -/
structure Event (S I O : Type*) where
  pre : S
  input : I
  output : O

variable {S I O : Type*}

/-- Runs from an initial state, newest event first, whose steps meet `G`. -/
inductive Run (T : System S I O) (G : S → I → Prop) : List (Event S I O) → S → Prop
  | init {s : S} (h : T.init s) : Run T G [] s
  | step {tr : List (Event S I O)} {s : S} (i : I) (hr : Run T G tr s) (hg : G s i) :
      Run T G (⟨s, i, (T.step s i).1⟩ :: tr) (T.step s i).2

/-- No restriction on the steps. -/
def anyStep : S → I → Prop := fun _ _ => True

/-- The states that some run reaches. -/
def Reachable (T : System S I O) (s : S) : Prop := ∃ tr, Run T anyStep tr s

variable {T : System S I O} {G : S → I → Prop}

/-- **The invariant rule.** What holds initially and is kept by every guarded
step holds at the end of every guarded run. -/
theorem Run.invariant {P : S → Prop} (hinit : ∀ s, T.init s → P s)
    (hstep : ∀ s i, P s → G s i → P (T.step s i).2)
    {tr : List (Event S I O)} {s : S} (h : Run T G tr s) : P s := by
  induction h with
  | init h => exact hinit _ h
  | step i _ hg ih => exact hstep _ i ih hg

/-- **The history rule.** As `Run.invariant`, for predicates that also speak
about the events so far; the step case may use that the run itself is one. -/
theorem Run.history {P : List (Event S I O) → S → Prop} (hinit : ∀ s, T.init s → P [] s)
    (hstep : ∀ tr s i, Run T G tr s → P tr s → G s i →
      P (⟨s, i, (T.step s i).1⟩ :: tr) (T.step s i).2)
    {tr : List (Event S I O)} {s : S} (h : Run T G tr s) : P tr s := by
  induction h with
  | init h => exact hinit _ h
  | step i hr hg ih => exact hstep _ _ i hr ih hg

/-- A stronger guard has fewer runs. -/
theorem Run.mono {G' : S → I → Prop} (hG : ∀ s i, G s i → G' s i)
    {tr : List (Event S I O)} {s : S} (h : Run T G tr s) : Run T G' tr s := by
  induction h with
  | init h => exact .init h
  | step i _ hg ih => exact .step i ih (hG _ _ hg)

theorem Run.reachable {tr : List (Event S I O)} {s : S} (h : Run T G tr s) : Reachable T s :=
  ⟨tr, h.mono fun _ _ _ => trivial⟩

/-- Reachability is closed under steps. -/
theorem Reachable.step {s : S} (h : Reachable T s) (i : I) : Reachable T (T.step s i).2 := by
  obtain ⟨tr, hr⟩ := h
  exact ⟨_, .step i hr trivial⟩

/-- The invariant rule for reachable states; the step case may use that the
state it starts from is reachable. -/
theorem Reachable.invariant {P : S → Prop} (hinit : ∀ s, T.init s → P s)
    (hstep : ∀ s i, Reachable T s → P s → P (T.step s i).2) {s : S} (h : Reachable T s) : P s := by
  obtain ⟨tr, hr⟩ := h
  induction hr with
  | init h => exact hinit _ h
  | step i hr _ ih => exact hstep _ i ⟨_, hr⟩ ih

/-- **What an event of a run is**: a guarded step of the system, issued in the
state that the events before it had reached. -/
theorem Run.event {ev : Event S I O} {later tr : List (Event S I O)} {s : S}
    (h : Run T G (later ++ ev :: tr) s) :
    Run T G tr ev.pre ∧ G ev.pre ev.input ∧ ev.output = (T.step ev.pre ev.input).1 ∧
      Run T G (ev :: tr) (T.step ev.pre ev.input).2 := by
  induction later generalizing s with
  | nil =>
    cases h with
    | step i hr hg => exact ⟨hr, hg, rfl, .step i hr hg⟩
  | cons x later ih =>
    cases h with
    | step i hr _ => exact ih hr

/-- **The rule for what follows a point of a run**: what holds when the trace is
`base` and is kept by every later step holds of what came later. -/
theorem Run.since {P : List (Event S I O) → S → Prop} {base : List (Event S I O)}
    (hbase : ∀ s, Run T G base s → P [] s)
    (hstep : ∀ later s i, Run T G (later ++ base) s → P later s → G s i →
      P (⟨s, i, (T.step s i).1⟩ :: later) (T.step s i).2)
    {later : List (Event S I O)} {s : S} (h : Run T G (later ++ base) s) : P later s := by
  induction later generalizing s with
  | nil => exact hbase s h
  | cons ev later ih =>
    cases h with
    | step i hr hg => exact hstep later _ i hr (ih hr) hg

/-! ## What the events show -/

/-- What the answers of a run show of something, newest first. -/
def shown {α : Type*} (f : O → Option α) (tr : List (Event S I O)) : List α :=
  tr.filterMap fun ev => f ev.output

theorem shown_cons {α : Type*} (f : O → Option α) (ev : Event S I O) (tr : List (Event S I O)) :
    shown f (ev :: tr) = (f ev.output).toList ++ shown f tr := by
  unfold shown
  rw [List.filterMap_cons]
  cases f ev.output <;> rfl

/-! ## Concrete runs -/

/-- Feed the system a list of inputs, oldest first, on top of a trace. -/
def System.exec (T : System S I O) : S → List (Event S I O) → List I → List (Event S I O) × S
  | s, tr, [] => (tr, s)
  | s, tr, i :: is => T.exec (T.step s i).2 (⟨s, i, (T.step s i).1⟩ :: tr) is

/-- Every step of the inputs meets the guard. -/
def System.Guarded (T : System S I O) (G : S → I → Prop) : S → List I → Prop
  | _, [] => True
  | s, i :: is => G s i ∧ T.Guarded G (T.step s i).2 is

instance System.decidableGuarded (T : System S I O) (G : S → I → Prop)
    [∀ s i, Decidable (G s i)] : (s : S) → (is : List I) → Decidable (T.Guarded G s is)
  | _, [] => inferInstanceAs (Decidable True)
  | s, i :: is => @instDecidableAnd _ _ _ (T.decidableGuarded G (T.step s i).2 is)

theorem Run.exec {tr : List (Event S I O)} {s : S} (h : Run T G tr s) {is : List I}
    (hg : T.Guarded G s is) : Run T G (T.exec s tr is).1 (T.exec s tr is).2 := by
  induction is generalizing s tr with
  | nil => exact h
  | cons i is ih => exact ih (.step i h hg.1) hg.2

theorem System.guarded_anyStep (T : System S I O) (s : S) (is : List I) :
    T.Guarded anyStep s is := by
  induction is generalizing s with
  | nil => trivial
  | cons i is ih => exact ⟨trivial, ih _⟩

/-- Where any inputs lead is reachable. -/
theorem Reachable.exec {s : S} (h : T.init s) (is : List I) : Reachable T (T.exec s [] is).2 :=
  ⟨_, (Run.init h).exec (T.guarded_anyStep s is)⟩

end Transition
