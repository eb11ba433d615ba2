import Agnocast.Lib.Loop
import Agnocast.MessageFilters.Basic
import Mathlib.Algebra.BigOperators.Fin
import Mathlib.Algebra.Order.Ring.Rat
import Mathlib.Data.List.FinRange

/-!
# The message filters — the ApproximateTime policy

The policy looks for the tuple with the smallest spread. While no deque is empty it takes the
fronts of the deques, makes them its candidate when there is none or when they are better, and
moves the oldest front aside into its past buffer. When the search is exhausted, or the
candidate is provably the best one, the candidate is signalled, the messages of the past
buffers come back and those of the candidate are removed.

* `Parameters`              — queue size, age penalty (an exact rational), interval, lower bounds.
* `ApproximateTime.process` — the search, with what it signals; `publishChecks` are the tests
  after each iteration, the search over virtual times among them.
* `ApproximateTime.add`     — the policy's `add`, with the handling of a queue that overflows.

`none` stands for what must not happen: an assertion fails, the front of an empty deque is
taken, or a loop does not end. The number of inputs is one more than the parameter. What only
decides about a warning (`checkInterMessageBound`) is left out.
-/

namespace Agnocast.MessageFilters

variable {n : ℕ} {α : Type}

structure Parameters (n : ℕ) where
  queueSize : ℕ
  maxIntervalDuration : ℤ
  agePenalty : ℚ
  interMessageLowerBounds : Fin (n + 1) → ℤ

/-- The state of the policy; `pivot` is `none` for `NO_PIVOT`. -/
structure ApproximateTime (n : ℕ) (α : Type) where
  deques : Fin (n + 1) → List (StampedMsg α)
  numNonEmptyDeques : ℕ
  past : Fin (n + 1) → List (StampedMsg α)
  candidate : Tuple (Fin (n + 1)) α
  candidateStart : ℤ
  candidateEnd : ℤ
  pivotTime : ℤ
  pivot : Option (Fin (n + 1))
  hasDroppedMessages : Fin (n + 1) → Bool

/-- What a step signals, and the state afterwards. -/
abbrev Signalled (n : ℕ) (α : Type) := List (Tuple (Fin (n + 1)) α) × ApproximateTime n α

/-- `getCandidateBoundary` on the times of the fronts: the latest one, or the earliest. -/
def boundary (times : Fin (n + 1) → ℤ) (late : Bool) : Fin (n + 1) × ℤ :=
  (List.finRange (n + 1)).foldl
    (fun b i => if (decide (times i < b.2)).xor late then (i, times i) else b) (0, times 0)

namespace ApproximateTime

def new : ApproximateTime n α where
  deques := fun _ => []
  numNonEmptyDeques := 0
  past := fun _ => []
  candidate := Tuple.empty
  candidateStart := 0
  candidateEnd := 0
  pivotTime := 0
  pivot := none
  hasDroppedMessages := fun _ => false

variable (p : Parameters n) (s : ApproximateTime n α)

/-! ## The helpers -/

/-- What `num_non_empty_deques_` is after it was recomputed from scratch. -/
def countNonEmpty (deques : Fin (n + 1) → List (StampedMsg α)) : ℕ :=
  ∑ i, if (deques i).isEmpty then 0 else 1

/-- All deques have messages. -/
def allNonEmpty : Bool := s.numNonEmptyDeques = n + 1

def dequeDeleteFront (i : Fin (n + 1)) : Option (ApproximateTime n α) :=
  match s.deques i with
  | [] => none
  | _ :: rest => some
    { s with
      deques := Function.update s.deques i rest
      numNonEmptyDeques := if rest.isEmpty then s.numNonEmptyDeques - 1 else s.numNonEmptyDeques }

def dequeMoveFrontToPast (i : Fin (n + 1)) : Option (ApproximateTime n α) :=
  match s.deques i with
  | [] => none
  | m :: rest => some
    { s with
      past := Function.update s.past i (s.past i ++ [m])
      deques := Function.update s.deques i rest
      numNonEmptyDeques := if rest.isEmpty then s.numNonEmptyDeques - 1 else s.numNonEmptyDeques }

/-- The fronts of the deques. -/
def fronts : Option (Fin (n + 1) → StampedMsg α) :=
  if h : ∀ i, s.deques i ≠ [] then some fun i => (s.deques i).head (h i) else none

/-- `makeCandidate`, with the times that are noted right after it. -/
def makeCandidate (fronts : Fin (n + 1) → StampedMsg α) (startTime endTime : ℤ) :
    ApproximateTime n α :=
  { s with
    candidate := fun i => some (fronts i)
    past := fun _ => []
    candidateStart := startTime
    candidateEnd := endTime }

/-- The loop of `recover`: `q.push_front(v.back()); v.pop_back()`, so many times. -/
def recoverLoop : ℕ → List (StampedMsg α) × List (StampedMsg α) →
    List (StampedMsg α) × List (StampedMsg α)
  | 0, r => r
  | k + 1, (v, q) => recoverLoop k (v.dropLast, v.getLast?.toList ++ q)

/-- `recover<i>(num_messages)` for every input. -/
def recoverMoves (numMoves : Fin (n + 1) → ℕ) : Option (ApproximateTime n α) :=
  if ∀ i, numMoves i ≤ (s.past i).length then
    let deques := fun i => (recoverLoop (numMoves i) (s.past i, s.deques i)).2
    some
      { s with
        past := fun i => (recoverLoop (numMoves i) (s.past i, s.deques i)).1
        deques := deques
        numNonEmptyDeques := countNonEmpty deques }
  else none

/-- `recover<i>()` for every input. -/
def recoverAll : ApproximateTime n α :=
  let deques := fun i => (recoverLoop (s.past i).length (s.past i, s.deques i)).2
  { s with
    past := fun i => (recoverLoop (s.past i).length (s.past i, s.deques i)).1
    deques := deques
    numNonEmptyDeques := countNonEmpty deques }

/-- `recoverAndDelete<i>()` for every input. -/
def recoverAndDelete : Option (ApproximateTime n α) :=
  if ∀ i, s.recoverAll.deques i ≠ [] then
    let deques := fun i => (s.recoverAll.deques i).tail
    some { s.recoverAll with deques := deques, numNonEmptyDeques := countNonEmpty deques }
  else none

def publishCandidate : Option (Signalled n α) := do
  let s' ← recoverAndDelete { s with candidate := Tuple.empty, pivot := none }
  return ([s.candidate], s')

/-- `(end_time - candidate_end_) * (1 + age_penalty_) >= (time - candidate_start_)`. -/
def notBetter (endTime time : ℤ) : Bool :=
  ((time - s.candidateStart : ℤ) : ℚ) ≤ ((endTime - s.candidateEnd : ℤ) : ℚ) * (1 + p.agePenalty)

def getVirtualTime (i : Fin (n + 1)) : Option ℤ :=
  match s.deques i with
  | m :: _ => some m.stamp
  | [] => (s.past i).getLast?.map fun m =>
    if m.stamp + p.interMessageLowerBounds i > s.pivotTime then
      m.stamp + p.interMessageLowerBounds i
    else s.pivotTime

def virtualTimes : Option (Fin (n + 1) → ℤ) :=
  if h : ∀ i, (s.getVirtualTime p i).isSome then some fun i => (s.getVirtualTime p i).get (h i)
  else none

/-! ## The search -/

/-- The search over virtual times, with the number of virtual moves of every input. -/
def virtualSearch (before : ℕ) : ℕ → ApproximateTime n α → (Fin (n + 1) → ℕ) →
    Option (Signalled n α)
  | 0, _, _ => none
  | fuel + 1, s, numVirtualMoves => do
    let times ← s.virtualTimes p
    let (_, vendTime) := boundary times true
    let (vstartIndex, vstartTime) := boundary times false
    if s.notBetter p vendTime s.pivotTime then
      -- proved optimality; this cleans up the virtual moves as well
      s.publishCandidate
    else if !s.notBetter p vendTime vstartTime then
      -- cannot prove it: an optimistic candidate is better
      let s ← s.recoverMoves numVirtualMoves
      if before = s.numNonEmptyDeques then return ([], s) else none
    else if some vstartIndex ≠ s.pivot ∧ vstartTime < s.pivotTime then
      let s ← s.dequeMoveFrontToPast vstartIndex
      virtualSearch before fuel s
        (Function.update numVirtualMoves vstartIndex (numVirtualMoves vstartIndex + 1))
    else none

/-- The number of messages in the deques. -/
def total (lists : Fin (n + 1) → List (StampedMsg α)) : ℕ := ∑ i, (lists i).length

/-- What follows an iteration that has a candidate: the publish checks. -/
abbrev Checks (n : ℕ) (α : Type) := ApproximateTime n α → Fin (n + 1) → ℤ → Option (Signalled n α)

def publishChecks : Checks n α := fun s startIndex endTime =>
  if some startIndex = s.pivot then s.publishCandidate
  else if s.notBetter p endTime s.pivotTime then s.publishCandidate
  else if !s.allNonEmpty then
    s.virtualSearch p s.numNonEmptyDeques (total s.deques + 1) fun _ => 0
  else some ([], s)

/-- `has_dropped_messages_[i] = false` for every other input. -/
def clearDropped (endIndex : Fin (n + 1)) : ApproximateTime n α :=
  { s with hasDroppedMessages := fun i => if i ≠ endIndex then false else s.hasDroppedMessages i }

/-- The first half of an iteration: drop the oldest front when the interval is no candidate
(`continue`), or take or keep a candidate and move the oldest front to the past. -/
def searchStep : Option (ApproximateTime n α × Option (Fin (n + 1) × ℤ)) := do
  let fronts ← s.fronts
  let (endIndex, endTime) := boundary (fun i => (fronts i).stamp) true
  let (startIndex, startTime) := boundary (fun i => (fronts i).stamp) false
  let s := s.clearDropped endIndex
  if s.pivot = none then
    if endTime - startTime > p.maxIntervalDuration then
      -- the interval is too long
      return (← s.dequeDeleteFront startIndex, none)
    else if s.hasDroppedMessages endIndex then
      return (← s.dequeDeleteFront startIndex, none)
    else
      let s := { s.makeCandidate fronts startTime endTime with
        pivot := some endIndex
        pivotTime := endTime }
      return (← s.dequeMoveFrontToPast startIndex, some (startIndex, endTime))
  -- the candidate of before is kept
  else if s.notBetter p endTime startTime then
    return (← s.dequeMoveFrontToPast startIndex, some (startIndex, endTime))
  else
    return (← (s.makeCandidate fronts startTime endTime).dequeMoveFrontToPast startIndex,
      some (startIndex, endTime))

/-- An iteration of `process`, with these checks at its end. -/
def iteration (checks : Checks n α) (s : ApproximateTime n α) : Option (Signalled n α) := do
  let (s, searched) ← s.searchStep p
  match searched with
  | none => return ([], s)
  | some (startIndex, endTime) => if s.pivot = none then none else checks s startIndex endTime

/-- More iterations than the loop takes. -/
def processFuel : ℕ :=
  (total (fun i => s.past i ++ s.deques i) + 1) * (total (fun i => s.past i ++ s.deques i) + 2)

def process (checks : Checks n α) (s : ApproximateTime n α) : Option (Signalled n α) :=
  Loop.whileLoop allNonEmpty (iteration p checks) s.processFuel s

/-! ## A message arrives -/

/-- `deque.push_back(evt)`; a deque that was empty counts from now on. -/
def pushBack (a : Add (Fin (n + 1)) α) : ApproximateTime n α :=
  { s with
    deques := Function.update s.deques a.1 (s.deques a.1 ++ [a.2])
    numNonEmptyDeques :=
      if (s.deques a.1).isEmpty then s.numNonEmptyDeques + 1 else s.numNonEmptyDeques }

/-- The first half of `add`. -/
def receive (checks : Checks n α) (a : Add (Fin (n + 1)) α) : Option (Signalled n α) :=
  let s' := s.pushBack a
  if (s.deques a.1).isEmpty && s'.allNonEmpty then process p checks s' else some ([], s')

def overflows (i : Fin (n + 1)) : Bool := p.queueSize < (s.deques i).length + (s.past i).length

/-- The second half of `add`: a queue with too many messages. -/
def limitQueue (checks : Checks n α) (i : Fin (n + 1)) : Option (Signalled n α) :=
  if s.overflows p i then
    -- the search is called off, and the oldest message dropped
    let s := s.recoverAll
    match s.deques i with
    | [] => none
    | _ :: rest =>
      let s := { s with
        deques := Function.update s.deques i rest
        hasDroppedMessages := Function.update s.hasDroppedMessages i true }
      if s.pivot = none then some ([], s)
      else process p checks { s with candidate := Tuple.empty, pivot := none }
  else some ([], s)

/-- `add` with these publish checks. -/
def addWith (checks : Checks n α) (s : ApproximateTime n α) (a : Add (Fin (n + 1)) α) :
    Option (Signalled n α) := do
  let (out, s) ← s.receive p checks a
  let (out', s) ← s.limitQueue p checks a.1
  return (out ++ out', s)

def add : ApproximateTime n α → Add (Fin (n + 1)) α → Option (Signalled n α) :=
  addWith p (publishChecks p)

/-- The policy after these adds. -/
def run (adds : List (Add (Fin (n + 1)) α)) : Option (Signalled n α) := tryFeed (add p) new adds

end ApproximateTime

end Agnocast.MessageFilters
