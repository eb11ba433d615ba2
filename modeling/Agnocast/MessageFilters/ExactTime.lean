import Agnocast.MessageFilters.Basic

/-!
# The message filters — the ExactTime policy

The policy keeps a tuple for every stamp that it has seen on some input and not settled yet,
in the order of the stamps. A message is put into the tuple of its stamp; when that tuple has
a message of every input it is signalled, and it goes together with all older ones. Beyond the
queue size the oldest tuples are dropped.

* `ExactTime.add` — the policy's `add`, with what it signals and drops, in order.

The number of inputs is one more than the parameter; the stamp of a full tuple is that of its
first message.
-/

namespace Agnocast.MessageFilters

variable {n : ℕ} {α : Type*}

/-- What the policy reports. -/
inductive ExactOutput (n : ℕ) (α : Type*)
  | signal (t : Tuple (Fin (n + 1)) α)
  | drop (t : Tuple (Fin (n + 1)) α)

/-- `std::map<rclcpp::Time, Tuple>`, in the order of the keys. -/
abbrev TimeToTuple (n : ℕ) (α : Type*) := List (ℤ × Tuple (Fin (n + 1)) α)

structure ExactTime (n : ℕ) (α : Type*) where
  queueSize : ℕ
  tuples : TimeToTuple n α
  lastSignalTime : ℤ

def ExactTime.new (queueSize : ℕ) : ExactTime n α := ⟨queueSize, [], 0⟩

namespace TimeToTuple

/-- `std::get<i>(tuples[time]) = evt`. -/
def assign (i : Fin (n + 1)) (m : StampedMsg α) : TimeToTuple n α → TimeToTuple n α
  | [] => [(m.stamp, Function.update Tuple.empty i (some m))]
  | (time, t) :: rest =>
    if m.stamp < time then
      (m.stamp, Function.update Tuple.empty i (some m)) :: (time, t) :: rest
    else if m.stamp = time then (time, Function.update t i (some m)) :: rest
    else (time, t) :: assign i m rest

/-- `tuples[time]` of a stamp that is there. -/
def lookup (tuples : TimeToTuple n α) (time : ℤ) : Tuple (Fin (n + 1)) α :=
  ((tuples.find? fun e => e.1 = time).map Prod.snd).getD Tuple.empty

/-- `tuples.erase(time)`. -/
def erase (tuples : TimeToTuple n α) (time : ℤ) : TimeToTuple n α :=
  tuples.filter fun e => e.1 ≠ time

end TimeToTuple

namespace ExactTime

/-- The loop of `clearOldTuples`: the tuples that are dropped, and those that stay. -/
def clearOldTuples (last : ℤ) : TimeToTuple n α → List (Tuple (Fin (n + 1)) α) × TimeToTuple n α
  | [] => ([], [])
  | (time, t) :: rest =>
    if time ≤ last then (t :: (clearOldTuples last rest).1, (clearOldTuples last rest).2)
    else ([], (time, t) :: rest)

/-- The loop that keeps the map within the queue size. -/
def dropOldest (queueSize : ℕ) : TimeToTuple n α → List (Tuple (Fin (n + 1)) α) × TimeToTuple n α
  | [] => ([], [])
  | (time, t) :: rest =>
    if queueSize < rest.length + 1 then
      (t :: (dropOldest queueSize rest).1, (dropOldest queueSize rest).2)
    else ([], (time, t) :: rest)

/-- A tuple with a message of every input. -/
def full (t : Tuple (Fin (n + 1)) α) : Bool := decide (∀ i, (t i).isSome)

/-- The first half of `checkTuple`: signal a full tuple. -/
def signalFull (e : ExactTime n α) (t : Tuple (Fin (n + 1)) α) :
    List (ExactOutput n α) × ExactTime n α :=
  if full t then
    let last := ((t 0).map StampedMsg.stamp).getD 0
    let cleared := clearOldTuples last (e.tuples.erase last)
    (.signal t :: cleared.1.map .drop, { e with lastSignalTime := last, tuples := cleared.2 })
  else ([], e)

/-- The second half: the queue size. -/
def limitQueue (e : ExactTime n α) : List (ExactOutput n α) × ExactTime n α :=
  if 0 < e.queueSize then
    ((dropOldest e.queueSize e.tuples).1.map .drop,
      { e with tuples := (dropOldest e.queueSize e.tuples).2 })
  else ([], e)

def checkTuple (e : ExactTime n α) (t : Tuple (Fin (n + 1)) α) :
    List (ExactOutput n α) × ExactTime n α :=
  let signalled := e.signalFull t
  let limited := signalled.2.limitQueue
  (signalled.1 ++ limited.1, limited.2)

def add (e : ExactTime n α) (a : Add (Fin (n + 1)) α) : List (ExactOutput n α) × ExactTime n α :=
  let tuples := e.tuples.assign a.1 a.2
  checkTuple { e with tuples := tuples } (tuples.lookup a.2.stamp)

end ExactTime

/-- The tuples that are signalled. -/
def emitted : List (ExactOutput n α) → List (Tuple (Fin (n + 1)) α)
  | [] => []
  | .signal t :: out => t :: emitted out
  | .drop _ :: out => emitted out

/-- The tuples that are reported as dropped. -/
def dropped : List (ExactOutput n α) → List (Tuple (Fin (n + 1)) α)
  | [] => []
  | .signal _ :: out => dropped out
  | .drop t :: out => t :: dropped out

end Agnocast.MessageFilters
