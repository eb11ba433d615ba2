import Mathlib.Data.List.Perm.Basic
import Mathlib.Data.List.Range
import Mathlib.Logic.Function.Basic
import Agnocast.Lib.Transition

/-!
# The library — the executor's ready list

Executors keep their executables in one list under a mutex. A thread scans it from the
front for one whose callback group is associated with the executor and, for a mutually
exclusive group, whose flag `can_be_taken_from` it can take; executing threads give the
flag back without the mutex, while another thread may be scanning.

* `ReadyExecutables` — the list, the scan under way, the executables that threads have taken
  and not finished, and the groups' flags. There is any number of threads: each that is not
  scanning executes one of the taken executables or is idle.
* `readyExecutables` — the transition system; each access of the scan is a step.
* `TakenInOrder`     — what the order of the queue says about the executable that is taken.
* `groups_exclude`   — what holds over every run.

An executable's `id` counts the executables queued before it; the code has no such number.
-/

namespace Agnocast

/-! ## The state and its steps -/

/-- `AgnocastExecutable`: a callable of a callback group. -/
structure Executable where
  id : Nat
  group : Nat
  deriving DecidableEq, Repr

/-- Where the loop of `get_next_ready_agnocast_executable` stands. -/
inductive ScanPos
  | visit (k : Nat)
  /-- The group of the `k`-th executable was found associated. -/
  | associated (k : Nat)
  deriving DecidableEq, Repr

/-- The number of executables that the scan has passed. -/
def ScanPos.index : ScanPos → Nat
  | .visit k => k
  | .associated k => k

/-- An executor; `scan` is the holder of `ready_agnocast_executables_mutex_`. -/
structure ReadyExecutables where
  ready : List Executable
  executing : List Executable
  canBeTakenFrom : Nat → Bool
  associated : Nat → Bool
  scan : Option ScanPos
  queued : Nat

/-- What can happen. -/
inductive ReadyInput
  | enqueue (group : Nat)
  /-- A group is added to the executor or removed from it. -/
  | associate (group : Nat) (isAssociated : Bool)
  /-- A thread locks the mutex in `get_next_ready_agnocast_executable`. -/
  | startScan
  | scan
  /-- The callable of a taken executable has returned, and `execute_agnocast_executable` ends. -/
  | finish (e : Executable)
  deriving DecidableEq, Repr

/-- What a step shows. -/
inductive ReadyReply
  | took (e : Executable)
  /-- The scan reached the end of the list. -/
  | nothing
  | finished (e : Executable)
  deriving DecidableEq, Repr

variable (exclusive : Nat → Bool)

namespace ReadyExecutables

/-- A group's flag changes if the group is mutually exclusive. -/
def setFlag (x : ReadyExecutables) (group : Nat) (b : Bool) : Nat → Bool :=
  if exclusive group then Function.update x.canBeTakenFrom group b else x.canBeTakenFrom

/-- The next access of the scan. -/
def scanStep (x : ReadyExecutables) : ScanPos → Option ReadyReply × ReadyExecutables
  | .visit k =>
    match x.ready[k]? with
    | none => (some .nothing, { x with scan := none })
    | some e =>
      (none, { x with scan := some (if x.associated e.group then .associated k else .visit (k + 1)) })
  | .associated k =>
    match x.ready[k]? with
    | none => (none, x)
    | some e =>
      -- a mutually exclusive group that is busy is passed over
      if exclusive e.group && !x.canBeTakenFrom e.group then
        (none, { x with scan := some (.visit (k + 1)) })
      else
        (some (.took e),
          { x with
            ready := x.ready.eraseIdx k
            executing := e :: x.executing
            canBeTakenFrom := x.setFlag exclusive e.group false
            scan := none })

/-- One step; one that is not possible leaves the executor as it is. -/
def step (x : ReadyExecutables) : ReadyInput → Option ReadyReply × ReadyExecutables
  | .enqueue group =>
    (none,
      if x.scan = none then { x with ready := x.ready ++ [⟨x.queued, group⟩], queued := x.queued + 1 }
      else x)
  | .associate group b => (none, { x with associated := Function.update x.associated group b })
  | .startScan => (none, if x.scan = none then { x with scan := some (.visit 0) } else x)
  | .scan =>
    match x.scan with
    | none => (none, x)
    | some pc => x.scanStep exclusive pc
  | .finish e =>
    if e ∈ x.executing then
      (some (.finished e),
        { x with
          executing := x.executing.erase e
          canBeTakenFrom := x.setFlag exclusive e.group true })
    else (none, x)

end ReadyExecutables

/-- An executor with nothing queued; the groups are free. -/
def readyExecutables : Transition.System ReadyExecutables ReadyInput (Option ReadyReply) where
  init := fun x => x.ready = [] ∧ x.executing = [] ∧ (∀ g, x.canBeTakenFrom g = true) ∧
    x.scan = none ∧ x.queued = 0
  step := ReadyExecutables.step exclusive

abbrev ReadyEvent := Transition.Event ReadyExecutables ReadyInput (Option ReadyReply)

/-! ## What is said about runs -/

/-- The executables that have finished, newest first. -/
def finished (tr : List ReadyEvent) : List Executable :=
  tr.filterMap fun ev => match ev.output with
    | some (.finished e) => some e
    | _ => none

/-- The events of the scan that is under way. -/
def duringScan (tr : List ReadyEvent) : List ReadyEvent := tr.takeWhile fun ev => ev.pre.scan.isSome

/-- The group is given back by an executable of its own, or becomes associated. -/
def FreesGroup (group : Nat) (ev : ReadyEvent) : Prop :=
  (∃ e, ev.output = some (.finished e) ∧ e.group = group) ∨ ev.input = .associate group true

/-- The scan has passed the executable. -/
def Passed (x : ReadyExecutables) (e : Executable) : Prop :=
  ∃ pc, x.scan = some pc ∧ e ∈ x.ready.take pc.index

/-- The executable's group became available behind the back of the scan. -/
def FreedAfterPassing (tr : List ReadyEvent) (e : Executable) : Prop :=
  ∃ ev ∈ duringScan tr, FreesGroup e.group ev ∧ Passed ev.pre e

/-- An executable of the group is taken and not finished. -/
def Busy (x : ReadyExecutables) (group : Nat) : Prop :=
  exclusive group = true ∧ x.canBeTakenFrom group = false

/-- The group's executables cannot be taken: it is not associated, or busy itself. -/
def Blocked (x : ReadyExecutables) (group : Nat) : Prop :=
  x.associated group = false ∨ Busy exclusive x group

/-- What a scan answers after the events `before`. An executable is taken after the older ones
of its group, and none is left behind but for its own group, except for those whose group
became available after the scan had passed them. -/
def AnswersInOrder (before : List ReadyEvent) (x : ReadyExecutables) : Option ReadyReply → Prop
  | some (.took e) =>
    ∀ e' ∈ x.ready, e'.group = e.group → e'.id < e.id → FreedAfterPassing before e'
  | some .nothing => ∀ e ∈ x.ready, Blocked exclusive x e.group ∨ FreedAfterPassing before e
  | _ => True

/-- Every scan of the run answers in order. -/
def TakenInOrder : List ReadyEvent → Prop
  | [] => True
  | ev :: before => TakenInOrder before ∧ AnswersInOrder exclusive before ev.pre ev.output

/-- What holds after every run: at most one executable of a mutually exclusive group is taken
and not finished, the flag tells whether there is one, every queued executable is in exactly
one place, and they are taken in order. -/
structure GroupsExclude (tr : List ReadyEvent) (x : ReadyExecutables) : Prop where
  exclusion : ∀ g, exclusive g = true → x.executing.countP (·.group = g) ≤ 1
  flag : ∀ g, exclusive g = true →
    (x.canBeTakenFrom g = true ↔ ∀ e ∈ x.executing, e.group ≠ g)
  conserved : (((finished tr ++ x.executing) ++ x.ready).map Executable.id).Perm
    (List.range x.queued)
  order : TakenInOrder exclusive tr

end Agnocast
