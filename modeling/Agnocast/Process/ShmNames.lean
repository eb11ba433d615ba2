import Agnocast.Process.ExitIdentity
import Agnocast.Process.UnlinkDaemon

/-!
# The processes — the names of their shared memory

A process creates its segment after its ADD_PROCESS, under a name that is made of its pid.
Subscribers are told pids by RECEIVE_MSG and TAKE_MSG and open the segments after the ioctl,
and the unlink daemon unlinks a name after the GET_EXIT_PROCESS that gave it the pid. The
module decides under its lock; what is done with the pid comes later, in other processes.

* `ShmHost`      — the machine with the segments, and what every process has still to do.
* `shmHost`      — the transition system; the two phases of GET_EXIT_PROCESS are steps of their own.
* `NamesOutlive` — what is asked of a run.

A segment lies in the `/dev/shm` of an IPC namespace. `mmap_mtx` lets one thread of a process
at a time receive and map, which restricts the runs and plays no part.
-/

namespace Agnocast

/-! ## The state -/

/-- `/agnocast@<pid>`, in an IPC namespace. -/
structure ShmName where
  ipcNs : IpcNs
  pid : Pid
  deriving DecidableEq, Repr

/-- A process that has registered and not yet created its segment. -/
structure Creation where
  name : ShmName
  pid : Pid
  number : Nat
  deriving DecidableEq, Repr

/-- A name that an ioctl has told a subscriber, who has not yet opened it, and the number of
the process that it stood for. -/
structure ToldShm where
  name : ShmName
  owner : Nat
  deriving DecidableEq, Repr

/-- The machine and its segments, each with the number of the process that created it. -/
structure ShmHost where
  host : Host
  /-- The calls of GET_EXIT_PROCESS that are between their phases. -/
  handler : Pid → Option ExitHandler
  segments : ShmName → Option Nat
  creating : List Creation
  told : List ToldShm
  /-- What daemons were told and have not yet unlinked. -/
  unlinking : List ShmName

/-- What can happen. -/
inductive ShmInput
  /-- A step of the machine other than a GET_EXIT_PROCESS. -/
  | host (i : HostInput)
  | getExitProcess (daemon : Pid) (ipcNs : IpcNs)
  /-- `copy_to_user` of the pid fails: -EFAULT before the second phase. -/
  | copyFailed (daemon : Pid)
  | commitExitProcess (daemon : Pid)
  /-- `shm_open` with `O_CREAT | O_EXCL`. -/
  | create (c : Creation)
  /-- `shm_open` with `O_RDONLY`. -/
  | openTold (r : ToldShm)
  /-- The subscriber's process ends before it opens the name. -/
  | abandon (r : ToldShm)
  /-- `shm_unlink`. -/
  | unlink (name : ShmName)

/-- What a step shows. -/
inductive ShmReply
  /-- The segment that was there before; any lets the `shm_open` fail. -/
  | created (found : Option Nat)
  /-- The segment that was opened; none lets the `shm_open` fail. -/
  | opened (owner : Nat) (found : Option Nat)
  deriving DecidableEq, Repr

/-! ## The steps -/

/-- The call is one of the phases of GET_EXIT_PROCESS. -/
def Call.drains : Call → Bool
  | .getExitProcess .. => true
  | .commitExitProcess .. => true
  | _ => false

namespace ShmHost

/-- The pool that a reply gives to a process. -/
def pool : Option Reply → Option (Nat × Nat)
  | some (.processAdded (.ok r)) => r.pool
  | _ => none

/-- Who has to create a segment after a call: a process that was registered and is no unlink
daemon. -/
def newCreations (s : ShmHost) (i : Input) (reply : Option Reply) : List Creation :=
  match i.call with
  | .addProcess pid ipcNs role _ =>
    if (pool reply).isSome ∧ decodeRole role ≠ some .unlinkDaemon then
      [⟨⟨ipcNs, (i.env.convertPidToLocal pid).getD (-1)⟩, pid, (s.host.runs pid).getD 0⟩]
    else []
  | _ => []

/-- What a subscriber has to open after a call. Pids are the same for everybody. -/
def newTold (s : ShmHost) (i : Input) (reply : Option Reply) : List ToldShm :=
  match fetchTarget s.host.kmod i.call, reply with
  | some (w, _), some reply =>
    (shmInfos reply).map fun info => ⟨⟨w.ipcNs, info.pid⟩, s.host.registeredBy info.pid⟩
  | _, _ => []

/-- An ioctl of the machine. -/
def ioctl (s : ShmHost) (i : Input) : ShmHost :=
  let r := s.host.ioctl i
  { s with
    host := r.2
    creating := s.newCreations i r.1 ++ s.creating
    told := s.newTold i r.1 ++ s.told }

/-- The second phase of GET_EXIT_PROCESS, after which the caller has the pid. -/
def commit (s : ShmHost) (daemon : Pid) (l : ExitHandler) : ShmHost :=
  { s with
    host := (s.host.ioctl ⟨.smooth, .commitExitProcess l.ipcNs l.globalPid daemon⟩).2
    handler := Function.update s.handler daemon none
    unlinking := l.found.elim s.unlinking fun found =>
      if 0 < found.1 then ⟨l.ipcNs, found.1⟩ :: s.unlinking else s.unlinking }

/-- One step; what a process has not got it cannot use. -/
def step (s : ShmHost) : ShmInput → Option ShmReply × ShmHost
  | .host (.ioctl i) => (none, if i.call.drains then s else s.ioctl i)
  | .host i => (none, { s with host := (s.host.step i).2 })
  | .getExitProcess daemon ipcNs =>
    (none, { s with
      handler := Function.update s.handler daemon
        (some ⟨ipcNs, Agnocast.getExitProcess s.host.kmod ipcNs⟩) })
  | .copyFailed daemon => (none, { s with handler := Function.update s.handler daemon none })
  | .commitExitProcess daemon => (none, (s.handler daemon).elim s fun l => s.commit daemon l)
  | .create c =>
    if c ∈ s.creating ∧ s.host.runs c.pid = some c.number then
      (some (.created (s.segments c.name)),
        { s with
          creating := s.creating.erase c
          segments := Function.update s.segments c.name (some ((s.segments c.name).getD c.number)) })
    else (none, s)
  | .openTold r =>
    if r ∈ s.told then
      (some (.opened r.owner (s.segments r.name)), { s with told := s.told.erase r })
    else (none, s)
  | .abandon r => (none, { s with told := s.told.erase r })
  | .unlink name =>
    (none,
      if name ∈ s.unlinking then
        { s with
          segments := Function.update s.segments name none
          unlinking := s.unlinking.erase name }
      else s)

end ShmHost

/-- A machine without segments, right after the module is loaded. -/
def shmHost : Transition.System ShmHost ShmInput (Option ShmReply) where
  init s := Agnocast.host.init s.host ∧ (∀ daemon, s.handler daemon = none) ∧
    (∀ name, s.segments name = none) ∧ s.creating = [] ∧ s.told = [] ∧ s.unlinking = []
  step := ShmHost.step

abbrev ShmEvent := Transition.Event ShmHost ShmInput (Option ShmReply)

/-! ## What is said about runs -/

/-- Every name that a subscriber opens is that of the segment of the process that it was told
of, and no process finds a segment where it creates its own. -/
structure NamesOutlive (tr : List ShmEvent) : Prop where
  opened : ∀ ev ∈ tr, ∀ owner found, ev.output = some (.opened owner found) → found = some owner
  created : ∀ ev ∈ tr, ∀ found, ev.output = some (.created found) → found = none

/-! ## Under which conditions -/

/-- Pids are positive and the same for everybody. -/
def Input.onePidNamespace (i : Input) : Prop :=
  (∀ pid, i.env.convertPidToLocal pid = some pid) ∧
    ∀ pid ipcNs role domainId, i.call = .addProcess pid ipcNs role domainId → 0 < pid

/-- What an ioctl must find: a pid that is registered waits for no exit cleanup, and the live
processes under the pids of a topic's publishers have created their segments when somebody
fetches from it. -/
structure ShmHost.Ready (s : ShmHost) (i : Input) : Prop where
  pids : i.onePidNamespace
  drained : Host.PidsDrained s.host (.ioctl i)
  created : ∀ w sub, fetchTarget s.host.kmod i.call = some (w, sub) →
    ∀ q ∈ (s.host.kmod.topicStructs w.topic).pubInfoHtable,
      ∀ p, findProcessInfo s.host.kmod q.pid = some p → p.exited = false →
        s.segments ⟨w.ipcNs, q.pid⟩ = some (s.host.registeredBy q.pid)

/-- When names are kept: ioctls find what they must, an IPC namespace has one GET_EXIT_PROCESS
at a time, a process creates its segment when no daemon has still to unlink the name, and a
daemon unlinks a name when no subscriber has still to open it. -/
def NamesKept (s : ShmHost) : ShmInput → Prop
  | .host (.ioctl i) => s.Ready i
  | .getExitProcess _ ipcNs => ∀ daemon l, s.handler daemon = some l → l.ipcNs ≠ ipcNs
  | .create c => c.name ∉ s.unlinking
  | .unlink name => ∀ r ∈ s.told, r.name ≠ name
  | _ => True

end Agnocast
