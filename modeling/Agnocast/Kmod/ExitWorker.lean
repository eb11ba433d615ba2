import Agnocast.Lib.RingBuffer
import Agnocast.Kmod.System

/-!
# The kernel module — the exit queue and the exit worker

The tracepoint `sched_process_exit` queues the pid of a process whose last thread has
died, and a kernel thread takes the pids from the queue and runs the exit cleanup.
Around the module stands the operating system, which starts processes and gives the
pid of a dead one to another. A process is known by a number that is never given
twice; the module only sees pids.

The tracepoint reads the tables and queues the pid in two steps, and the worker takes
a pid and cleans up in two steps: anything may happen between them.
-/

namespace Agnocast

/-! ## The queue -/

/-- `EXIT_QUEUE_SIZE`. -/
def exitQueueSize : Nat := 2 ^ 16

theorem exitQueueSize_pos : 0 < exitQueueSize := by decide

/-- `exit_pid_queue` with `queue_head` and `queue_tail`. The size is a power of two,
so that `& EXIT_QUEUE_MASK` is the remainder. -/
abbrev ExitQueue := RingBuffer Pid exitQueueSize

/-- `agnocast_enqueue_exit_pid`; a full queue drops the pid. -/
def enqueueExitPid (pid : Pid) (q : ExitQueue) : ExitQueue := q.push pid

/-- `is_agnocast_pid`. -/
def isAgnocastPid (σ : Kmod) (pid : Pid) : Bool :=
  (findProcessInfo σ pid).isSome || σ.discoveryAgentHtable.any fun a => a.pid = pid

/-! ## The machine -/

/-- A process that has a pid: it runs, or its last thread has died and the tracepoint
has read whether the pid is one of the module's. -/
inductive Task
  | running (number : Nat)
  | exiting (agnocast : Bool)

/-- The number of a process that runs. -/
def Task.runningNumber : Task → Option Nat
  | .running number => some number
  | .exiting _ => none

/-- The module, its exit queue and the processes around it. -/
structure Host where
  kmod : Kmod
  queue : ExitQueue
  /-- What `exit_worker_thread` has taken from the queue and not cleaned up yet. -/
  popped : Option Pid
  tasks : Pid → Option Task
  /-- How many processes were started. -/
  started : Nat
  /-- The number of the process that made the registration of a pid. -/
  registeredBy : Pid → Nat

namespace Host

variable (h : Host)

/-- The number of the process that runs under a pid. -/
def runs (pid : Pid) : Option Nat := (h.tasks pid).bind Task.runningNumber

/-- The process has exited. -/
def Exited (number : Nat) : Prop := number < h.started ∧ ∀ pid, h.runs pid ≠ some number

/-- `fork`: a new process gets a pid that no process has. -/
def start (pid : Pid) : Host :=
  match h.tasks pid with
  | some _ => h
  | none =>
    { h with
      tasks := Function.update h.tasks pid (some (.running h.started))
      started := h.started + 1 }

/-- The process that issues the call, where it registers itself. -/
def registrant : Call → Option Pid
  | .addProcess pid .. => some pid
  | .addDiscoveryAgent pid .. => some pid
  | _ => none

/-- An ioctl can be issued: a process registers itself while it runs, and the exit
cleanup is no ioctl. -/
def canIssue : Call → Bool
  | .processExitCleanup _ => false
  | call => (registrant call).all fun pid => (h.runs pid).isSome

/-- Who made the registrations, after a call that made `σ'` of the module. -/
def registeredAfter (σ' : Kmod) (pid : Pid) : Nat :=
  if (findProcessInfo h.kmod pid).isNone ∧ (findProcessInfo σ' pid).isSome then
    (h.runs pid).getD (h.registeredBy pid)
  else h.registeredBy pid

/-- An ioctl. -/
def ioctl (i : Input) : Option Reply × Host :=
  if h.canIssue i.call then
    let (reply, σ') := step h.kmod i
    (some reply, { h with kmod := σ', registeredBy := h.registeredAfter σ' })
  else (none, h)

/-- The last thread of the process dies: `agnocast_process_exit` up to the answer of
`is_agnocast_pid`. -/
def exit (pid : Pid) : Host :=
  match h.tasks pid with
  | some (.running _) =>
    { h with tasks := Function.update h.tasks pid (some (.exiting (isAgnocastPid h.kmod pid))) }
  | _ => h

/-- The rest of `agnocast_process_exit`; the pid is free then. -/
def release (pid : Pid) : Host :=
  match h.tasks pid with
  | some (.exiting agnocast) =>
    { h with
      queue := if agnocast then enqueueExitPid pid h.queue else h.queue
      tasks := Function.update h.tasks pid none }
  | _ => h

/-- `exit_worker_thread` takes the next pid. -/
def pop : Host :=
  match h.popped, h.queue.pop with
  | none, some (pid, queue) => { h with queue := queue, popped := some pid }
  | _, _ => h

/-- `exit_worker_thread` cleans up. -/
def cleanup : Host :=
  match h.popped with
  | none => h
  | some pid => { h with kmod := processExitCleanup h.kmod pid, popped := none }

end Host

/-- What can happen to the machine. -/
inductive HostInput
  | start (pid : Pid)
  | ioctl (i : Input)
  | exit (pid : Pid)
  | release (pid : Pid)
  | pop
  | cleanup

/-- One step of the machine; an ioctl is answered. -/
def Host.step (h : Host) : HostInput → Option Reply × Host
  | .start pid => (none, h.start pid)
  | .ioctl i => h.ioctl i
  | .exit pid => (none, h.exit pid)
  | .release pid => (none, h.release pid)
  | .pop => (none, h.pop)
  | .cleanup => (none, h.cleanup)

/-- Right after the module is loaded; processes that run already start later. -/
def Host.booted (σ : Kmod) : Host where
  kmod := σ
  queue := RingBuffer.empty exitQueueSize_pos fun _ => 0
  popped := none
  tasks := fun _ => none
  started := 0
  registeredBy := fun _ => 0

/-- The machine. -/
def host : Transition.System Host HostInput (Option Reply) where
  init h := ∃ σ, moduleInit σ ∧ h = .booted σ
  step := Host.step

end Agnocast
