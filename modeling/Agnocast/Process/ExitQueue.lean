import Agnocast.Lib.Fairness
import Agnocast.Kmod.ExitWorker

/-!
# The exit queue — producers and the worker

`agnocast_enqueue_exit_pid` in any number of exiting processes, and the loop of
`exit_worker_thread`. What either does under `pid_queue_lock` is one step; the wait is several: the
condition is read, the worker is put on the wait queue, the condition is read again, the worker
sleeps. A producer wakes it after it has let go of the lock.

* `QueueOk`       — the invariant: first in, first out, and the flag says whether anything is there.
* `work_passes`   — the rank: how far the worker is from a pid.
* `exit_queue`    — all of it, for every run and every fair execution.
-/

namespace Agnocast

open Transition

/-! ## The machine -/

/-- Where `exit_worker_thread` is. While it is on the wait queue, `woken` says whether somebody has
taken it off again. -/
inductive WorkerPos
  /-- `while (!kthread_should_stop())` -/
  | top
  /-- the condition, before it waits -/
  | checking
  | preparing
  /-- the condition, on the wait queue -/
  | prepared (woken : Bool)
  | sleeping (woken : Bool)
  /-- `if (kthread_should_stop()) break` -/
  | awake
  /-- before the lock -/
  | draining
  | cleaning (pid : Pid)
  | returned
  deriving DecidableEq, Repr

/-- The queue with `has_new_pid`, the worker, and how many producers are about to wake it. The rest
is what a run remembers: the pids that were accepted, and those passed to the cleanup. -/
structure ExitMachine where
  queue : ExitQueue
  hasNewPid : Bool
  shouldStop : Bool
  worker : WorkerPos
  wakeups : Nat
  accepted : List Pid
  passed : List Pid

namespace ExitMachine

variable (s : ExitMachine)

/-- The critical section of `agnocast_enqueue_exit_pid`, and whether a wake-up is needed. -/
def enqueue (pid : Pid) : Bool × ExitMachine :=
  if s.queue.isFull then (false, s)
  else
    (true,
      { s with
        queue := s.queue.push pid
        hasNewPid := true
        wakeups := s.wakeups + 1
        accepted := s.accepted ++ [pid] })

/-- Taking the worker off the wait queue, if it is there. -/
def WorkerPos.wake : WorkerPos → WorkerPos
  | .prepared _ => .prepared true
  | .sleeping _ => .sleeping true
  | pos => pos

/-- The `swake_up_one` of a producer. -/
def wake : ExitMachine :=
  if s.wakeups = 0 then s
  else { s with wakeups := s.wakeups - 1, worker := WorkerPos.wake s.worker }

/-- `kthread_stop`. -/
def stop : ExitMachine := { s with shouldStop := true, worker := WorkerPos.wake s.worker }

/-- The critical section of the worker. -/
def drain : ExitMachine :=
  match s.queue.pop with
  | none => { s with hasNewPid := false, worker := .top }
  | some (pid, queue) =>
    { s with
      queue := queue
      hasNewPid := if queue.head = queue.tail then false else s.hasNewPid
      worker := .cleaning pid }

/-- The next step of `exit_worker_thread`. -/
def work : ExitMachine :=
  match s.worker with
  | .top => { s with worker := if s.shouldStop then .returned else .checking }
  | .checking => { s with worker := if s.hasNewPid || s.shouldStop then .awake else .preparing }
  -- `swait_event_interruptible_exclusive`: on the wait queue first, then the condition
  | .preparing => { s with worker := .prepared false }
  | .prepared woken =>
    { s with worker := if s.hasNewPid || s.shouldStop then .awake else .sleeping woken }
  | .sleeping woken => if woken then { s with worker := .preparing } else s
  | .awake => { s with worker := if s.shouldStop then .returned else .draining }
  | .draining => s.drain
  | .cleaning pid => { s with passed := s.passed ++ [pid], worker := .draining }
  | .returned => s

/-- The pid that the worker has taken and not passed on. -/
def inHand : Option Pid :=
  match s.worker with
  | .cleaning pid => some pid
  | _ => none

end ExitMachine

/-- What happens. -/
inductive ExitInput
  | enqueue (pid : Pid)
  | wake
  | stop
  | work
  deriving DecidableEq

/-- One step; an enqueue says whether the pid was accepted. -/
def ExitMachine.step (s : ExitMachine) : ExitInput → Option Bool × ExitMachine
  | .enqueue pid => (some (s.enqueue pid).1, (s.enqueue pid).2)
  | .wake => (none, s.wake)
  | .stop => (none, s.stop)
  | .work => (none, s.work)

/-- The queue and the worker after `agnocast_init_kthread`. -/
def ExitMachine.loaded : ExitMachine where
  queue := RingBuffer.empty exitQueueSize_pos fun _ => 0
  hasNewPid := false
  shouldStop := false
  worker := .top
  wakeups := 0
  accepted := []
  passed := []

/-- The exit queue. -/
def exitMachine : System ExitMachine ExitInput (Option Bool) where
  init s := s = .loaded
  step := ExitMachine.step

/-! ## The invariant -/

/-- First in, first out; the flag tells whether the ring is empty; and a worker that sleeps although
it is not is about to be woken. -/
structure QueueOk (s : ExitMachine) : Prop where
  fifo : s.accepted = s.passed ++ s.inHand.toList ++ s.queue.contents
  flag : s.hasNewPid = true ↔ s.queue.contents ≠ []
  wakeup : s.worker = .sleeping false → s.queue.contents ≠ [] → s.wakeups ≠ 0

namespace QueueOk

variable {s : ExitMachine}

theorem loaded : QueueOk .loaded := by
  have hempty : ExitMachine.loaded.queue.contents = [] := RingBuffer.contents_empty _ _
  refine ⟨?_, ?_, nofun⟩
  · rw [hempty]
    rfl
  · rw [hempty]
    exact ⟨nofun, fun h => absurd rfl h⟩

theorem enqueue (h : QueueOk s) (pid : Pid) : QueueOk (s.enqueue pid).2 := by
  unfold ExitMachine.enqueue
  split
  · exact h
  · next hroom =>
    have hpush := RingBuffer.push_contents (Bool.eq_false_iff.mpr hroom) pid
    refine ⟨?_, ?_, fun _ _ => Nat.succ_ne_zero _⟩
    · show s.accepted ++ [pid] = s.passed ++ s.inHand.toList ++ (s.queue.push pid).contents
      rw [hpush, h.fifo, List.append_assoc]
    · show true = true ↔ (s.queue.push pid).contents ≠ []
      rw [hpush]
      simp

/-- A step that only moves the worker, which takes nothing in hand. -/
private theorem move (h : QueueOk s) {pos : WorkerPos} (hhand : s.inHand = none)
    (hpos : ∀ pid, pos ≠ .cleaning pid) (hsleep : pos = .sleeping false → s.hasNewPid = false) :
    QueueOk { s with worker := pos } where
  fifo := by
    have hnone : ExitMachine.inHand { s with worker := pos } = none := by
      unfold ExitMachine.inHand
      cases pos with
      | cleaning pid => exact absurd rfl (hpos pid)
      | _ => rfl
    rw [hnone, ← hhand]
    exact h.fifo
  flag := h.flag
  wakeup hs hne := by
    have hflag := hsleep hs
    rw [h.flag.mpr hne] at hflag
    cases hflag

/-- Being taken off the wait queue. -/
private theorem woken (h : QueueOk s) (wakeups : Nat) :
    QueueOk { s with wakeups := wakeups, worker := ExitMachine.WorkerPos.wake s.worker } where
  fifo := by
    have hhand : ExitMachine.inHand
        { s with wakeups := wakeups, worker := ExitMachine.WorkerPos.wake s.worker } = s.inHand := by
      unfold ExitMachine.inHand
      cases s.worker <;> rfl
    rw [hhand]
    exact h.fifo
  flag := h.flag
  wakeup hs := by
    have hne : ExitMachine.WorkerPos.wake s.worker ≠ .sleeping false := by
      cases s.worker <;> simp [ExitMachine.WorkerPos.wake]
    exact absurd hs hne

theorem wake (h : QueueOk s) : QueueOk s.wake := by
  unfold ExitMachine.wake
  split
  · exact h
  · exact h.woken (s.wakeups - 1)

theorem stop (h : QueueOk s) : QueueOk s.stop := by
  have hwoken := h.woken s.wakeups
  exact ⟨hwoken.fifo, hwoken.flag, hwoken.wakeup⟩

theorem drain (h : QueueOk s) (hw : s.worker = .draining) : QueueOk s.drain := by
  have hhand : s.inHand = none := by
    unfold ExitMachine.inHand
    rw [hw]
  have hfifo := h.fifo
  rw [hhand] at hfifo
  unfold ExitMachine.drain
  cases hpop : s.queue.pop with
  | none =>
    have hempty := RingBuffer.pop_eq_none.mp hpop
    refine ⟨hfifo, ⟨nofun, fun hne => absurd hempty hne⟩, nofun⟩
  | some popped =>
    obtain ⟨pid, queue⟩ := popped
    have hcontents := RingBuffer.pop_eq_some hpop
    have hset : s.hasNewPid = true := h.flag.mpr (by
      rw [hcontents]
      exact List.cons_ne_nil _ _)
    refine ⟨?_, ?_, nofun⟩
    · show s.accepted = s.passed ++ [pid] ++ queue.contents
      rw [hfifo, hcontents]
      simp
    · show (if queue.head = queue.tail then false else s.hasNewPid) = true ↔ queue.contents ≠ []
      rw [hset, ne_eq, RingBuffer.contents_eq_nil]
      split <;> simp [*]

theorem work (h : QueueOk s) : QueueOk s.work := by
  unfold ExitMachine.work
  cases hw : s.worker with
  | top =>
    refine h.move (by rw [ExitMachine.inHand, hw]) (fun pid => ?_) fun hs => ?_
    · split <;> exact nofun
    · split at hs <;> cases hs
  | checking =>
    refine h.move (by rw [ExitMachine.inHand, hw]) (fun pid => ?_) fun hs => ?_
    · split <;> exact nofun
    · split at hs <;> cases hs
  | preparing => exact h.move (by rw [ExitMachine.inHand, hw]) (fun _ => nofun) nofun
  | prepared woken =>
    refine h.move (by rw [ExitMachine.inHand, hw]) (fun pid => ?_) fun hs => ?_
    · split <;> exact nofun
    · -- it only goes to sleep when it has read the flag unset
      split at hs
      · cases hs
      · next hcond => exact (Bool.or_eq_false_iff.mp (Bool.eq_false_iff.mpr hcond)).1
  | sleeping woken =>
    dsimp only
    split
    · exact h.move (by rw [ExitMachine.inHand, hw]) (fun _ => nofun) nofun
    · exact h
  | awake =>
    refine h.move (by rw [ExitMachine.inHand, hw]) (fun pid => ?_) fun hs => ?_
    · split <;> exact nofun
    · split at hs <;> cases hs
  | draining => exact h.drain hw
  | cleaning pid =>
    refine ⟨?_, h.flag, nofun⟩
    have hfifo := h.fifo
    rw [ExitMachine.inHand, hw] at hfifo
    show s.accepted = s.passed ++ [pid] ++ [] ++ s.queue.contents
    rw [List.append_nil]
    exact hfifo
  | returned => exact h

theorem step (h : QueueOk s) (i : ExitInput) : QueueOk (s.step i).2 := by
  cases i with
  | enqueue pid => exact h.enqueue pid
  | wake => exact h.wake
  | stop => exact h.stop
  | work => exact h.work

theorem of_run {G : ExitMachine → ExitInput → Prop}
    {tr : List (Event ExitMachine ExitInput (Option Bool))} (hrun : Run exitMachine G tr s) :
    QueueOk s := by
  refine hrun.invariant ?_ fun s i h _ => h.step i
  rintro s rfl
  exact loaded

end QueueOk

/-! ## Liveness -/

/-- How many steps the worker is away from passing on a pid, while there is one. -/
def WorkerPos.distance : WorkerPos → Nat
  | .cleaning _ => 1
  | .draining => 2
  | .awake => 3
  | .prepared _ => 4
  | .checking => 4
  | .preparing => 5
  | .top => 5
  | .sleeping true => 6
  | .sleeping false => 7
  | .returned => 0

namespace ExitMachine

variable (s : ExitMachine)

/-- How far the machine is from having passed on pid number `n`. -/
def distance (n : Nat) : Nat := 2 * (n - s.passed.length) + s.worker.distance

/-- Pid number `n` was accepted and not passed on, and the worker goes on. -/
structure Awaiting (n : Nat) : Prop where
  accepted : n < s.accepted.length
  waiting : s.passed.length ≤ n
  goesOn : s.shouldStop = false
  stays : s.worker ≠ .returned

/-- A worker that sleeps waits for its wake-up, else only for its turn. -/
def Awaits (i : ExitInput) : Prop := if s.worker = .sleeping false then i = .wake else i = .work

variable {s} {n : Nat}

/-- There is something in the ring, unless it is in hand. -/
private theorem Awaiting.contents (h : s.Awaiting n) (hok : QueueOk s) (hhand : s.inHand = none) :
    s.queue.contents ≠ [] := by
  intro hempty
  have hlen := congrArg List.length hok.fifo
  rw [hhand, hempty] at hlen
  simp only [Option.toList_none, List.append_nil] at hlen
  have := h.accepted
  have := h.waiting
  omega

/-- A step that keeps the pids and brings the worker nearer. -/
private theorem Awaiting.nearer (h : s.Awaiting n) {pos : WorkerPos} (hstays : pos ≠ .returned)
    (hlt : pos.distance < s.worker.distance) : Awaiting { s with worker := pos } n ∧
      distance { s with worker := pos } n < s.distance n :=
  ⟨⟨h.accepted, h.waiting, h.goesOn, hstays⟩, Nat.add_lt_add_left hlt _⟩

/-- **A step of the worker**, unless it sleeps: it passes on the pid or comes nearer. -/
private theorem Awaiting.work (h : s.Awaiting n) (hok : QueueOk s)
    (hawake : s.worker ≠ .sleeping false) :
    n < s.work.passed.length ∨ (s.work.Awaiting n ∧ s.work.distance n < s.distance n) := by
  have hstop := h.goesOn
  -- with the pid still in the queue the flag is set, so no check sends it to sleep
  have hset (hhand : s.inHand = none) : (s.hasNewPid || s.shouldStop) = true := by
    rw [hok.flag.mpr (h.contents hok hhand), Bool.true_or]
  unfold ExitMachine.work
  cases hw : s.worker with
  | top =>
    have hpos : (if s.shouldStop then WorkerPos.returned else .checking) = .checking := by
      rw [hstop]
      rfl
    dsimp only
    rw [hpos]
    exact .inr (h.nearer (by simp) (by rw [hw]; decide))
  | checking =>
    dsimp only
    rw [if_pos (hset (by rw [inHand, hw]))]
    exact .inr (h.nearer (by simp) (by rw [hw]; decide))
  | preparing => exact .inr (h.nearer (by simp) (by rw [hw]; decide))
  | prepared woken =>
    dsimp only
    rw [if_pos (hset (by rw [inHand, hw]))]
    exact .inr (h.nearer (by simp) (by rw [hw]; exact Nat.lt_succ_self 3))
  | sleeping woken =>
    cases woken with
    | false => exact absurd hw hawake
    | true => exact .inr (h.nearer (by simp) (by rw [hw]; decide))
  | awake =>
    have hpos : (if s.shouldStop then WorkerPos.returned else .draining) = .draining := by
      rw [hstop]
      rfl
    dsimp only
    rw [hpos]
    exact .inr (h.nearer (by simp) (by rw [hw]; decide))
  | draining =>
    dsimp only
    unfold drain
    cases hpop : s.queue.pop with
    | none =>
      exact absurd (RingBuffer.pop_eq_none.mp hpop) (h.contents hok (by rw [inHand, hw]))
    | some popped =>
      refine .inr ⟨⟨h.accepted, h.waiting, h.goesOn, by simp⟩, ?_⟩
      unfold distance
      rw [hw]
      exact Nat.add_lt_add_left (Nat.lt_succ_self 1) _
  | cleaning pid =>
    have hwaiting := h.waiting
    -- the pid in hand is the one that is waited for, or one before it
    by_cases hlast : s.passed.length = n
    · left
      show n < (s.passed ++ [pid]).length
      rw [List.length_append, hlast]
      exact Nat.lt_succ_self n
    · right
      have hlen : (s.passed ++ [pid]).length = s.passed.length + 1 := List.length_append
      refine ⟨⟨h.accepted, ?_, h.goesOn, by simp⟩, ?_⟩
      · show (s.passed ++ [pid]).length ≤ n
        omega
      · unfold distance
        rw [hw]
        show 2 * (n - (s.passed ++ [pid]).length) + 2 < 2 * (n - s.passed.length) + 1
        omega
  | returned => exact absurd hw h.stays

variable (s) in
/-- What a step that leads to `s'` may do to pid number `n`: it was passed on, or the worker came
nearer, or it was not the step that is waited for, and that one is waited for still. -/
def Progress (i : ExitInput) (n : Nat) (s' : ExitMachine) : Prop :=
  n < s'.passed.length ∨ (s'.Awaiting n ∧ (s'.distance n < s.distance n ∨
    (s'.distance n = s.distance n ∧ ¬ s.Awaits i ∧ ∀ j, s.Awaits j → s'.Awaits j)))

/-- Nothing happened. -/
private theorem Awaiting.idle (h : s.Awaiting n) {i : ExitInput} (hno : ¬ s.Awaits i) :
    s.Progress i n s :=
  .inr ⟨h, .inr ⟨rfl, hno, fun _ hj => hj⟩⟩

private theorem not_awaits_enqueue (pid : Pid) : ¬ s.Awaits (.enqueue pid) := by
  unfold Awaits
  split <;> exact nofun

private theorem Awaiting.enqueue (h : s.Awaiting n) (pid : Pid) :
    s.Progress (.enqueue pid) n (s.enqueue pid).2 := by
  have hno : ¬ s.Awaits (.enqueue pid) := not_awaits_enqueue pid
  unfold ExitMachine.enqueue
  split
  · exact h.idle hno
  · refine .inr ⟨⟨?_, h.waiting, h.goesOn, h.stays⟩, .inr ⟨rfl, hno, fun _ hj => hj⟩⟩
    exact lt_of_lt_of_le h.accepted (by simp)

theorem WorkerPos.wake_ne_returned {pos : WorkerPos} (h : pos ≠ .returned) :
    WorkerPos.wake pos ≠ .returned := by
  cases pos with
  | returned => exact absurd rfl h
  | _ => exact nofun

/-- Only a worker that sleeps is moved by its wake-up. -/
private theorem WorkerPos.wake_awake {pos : WorkerPos} (h : pos ≠ .sleeping false) :
    (WorkerPos.wake pos).distance = pos.distance ∧ WorkerPos.wake pos ≠ .sleeping false := by
  cases pos with
  | sleeping woken =>
    cases woken with
    | false => exact absurd rfl h
    | true => exact ⟨rfl, by simp [WorkerPos.wake]⟩
  | _ => exact ⟨rfl, by simp [WorkerPos.wake]⟩

private theorem Awaiting.wake (h : s.Awaiting n) (hok : QueueOk s) :
    s.Progress .wake n s.wake := by
  unfold ExitMachine.wake
  by_cases hnone : s.wakeups = 0
  · rw [if_pos hnone]
    refine h.idle ?_
    unfold Awaits
    split
    · next hs => exact absurd hnone (hok.wakeup hs (h.contents hok (by rw [inHand, hs])))
    · exact nofun
  · rw [if_neg hnone]
    refine .inr ⟨⟨h.accepted, h.waiting, h.goesOn, WorkerPos.wake_ne_returned h.stays⟩, ?_⟩
    by_cases hs : s.worker = .sleeping false
    · left
      unfold distance
      rw [hs]
      exact Nat.add_lt_add_left (Nat.lt_succ_self 6) _
    · right
      obtain ⟨hsame, hawake⟩ := WorkerPos.wake_awake hs
      refine ⟨congrArg (2 * (n - s.passed.length) + ·) hsame, ?_, fun j hj => ?_⟩
      · unfold Awaits
        rw [if_neg hs]
        exact nofun
      · unfold Awaits at hj ⊢
        rw [if_neg hs] at hj
        rw [if_neg hawake]
        exact hj

/-- **Every step** but a stop makes progress. -/
theorem work_passes (hok : QueueOk s) {i : ExitInput} (hi : i ≠ .stop) (h : s.Awaiting n) :
    s.Progress i n (s.step i).2 := by
  cases i with
  | stop => exact absurd rfl hi
  | enqueue pid => exact h.enqueue pid
  | wake => exact h.wake hok
  | work =>
    by_cases hs : s.worker = .sleeping false
    · have hsame : s.work = s := by
        unfold ExitMachine.work
        rw [hs]
        rfl
      show s.Progress .work n s.work
      rw [hsame]
      refine h.idle ?_
      unfold Awaits
      rw [if_pos hs]
      exact nofun
    · exact (h.work hok hs).imp_right fun hnear => ⟨hnear.1, .inl hnear.2⟩

/-- What is waited for comes. -/
theorem Awaiting.comes (h : s.Awaiting n) (hok : QueueOk s) (comes : ExitInput → Prop)
    (hwork : comes .work) (hwake : s.wakeups ≠ 0 → comes .wake) : ∃ i, comes i ∧ s.Awaits i := by
  unfold Awaits
  split
  · next hs => exact ⟨.wake, hwake (hok.wakeup hs (h.contents hok (by rw [inHand, hs]))), rfl⟩
  · exact ⟨.work, hwork, rfl⟩

/-- The worker goes to sleep only when nothing is there. -/
theorem work_sleeping (hset : s.hasNewPid = true) {woken : Bool}
    (h : s.work.worker = .sleeping woken) : s.worker = .sleeping woken := by
  unfold ExitMachine.work at h
  cases hw : s.worker with
  | top =>
    rw [hw] at h
    dsimp only at h
    split at h <;> cases h
  | checking =>
    rw [hw] at h
    dsimp only at h
    split at h <;> cases h
  | preparing =>
    rw [hw] at h
    cases h
  -- with the flag set it goes on
  | prepared woken' =>
    rw [hw, hset] at h
    cases h
  -- it slept before, and was not woken
  | sleeping woken' =>
    rw [hw] at h
    dsimp only at h
    split at h
    · cases h
    · exact hw.symm.trans h
  | awake =>
    rw [hw] at h
    dsimp only at h
    split at h <;> cases h
  | draining =>
    rw [hw] at h
    dsimp only at h
    unfold drain at h
    split at h <;> cases h
  | cleaning pid =>
    rw [hw] at h
    cases h
  | returned =>
    rw [hw] at h
    exact hw.symm.trans h

/-- A worker that is not stopped does not return. -/
theorem work_running (hstop : s.shouldStop = false) (hstays : s.worker ≠ .returned) :
    s.work.shouldStop = false ∧ s.work.worker ≠ .returned := by
  unfold ExitMachine.work
  cases hw : s.worker with
  | top =>
    refine ⟨hstop, ?_⟩
    dsimp only
    rw [hstop]
    exact nofun
  | checking =>
    refine ⟨hstop, ?_⟩
    dsimp only
    split <;> exact nofun
  | prepared woken =>
    refine ⟨hstop, ?_⟩
    dsimp only
    split <;> exact nofun
  | sleeping woken =>
    dsimp only
    split
    · exact ⟨hstop, nofun⟩
    · exact ⟨hstop, hstays⟩
  | awake =>
    refine ⟨hstop, ?_⟩
    dsimp only
    rw [hstop]
    exact nofun
  | draining =>
    dsimp only
    unfold drain
    split <;> exact ⟨hstop, nofun⟩
  | preparing => exact ⟨hstop, nofun⟩
  | cleaning pid => exact ⟨hstop, nofun⟩
  | returned => exact absurd hw hstays

/-- Accepted pids stay accepted. -/
theorem accepted_step (s : ExitMachine) (i : ExitInput) :
    s.accepted <+: (s.step i).2.accepted := by
  cases i with
  | enqueue pid =>
    show s.accepted <+: (s.enqueue pid).2.accepted
    unfold enqueue
    split
    · exact List.prefix_rfl
    · exact List.prefix_append _ _
  | wake =>
    show s.accepted <+: s.wake.accepted
    unfold wake
    split <;> exact List.prefix_rfl
  | stop => exact List.prefix_rfl
  | work =>
    show s.accepted <+: s.work.accepted
    unfold ExitMachine.work
    split <;> try exact List.prefix_rfl
    · split <;> exact List.prefix_rfl
    · unfold drain
      split <;> exact List.prefix_rfl

end ExitMachine

/-! ## All of it -/

/-- What the queue owes to the pids, in every state `s` of a run:

1. what was accepted is what was passed to the cleanup, what the worker has in hand and what is in
   the ring, in this order;
2. an enqueue is rejected exactly when all slots but one are used;
3. outside the lock the flag says whether the ring is empty;
4. the worker does not go to sleep while something is there, and is about to be woken if it comes
   then;
5. in every endless execution in which the worker and the producers take their turns and nobody
   stops the thread, each accepted pid is passed to the cleanup, in its place. -/
structure ExitQueueSound : Prop where
  fifo : ∀ tr s, Run exitMachine anyStep tr s →
    s.accepted = s.passed ++ s.inHand.toList ++ s.queue.contents
  rejected : ∀ tr s, Run exitMachine anyStep tr s → ∀ pid,
    (s.step (.enqueue pid)).1 = some false ↔ s.queue.contents.length = exitQueueSize - 1
  flag : ∀ tr s, Run exitMachine anyStep tr s → (s.hasNewPid = true ↔ s.queue.contents ≠ [])
  sleep : ∀ tr s, Run exitMachine anyStep tr s → s.queue.contents ≠ [] →
    (∀ woken, (s.step .work).2.worker = .sleeping woken → s.worker = .sleeping woken) ∧
    (s.worker = .sleeping false → s.wakeups ≠ 0)
  passed : ∀ E : Transition.Execution exitMachine (fun _ i => i ≠ .stop),
    (∀ k, ∃ k', k ≤ k' ∧ E.input k' = .work) →
    (∀ k, (E.state k).wakeups ≠ 0 → ∃ k', k ≤ k' ∧ E.input k' = .wake) →
    ∀ (k n : Nat) (pid : Pid), (E.state k).accepted[n]? = some pid →
      ∃ k', k ≤ k' ∧ (E.state k').passed[n]? = some pid

/-- Nobody stops it, so the worker goes on. -/
private theorem running {tr : List (Event ExitMachine ExitInput (Option Bool))} {s : ExitMachine}
    (hrun : Run exitMachine (fun _ i => i ≠ .stop) tr s) :
    s.shouldStop = false ∧ s.worker ≠ .returned := by
  refine hrun.invariant (P := fun s => s.shouldStop = false ∧ s.worker ≠ .returned) ?_ ?_
  · rintro s rfl
    exact ⟨rfl, nofun⟩
  · rintro s i ⟨hstop, hstays⟩ hi
    cases i with
    | stop => exact absurd rfl hi
    | enqueue pid =>
      show (s.enqueue pid).2.shouldStop = false ∧ (s.enqueue pid).2.worker ≠ .returned
      unfold ExitMachine.enqueue
      split <;> exact ⟨hstop, hstays⟩
    | wake =>
      show s.wake.shouldStop = false ∧ s.wake.worker ≠ .returned
      unfold ExitMachine.wake
      split
      · exact ⟨hstop, hstays⟩
      · exact ⟨hstop, ExitMachine.WorkerPos.wake_ne_returned hstays⟩
    | work => exact ExitMachine.work_running hstop hstays

/-- A ring that is not full takes the pid. -/
private theorem rejected_iff {s : ExitMachine} (pid : Pid) :
    (s.step (.enqueue pid)).1 = some false ↔ s.queue.contents.length = exitQueueSize - 1 := by
  rw [← RingBuffer.isFull_iff]
  show some (s.enqueue pid).1 = some false ↔ _
  unfold ExitMachine.enqueue
  split <;> simp_all

/-- Every accepted pid has its number for good. -/
private theorem accepted_grows {G : ExitMachine → ExitInput → Prop}
    (E : Transition.Execution exitMachine G)
    {k n : Nat} {pid : Pid} (h : (E.state k).accepted[n]? = some pid) {k' : Nat} (hle : k ≤ k') :
    (E.state k').accepted[n]? = some pid := by
  induction k', hle using Nat.le_induction with
  | base => exact h
  | succ k' hle ih =>
    obtain ⟨tail, htail⟩ := ExitMachine.accepted_step (E.state k') (E.input k')
    have hnext : (E.state (k' + 1)).accepted = (E.state k').accepted ++ tail := by
      rw [E.next k']
      exact htail.symm
    rw [hnext, List.getElem?_append_left (List.getElem?_eq_some_iff.mp ih).1]
    exact ih

/-- **Each accepted pid is passed on**, in its place. -/
private theorem passed_on (E : Transition.Execution exitMachine fun _ i => i ≠ .stop)
    (hwork : ∀ k, ∃ k', k ≤ k' ∧ E.input k' = .work)
    (hwake : ∀ k, (E.state k).wakeups ≠ 0 → ∃ k', k ≤ k' ∧ E.input k' = .wake)
    {k n : Nat} (hn : n < (E.state k).accepted.length) :
    ∃ k', k ≤ k' ∧ n < (E.state k').passed.length := by
  by_cases hdone : n < (E.state k).passed.length
  · exact ⟨k, le_rfl, hdone⟩
  have hstep (s i) (hrun : ∃ tr, Run exitMachine (fun _ i => i ≠ .stop) tr s) (hi : i ≠ .stop)
      (hP : ExitMachine.Awaiting s n) : s.Progress i n (s.step i).2 := by
    obtain ⟨tr, hrun⟩ := hrun
    exact ExitMachine.work_passes (QueueOk.of_run hrun) hi hP
  have hfair (k) (hP : (E.state k).Awaiting n) :
      ∃ k', k ≤ k' ∧ (E.state k).Awaits (E.input k') := by
    obtain ⟨tr, hrun⟩ := E.run k
    obtain ⟨i, ⟨k', hle, rfl⟩, hi⟩ :=
      hP.comes (QueueOk.of_run hrun) (fun i => ∃ k', k ≤ k' ∧ E.input k' = i) (hwork k) (hwake k)
    exact ⟨k', hle, hi⟩
  obtain ⟨tr, hrun⟩ := E.run k
  obtain ⟨hstop, hstays⟩ := running hrun
  exact E.leadsTo (fun s => s.Awaiting n) (fun s => n < s.passed.length) (fun s => s.distance n)
    (fun s => s.Awaits) hstep hfair ⟨hn, Nat.le_of_not_lt hdone, hstop, hstays⟩

/-- **The exit queue.** -/
theorem exit_queue : ExitQueueSound where
  fifo _ _ hrun := (QueueOk.of_run hrun).fifo
  rejected _ _ _ pid := rejected_iff pid
  flag _ _ hrun := (QueueOk.of_run hrun).flag
  sleep _ s hrun hne := by
    have hok := QueueOk.of_run hrun
    exact ⟨fun woken hs => ExitMachine.work_sleeping (hok.flag.mpr hne) hs,
      fun hs => hok.wakeup hs hne⟩
  passed E hwork hwake k n pid hpid := by
    obtain ⟨k', hle, hlt⟩ := passed_on E hwork hwake (List.getElem?_eq_some_iff.mp hpid).1
    refine ⟨k', hle, ?_⟩
    -- what was passed on is where the accepted pids begin
    obtain ⟨tr, hrun⟩ := E.run k'
    have hfifo := (QueueOk.of_run hrun).fifo
    rw [List.append_assoc] at hfifo
    rw [← accepted_grows E hpid hle, hfifo, List.getElem?_append_left hlt]

/-- A pid, and then the worker and the producer by turns. -/
private def oneExit : Nat → ExitInput
  | 0 => .enqueue 7
  | k + 1 => if k % 2 = 0 then .work else .wake

/-- One process exits, and is cleaned up. -/
theorem exit_queue_one : ∃ E : Transition.Execution exitMachine (fun _ i => i ≠ .stop),
    E.input 0 = .enqueue 7 ∧ ∃ k, (E.state k).passed[0]? = some 7 := by
  have hstop (s : ExitMachine) (k : Nat) : oneExit k ≠ .stop := by
    unfold oneExit
    split
    · nofun
    · split <;> nofun
  let E : Transition.Execution exitMachine (fun _ i => i ≠ .stop) :=
    .ofInputs .loaded oneExit rfl hstop
  have hwork (k : Nat) : ∃ k', k ≤ k' ∧ E.input k' = .work :=
    ⟨2 * k + 1, by omega, if_pos (Nat.mul_mod_right 2 k)⟩
  have hwake (k : Nat) : ∃ k', k ≤ k' ∧ E.input k' = .wake :=
    ⟨2 * k + 2, by omega, if_neg (by omega)⟩
  have haccepted : (E.state 1).accepted = [7] := by
    show (ExitMachine.loaded.enqueue 7).2.accepted = [7]
    unfold ExitMachine.enqueue
    split
    · next hfull =>
      have hlen := RingBuffer.isFull_iff.mp hfull
      rw [show ExitMachine.loaded.queue.contents = [] from RingBuffer.contents_empty _ _] at hlen
      cases hlen
    · rfl
  obtain ⟨k, -, hk⟩ := exit_queue.passed E hwork (fun k _ => hwake k) 1 0 7 (by rw [haccepted]; rfl)
  exact ⟨E, rfl, k, hk⟩

end Agnocast
