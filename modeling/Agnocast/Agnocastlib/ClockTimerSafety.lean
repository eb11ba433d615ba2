import Agnocast.Agnocastlib.ClockTimer
import Mathlib.Algebra.Order.Ring.Int
import Mathlib.Data.List.Perm.Subperm
import Mathlib.Tactic.Ring

/-!
# The library — when a timer on simulated time fires

`handle` tests whether the timer is ready, but the next call time moves on only when the
executable runs. A second clock event in between queues a second executable for the same
deadline.

* `ClockOk`              — the invariant while the timer is only found ready when settled: the
  next call time is on the grid of the timer and every execution replaces another point of it.
* `never_early`          — no callback is called before its time, and their number is bounded.
* `early_after_two_jumps` — what happens otherwise.
-/

namespace Agnocast

/-- `n` is the first deadline and a number of periods. -/
def OnGrid (first periodNs n : Int) : Prop := ∃ k : Nat, n = first + k * periodNs

theorem advanceCallTime_spec {first nextCallTimeNs periodNs : Int} (nowNs : Int) (hpos : 0 < periodNs)
    (hgrid : OnGrid first periodNs nextCallTimeNs) :
    nextCallTimeNs < advanceCallTime nextCallTimeNs periodNs nowNs ∧
      OnGrid first periodNs (advanceCallTime nextCallTimeNs periodNs nowNs) := by
  obtain ⟨k, rfl⟩ := hgrid
  unfold advanceCallTime
  simp only
  split
  next hlate =>
    rw [if_neg hpos.ne']
    -- the rounded-up number of periods is positive
    have hnonneg : 0 ≤ (nowNs - (first + k * periodNs + periodNs) - 1) / periodNs :=
      Int.ediv_nonneg (by omega) hpos.le
    obtain ⟨n, hn⟩ := Int.eq_ofNat_of_zero_le hnonneg
    rw [hn]
    have hmore : 0 < (1 + (n : Int)) * periodNs := mul_pos (by omega) hpos
    exact ⟨by omega, k + 2 + n, by push_cast; ring⟩
  · exact ⟨by omega, k + 1, by push_cast; ring⟩

/-- Different points of the grid up to `t` are no more than fit into the time up to `t`. -/
theorem length_le_of_onGrid {first periodNs t : Int} (hpos : 0 < periodNs) (hfirst : first ≤ t)
    {l : List Int} (hnd : l.Nodup) (hl : ∀ d ∈ l, OnGrid first periodNs d ∧ d ≤ t) :
    (l.length : Int) ≤ 1 + (t - first) / periodNs := by
  obtain ⟨n, hn⟩ := Int.eq_ofNat_of_zero_le (Int.ediv_nonneg (sub_nonneg.mpr hfirst) hpos.le)
  have hsub : l ⊆ (List.range (n + 1)).map fun k : Nat => first + k * periodNs := by
    intro d hd
    obtain ⟨⟨k, rfl⟩, hle⟩ := hl d hd
    have hk : (k : Int) ≤ (t - first) / periodNs :=
      (Int.le_ediv_iff_mul_le hpos).mpr (by omega)
    exact List.mem_map.mpr ⟨k, List.mem_range.mpr (by omega), rfl⟩
  have hlen := (hnd.subperm hsub).length_le
  rw [List.length_map, List.length_range] at hlen
  rw [hn]
  omega

/-! ## The invariant -/

/-- What a post-jump callback has loaded is still so: the clock waits for it, and the last call
was not later. -/
def PostJump.Ok (nowNs : Int) : PostJump → Prop
  | .entered => True
  | .clocked n => n = nowNs
  | .lastLoaded n last => n = nowNs ∧ last ≤ nowNs
  | .nextLoaded n last _ => n = nowNs ∧ last ≤ nowNs

/-- What holds where a job stands: from the test to the store the timer is due. -/
def ClockJob.Ok (nowNs nextCallTimeNs : Int) : ClockJob → Prop
  | .dispatched | .found | .drained | .returned => True
  | .clocked n => n ≤ nowNs
  | .ready | .queued | .taken | .running => nextCallTimeNs ≤ nowNs
  | .timed n | .lastStored n => nextCallTimeNs ≤ n ∧ n ≤ nowNs
  | .nextLoaded n next => next = nextCallTimeNs ∧ nextCallTimeNs ≤ n ∧ n ≤ nowNs
  | .advanced due => due ≤ nowNs

theorem ClockJob.Ok.mono {nowNs nowNs' next : Int} {job : ClockJob} (h : job.Ok nowNs next)
    (hle : nowNs ≤ nowNs') : job.Ok nowNs' next := by
  cases job <;> simp only [ClockJob.Ok] at h ⊢ <;> omega

/-- Only unsettled executions depend on the next call time. -/
theorem ClockJob.Ok.settled {nowNs next next' : Int} {job : ClockJob} (h : job.Ok nowNs next)
    (hjob : job.unsettled = false) : job.Ok nowNs next' := by
  cases job <;> first | exact h | cases hjob

/-- The next call times that were replaced, by callbacks that were called or are about to be. -/
def dues (past : List Execution) (x : ClockTimer) : List Int :=
  past.map Execution.due ++ x.jobs.filterMap ClockJob.due?

/-- The invariant; `first` is the first deadline, and `past` are the executions so far. -/
structure ClockOk (first periodNs : Int) (past : List Execution) (x : ClockTimer) : Prop where
  period : x.periodNs = periodNs
  grid : OnGrid first periodNs x.nextCallTimeNs
  last : x.lastCallTimeNs ≤ x.nowNs
  postJump : ∀ pc, x.postJump = some pc → pc.Ok x.nowNs
  unsettled : x.jobs.countP ClockJob.unsettled ≤ 1
  jobs : ∀ job ∈ x.jobs, job.Ok x.nowNs x.nextCallTimeNs
  nodup : (dues past x).Nodup
  below : ∀ d ∈ dues past x, d < x.nextCallTimeNs ∧ OnGrid first periodNs d
  past : ∀ e ∈ past, e.due ≤ e.clockNs ∧ e.clockNs ≤ x.nowNs

variable {first periodNs : Int} {past : List Execution} {x y : ClockTimer}

/-- The fields that the invariant does not read, and the last call time, may change. -/
theorem ClockOk.of_eq (h : ClockOk first periodNs past x) (hnow : y.nowNs = x.nowNs)
    (hnext : y.nextCallTimeNs = x.nextCallTimeNs) (hperiod : y.periodNs = x.periodNs)
    (hjump : y.postJump = x.postJump) (hjobs : y.jobs = x.jobs)
    (hlast : y.lastCallTimeNs ≤ x.nowNs) : ClockOk first periodNs past y := by
  have hdues : dues past y = dues past x := by rw [dues, dues, hjobs]
  constructor
  · rw [hperiod, h.period]
  · rw [hnext]
    exact h.grid
  · rw [hnow]
    exact hlast
  · rw [hjump, hnow]
    exact h.postJump
  · rw [hjobs]
    exact h.unsettled
  · rw [hjobs, hnow, hnext]
    exact h.jobs
  · rw [hdues]
    exact h.nodup
  · rw [hdues, hnext]
    exact h.below
  · rw [hnow]
    exact h.past

variable (past) in
/-- The replaced call times after a job has moved. -/
theorem dues_move {job : ClockJob} (hjob : job ∈ x.jobs) (bs : List ClockJob) :
    (job.due?.toList ++ dues past (x.move job bs)).Perm
      (bs.filterMap ClockJob.due? ++ dues past x) := by
  have hperm := Bag.filterMap_replace ClockJob.due? hjob bs
  have hmid : ∀ l l' l'' : List Int, (l ++ (l' ++ l'')).Perm (l' ++ (l ++ l'')) := fun l l' l'' => by
    rw [← List.append_assoc, ← List.append_assoc]
    exact List.perm_append_comm.append_right l''
  exact (hmid _ _ _).trans ((hperm.append_left _).trans (hmid _ _ _))

/-- A job moves on without touching the next call time or calling the callback. -/
theorem ClockOk.moveTo (h : ClockOk first periodNs past x) {job : ClockJob} (hjob : job ∈ x.jobs)
    {bs : List ClockJob} (hbs : ∀ b ∈ bs, b.Ok x.nowNs x.nextCallTimeNs)
    (hcount : (Bag.replace x.jobs job bs).countP ClockJob.unsettled ≤ 1)
    (hdues : bs.filterMap ClockJob.due? = job.due?.toList) :
    ClockOk first periodNs past (x.move job bs) := by
  have hperm : (dues past (x.move job bs)).Perm (dues past x) := by
    have := dues_move past hjob bs
    rw [hdues] at this
    exact (List.perm_append_left_iff _).mp this
  exact ⟨h.period, h.grid, h.last, h.postJump, hcount,
    fun b hb => (Bag.mem_replace hb).elim (hbs b) (h.jobs b), hperm.nodup_iff.mpr h.nodup,
    fun d hd => h.below d (hperm.mem_iff.mp hd), h.past⟩

/-- The same for a move that leaves no more unsettled than there were. -/
theorem ClockOk.move (h : ClockOk first periodNs past x) {job : ClockJob} (hjob : job ∈ x.jobs)
    (bs : List ClockJob) (hbs : ∀ b ∈ bs, b.Ok x.nowNs x.nextCallTimeNs)
    (hcount : bs.countP ClockJob.unsettled ≤ if job.unsettled then 1 else 0)
    (hdues : bs.filterMap ClockJob.due? = job.due?.toList) :
    ClockOk first periodNs past (x.move job bs) := by
  refine h.moveTo hjob hbs ?_ hdues
  have hone := h.unsettled
  have := Bag.countP_replace ClockJob.unsettled hjob bs
  omega

/-- The store of the next call time: it replaces a time that the clock has reached. -/
theorem ClockOk.store (hpos : 0 < periodNs) (h : ClockOk first periodNs past x) {n next : Int}
    (hjob : .nextLoaded n next ∈ x.jobs) :
    ClockOk first periodNs past
      { x.move (.nextLoaded n next) [.advanced x.nextCallTimeNs] with
        nextCallTimeNs := advanceCallTime next x.periodNs n } := by
  obtain ⟨rfl, hdue, hnow⟩ := h.jobs _ hjob
  obtain ⟨hlt, hgrid⟩ := advanceCallTime_spec n hpos h.grid
  rw [h.period]
  have hperm : (dues past (x.move (.nextLoaded n x.nextCallTimeNs) [.advanced x.nextCallTimeNs])).Perm
      (x.nextCallTimeNs :: dues past x) := dues_move past hjob _
  -- nothing else was unsettled, so nothing is
  have hnone : (Bag.replace x.jobs (.nextLoaded n x.nextCallTimeNs)
      [.advanced x.nextCallTimeNs]).countP ClockJob.unsettled = 0 := by
    have hone := h.unsettled
    have hcount := Bag.countP_replace ClockJob.unsettled hjob [.advanced x.nextCallTimeNs]
    have hnew : [ClockJob.advanced x.nextCallTimeNs].countP ClockJob.unsettled = 0 := rfl
    have hold : (ClockJob.nextLoaded n x.nextCallTimeNs).unsettled = true := rfl
    rw [hnew, if_pos hold] at hcount
    omega
  refine ⟨h.period, hgrid, h.last, h.postJump, hnone.le.trans (by decide), fun b hb => ?_,
    hperm.nodup_iff.mpr (List.nodup_cons.mpr ⟨fun hmem => (h.below _ hmem).1.false, h.nodup⟩),
    fun d hd => ?_, h.past⟩
  · have hsettled : b.unsettled = false := by
      simpa using List.countP_eq_zero.mp hnone b hb
    rcases Bag.mem_replace hb with hb | hb
    · obtain rfl := List.mem_singleton.mp hb
      exact le_trans hdue hnow
    · exact (h.jobs b hb).settled hsettled
  · rcases List.mem_cons.mp (hperm.mem_iff.mp hd) with rfl | hd
    · exact ⟨hlt, h.grid⟩
    · exact ⟨(h.below d hd).1.trans hlt, (h.below d hd).2⟩

/-- The call of the callback: its due time leaves the job and is recorded. -/
theorem ClockOk.call (h : ClockOk first periodNs past x) {due : Int}
    (hjob : .advanced due ∈ x.jobs) :
    ClockOk first periodNs (⟨x.nowNs, due⟩ :: past) (x.move (.advanced due) [.returned]) := by
  have hperm : (dues (⟨x.nowNs, due⟩ :: past) (x.move (.advanced due) [.returned])).Perm
      (dues past x) := dues_move past hjob [.returned]
  have hcount := Bag.countP_replace ClockJob.unsettled hjob [.returned]
  refine ⟨h.period, h.grid, h.last, h.postJump, ?_, fun b hb => ?_, hperm.nodup_iff.mpr h.nodup,
    fun d hd => h.below d (hperm.mem_iff.mp hd), fun e he => ?_⟩
  · have hnew : [ClockJob.returned].countP ClockJob.unsettled = 0 := rfl
    rw [hnew, Nat.zero_add] at hcount
    exact le_trans (Nat.le_add_right ..) (hcount.le.trans h.unsettled)
  · rcases Bag.mem_replace hb with hb | hb
    · obtain rfl := List.mem_singleton.mp hb
      trivial
    · exact h.jobs b hb
  · rcases List.mem_cons.mp he with rfl | he
    · exact ⟨h.jobs _ hjob, le_rfl⟩
    · exact h.past e he

theorem ClockOk.runJob (hpos : 0 < periodNs) (h : ClockOk first periodNs past x) {job : ClockJob}
    (hjob : job ∈ x.jobs) (hready : ReadyWhenSettled x (.run job)) :
    ClockOk first periodNs ((x.runJob job).1.toList ++ past) (x.runJob job).2 := by
  have hok := h.jobs _ hjob
  cases job with
  | dispatched =>
    simp only [ClockTimer.runJob]
    split
    · exact h.move hjob _ (by simp) (Nat.zero_le _) rfl
    · exact h.move hjob _ (by simp [ClockJob.Ok]) (Nat.zero_le _) rfl
  | found =>
    simp only [ClockTimer.runJob]
    split
    · exact h.move hjob _ (by simp) (Nat.zero_le _) rfl
    · exact (h.move hjob [.drained] (by simp [ClockJob.Ok]) (Nat.zero_le _) rfl).of_eq
        rfl rfl rfl rfl rfl h.last
  | drained => exact h.move hjob _ (by simp [ClockJob.Ok]) (Nat.zero_le _) rfl
  | clocked n =>
    simp only [ClockTimer.runJob]
    split
    · exact h.move hjob _ (by simp) (Nat.zero_le _) rfl
    next hdue =>
      -- found ready: the guard says that nothing else is unsettled
      have hzero : x.jobs.countP ClockJob.unsettled = 0 :=
        List.countP_eq_zero.mpr fun b hb => by simp [hready (not_lt.mp hdue) b hb]
      have hcount := Bag.countP_replace ClockJob.unsettled hjob [.ready]
      rw [hzero] at hcount
      refine h.moveTo hjob (fun b hb => ?_) (le_trans (Nat.le_add_right ..) hcount.le) rfl
      obtain rfl := List.mem_singleton.mp hb
      exact le_trans (not_lt.mp hdue) hok
  | ready => exact h.move hjob _ (by simpa [ClockJob.Ok] using hok) le_rfl rfl
  | queued =>
    simp only [ClockTimer.runJob]
    split
    · exact (h.move hjob [.taken] (by simpa [ClockJob.Ok] using hok) le_rfl rfl).of_eq
        rfl rfl rfl rfl rfl h.last
    · exact h
  | taken =>
    simp only [ClockTimer.runJob]
    split
    · exact h.move hjob _ (by simp [ClockJob.Ok]) (Nat.zero_le _) rfl
    · exact h.move hjob _ (by simpa [ClockJob.Ok] using hok) le_rfl rfl
  | running => exact h.move hjob _ (by simpa [ClockJob.Ok] using hok) le_rfl rfl
  | timed n =>
    exact (h.move hjob [.lastStored n] (by simpa [ClockJob.Ok] using hok) le_rfl rfl).of_eq
      rfl rfl rfl rfl rfl hok.2
  | lastStored n => exact h.move hjob _ (by simpa [ClockJob.Ok] using hok) le_rfl rfl
  | nextLoaded n next => exact h.store hpos hjob
  | advanced due => exact h.call hjob
  | returned =>
    exact (h.move hjob [] (by simp) (Nat.zero_le _) rfl).of_eq rfl rfl rfl rfl rfl h.last

/-- The post-jump callback only writes the eventfd: the clock has gone forward. -/
theorem ClockOk.postTimeJump (h : ClockOk first periodNs past x) {pc : PostJump}
    (hpc : x.postJump = some pc) : ClockOk first periodNs past (x.postTimeJump pc) := by
  have hpcOk := h.postJump pc hpc
  have hset : ∀ {pc' : Option PostJump} {fd : Nat}, (∀ q, pc' = some q → q.Ok x.nowNs) →
      ClockOk first periodNs past { x with postJump := pc', clockEventfd := fd } := fun hok =>
    ⟨h.period, h.grid, h.last, hok, h.unsettled, h.jobs, h.nodup, h.below, h.past⟩
  cases pc with
  | entered => exact hset fun q hq => by cases hq; rfl
  | clocked n => exact hset fun q hq => by cases hq; exact ⟨hpcOk, h.last⟩
  | lastLoaded n last => exact hset fun q hq => by cases hq; exact hpcOk
  | nextLoaded n last next =>
    obtain ⟨rfl, hlast⟩ := hpcOk
    simp only [ClockTimer.postTimeJump]
    split
    · exact hset fun q hq => by cases hq
    · -- the clock has not gone back behind the last call
      rw [if_neg (not_lt.mpr hlast)]
      exact hset fun q hq => by cases hq

theorem ClockOk.step (hpos : 0 < periodNs) (h : ClockOk first periodNs past x) {i : ClockInput}
    (hready : ReadyWhenSettled x i) :
    ClockOk first periodNs ((x.step i).1.toList ++ past) (x.step i).2 := by
  cases i with
  | jump n =>
    simp only [ClockTimer.step]
    split
    next hforward =>
      -- the clock goes forward only
      have hle : x.nowNs ≤ n := hforward.1.le
      exact ⟨h.period, h.grid, h.last.trans hle, fun q hq => by cases hq; trivial, h.unsettled,
        fun job hjob => (h.jobs job hjob).mono hle, h.nodup, h.below,
        fun e he => ⟨(h.past e he).1, (h.past e he).2.trans hle⟩⟩
    · exact h
  | postJump =>
    simp only [ClockTimer.step]
    split
    · exact h
    next pc hpc => exact h.postTimeJump hpc
  | dispatch =>
    simp only [ClockTimer.step]
    split
    · exact ⟨h.period, h.grid, h.last, h.postJump, by simpa [ClockJob.unsettled] using h.unsettled,
        List.forall_mem_cons.mpr ⟨trivial, h.jobs⟩, h.nodup, h.below, h.past⟩
    · exact h
  | run job =>
    simp only [ClockTimer.step]
    split
    next hjob => exact h.runJob hpos hjob hready
    · exact h
  | takeOther =>
    simp only [ClockTimer.step]
    split
    · exact h.of_eq rfl rfl rfl rfl rfl h.last
    · exact h
  | finishOther =>
    simp only [ClockTimer.step]
    split
    · exact h.of_eq rfl rfl rfl rfl rfl h.last
    · exact h
  | cancel => exact h.of_eq rfl rfl rfl rfl rfl h.last
  | destroy => exact h.of_eq rfl rfl rfl rfl rfl h.last

theorem executions_cons (ev : ClockEvent) (tr : List ClockEvent) :
    executions (ev :: tr) = ev.output.toList ++ executions tr := by
  unfold executions
  rw [List.filterMap_cons]
  cases ev.output <;> rfl

theorem run_clockOk {nowNs : Int} {exclusive : Bool} (hpos : 0 < periodNs) {tr : List ClockEvent}
    (hrun : Transition.Run (clockTimer nowNs periodNs exclusive) ReadyWhenSettled tr x) :
    ClockOk (nowNs + periodNs) periodNs (executions tr) x := by
  refine hrun.history (P := fun tr x => ClockOk _ _ (executions tr) x) ?_ fun tr s i _ hok hready => ?_
  · rintro s rfl
    exact ⟨rfl, ⟨0, by simp [registerTimerInfo]⟩, le_rfl, fun q hq => (by cases hq), Nat.zero_le _,
      fun job hjob => (by cases hjob), .nil, fun d hd => (by cases hd), fun e he => (by cases he)⟩
  · rw [executions_cons]
    exact hok.step hpos hready

/-! ## When callbacks are called -/

/-- Every callback is called when the clock has reached the next call time that the previous
execution had set. -/
def NeverEarly (tr : List ClockEvent) : Prop := ∀ e ∈ executions tr, e.due ≤ e.clockNs

/-- The callbacks that were called up to a clock time. -/
def calledBy (t : Int) (tr : List ClockEvent) : Nat := (executions tr).countP fun e => e.clockNs ≤ t

/-- At most one call at the first deadline and one more for every period since. -/
def AtMostOncePerPeriod (first periodNs : Int) (tr : List ClockEvent) : Prop :=
  ∀ t, first ≤ t → (calledBy t tr : Int) ≤ 1 + (t - first) / periodNs

/-- **Never early.** As long as the timer is only found ready when every execution that was
found ready before has stored the next call time, no callback is called before its time, and
there is at most one call a period. -/
theorem never_early {nowNs : Int} {exclusive : Bool} (hpos : 0 < periodNs) {tr : List ClockEvent}
    (hrun : Transition.Run (clockTimer nowNs periodNs exclusive) ReadyWhenSettled tr x) :
    NeverEarly tr ∧ AtMostOncePerPeriod (nowNs + periodNs) periodNs tr := by
  have hok := run_clockOk hpos hrun
  refine ⟨fun e he => (hok.past e he).1, fun t ht => ?_⟩
  -- the calls up to `t` replaced different points of the grid up to `t`
  have hsub : (((executions tr).filter fun e => e.clockNs ≤ t).map Execution.due).Sublist
      (dues (executions tr) x) :=
    ((List.filter_sublist).map _).trans (List.sublist_append_left _ _)
  have hlen := length_le_of_onGrid hpos ht (hsub.nodup hok.nodup) fun d hd => by
    obtain ⟨e, he, rfl⟩ := List.mem_map.mp hd
    obtain ⟨hmem, hclock⟩ := List.mem_filter.mp he
    exact ⟨(hok.below _ (hsub.subset hd)).2,
      (hok.past e hmem).1.trans (by simpa using hclock)⟩
  rwa [List.length_map, ← List.countP_eq_length_filter] at hlen

/-- A clock event from `epoll_wait` to the ready list, at a clock that reads `n`. -/
def handleReady (n : Int) : List ClockInput :=
  [.dispatch, .run .dispatched, .run .found, .run .drained, .run (.clocked n), .run .ready]

/-- An executable from the ready list to its end, at a clock that reads `n` with the next call
time `next`. -/
def executeTimer (n next : Int) : List ClockInput :=
  [.run .queued, .run .taken, .run .running, .run (.timed n), .run (.lastStored n),
    .run (.nextLoaded n next), .run (.advanced next), .run .returned]

/-- A jump and its callback. -/
def jumpTo (n : Int) : List ClockInput := [.jump n, .postJump, .postJump, .postJump, .postJump]

/-- A timer with a period of 10 fires on time, and late when the clock jumps over a deadline. -/
theorem never_early_of_two :
    let inputs := jumpTo 10 ++ handleReady 10 ++ executeTimer 10 10 ++ jumpTo 25 ++ handleReady 25 ++
      executeTimer 25 20
    let tr := ((clockTimer 0 10 true).exec (registerTimerInfo 0 10 true) [] inputs).1
    NeverEarly tr ∧ AtMostOncePerPeriod 10 10 tr ∧ executions tr = [⟨25, 20⟩, ⟨10, 10⟩] := by
  intro inputs tr
  have hrun : Transition.Run (clockTimer 0 10 true) ReadyWhenSettled tr _ :=
    (Transition.Run.init rfl).exec (show Transition.System.Guarded _ _ _ inputs by decide +kernel)
  have h := never_early (by decide) hrun
  exact ⟨h.1, h.2, by decide +kernel⟩

/-- **What a busy group does**: while another callback of the group runs, two jumps to 10 and to
11 queue an executable each. The first moves the next call time to 20; the second calls the
callback again, at 11. -/
theorem early_after_two_jumps : ∃ tr x,
    Transition.Run (clockTimer 0 10 true) Transition.anyStep tr x ∧
      executions tr = [⟨11, 20⟩, ⟨11, 10⟩] ∧ ¬ NeverEarly tr ∧ ¬ AtMostOncePerPeriod 10 10 tr := by
  let inputs := [.takeOther] ++ jumpTo 10 ++ handleReady 10 ++ jumpTo 11 ++ handleReady 11 ++
    [.finishOther] ++ executeTimer 11 10 ++ executeTimer 11 20
  have hrun := (Transition.Run.init (T := clockTimer 0 10 true) (G := Transition.anyStep) rfl).exec
    (Transition.System.guarded_anyStep _ _ inputs)
  have hexec : executions ((clockTimer 0 10 true).exec (registerTimerInfo 0 10 true) [] inputs).1 =
      [⟨11, 20⟩, ⟨11, 10⟩] := by decide +kernel
  refine ⟨_, _, hrun, hexec, fun h => ?_, fun h => ?_⟩
  · have hearly := h ⟨11, 20⟩ (by rw [hexec]; exact List.mem_cons_self)
    exact absurd hearly (by decide)
  · have hmany := h 11 (by decide)
    unfold calledBy at hmany
    rw [hexec] at hmany
    exact absurd hmany (by decide)

end Agnocast
