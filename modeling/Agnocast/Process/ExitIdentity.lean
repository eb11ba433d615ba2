import Agnocast.Kmod.ExitWorker
import Agnocast.Process.ExitCleanup

/-!
# The processes — who is cleaned up

The exit queue carries pids, and the cleanup looks the pid up again. Between the exit
of a process and the cleanup its pid may be given to another one, and what the cleanup
then finds under the pid is the registration of a process that lives.

* `Identified`           — the invariant of runs in which a pid is registered only when it
  waits for no cleanup: whatever waits belongs to a process that has exited.
* `run_cleanup_sound`    — in such runs the cleanup takes nothing from a live process.
* `cleanup_hits_the_living` — a run in which it does.
-/

namespace Agnocast

variable {h : Host}

/-- An event of the machine. -/
abbrev HostEvent := Transition.Event Host HostInput (Option Reply)

namespace Host

/-! ## Processes -/

theorem runs_update (tasks : Pid → Option Task) (pid q : Pid) (t : Option Task) :
    (Function.update tasks pid t q).bind Task.runningNumber =
      if q = pid then t.bind Task.runningNumber else (tasks q).bind Task.runningNumber := by
  rw [Function.update_apply]
  split <;> rfl

/-- Time passes: no process of `h` gets another pid in `h'`. -/
structure Ages (h h' : Host) : Prop where
  started : h.started ≤ h'.started
  runs : ∀ pid number, number < h.started → h'.runs pid = some number →
    h.runs pid = some number

theorem Ages.refl (h : Host) : h.Ages h := ⟨le_refl _, fun _ _ _ hrun => hrun⟩

/-- Who has exited stays so. -/
theorem Exited.ages {h' : Host} {number : Nat} (hage : h.Ages h') (hexit : h.Exited number) :
    h'.Exited number :=
  ⟨Nat.lt_of_lt_of_le hexit.1 hage.started,
    fun pid hrun => hexit.2 pid (hage.runs pid number hexit.1 hrun)⟩

/-- The running processes have numbers, and each has its own. -/
structure Numbered (h : Host) : Prop where
  lt : ∀ pid number, h.runs pid = some number → number < h.started
  unique : ∀ pid q number, h.runs pid = some number → h.runs q = some number → pid = q

theorem Numbered.ages {h' : Host} (hn : h.Numbered)
    (hruns : ∀ pid number, h'.runs pid = some number → h.runs pid = some number)
    (hstarted : h.started ≤ h'.started) : h.Ages h' ∧ h'.Numbered :=
  ⟨⟨hstarted, fun pid number _ hrun => hruns pid number hrun⟩,
    fun pid number hrun => Nat.lt_of_lt_of_le (hn.lt pid number (hruns pid number hrun)) hstarted,
    fun pid q number hp hq => hn.unique pid q number (hruns pid number hp) (hruns q number hq)⟩

/-- What a step does to the processes: at most one starts, under a free pid. -/
theorem Numbered.step (hn : h.Numbered) (i : HostInput) :
    h.Ages (h.step i).2 ∧ (h.step i).2.Numbered := by
  have hsame : ∀ h' : Host, h'.tasks = h.tasks → h'.started = h.started →
      h.Ages h' ∧ h'.Numbered := by
    intro h' htasks hstarted
    refine hn.ages (fun pid number hrun => ?_) (le_of_eq hstarted.symm)
    unfold runs at hrun ⊢
    rwa [htasks] at hrun
  cases i with
  | start pid =>
    show h.Ages (h.start pid) ∧ (h.start pid).Numbered
    unfold start
    split
    · exact hsame h rfl rfl
    next hfree =>
    have hruns := fun q => runs_update h.tasks pid q (some (.running h.started))
    -- the new number is above every number in use
    refine ⟨⟨Nat.le_succ _, fun q number hlt hrun => ?_⟩, fun q number hrun => ?_,
      fun q q' number hq hq' => ?_⟩
    · unfold runs at hrun
      rw [hruns] at hrun
      split at hrun
      · cases hrun
        exact absurd hlt (lt_irrefl _)
      · exact hrun
    · unfold runs at hrun
      rw [hruns] at hrun
      split at hrun
      · cases hrun
        exact Nat.lt_succ_self _
      · exact Nat.lt_succ_of_lt (hn.lt q number hrun)
    · unfold runs at hq hq'
      rw [hruns] at hq hq'
      split at hq <;> split at hq'
      · next heq heq' => rw [heq, heq']
      · cases hq
        exact absurd (hn.lt q' _ hq') (lt_irrefl _)
      · cases hq'
        exact absurd (hn.lt q _ hq) (lt_irrefl _)
      · exact hn.unique q q' number hq hq'
  | ioctl i =>
    show h.Ages (h.ioctl i).2 ∧ (h.ioctl i).2.Numbered
    unfold ioctl
    split <;> exact hsame _ rfl rfl
  | exit pid =>
    show h.Ages (h.exit pid) ∧ (h.exit pid).Numbered
    unfold exit
    split
    · refine hn.ages (fun q number hrun => ?_) (le_refl _)
      unfold runs at hrun
      rw [runs_update] at hrun
      split at hrun
      · cases hrun
      · exact hrun
    · exact hsame h rfl rfl
  | release pid =>
    show h.Ages (h.release pid) ∧ (h.release pid).Numbered
    unfold release
    split
    · refine hn.ages (fun q number hrun => ?_) (le_refl _)
      unfold runs at hrun
      rw [runs_update] at hrun
      split at hrun
      · cases hrun
      · exact hrun
    · exact hsame h rfl rfl
  | pop =>
    show h.Ages h.pop ∧ h.pop.Numbered
    unfold pop
    split <;> exact hsame _ rfl rfl
  | cleanup =>
    show h.Ages h.cleanup ∧ h.cleanup.Numbered
    unfold cleanup
    split <;> exact hsame _ rfl rfl

/-! ## Registrations -/

/-- The pid waits for its cleanup. -/
def Waiting (h : Host) (pid : Pid) : Prop := pid ∈ h.queue.contents ∨ h.popped = some pid

/-- **Where a registration comes from**, in a call that is no cleanup. -/
theorem registration_of_call {σ : Kmod} (hwf : σ.WellFormed) {i : Input}
    (hexit : ∀ pid, i.call ≠ .processExitCleanup pid) {q : ProcessInfo}
    (hq : q ∈ (Agnocast.step σ i).2.procInfoHtable) :
    (∃ p ∈ σ.procInfoHtable, p.globalPid = q.globalPid ∧ p.exited = q.exited) ∨
    ((∃ ipcNs raw domainId, i.call = .addProcess q.globalPid ipcNs raw domainId) ∧
      findProcessInfo σ q.globalPid = none ∧ q.exited = false) := by
  have hchange := step_procs hwf i
  generalize (Agnocast.step σ i).2.procInfoHtable = procs at hchange hq
  generalize (Agnocast.step σ i).2.mem = m at hchange
  cases hchange with
  | same => exact .inl ⟨q, hq, rfl, rfl⟩
  | registered hcall hrole hadmits hfree =>
    rcases HTable.mem_hashAdd.mp hq with rfl | hold
    · exact .inr ⟨⟨_, _, _, hcall⟩, hadmits.fresh, rfl⟩
    · exact .inl ⟨q, hold, rfl, rfl⟩
  | exited hcall => exact absurd hcall (hexit _)
  | drained => exact .inl ⟨q, (HTable.mem_hashDel.mp hq).1, rfl, rfl⟩
  | deregistered => exact .inl ⟨q, (HTable.mem_hashDel.mp hq).1, rfl, rfl⟩
  | demoted =>
    obtain ⟨p, hp, rfl⟩ := HTable.mem_modify.mp hq
    exact .inl ⟨p, hp, by split <;> rfl, by split <;> rfl⟩
  | reported => exact .inl ⟨q, hq, rfl, rfl⟩

/-- The cleanup marks registrations of its own pid only, and makes none. -/
theorem registration_of_cleanup {σ : Kmod} {pid : Pid} {q : ProcessInfo}
    (hq : q ∈ (processExitCleanup σ pid).procInfoHtable) :
    ∃ p ∈ σ.procInfoHtable, p.globalPid = q.globalPid ∧
      (q.exited = true → p.exited = true ∨ p.globalPid = pid) := by
  cases hp : findProcessInfo σ pid with
  | none =>
    rw [processExitCleanup_unknown hp] at hq
    exact ⟨q, hq, rfl, .inl⟩
  | some p₀ =>
    rw [(processExitCleanup_world hp).1] at hq
    unfold exitedProcs markExited at hq
    split at hq
    · exact ⟨q, (HTable.mem_hashDel.mp hq).1, rfl, .inl⟩
    · obtain ⟨p, hpmem, rfl⟩ := HTable.mem_modify.mp hq
      by_cases heq : p.globalPid = p₀.globalPid
      · exact ⟨p, hpmem, by split <;> rfl, fun _ => .inr (heq.trans (findProcessInfo_mem hp).2)⟩
      · rw [if_neg heq]
        exact ⟨p, hpmem, rfl, .inl⟩

/-- **Whatever waits has exited**: the registrations know their makers, and a registration
that is marked, or whose pid waits for its cleanup, is that of a process that has exited. -/
structure Identified (h : Host) : Prop where
  reachable : Reachable h.kmod
  numbered : h.Numbered
  maker : ∀ p ∈ h.kmod.procInfoHtable, h.registeredBy p.globalPid < h.started ∧
    ∀ pid, h.runs pid = some (h.registeredBy p.globalPid) → pid = p.globalPid
  waiting : ∀ p ∈ h.kmod.procInfoHtable, h.Waiting p.globalPid →
    h.Exited (h.registeredBy p.globalPid)
  marked : ∀ p ∈ h.kmod.procInfoHtable, p.exited = true → h.Exited (h.registeredBy p.globalPid)

/-- A pid that is registered waits for no cleanup. -/
def PidsDrained (h : Host) (i : HostInput) : Prop :=
  match i with
  | .ioctl i => ∀ p, Registers ⟨h.kmod, i, (Agnocast.step h.kmod i).1⟩ p → ¬ h.Waiting p.globalPid
  | _ => True

theorem Identified.init {h : Host} (hinit : host.init h) : h.Identified := by
  obtain ⟨σ, hσ, rfl⟩ := hinit
  obtain ⟨num, start, gb, m, hmem, rfl⟩ := id hσ
  refine ⟨⟨[], .init hσ⟩, ⟨fun _ _ hrun => ?_, fun _ _ _ hrun => ?_⟩, fun p hp => ?_,
    fun p hp => ?_, fun p hp => ?_⟩
  · cases hrun
  · cases hrun
  all_goals cases hp

/-- The registrations of a step that makes none: it is enough that those that are new to
waiting or to the mark have exited makers. -/
theorem Identified.of_registrations {h' : Host} (hid : h.Identified)
    (hreach : Reachable h'.kmod) (hages : h.Ages h') (hnum : h'.Numbered)
    (hmaker : h'.registeredBy = h.registeredBy)
    (hfrom : ∀ q ∈ h'.kmod.procInfoHtable, ∃ p ∈ h.kmod.procInfoHtable,
      p.globalPid = q.globalPid ∧
      (q.exited = true → p.exited = true ∨ h.Waiting p.globalPid))
    (hwait : ∀ p ∈ h.kmod.procInfoHtable, h'.Waiting p.globalPid → h.Waiting p.globalPid ∨
      h'.Exited (h.registeredBy p.globalPid)) : h'.Identified := by
  refine ⟨hreach, hnum, fun q hq => ?_, fun q hq hqwait => ?_, fun q hq hmark => ?_⟩ <;>
    obtain ⟨p, hp, hpid, hexited⟩ := hfrom q hq <;> rw [hmaker, ← hpid]
  · obtain ⟨hlt, hruns⟩ := hid.maker p hp
    exact ⟨Nat.lt_of_lt_of_le hlt hages.started, fun pid hrun => hruns pid (hages.runs pid _ hlt hrun)⟩
  · rw [← hpid] at hqwait
    exact (hwait p hp hqwait).elim (fun hold => (hid.waiting p hp hold).ages hages) id
  · rcases hexited hmark with hold | hold
    · exact (hid.marked p hp hold).ages hages
    · exact (hid.waiting p hp hold).ages hages

/-- Steps that leave the module alone, and what they add to the queue. -/
theorem Identified.of_kmod {h' : Host} (hid : h.Identified) (hkmod : h'.kmod = h.kmod)
    (hages : h.Ages h') (hnum : h'.Numbered) (hmaker : h'.registeredBy = h.registeredBy)
    (hwait : ∀ p ∈ h.kmod.procInfoHtable, h'.Waiting p.globalPid → h.Waiting p.globalPid ∨
      h'.Exited (h.registeredBy p.globalPid)) : h'.Identified := by
  refine hid.of_registrations (hkmod ▸ hid.reachable) hages hnum hmaker ?_ hwait
  rw [hkmod]
  exact fun q hq => ⟨q, hq, rfl, .inl⟩

/-- **An ioctl** registers the process that issues it, under a pid that waits for nothing. -/
theorem Identified.ioctl (hid : h.Identified) {i : Input} (hg : PidsDrained h (.ioctl i)) :
    (h.ioctl i).2.Identified := by
  obtain ⟨hages, hnum⟩ := hid.numbered.step (.ioctl i)
  change h.Ages (h.ioctl i).2 at hages
  change (h.ioctl i).2.Numbered at hnum
  unfold Host.ioctl at hages hnum ⊢
  split at hages
  case isFalse hno =>
    rw [if_neg hno]
    exact hid
  next hissue =>
  rw [if_pos hissue] at hnum ⊢
  simp only at hages hnum ⊢
  have hwf := hid.reachable.wellFormed
  have hcleanup : ∀ pid, i.call ≠ .processExitCleanup pid := by
    intro pid hcall
    rw [hcall] at hissue
    cases hissue
  have hr' : Reachable (Agnocast.step h.kmod i).2 := Transition.Reachable.step hid.reachable i
  have hpids := (reachable_poolsOk hid.reachable).pids
  -- an old registration keeps its maker, a new one is the caller's
  have hold : ∀ p ∈ h.kmod.procInfoHtable,
      h.registeredAfter (Agnocast.step h.kmod i).2 p.globalPid = h.registeredBy p.globalPid := by
    intro p hp
    have hfound : findProcessInfo h.kmod p.globalPid = some p :=
      (HTable.lookup_eq_some_iff hpids).mpr ⟨hp, rfl⟩
    unfold registeredAfter
    rw [hfound]
    simp
  have hnew : ∀ q ∈ (Agnocast.step h.kmod i).2.procInfoHtable,
      (∃ p ∈ h.kmod.procInfoHtable, p.globalPid = q.globalPid ∧ p.exited = q.exited) ∨
      (h.runs q.globalPid = some (h.registeredAfter (Agnocast.step h.kmod i).2 q.globalPid) ∧
        ¬ h.Waiting q.globalPid ∧ q.exited = false) := by
    intro q hq
    refine (registration_of_call hwf hcleanup hq).imp_right fun ⟨⟨ipcNs, raw, domainId, hcall⟩,
      hfresh, hlive⟩ => ⟨?_, hg q ⟨hq, hfresh⟩, hlive⟩
    have hfound : (findProcessInfo (Agnocast.step h.kmod i).2 q.globalPid).isSome :=
      HTable.lookup_isSome_iff.mpr ⟨q, hq, rfl⟩
    have hruns : (h.runs q.globalPid).isSome := by
      rw [hcall] at hissue
      exact hissue
    obtain ⟨number, hnumber⟩ := Option.isSome_iff_exists.mp hruns
    unfold registeredAfter
    rw [hfresh, hnumber]
    simp [hfound]
  refine ⟨hr', hnum, fun q hq => ?_, fun q hq hwait => ?_, fun q hq hmark => ?_⟩ <;>
    rcases hnew q hq with ⟨p, hp, hpid, hexited⟩ | ⟨hrun, hdrained, hlive⟩
  · simp only
    rw [← hpid, hold p hp]
    exact hid.maker p hp
  · exact ⟨hid.numbered.lt _ _ hrun, fun pid hpid => hid.numbered.unique _ _ _ hpid hrun⟩
  · simp only
    rw [← hpid, hold p hp]
    rw [← hpid] at hwait
    exact hid.waiting p hp hwait
  · exact absurd hwait hdrained
  · simp only
    rw [← hpid, hold p hp]
    exact hid.marked p hp (hexited.trans hmark)
  · rw [hlive] at hmark
    cases hmark

/-- **Every guarded step** keeps the identities. -/
theorem Identified.step (hid : h.Identified) {i : HostInput} (hg : PidsDrained h i) :
    (h.step i).2.Identified := by
  cases i with
  | ioctl i => exact hid.ioctl hg
  | start pid =>
    have hstep : h.Ages (h.start pid) ∧ (h.start pid).Numbered := hid.numbered.step (.start pid)
    show (h.start pid).Identified
    unfold start at hstep ⊢
    split at hstep
    · next heq => exact hid
    · next heq => exact hid.of_kmod rfl hstep.1 hstep.2 rfl fun _ _ => .inl
  | exit pid =>
    have hstep : h.Ages (h.exit pid) ∧ (h.exit pid).Numbered := hid.numbered.step (.exit pid)
    show (h.exit pid).Identified
    unfold exit at hstep ⊢
    split at hstep
    · exact hid.of_kmod rfl hstep.1 hstep.2 rfl fun _ _ => .inl
    · exact hid
  | release pid =>
    have hstep : h.Ages (h.release pid) ∧ (h.release pid).Numbered := hid.numbered.step (.release pid)
    show (h.release pid).Identified
    unfold release at hstep ⊢
    split at hstep
    case h_2 => exact hid
    next agnocast htask =>
    refine hid.of_kmod rfl hstep.1 hstep.2 rfl fun p hp hwait => ?_
    by_cases hpid : p.globalPid = pid
    · -- nobody runs under the pid any more, and the maker could run nowhere else
      right
      obtain ⟨hlt, hruns⟩ := hid.maker p hp
      refine ⟨Nat.lt_of_lt_of_le hlt hstep.1.started, fun q hrun => ?_⟩
      have hq := hruns q (hstep.1.runs q _ hlt hrun)
      unfold runs at hrun
      rw [runs_update, if_pos (hq.trans hpid)] at hrun
      cases hrun
    · left
      refine hwait.imp_left fun hmem => ?_
      simp only at hmem
      split at hmem
      · exact (RingBuffer.mem_push hmem).resolve_right hpid
      · exact hmem
  | pop =>
    have hstep : h.Ages h.pop ∧ h.pop.Numbered := hid.numbered.step .pop
    show h.pop.Identified
    unfold pop at hstep ⊢
    split at hstep
    case h_2 => exact hid
    next pid queue hpopped hpop =>
    refine hid.of_kmod rfl hstep.1 hstep.2 rfl fun p hp hwait => .inl (.inl ?_)
    rw [RingBuffer.pop_eq_some hpop]
    rcases hwait with hmem | heq
    · exact List.mem_cons_of_mem _ hmem
    · cases heq
      exact List.mem_cons_self
  | cleanup =>
    have hstep : h.Ages h.cleanup ∧ h.cleanup.Numbered := hid.numbered.step .cleanup
    show h.cleanup.Identified
    unfold cleanup at hstep ⊢
    split at hstep
    · exact hid
    next pid hpopped =>
    refine hid.of_registrations ?_ hstep.1 hstep.2 rfl (fun q hq => ?_) fun p hp hwait => .inl ?_
    · exact Transition.Reachable.step hid.reachable ⟨.smooth, .processExitCleanup pid⟩
    -- the registration is older than the cleanup, which at most marks it
    · obtain ⟨p, hp, hpid, hmark⟩ := registration_of_cleanup hq
      refine ⟨p, hp, hpid, fun hexit => (hmark hexit).imp_right fun heq => .inr ?_⟩
      rw [hpopped, heq]
    · exact hwait.elim .inl fun hnone => by cases hnone

end Host

/-! ## What a cleanup takes -/

/-- From `σ` to `σ'` the registration is marked or dropped, or its process loses a
mapping, a subscriber or a publisher. -/
def TakesFrom (σ σ' : Kmod) (p : ProcessInfo) : Prop :=
  p ∉ σ'.procInfoHtable ∨
  (∃ i < σ.mem.mempoolNum, p.globalPid ∈ σ.mem.mapped i ∧ p.globalPid ∉ σ'.mem.mapped i) ∨
  (∃ tp, ∃ s ∈ (σ.topicStructs tp).subInfoHtable, s.pid = p.globalPid ∧
    s ∉ (σ'.topicStructs tp).subInfoHtable) ∨
  ∃ tp, ∃ q ∈ (σ.topicStructs tp).pubInfoHtable, q.pid = p.globalPid ∧
    ∀ q' ∈ (σ'.topicStructs tp).pubInfoHtable, q'.id ≠ q.id

/-- **A cleanup takes from its own pid only**, and from processes that are marked. -/
theorem takesFrom_cleanup {σ : Kmod} (hr : Reachable σ) {pid : Pid} {p : ProcessInfo}
    (hp : p ∈ σ.procInfoHtable) (htakes : TakesFrom σ (processExitCleanup σ pid) p) :
    p.globalPid = pid ∨ p.exited = true := by
  by_cases hpid : p.globalPid = pid
  · exact .inl hpid
  refine .inr (Bool.not_eq_false _ ▸ fun hlive => ?_)
  have hpids := (reachable_poolsOk hr).pids
  have hfound : findProcessInfo σ p.globalPid = some p :=
    (HTable.lookup_eq_some_iff hpids).mpr ⟨hp, rfl⟩
  cases hp₀ : findProcessInfo σ pid with
  | none =>
    -- only the slot of an agent goes
    rw [processExitCleanup_unknown hp₀] at htakes
    rcases htakes with hgone | ⟨i, _, hmem, hnot⟩ | ⟨tp, s, hs, _, hnot⟩ | ⟨tp, q, hq, _, hnone⟩
    · exact hgone hp
    · exact hnot hmem
    · exact hnot hs
    · exact hnone q hq rfl
  | some p₀ =>
    have hprocs := findProcessInfo_exit_of_ne hp₀ hpid
    rcases htakes with hgone | ⟨i, hi, hmem, hnot⟩ | ⟨tp, s, hs, hspid, hnot⟩ |
      ⟨tp, q, hq, hqpid, hnone⟩
    · exact hgone (findProcessInfo_mem (hprocs.trans hfound)).1
    · rw [(processExitCleanup_world hp₀).2.1] at hnot
      exact hnot ((mem_mapped_freeMemory (reachable_poolsOk hr).counted).mpr
        ⟨hmem, fun _ heq => hpid heq⟩)
    · obtain ⟨σ₁, _, hsame⟩ := exit_topicStep hr.wellFormed hp₀ tp
      rw [hsame.subs, visitTopic_subs (hr.wellFormed.store tp)] at hnot
      exact hnot (List.mem_filter.mpr ⟨hs, by simpa [hspid] using hpid⟩)
    · obtain ⟨σ₁, hσ₁, hsame⟩ := exit_topicStep hr.wellFormed hp₀ tp
      have hpub : processGone σ₁ q.pid = false := by
        rw [hqpid]
        refine Bool.eq_false_iff.mpr fun hgone => ?_
        rcases (processGone_of_exit hp₀ hσ₁).mp hgone with heq | hgone
        · exact hpid heq
        · rw [processGone_eq_false.mpr ⟨p, hfound, hlive⟩] at hgone
          cases hgone
      obtain ⟨q', hq', hid⟩ := visitTopic_keeps_live (hr.wellFormed.store tp) hq
        (fun heq => hpid (hqpid.symm.trans heq)) hpub
      exact hnone q' (hsame.pubs ▸ hq') hid

/-- Every cleanup takes only from registrations whose makers have exited. -/
def CleanupSound (tr : List HostEvent) : Prop :=
  ∀ ev ∈ tr, ev.input = .cleanup → ∀ p ∈ ev.pre.kmod.procInfoHtable,
    TakesFrom ev.pre.kmod (ev.pre.step .cleanup).2.kmod p →
    ev.pre.Exited (ev.pre.registeredBy p.globalPid)

theorem run_identified {tr : List HostEvent} {h : Host}
    (hrun : Transition.Run host Host.PidsDrained tr h) : h.Identified :=
  hrun.invariant (P := Host.Identified) (fun _ => Host.Identified.init)
    fun _ _ hid hg => hid.step hg

/-- **The cleanup takes nothing from a live process** in a run in which no pid is
registered while it waits for its cleanup. -/
theorem run_cleanup_sound {tr : List HostEvent} {h : Host}
    (hrun : Transition.Run host Host.PidsDrained tr h) : CleanupSound tr := by
  intro ev hev hcleanup p hp htakes
  obtain ⟨later, before, rfl⟩ := List.append_of_mem hev
  have hid : ev.pre.Identified := run_identified hrun.event.1
  change TakesFrom ev.pre.kmod ev.pre.cleanup.kmod p at htakes
  unfold Host.cleanup at htakes
  cases hpopped : ev.pre.popped with
  | none =>
    -- nothing is cleaned up
    rw [hpopped] at htakes
    rcases htakes with hgone | ⟨i, _, hmem, hnot⟩ | ⟨tp, s, hs, _, hnot⟩ | ⟨tp, q, hq, _, hnone⟩
    · exact absurd hp hgone
    · exact absurd hmem hnot
    · exact absurd hs hnot
    · exact absurd rfl (hnone q hq)
  | some pid =>
    rw [hpopped] at htakes
    rcases takesFrom_cleanup hid.reachable hp htakes with rfl | hmark
    · exact hid.waiting p hp (.inr hpopped)
    · exact hid.marked p hp hmark

/-- Run the machine, oldest input first, over a module with `n` pools in which nothing
fails. -/
def hostRunOf (n : Nat) (inputs : List HostInput) : List HostEvent × Host :=
  host.exec (.booted (.loaded (poolsOf n))) [] inputs

theorem run_hostRunOf {n : Nat} (hpos : 0 < n) (hn : n < 2 ^ 34) {G : Host → HostInput → Prop}
    {inputs : List HostInput}
    (hg : host.Guarded G (.booted (.loaded (poolsOf n))) inputs) :
    Transition.Run host G (hostRunOf n inputs).1 (hostRunOf n inputs).2 :=
  have hinit : host.init (.booted (.loaded (poolsOf n))) := ⟨_, moduleInit_poolsOf hpos hn, rfl⟩
  (Transition.Run.init hinit).exec hg

/-- A process registers, exits and is cleaned up. -/
theorem cleanup_of_the_dead :
    let r := hostRunOf 1 [.start 7, .ioctl ⟨.smooth, .addProcess 7 0 0 0⟩, .exit 7, .release 7,
      .pop, .cleanup]
    CleanupSound r.1 ∧ r.2.kmod.procInfoHtable.map ProcessInfo.exited = [true] := by
  refine ⟨run_cleanup_sound (run_hostRunOf (by decide) (by decide) ?_), by decide⟩
  refine ⟨trivial, ?_, trivial, trivial, trivial, trivial, trivial⟩
  -- the queue is empty when the process registers
  rintro p - (hmem | heq)
  · have hempty : (Host.booted (.loaded (poolsOf 1))).queue.contents = [] :=
      RingBuffer.contents_empty ..
    change p.globalPid ∈ (Host.booted (.loaded (poolsOf 1))).queue.contents at hmem
    rw [hempty] at hmem
    cases hmem
  · cases heq

/-- **The cleanup of an agent hits the process that has its pid**: a discovery agent exits,
and before the worker runs its pid is given to a process that registers. -/
theorem cleanup_hits_the_living :
    ¬ ∀ (tr : List HostEvent) (h : Host), Transition.Run host Transition.anyStep tr h →
      CleanupSound tr := by
  intro hall
  have hsound := hall _ _ (run_hostRunOf (n := 1) (by decide) (by decide) (host.guarded_anyStep _
    [.start 7, .ioctl ⟨.smooth, .addDiscoveryAgent 7 0 0⟩, .exit 7, .release 7, .start 7,
      .ioctl ⟨.smooth, .addProcess 7 0 0 0⟩, .pop, .cleanup]))
  have hexited := hsound _ List.mem_cons_self rfl
    ⟨false, .application, 7, 7, 0, 0, 0⟩ (by decide) (.inl (by decide))
  exact hexited.2 7 rfl

end Agnocast
