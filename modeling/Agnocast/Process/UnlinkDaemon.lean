import Agnocast.Process.BridgeManager

/-!
# The processes — draining by the unlink daemon

A process that exits stays registered until the unlink daemon of its namespace has
learnt its pid and unlinked its shared memory. One GET_EXIT_PROCESS takes the lock
twice: the first phase reads the pid of some exited process, the pid is copied out
with no lock held, and the second phase takes the registration out, or the calling
daemon when there is nobody left. Between the two phases anything can happen.

* `daemons`            — the handler of GET_EXIT_PROCESS over the module, with the
  phases as separate steps.
* `DrainOk`            — the invariant: what a handler has read is still there.
* `run_hand_off`       — over every run a registration leaves the table exactly when
  the daemon was told of it.
-/

namespace Agnocast

variable {σ : Kmod}

/-! ## One daemon per namespace -/

/-- No two daemons share a namespace, and a registered one is alive. -/
structure DaemonsOk (procs : List ProcessInfo) : Prop where
  one : ∀ p ∈ procs, ∀ q ∈ procs, p.role = .unlinkDaemon → q.role = .unlinkDaemon →
    p.ipcNs = q.ipcNs → p.globalPid = q.globalPid
  live : ∀ p ∈ procs, p.role = .unlinkDaemon → p.exited = false

theorem mem_exitedProcs (hnd : (σ.procInfoHtable.map ProcessInfo.globalPid).Nodup) {p p' : ProcessInfo}
    (hp : p ∈ σ.procInfoHtable) :
    p' ∈ exitedProcs σ p ↔ (p' ∈ σ.procInfoHtable ∧ p'.globalPid ≠ p.globalPid) ∨
      (p.role ≠ .unlinkDaemon ∧ p' = { p with exited := true }) := by
  unfold exitedProcs markExited
  split
  · next hrole =>
    rw [Kmod.dropProcess, HTable.mem_hashDel]
    exact ⟨.inl, fun h => h.resolve_right fun h => h.1 hrole⟩
  · next hrole =>
    rw [HTable.mem_modify]
    constructor
    · rintro ⟨q, hq, rfl⟩
      by_cases hpid : q.globalPid = p.globalPid
      · rw [if_pos hpid]
        exact .inr ⟨hrole, by rw [HTable.eq_of_key_eq hnd hq hp hpid]⟩
      · rw [if_neg hpid]
        exact .inl ⟨hq, hpid⟩
    · rintro (⟨hp', hpid⟩ | ⟨_, rfl⟩)
      · exact ⟨p', hp', by rw [if_neg hpid]⟩
      · exact ⟨p, hp, by rw [if_pos rfl]⟩

theorem DaemonsOk.step (h : DaemonsOk σ.procInfoHtable) (hpools : PoolsOk σ) (hwf : σ.WellFormed)
    (i : Input) : DaemonsOk (Agnocast.step σ i).2.procInfoHtable := by
  have hchange := step_procs hwf i
  generalize (Agnocast.step σ i).2.procInfoHtable = procs at hchange ⊢
  generalize (Agnocast.step σ i).2.mem = m at hchange
  -- all but a new daemon were daemons before
  have hfewer : (∀ p ∈ procs, p.role = .unlinkDaemon → p ∈ σ.procInfoHtable) → DaemonsOk procs :=
    fun hold => ⟨fun p hp q hq hpr hqr => h.one p (hold p hp hpr) q (hold q hq hqr) hpr hqr,
      fun p hp hr => h.live p (hold p hp hr) hr⟩
  cases hchange with
  | same => exact h
  | @registered pid ipcNs raw domainId role pool _ _ hadmits =>
    have hnone : role = .unlinkDaemon → ∀ q ∈ σ.procInfoHtable, q.role = .unlinkDaemon →
        q.ipcNs ≠ ipcNs := by
      intro hrole q hq hqrole hns
      have halive : hasAliveUnlinkDaemon σ ipcNs = true := by
        unfold hasAliveUnlinkDaemon
        exact List.any_eq_true.mpr ⟨q, hq, by simp [hns, hqrole]⟩
      rw [hadmits.daemon hrole] at halive
      cases halive
    refine ⟨fun p hp q hq hpr hqr hns => ?_, fun p hp hr => ?_⟩
    · rcases HTable.mem_hashAdd.mp hp with rfl | hp <;> rcases HTable.mem_hashAdd.mp hq with rfl | hq
      · rfl
      · exact absurd hns.symm (hnone hpr q hq hqr)
      · exact absurd hns (hnone hqr p hp hpr)
      · exact h.one p hp q hq hpr hqr hns
    · rcases HTable.mem_hashAdd.mp hp with rfl | hp
      · rfl
      · exact h.live p hp hr
  | @exited pid p _ hp =>
    have hmem := (findProcessInfo_mem hp).1
    refine hfewer fun p' hp' hr => ?_
    rcases (mem_exitedProcs hpools.pids hmem).mp hp' with ⟨hp', _⟩ | ⟨hrole, rfl⟩
    · exact hp'
    · exact absurd hr hrole
  | drained => exact hfewer fun p hp _ => (HTable.mem_hashDel.mp hp).1
  | deregistered => exact hfewer fun p hp _ => (HTable.mem_hashDel.mp hp).1
  | demoted =>
    refine hfewer fun p' hp' hr => ?_
    obtain ⟨p, hp, rfl⟩ := HTable.mem_modify.mp hp'
    split at hr
    · cases hr
    · next hpid =>
      rw [if_neg hpid]
      exact hp
  | reported => exact h

theorem reachable_daemonsOk (h : Reachable σ) : DaemonsOk σ.procInfoHtable := by
  refine Transition.Reachable.invariant (P := fun σ => DaemonsOk σ.procInfoHtable) ?_ ?_ h
  · rintro σ ⟨_, _, _, _, _, rfl⟩
    exact ⟨fun p hp => (by cases hp), fun p hp => (by cases hp)⟩
  · exact fun σ i hr hok => hok.step (reachable_poolsOk hr) (Reachable.wellFormed hr) i

/-! ## The handler of GET_EXIT_PROCESS -/

/-- The locals of `get_exit_process_cmd` between its phases: the caller's namespace,
and the local and global pid that the first phase has read. -/
structure ExitHandler where
  ipcNs : IpcNs
  found : Option (Pid × Pid)

/-- `global_pid`, which is -1 when nothing was found. -/
def ExitHandler.globalPid (l : ExitHandler) : Pid := (l.found.map Prod.snd).getD (-1)

/-- The module and the calls of GET_EXIT_PROCESS that are between their phases. -/
structure DrainState where
  kmod : Kmod
  handler : Pid → Option ExitHandler

/-- What can happen: any other call, or one phase of a GET_EXIT_PROCESS of `daemon`. -/
inductive DrainInput
  | call (i : Input)
  | getExitProcess (daemon : Pid) (ipcNs : IpcNs)
  /-- `copy_to_user` of the pid fails: -EFAULT before the second phase -/
  | copyFailed (daemon : Pid)
  /-- the pid was copied out, and the second phase runs -/
  | commitExitProcess (daemon : Pid)

/-- One step; the answer is what the user sees of it, if anything. -/
def drainStep (s : DrainState) : DrainInput → Option Reply × DrainState
  | .call i => (some (step s.kmod i).1, { s with kmod := (step s.kmod i).2 })
  | .getExitProcess daemon ipcNs =>
    let found := getExitProcess s.kmod ipcNs
    (some (.exitProcess found),
      { s with handler := Function.update s.handler daemon (some ⟨ipcNs, found⟩) })
  -- `copy_to_user` fails, and the handler returns without the second phase
  | .copyFailed daemon => (none, { s with handler := Function.update s.handler daemon none })
  | .commitExitProcess daemon =>
    match s.handler daemon with
    | none => (none, s)
    | some l =>
      let r := commitExitProcess s.kmod l.ipcNs l.globalPid daemon
      (some (.flag r.1), { kmod := r.2, handler := Function.update s.handler daemon none })

/-- The daemons over the module. -/
def daemons : Transition.System DrainState DrainInput (Option Reply) where
  init s := moduleInit s.kmod ∧ ∀ pid, s.handler pid = none
  step := drainStep

/-- The call makes an application out of a process. -/
def Call.demotes (pid : Pid) : Call → Prop
  | .notifyBridgeShutdown q => q = pid
  | .checkAndRequestBridgeShutdown q _ => q = pid
  | _ => False

/-- `daemon` is the registered unlink daemon of the namespace. -/
def IsDaemon (σ : Kmod) (daemon : Pid) (ipcNs : IpcNs) : Prop :=
  ∃ p, findProcessInfo σ daemon = some p ∧ p.role = .unlinkDaemon ∧ p.ipcNs = ipcNs

/-- GET_EXIT_PROCESS is issued by registered daemons, one call at a time; a process
does not exit in the middle of one; and a daemon does not retire as a bridge manager. -/
def Daemonlike (s : DrainState) : DrainInput → Prop
  | .call i => (∀ ipcNs, i.call ≠ .getExitProcess ipcNs) ∧
      (∀ ipcNs globalPid callerPid, i.call ≠ .commitExitProcess ipcNs globalPid callerPid) ∧
      (∀ pid, i.call = .processExitCleanup pid → s.handler pid = none) ∧
      (∀ pid ipcNs, i.call.demotes pid → ¬ IsDaemon s.kmod pid ipcNs)
  | .getExitProcess daemon ipcNs => IsDaemon s.kmod daemon ipcNs ∧ s.handler daemon = none
  | .copyFailed daemon => (s.handler daemon).isSome
  | .commitExitProcess daemon => (s.handler daemon).isSome

theorem drainStep_commit {s : DrainState} {daemon : Pid} {l : ExitHandler}
    (hl : s.handler daemon = some l) :
    (drainStep s (.commitExitProcess daemon)).2 =
      { kmod := (commitExitProcess s.kmod l.ipcNs l.globalPid daemon).2
        handler := Function.update s.handler daemon none } := by
  simp only [drainStep, hl]

/-- A run of the daemons, newest event first. -/
abbrev DrainEvent := Transition.Event DrainState DrainInput (Option Reply)

/-- The module underneath moves by its own steps. -/
theorem drain_reachable {tr : List DrainEvent} {s : DrainState}
    (h : Transition.Run daemons Daemonlike tr s) : Reachable s.kmod := by
  refine Transition.Run.invariant (P := fun s => Reachable s.kmod) ?_ ?_ h
  · exact fun s hs => ⟨[], .init hs.1⟩
  · intro s i hr hg
    cases i with
    | call i => exact Transition.Reachable.step hr i
    | getExitProcess daemon ipcNs => exact hr
    | copyFailed daemon => exact hr
    | commitExitProcess daemon =>
      obtain ⟨l, hl⟩ := Option.isSome_iff_exists.mp hg
      show Reachable (drainStep s (.commitExitProcess daemon)).2.kmod
      rw [drainStep_commit hl]
      exact Transition.Reachable.step hr ⟨.smooth, .commitExitProcess l.ipcNs l.globalPid daemon⟩

/-! ## What other calls leave of a registration -/

/-- `p'` is the registration `p` later on: it may have exited meanwhile, or have
retired as a bridge manager. -/
structure SameRegistration (p p' : ProcessInfo) : Prop where
  globalPid : p'.globalPid = p.globalPid
  localPid : p'.localPid = p.localPid
  ipcNs : p'.ipcNs = p.ipcNs
  daemon : p'.role = .unlinkDaemon ↔ p.role = .unlinkDaemon
  exited : p.exited = true → p'.exited = true

theorem SameRegistration.refl (p : ProcessInfo) : SameRegistration p p := ⟨rfl, rfl, rfl, .rfl, id⟩

/-- A registration outlives every call but the commits, and a daemon's also its own
exit and its retirement. -/
theorem registration_persists (hr : Reachable σ) {i : Input}
    (hcommit : ∀ ipcNs globalPid callerPid, i.call ≠ .commitExitProcess ipcNs globalPid callerPid)
    {p : ProcessInfo} (hp : p ∈ σ.procInfoHtable)
    (hdaemon : p.role = .unlinkDaemon → i.call ≠ .processExitCleanup p.globalPid ∧
      ¬ i.call.demotes p.globalPid) :
    ∃ p' ∈ (step σ i).2.procInfoHtable, SameRegistration p p' := by
  have hpids := (reachable_poolsOk hr).pids
  have hchange := step_procs (Reachable.wellFormed hr) i
  generalize (step σ i).2.procInfoHtable = procs at hchange ⊢
  generalize (step σ i).2.mem = m at hchange
  cases hchange with
  | same => exact ⟨p, hp, .refl p⟩
  | registered => exact ⟨p, HTable.mem_hashAdd.mpr (.inr hp), .refl p⟩
  | @exited pid q hcall hq =>
    obtain ⟨hqm, rfl⟩ := findProcessInfo_mem hq
    by_cases hpid : p.globalPid = q.globalPid
    · obtain rfl := HTable.eq_of_key_eq hpids hp hqm hpid
      have hrole : p.role ≠ .unlinkDaemon := fun hrole => (hdaemon hrole).1 hcall
      exact ⟨{ p with exited := true }, (mem_exitedProcs hpids hp).mpr (.inr ⟨hrole, rfl⟩), rfl, rfl,
        rfl, .rfl, fun _ => rfl⟩
    · exact ⟨p, (mem_exitedProcs hpids hqm).mpr (.inl ⟨hp, hpid⟩), .refl p⟩
  | drained hcall => exact absurd hcall (hcommit _ _ _)
  | deregistered hcall => exact absurd hcall (hcommit _ _ _)
  | @demoted pid hcall =>
    by_cases hpid : p.globalPid = pid
    · have hrole : p.role ≠ .unlinkDaemon := by
        intro hrole
        refine (hdaemon hrole).2 ?_
        rcases hcall with hcall | ⟨_, hcall⟩ <;> rw [hcall] <;> exact hpid.symm
      refine ⟨{ p with role := .application }, HTable.mem_modify_of_eq hp hpid, rfl, rfl, rfl, ?_, id⟩
      exact ⟨fun h => (by cases h), fun h => absurd h hrole⟩
    · exact ⟨p, HTable.mem_modify_of_ne hp hpid, .refl p⟩
  | reported => exact ⟨p, hp, .refl p⟩

theorem findProcessInfo_dropProcess_self (pid : Pid) :
    findProcessInfo (σ.dropProcess pid) pid = none :=
  HTable.lookup_hashDel_self pid σ.procInfoHtable

theorem findProcessInfo_dropProcess_of_ne {pid q : Pid} (h : q ≠ pid) :
    findProcessInfo (σ.dropProcess pid) q = findProcessInfo σ q :=
  HTable.lookup_hashDel_of_ne h σ.procInfoHtable

/-- A registered process is found by its pid. -/
theorem findProcessInfo_self (hr : Reachable σ) {p : ProcessInfo} (hp : p ∈ σ.procInfoHtable) :
    findProcessInfo σ p.globalPid = some p := HTable.lookup_self (reachable_poolsOk hr).pids hp

theorem getExitProcess_eq_some {ipcNs : IpcNs} {localPid globalPid : Pid}
    (h : getExitProcess σ ipcNs = some (localPid, globalPid)) :
    ∃ p ∈ σ.procInfoHtable, p.ipcNs = ipcNs ∧ p.exited = true ∧ p.localPid = localPid ∧
      p.globalPid = globalPid := by
  unfold getExitProcess at h
  obtain ⟨p, hfind, heq⟩ := Option.map_eq_some_iff.mp h
  have hp : p.ipcNs = ipcNs ∧ p.exited = true := by simpa using List.find?_some hfind
  obtain ⟨rfl, rfl⟩ := Prod.mk.inj heq
  exact ⟨p, List.mem_of_find?_eq_some hfind, hp.1, hp.2, rfl, rfl⟩

/-! ## The invariant -/

/-- Between the phases the caller is still the daemon of its namespace, and what the
first phase has read is still an exited registration of the namespace. -/
structure DrainOk (s : DrainState) : Prop where
  caller : ∀ daemon l, s.handler daemon = some l → IsDaemon s.kmod daemon l.ipcNs
  found : ∀ daemon l localPid globalPid, s.handler daemon = some l →
    l.found = some (localPid, globalPid) → ∃ q, findProcessInfo s.kmod globalPid = some q ∧
      q.localPid = localPid ∧ q.ipcNs = l.ipcNs ∧ q.exited = true

private theorem DrainOk.callStep {s : DrainState} (h : DrainOk s) (hr : Reachable s.kmod) {i : Input}
    (hg : Daemonlike s (.call i)) : DrainOk (drainStep s (.call i)).2 := by
  obtain ⟨_, hcommit, hexit, hdemote⟩ := hg
  have hr' : Reachable (step s.kmod i).2 := Transition.Reachable.step hr i
  refine ⟨fun daemon l hl => ?_, fun daemon l localPid globalPid hl hfound => ?_⟩
  · have hl : s.handler daemon = some l := hl
    obtain ⟨p, hp, hrole, hns⟩ := h.caller daemon l hl
    obtain ⟨hmem, rfl⟩ := findProcessInfo_mem hp
    have hbusy : i.call ≠ .processExitCleanup p.globalPid := by
      intro hcall
      rw [hexit _ hcall] at hl
      cases hl
    obtain ⟨p', hp', hsame⟩ := registration_persists hr hcommit hmem fun _ =>
      ⟨hbusy, fun hcall => hdemote _ _ hcall ⟨p, hp, hrole, hns⟩⟩
    refine ⟨p', ?_, hsame.daemon.mpr hrole, hsame.ipcNs.trans hns⟩
    exact hsame.globalPid ▸ findProcessInfo_self hr' hp'
  · obtain ⟨q, hq, rfl, hns, hexited⟩ := h.found daemon l localPid globalPid hl hfound
    obtain ⟨hmem, rfl⟩ := findProcessInfo_mem hq
    -- an exited registration is not a daemon's
    have hrole : q.role ≠ .unlinkDaemon := by
      intro hrole
      rw [(reachable_daemonsOk hr).live q hmem hrole] at hexited
      cases hexited
    obtain ⟨q', hq', hsame⟩ := registration_persists hr hcommit hmem fun h => absurd h hrole
    refine ⟨q', ?_, hsame.localPid, hsame.ipcNs.trans hns, hsame.exited hexited⟩
    exact hsame.globalPid ▸ findProcessInfo_self hr' hq'

/-- What the second phase of `daemon` takes out: the exited registration that the first
phase has read, or the daemon itself, the last of its namespace. -/
inductive Commits (σ : Kmod) (daemon : Pid) (l : ExitHandler) : Kmod → Prop
  | drained {localPid globalPid : Pid} {q : ProcessInfo}
      (hfound : l.found = some (localPid, globalPid)) (hg : 0 ≤ globalPid)
      (hq : findProcessInfo σ globalPid = some q) (hlocal : q.localPid = localPid)
      (hns : q.ipcNs = l.ipcNs) (hexited : q.exited = true) (hrole : q.role ≠ .unlinkDaemon) :
      Commits σ daemon l (σ.dropProcess globalPid)
  | left {p : ProcessInfo} (hnone : ∀ q, l.found.map Prod.snd = some q → q < 0)
      (hp : findProcessInfo σ daemon = some p) (hrole : p.role = .unlinkDaemon)
      (hns : p.ipcNs = l.ipcNs) (hlast : ∀ q ∈ σ.procInfoHtable, q.ipcNs = l.ipcNs → q = p) :
      Commits σ daemon l ((σ.dropProcess daemon).setMem (freeMemory daemon σ.mem))
  | nothing (hnone : ∀ q, l.found.map Prod.snd = some q → q < 0) : Commits σ daemon l σ

theorem DrainOk.commits {s : DrainState} (h : DrainOk s) (hr : Reachable s.kmod) {daemon : Pid}
    {l : ExitHandler} (hl : s.handler daemon = some l) :
    Commits s.kmod daemon l (commitExitProcess s.kmod l.ipcNs l.globalPid daemon).2 := by
  have hdaemons := reachable_daemonsOk hr
  have hneg : l.globalPid < 0 → ∀ q, l.found.map Prod.snd = some q → q < 0 := by
    intro hlt q hq
    unfold ExitHandler.globalPid at hlt
    rw [hq] at hlt
    exact hlt
  rcases commitExitProcess_cases (σ := s.kmod) l.ipcNs l.globalPid daemon with
    ⟨hg, heq⟩ | ⟨hg, _, hcount, p, hp, hrole, heq⟩ | ⟨hg, heq⟩ <;> rw [heq]
  · cases hfound : l.found with
    | none =>
      unfold ExitHandler.globalPid at hg
      rw [hfound] at hg
      cases hg
    | some r =>
      obtain ⟨localPid, globalPid⟩ := r
      have hglobal : l.globalPid = globalPid := by
        unfold ExitHandler.globalPid
        rw [hfound]
        rfl
      rw [hglobal] at hg ⊢
      obtain ⟨q, hq, hlocal, hns, hexited⟩ := h.found daemon l _ _ hl hfound
      refine .drained hfound hg hq hlocal hns hexited fun hrole => ?_
      rw [hdaemons.live q (findProcessInfo_mem hq).1 hrole] at hexited
      cases hexited
  · obtain ⟨p', hp', _, hns⟩ := h.caller daemon l hl
    obtain rfl := Option.some.inj (hp.symm.trans hp')
    refine .left (hneg hg) hp hrole hns fun q hq hqns => ?_
    -- nobody but a daemon is left, and there is one daemon only
    have hqrole : q.role = .unlinkDaemon := by
      unfold getProcessNumExceptUnlinkDaemon at hcount
      have hnot := List.countP_eq_zero.mp hcount q hq
      simpa [hqns] using hnot
    have hmem := (findProcessInfo_mem hp).1
    refine HTable.eq_of_key_eq (reachable_poolsOk hr).pids hq hmem ?_
    exact hdaemons.one q hq p hmem hqrole hrole (hqns.trans hns.symm)
  · exact .nothing (hneg hg)

private theorem DrainOk.commitStep {s : DrainState} (h : DrainOk s) (hr : Reachable s.kmod)
    {daemon : Pid} {l : ExitHandler} (hl : s.handler daemon = some l) :
    DrainOk (drainStep s (.commitExitProcess daemon)).2 := by
  rw [drainStep_commit hl]
  have hdaemons := reachable_daemonsOk hr
  have hcommits := h.commits hr hl
  -- no other call between its phases loses its caller or what it has read
  have hkept : ∀ d l', d ≠ daemon → s.handler d = some l' →
      findProcessInfo (commitExitProcess s.kmod l.ipcNs l.globalPid daemon).2 d =
        findProcessInfo s.kmod d ∧
      ∀ localPid globalPid, l'.found = some (localPid, globalPid) →
        findProcessInfo (commitExitProcess s.kmod l.ipcNs l.globalPid daemon).2 globalPid =
          findProcessInfo s.kmod globalPid := by
    intro d l' hne hl'
    obtain ⟨p', hp', hrole', hns'⟩ := h.caller d l' hl'
    have hlive' := hdaemons.live p' (findProcessInfo_mem hp').1 hrole'
    generalize (commitExitProcess s.kmod l.ipcNs l.globalPid daemon).2 = σ' at hcommits ⊢
    cases hcommits with
    | @drained localPid globalPid q hfound hg hq hlocal hns hexited hrole =>
      refine ⟨findProcessInfo_dropProcess_of_ne fun heq => ?_, fun localPid' globalPid' hfound' =>
        findProcessInfo_dropProcess_of_ne fun heq => ?_⟩
      · rw [heq, hq] at hp'
        cases hp'
        exact hrole hrole'
      · -- two calls that have read the same registration are calls of one daemon
        subst heq
        obtain ⟨q', hq', _, hqns', _⟩ := h.found d l' _ _ hl' hfound'
        obtain rfl := Option.some.inj (hq.symm.trans hq')
        obtain ⟨p, hp, hprole, hpns⟩ := h.caller daemon l hl
        refine hne ?_
        rw [← (findProcessInfo_mem hp').2, ← (findProcessInfo_mem hp).2]
        refine hdaemons.one p' (findProcessInfo_mem hp').1 p (findProcessInfo_mem hp).1 hrole' hprole ?_
        rw [hns', hpns, ← hqns', hns]
    | @left p _ hp hrole hns =>
      refine ⟨findProcessInfo_dropProcess_of_ne hne, fun localPid' globalPid' hfound' =>
        findProcessInfo_dropProcess_of_ne fun heq => ?_⟩
      subst heq
      obtain ⟨q', hq', _, _, hexited'⟩ := h.found d l' _ _ hl' hfound'
      obtain rfl := Option.some.inj (hp.symm.trans hq')
      rw [hdaemons.live p (findProcessInfo_mem hp).1 hrole] at hexited'
      cases hexited'
    | nothing => exact ⟨rfl, fun _ _ _ => rfl⟩
  have hother : ∀ {d : Pid} {l' : ExitHandler},
      Function.update s.handler daemon none d = some l' → d ≠ daemon ∧ s.handler d = some l' := by
    intro d l' hl'
    by_cases hd : d = daemon
    · rw [hd, Function.update_self] at hl'
      cases hl'
    · rw [Function.update_of_ne hd] at hl'
      exact ⟨hd, hl'⟩
  refine ⟨fun d l' hl' => ?_, fun d l' localPid globalPid hl' hfound => ?_⟩
  · obtain ⟨hne, hl'⟩ := hother hl'
    obtain ⟨p, hp, hrole, hns⟩ := h.caller d l' hl'
    exact ⟨p, (hkept d l' hne hl').1.trans hp, hrole, hns⟩
  · obtain ⟨hne, hl'⟩ := hother hl'
    obtain ⟨q, hq, hrest⟩ := h.found d l' _ _ hl' hfound
    exact ⟨q, ((hkept d l' hne hl').2 _ _ hfound).trans hq, hrest⟩

theorem DrainOk.step {s : DrainState} (h : DrainOk s) (hr : Reachable s.kmod) {i : DrainInput}
    (hg : Daemonlike s i) : DrainOk (drainStep s i).2 := by
  cases i with
  | call i => exact h.callStep hr hg
  | getExitProcess daemon ipcNs =>
    obtain ⟨hdaemon, _⟩ := hg
    refine ⟨fun d l hl => ?_, fun d l localPid globalPid hl hfound => ?_⟩
    · by_cases hd : d = daemon
      · subst hd
        have hl : Function.update s.handler d (some ⟨ipcNs, getExitProcess s.kmod ipcNs⟩) d = some l := hl
        rw [Function.update_self] at hl
        cases hl
        exact hdaemon
      · exact h.caller d l ((Function.update_of_ne hd _ _).symm.trans hl)
    · by_cases hd : d = daemon
      · subst hd
        have hl : Function.update s.handler d (some ⟨ipcNs, getExitProcess s.kmod ipcNs⟩) d = some l := hl
        rw [Function.update_self] at hl
        cases hl
        obtain ⟨p, hp, hns, hexited, hlocal, rfl⟩ := getExitProcess_eq_some hfound
        exact ⟨p, findProcessInfo_self hr hp, hlocal, hns, hexited⟩
      · exact h.found d l _ _ ((Function.update_of_ne hd _ _).symm.trans hl) hfound
  | copyFailed daemon =>
    have hother : ∀ {d : Pid} {l : ExitHandler},
        Function.update s.handler daemon none d = some l → s.handler d = some l := by
      intro d l hl
      by_cases hd : d = daemon
      · rw [hd, Function.update_self] at hl
        cases hl
      · rwa [Function.update_of_ne hd] at hl
    exact ⟨fun d l hl => h.caller d l (hother hl),
      fun d l localPid globalPid hl hfound => h.found d l _ _ (hother hl) hfound⟩
  | commitExitProcess daemon =>
    obtain ⟨l, hl⟩ := Option.isSome_iff_exists.mp hg
    exact h.commitStep hr hl

theorem run_drainOk {tr : List DrainEvent} {s : DrainState}
    (h : Transition.Run daemons Daemonlike tr s) : DrainOk s := by
  refine Transition.Run.history (P := fun _ s => DrainOk s) ?_ ?_ h
  · intro s hs
    refine ⟨fun d l hl => ?_, fun d l _ _ hl => ?_⟩ <;> rw [hs.2 d] at hl <;> cases hl
  · exact fun tr s i hr ih hg => ih.step (drain_reachable hr) hg

/-! ## Over a run -/

/-- The call of `daemon` whose second phase is still to come has read `found`: its
first phase is in the past and nothing has ended the call since. -/
def HasRead (before : List DrainEvent) (daemon : Pid) (ipcNs : IpcNs) (found : Option (Pid × Pid)) :
    Prop :=
  ∃ (between : List DrainEvent) (e : DrainEvent) (rest : List DrainEvent),
    before = between ++ e :: rest ∧ e.input = .getExitProcess daemon ipcNs ∧
    e.output = some (.exitProcess found) ∧ ∀ e' ∈ between,
      e'.input ≠ .copyFailed daemon ∧ e'.input ≠ .commitExitProcess daemon

theorem run_hasRead {tr : List DrainEvent} {s : DrainState}
    (h : Transition.Run daemons Daemonlike tr s) {daemon : Pid} {l : ExitHandler}
    (hl : s.handler daemon = some l) : HasRead tr daemon l.ipcNs l.found := by
  induction h generalizing l with
  | init h => rw [h.2] at hl; cases hl
  | @step tr s i hr hg ih =>
    -- a call that goes on was read before this step
    have hold : s.handler daemon = some l → i ≠ .copyFailed daemon → i ≠ .commitExitProcess daemon →
        HasRead (⟨s, i, (drainStep s i).1⟩ :: tr) daemon l.ipcNs l.found := by
      intro hl hcopy hcommit
      obtain ⟨between, e, rest, rfl, hin, hout, hends⟩ := ih hl
      refine ⟨_ :: between, e, rest, rfl, hin, hout, fun e' he' => ?_⟩
      rcases List.mem_cons.mp he' with rfl | he'
      · exact ⟨hcopy, hcommit⟩
      · exact hends e' he'
    have hupdate : ∀ {d : Pid} {v : Option ExitHandler},
        Function.update s.handler d v daemon = some l →
          (d = daemon ∧ v = some l) ∨ (d ≠ daemon ∧ s.handler daemon = some l) := by
      intro d v hv
      by_cases hd : daemon = d
      · subst hd
        rw [Function.update_self] at hv
        exact .inl ⟨rfl, hv⟩
      · rw [Function.update_of_ne hd] at hv
        exact .inr ⟨fun h => hd h.symm, hv⟩
    cases i with
    | call i => exact hold hl (by simp) (by simp)
    | getExitProcess d ipcNs =>
      rcases hupdate hl with ⟨rfl, hv⟩ | ⟨_, hl⟩
      · cases hv
        exact ⟨[], _, tr, rfl, rfl, rfl, fun e' he' => (by cases he')⟩
      · exact hold hl (by simp) (by simp)
    | copyFailed d =>
      rcases hupdate hl with ⟨_, hv⟩ | ⟨hne, hl⟩
      · cases hv
      · exact hold hl (fun h => hne (DrainInput.copyFailed.inj h)) (by simp)
    | commitExitProcess d =>
      obtain ⟨l', hl'⟩ := Option.isSome_iff_exists.mp hg
      have hl : (drainStep s (.commitExitProcess d)).2.handler daemon = some l := hl
      rw [drainStep_commit hl'] at hl
      rcases hupdate hl with ⟨_, hv⟩ | ⟨hne, hl⟩
      · cases hv
      · exact hold hl (by simp) fun h => hne (DrainInput.commitExitProcess.inj h)

/-- A process other than an unlink daemon is registered under the pid. -/
def holdsRegistration (σ : Kmod) (pid : Pid) : Bool :=
  (findProcessInfo σ pid).any fun p => p.role ≠ .unlinkDaemon

/-- The event registers a process other than an unlink daemon under the pid. -/
def DrainState.registers (pid : Pid) (ev : DrainEvent) : Bool :=
  (findProcessInfo ev.pre.kmod pid).isNone && holdsRegistration (drainStep ev.pre ev.input).2.kmod pid

/-- The event hands the pid to a daemon: it was copied out and the second phase runs. -/
def DrainState.reports (pid : Pid) (ev : DrainEvent) : Bool :=
  match ev.input with
  | .commitExitProcess daemon =>
    (ev.pre.handler daemon).any fun l => l.found.map Prod.snd = some pid
  | _ => false

theorem holdsRegistration_iff {pid : Pid} : holdsRegistration σ pid = true ↔
    ∃ p, findProcessInfo σ pid = some p ∧ p.role ≠ .unlinkDaemon := by
  unfold holdsRegistration
  cases findProcessInfo σ pid <;> simp

/-- A call other than a commit keeps the registrations, and may make one. -/
private theorem holds_callStep {s : DrainState} (hr : Reachable s.kmod) {i : Input}
    (hg : Daemonlike s (.call i)) (pid : Pid) :
    holdsRegistration (step s.kmod i).2 pid = true ↔ holdsRegistration s.kmod pid = true ∨
      (findProcessInfo s.kmod pid = none ∧ holdsRegistration (step s.kmod i).2 pid = true) := by
  obtain ⟨_, hcommit, _, hdemote⟩ := hg
  have hr' : Reachable (step s.kmod i).2 := Transition.Reachable.step hr i
  constructor
  · intro hpost
    cases hfind : findProcessInfo s.kmod pid with
    | none => exact .inr ⟨rfl, hpost⟩
    | some p =>
      refine .inl (holdsRegistration_iff.mpr ⟨p, hfind, fun hrole => ?_⟩)
      obtain ⟨p', hp', hrole'⟩ := holdsRegistration_iff.mp hpost
      obtain ⟨hmem, rfl⟩ := findProcessInfo_mem hfind
      obtain ⟨hmem', hpid'⟩ := findProcessInfo_mem hp'
      by_cases hexit : i.call = .processExitCleanup p.globalPid
      · -- the exit cleanup of a daemon leaves nothing under its pid
        have hprocs : (step s.kmod i).2.procInfoHtable = exitedProcs s.kmod p := by
          obtain ⟨env, call⟩ := i
          subst hexit
          exact (processExitCleanup_world hfind).1
        rw [hprocs] at hmem'
        rcases (mem_exitedProcs (reachable_poolsOk hr).pids hmem).mp hmem' with ⟨_, hne⟩ | ⟨hne, _⟩
        · exact hne hpid'
        · exact hne hrole
      -- any other call keeps the registration with its role
      · obtain ⟨q, hq, hsame⟩ := registration_persists hr hcommit hmem fun _ =>
          ⟨hexit, fun hcall => hdemote _ _ hcall ⟨p, hfind, hrole, rfl⟩⟩
        have heq := HTable.eq_of_key_eq (reachable_poolsOk hr').pids hq hmem'
          (hsame.globalPid.trans hpid'.symm)
        exact hrole' (heq ▸ hsame.daemon.mpr hrole)
  · rintro (hpre | ⟨_, hpost⟩)
    · obtain ⟨p, hfind, hrole⟩ := holdsRegistration_iff.mp hpre
      obtain ⟨hmem, rfl⟩ := findProcessInfo_mem hfind
      obtain ⟨p', hp', hsame⟩ := registration_persists hr hcommit hmem fun h => absurd h hrole
      refine holdsRegistration_iff.mpr ⟨p', ?_, fun h => hrole (hsame.daemon.mp h)⟩
      exact hsame.globalPid ▸ findProcessInfo_self hr' hp'
    · exact hpost

private theorem holdsRegistration_of_none {σ : Kmod} {pid : Pid}
    (h : findProcessInfo σ pid = none) : holdsRegistration σ pid = false := by
  unfold holdsRegistration
  rw [h]
  rfl

private theorem holdsRegistration_congr {σ σ' : Kmod} {pid : Pid}
    (h : findProcessInfo σ' pid = findProcessInfo σ pid) :
    holdsRegistration σ' pid = holdsRegistration σ pid := by
  unfold holdsRegistration
  rw [h]

/-- A commit takes out the registration that was reported, and no other. -/
private theorem Commits.balance {σ σ' : Kmod} {daemon : Pid} {l : ExitHandler}
    (h : Commits σ daemon l σ') {pid : Pid} (hpid : 0 ≤ pid) :
    (holdsRegistration σ pid).toNat =
      (decide (l.found.map Prod.snd = some pid)).toNat + (holdsRegistration σ' pid).toNat := by
  have hgone (hnone : ∀ q, l.found.map Prod.snd = some q → q < 0) :
      decide (l.found.map Prod.snd = some pid) = false :=
    decide_eq_false fun heq => absurd hpid (Int.not_le.mpr (hnone pid heq))
  cases h with
  | @drained localPid globalPid q hfound _ hq _ _ _ hrole =>
    rw [hfound, Option.map_some]
    -- the registration that was read goes, and it was reported
    by_cases hp : globalPid = pid
    · subst hp
      have hpre : holdsRegistration σ globalPid = true := holdsRegistration_iff.mpr ⟨q, hq, hrole⟩
      rw [hpre, holdsRegistration_of_none (findProcessInfo_dropProcess_self globalPid)]
      simp
    · have hne : decide (some globalPid = some pid) = false :=
        decide_eq_false fun h => hp (Option.some.inj h)
      rw [hne, holdsRegistration_congr (findProcessInfo_dropProcess_of_ne (Ne.symm hp))]
      exact (Nat.zero_add _).symm
  | @left p hnone hp hrole =>
    rw [hgone hnone]
    by_cases hd : pid = daemon
    · -- a daemon's own registration does not count
      subst hd
      have hpre : holdsRegistration σ pid = false := by
        unfold holdsRegistration
        simp [hp, hrole]
      have hdropped : findProcessInfo ((σ.dropProcess pid).setMem (freeMemory pid σ.mem)) pid =
          none := findProcessInfo_dropProcess_self pid
      rw [hpre, holdsRegistration_of_none hdropped]
      rfl
    · have hkeep : findProcessInfo ((σ.dropProcess daemon).setMem (freeMemory daemon σ.mem)) pid =
          findProcessInfo σ pid := findProcessInfo_dropProcess_of_ne hd
      rw [holdsRegistration_congr hkeep]
      exact (Nat.zero_add _).symm
  | nothing hnone =>
    rw [hgone hnone]
    exact (Nat.zero_add _).symm

/-- What one step does to the balance of registrations and reports of one pid. -/
private theorem balance_step {s : DrainState} (h : DrainOk s) (hr : Reachable s.kmod) {i : DrainInput}
    (hg : Daemonlike s i) {pid : Pid} (hpid : 0 ≤ pid) (o : Option Reply) :
    (DrainState.registers pid ⟨s, i, o⟩).toNat + (holdsRegistration s.kmod pid).toNat =
      (DrainState.reports pid ⟨s, i, o⟩).toNat +
        (holdsRegistration (drainStep s i).2.kmod pid).toNat := by
  -- away from the calls of processes nobody registers, so only what was held can be reported
  have hdaemon (hheld : (holdsRegistration s.kmod pid).toNat =
      (DrainState.reports pid ⟨s, i, o⟩).toNat +
        (holdsRegistration (drainStep s i).2.kmod pid).toNat) :
      (DrainState.registers pid ⟨s, i, o⟩).toNat + (holdsRegistration s.kmod pid).toNat =
        (DrainState.reports pid ⟨s, i, o⟩).toNat +
          (holdsRegistration (drainStep s i).2.kmod pid).toNat := by
    have hnobody : DrainState.registers pid ⟨s, i, o⟩ = false := by
      show ((findProcessInfo s.kmod pid).isNone &&
        holdsRegistration (drainStep s i).2.kmod pid) = false
      cases hfind : findProcessInfo s.kmod pid with
      | some p => rfl
      | none =>
        rw [holdsRegistration_of_none hfind] at hheld
        have hzero : (holdsRegistration (drainStep s i).2.kmod pid).toNat = 0 :=
          (Nat.add_eq_zero_iff.mp hheld.symm).2
        rw [Bool.toNat_eq_zero.mp hzero]
        rfl
    rw [hnobody, ← hheld]
    exact Nat.zero_add _
  cases i with
  | call i =>
    have hholds := holds_callStep hr hg pid
    show ((findProcessInfo s.kmod pid).isNone && holdsRegistration (step s.kmod i).2 pid).toNat + _ =
      0 + (holdsRegistration (step s.kmod i).2 pid).toNat
    cases hfind : findProcessInfo s.kmod pid with
    | none =>
      rw [holdsRegistration_of_none hfind]
      simp
    | some p =>
      have hiff : holdsRegistration (step s.kmod i).2 pid = holdsRegistration s.kmod pid := by
        rw [Bool.eq_iff_iff, hholds, hfind]
        simp
      simp [hiff]
  | getExitProcess daemon ipcNs => exact hdaemon (Nat.zero_add _).symm
  | copyFailed daemon => exact hdaemon (Nat.zero_add _).symm
  | commitExitProcess daemon =>
    obtain ⟨l, hl⟩ := Option.isSome_iff_exists.mp hg
    refine hdaemon ?_
    have hreports : DrainState.reports pid ⟨s, .commitExitProcess daemon, o⟩ =
        decide (l.found.map Prod.snd = some pid) := by
      simp only [DrainState.reports, hl, Option.any_some]
    rw [hreports, drainStep_commit hl]
    exact (h.commits hr hl).balance hpid

/-- The hand-off between exiting processes and the unlink daemons, over a run. -/
structure HandOff (tr : List DrainEvent) (s : DrainState) : Prop where
  oneDaemon : ∀ p ∈ s.kmod.procInfoHtable, ∀ q ∈ s.kmod.procInfoHtable, p.role = .unlinkDaemon →
    q.role = .unlinkDaemon → p.ipcNs = q.ipcNs → p = q
  /-- only a daemon that was told of it takes a registration out -/
  told : ∀ (later : List DrainEvent) ev before, tr = later ++ ev :: before →
    ∀ p ∈ ev.pre.kmod.procInfoHtable, p.role ≠ .unlinkDaemon →
    findProcessInfo (drainStep ev.pre ev.input).2.kmod p.globalPid = none →
      p.exited = true ∧ ∃ daemon, ev.input = .commitExitProcess daemon ∧
        HasRead before daemon p.ipcNs (some (p.localPid, p.globalPid))
  /-- every registration but the one that is there now was reported, and once -/
  once : ∀ pid, 0 ≤ pid → tr.countP (DrainState.registers pid) =
    tr.countP (DrainState.reports pid) + (holdsRegistration s.kmod pid).toNat
  /-- the first phase misses nothing -/
  complete : ∀ (later : List DrainEvent) ev before, tr = later ++ ev :: before → ∀ daemon ipcNs,
    ev.input = .getExitProcess daemon ipcNs → ev.output = some (.exitProcess none) →
    ∀ p ∈ ev.pre.kmod.procInfoHtable, p.ipcNs = ipcNs → p.exited = false
  /-- the second phase takes out an exited registration, or the calling daemon when
  nobody else of its namespace is registered -/
  spares : ∀ (later : List DrainEvent) ev before, tr = later ++ ev :: before → ∀ daemon,
    ev.input = .commitExitProcess daemon → ∀ p ∈ ev.pre.kmod.procInfoHtable,
    findProcessInfo (drainStep ev.pre ev.input).2.kmod p.globalPid = none →
      p.exited = true ∨ (p.globalPid = daemon ∧ p.role = .unlinkDaemon ∧
        ∀ q ∈ ev.pre.kmod.procInfoHtable, q.ipcNs = p.ipcNs → q = p)
  /-- without a daemon everybody who registers is told so -/
  spawned : ∀ (later : List DrainEvent) ev before, tr = later ++ ev :: before →
    ∀ env pid ipcNs raw domainId r,
    ev.input = .call ⟨env, .addProcess pid ipcNs raw domainId⟩ →
    ev.output = some (.processAdded (.ok r)) →
    (∀ p ∈ ev.pre.kmod.procInfoHtable, p.ipcNs = ipcNs → p.role ≠ .unlinkDaemon) →
      r.unlinkDaemonExist = false

/-- A registration that a call other than a commit takes out is an exiting daemon's. -/
private theorem callStep_keeps {s : DrainState} (hr : Reachable s.kmod) {i : Input}
    (hg : Daemonlike s (.call i)) {p : ProcessInfo} (hp : p ∈ s.kmod.procInfoHtable)
    (hrole : p.role ≠ .unlinkDaemon) : findProcessInfo (step s.kmod i).2 p.globalPid ≠ none := by
  obtain ⟨p', hp', hsame⟩ := registration_persists hr hg.2.1 hp fun h => absurd h hrole
  have hfind := findProcessInfo_self (Transition.Reachable.step hr i) hp'
  rw [hsame.globalPid] at hfind
  rw [show findProcessInfo (step s.kmod i).2 p.globalPid = some p' from hfind]
  simp

/-- Only the pid that was committed is missing afterwards. -/
private theorem commit_drops {s : DrainState} {pid q : Pid} {p : ProcessInfo}
    (hp : findProcessInfo s.kmod q = some p)
    (hgone : findProcessInfo (s.kmod.dropProcess pid) q = none) : q = pid := by
  by_contra hne
  rw [findProcessInfo_dropProcess_of_ne hne, hp] at hgone
  cases hgone

/-- Who is missing after a commit: an exited process that the daemon has read, or the daemon
itself, when it is alone in its namespace. -/
private theorem commit_takesOut {before : List DrainEvent} {s : DrainState} {daemon : Pid}
    (hrun : Transition.Run daemons Daemonlike before s)
    (hg : Daemonlike s (.commitExitProcess daemon)) {p : ProcessInfo}
    (hp : p ∈ s.kmod.procInfoHtable)
    (hgone : findProcessInfo (drainStep s (.commitExitProcess daemon)).2.kmod p.globalPid = none) :
    (p.exited = true ∧ HasRead before daemon p.ipcNs (some (p.localPid, p.globalPid))) ∨
      (p.globalPid = daemon ∧ p.role = .unlinkDaemon ∧
        ∀ q ∈ s.kmod.procInfoHtable, q.ipcNs = p.ipcNs → q = p) := by
  have hr := drain_reachable hrun
  have hself : findProcessInfo s.kmod p.globalPid = some p := findProcessInfo_self hr hp
  obtain ⟨l, hl⟩ := Option.isSome_iff_exists.mp hg
  have hread := run_hasRead hrun hl
  have hcommits := (run_drainOk hrun).commits hr hl
  rw [show (drainStep s (.commitExitProcess daemon)).2.kmod =
    (commitExitProcess s.kmod l.ipcNs l.globalPid daemon).2 by rw [drainStep_commit hl]] at hgone
  generalize (commitExitProcess s.kmod l.ipcNs l.globalPid daemon).2 = σ' at hcommits hgone
  cases hcommits with
  | @drained localPid globalPid q hfound _ hq hlocal hns hexited =>
    have hpid := commit_drops hself hgone
    rw [← hpid] at hq
    obtain rfl := Option.some.inj (hself.symm.trans hq)
    refine .inl ⟨hexited, ?_⟩
    rw [hns, hlocal, hpid, ← hfound]
    exact hread
  | @left q _ hq hqrole hns hlast =>
    have hpid := commit_drops hself hgone
    rw [← hpid] at hq
    obtain rfl := Option.some.inj (hself.symm.trans hq)
    exact .inr ⟨hpid, hqrole, fun r hrm hrns => hlast r hrm (hrns.trans hns)⟩
  | nothing =>
    rw [hself] at hgone
    cases hgone

/-- **The hand-off to the unlink daemons.** In every run of the daemons over the module
there is one daemon per namespace, a registration leaves exactly when its daemon was
told of it, nobody alive is taken out but an idle daemon that is alone, and a process
that registers while there is no daemon is told to start one. -/
theorem run_hand_off {tr : List DrainEvent} {s : DrainState}
    (h : Transition.Run daemons Daemonlike tr s) : HandOff tr s where
  oneDaemon := by
    intro p hp q hq hpr hqr hns
    have hr := drain_reachable h
    exact HTable.eq_of_key_eq (reachable_poolsOk hr).pids hp hq
      ((reachable_daemonsOk hr).one p hp q hq hpr hqr hns)
  told := by
    rintro later ⟨s, i, o⟩ before rfl p hp hrole hgone
    obtain ⟨hrun, hg, _, _⟩ := h.event
    have hr := drain_reachable hrun
    have hself := findProcessInfo_self hr hp
    -- a registration goes in a commit and in no other step of the daemons
    have hthere : findProcessInfo s.kmod p.globalPid ≠ none := by
      rw [show findProcessInfo s.kmod p.globalPid = some p from hself]
      simp
    cases i with
    | call i => exact absurd hgone (callStep_keeps hr hg hp hrole)
    | getExitProcess daemon ipcNs => exact absurd hgone hthere
    | copyFailed daemon => exact absurd hgone hthere
    | commitExitProcess daemon =>
      rcases commit_takesOut hrun hg hp hgone with ⟨hexited, hread⟩ | ⟨_, hdaemon, _⟩
      · exact ⟨hexited, daemon, rfl, hread⟩
      · exact absurd hdaemon hrole
  once := by
    intro pid hpid
    -- each registration is reported or still there; a step keeps the balance
    refine Transition.Run.history (P := fun tr s => tr.countP (DrainState.registers pid) =
      tr.countP (DrainState.reports pid) + (holdsRegistration s.kmod pid).toNat) ?_ ?_ h
    · rintro s ⟨⟨_, _, _, _, _, hs⟩, _⟩
      simp [hs, holdsRegistration, findProcessInfo, HTable.lookup, Kmod.loaded]
    · intro tr s i hrun ih hg
      have hstep := balance_step (run_drainOk hrun) (drain_reachable hrun) hg hpid (drainStep s i).1
      show List.countP _ (⟨s, i, (drainStep s i).1⟩ :: tr) =
        List.countP _ (⟨s, i, (drainStep s i).1⟩ :: tr) + (holdsRegistration (drainStep s i).2.kmod pid).toNat
      rw [List.countP_cons, List.countP_cons]
      have hnat : ∀ b : Bool, (if b = true then 1 else 0) = b.toNat := by decide
      rw [hnat, hnat]
      omega
  complete := by
    rintro later ⟨s, i, o⟩ before rfl daemon ipcNs rfl rfl p hp hns
    obtain ⟨_, _, hout, _⟩ := h.event
    have hnone : getExitProcess s.kmod ipcNs = none :=
      (Reply.exitProcess.inj (Option.some.inj hout)).symm
    unfold getExitProcess at hnone
    have hfind := List.find?_eq_none.mp (Option.map_eq_none_iff.mp hnone) p hp
    simpa [hns] using hfind
  spares := by
    rintro later ⟨s, i, o⟩ before rfl daemon rfl p hp hgone
    obtain ⟨hrun, hg, _, _⟩ := h.event
    exact (commit_takesOut hrun hg hp hgone).imp_left And.left
  spawned := by
    rintro later ⟨s, i, o⟩ before rfl env pid ipcNs raw domainId r rfl rfl hnone
    obtain ⟨_, _, hout, _⟩ := h.event
    have hreply := (addProcess_reply (Reply.processAdded.inj (Option.some.inj hout)).symm).1
    rw [hreply]
    refine Bool.eq_false_iff.mpr fun halive => ?_
    unfold hasAliveUnlinkDaemon at halive
    obtain ⟨p, hp, heq⟩ := List.any_eq_true.mp halive
    simp only [decide_eq_true_eq] at heq
    exact hnone p hp heq.1 heq.2

/-- Process 3 exits, and the daemon reads it, drains it, and leaves when it is alone. -/
theorem hand_off_of_one_process : ∃ tr s, HandOff tr s ∧
    tr.countP (DrainState.reports 3) = 1 ∧ s.kmod.procInfoHtable = [] := by
  have hinit : daemons.init ⟨.loaded (poolsOf 2), fun _ => none⟩ :=
    ⟨moduleInit_poolsOf (by decide) (by decide), fun _ => rfl⟩
  have hguarded : daemons.Guarded Daemonlike ⟨.loaded (poolsOf 2), fun _ => none⟩
      [.call ⟨.smooth, .addProcess 2 0 2 0⟩, .call ⟨.smooth, .addProcess 3 0 0 0⟩,
        .call ⟨.smooth, .processExitCleanup 3⟩, .getExitProcess 2 0, .commitExitProcess 2,
        .getExitProcess 2 0, .commitExitProcess 2] := by
    refine ⟨⟨by simp, by simp, by simp, by simp [Call.demotes]⟩,
      ⟨by simp, by simp, by simp, by simp [Call.demotes]⟩,
      ⟨by simp, by simp, fun _ _ => rfl, by simp [Call.demotes]⟩,
      ⟨⟨_, rfl, rfl, rfl⟩, rfl⟩, rfl, ⟨⟨_, rfl, rfl, rfl⟩, rfl⟩, rfl, trivial⟩
  exact ⟨_, _, run_hand_off ((Transition.Run.init hinit).exec hguarded), by decide, by decide⟩

end Agnocast
