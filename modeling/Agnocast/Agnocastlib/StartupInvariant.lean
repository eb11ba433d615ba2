import Agnocast.Agnocastlib.Initialize

/-!
# The client library — the processes and the module

An application is told which daemons exist when it registers, and forks the others. The
daemons come and go concurrently, each deciding under the module's lock. The invariant
`StartupOk` ties every running process to what the module has on its pid; its last part
is that each daemon an application wants either serves its scope or is a child of the
application with the claim still to be made.

* `step_untouched`       — what a call leaves of the pids that it is not about.
* `StartupOk`            — the invariant.
* `StartupOk.served`     — a daemon that ADD_PROCESS reports is a running process.
* `StartupOk.update`     — it is enough to look at the process that takes the step.
* `addProcess_ok`        — what a successful ADD_PROCESS has done.
-/

namespace Agnocast

variable {σ σ' : Kmod}

/-! ## What a call leaves alone -/

/-- The call is about the registration or the slots of the pid. -/
def Call.concerns (pid : Pid) : Call → Prop
  | .addProcess q _ _ _ => q = pid
  | .processExitCleanup q => q = pid
  | .commitExitProcess _ globalPid callerPid => globalPid = pid ∨ callerPid = pid
  | .notifyBridgeShutdown q => q = pid
  | .checkAndRequestBridgeShutdown q _ => q = pid
  | .addDiscoveryAgent q _ _ => q = pid
  | .discoveryAgentShouldExit q _ _ _ => q = pid
  | _ => False

/-- The module has the same on the pid. -/
structure Untouched (σ σ' : Kmod) (pid : Pid) : Prop where
  find : findProcessInfo σ' pid = findProcessInfo σ pid
  slots : ∀ a : DiscoveryAgentInfo, a.pid = pid →
    (a ∈ σ'.discoveryAgentHtable ↔ a ∈ σ.discoveryAgentHtable)

theorem Untouched.refl (σ : Kmod) (pid : Pid) : Untouched σ σ pid := ⟨rfl, fun _ _ => .rfl⟩

private theorem step_find (hr : Reachable σ) {i : Input} {pid : Pid} (h : ¬ i.call.concerns pid) :
    findProcessInfo (step σ i).2 pid = findProcessInfo σ pid := by
  have hnd := (reachable_poolsOk hr).pids
  have hnd' := (reachable_poolsOk (Transition.Reachable.step hr i)).pids
  have hchange := step_procs (Reachable.wellFormed hr) i
  show HTable.lookup _ _ (step σ i).2.procInfoHtable = HTable.lookup _ _ σ.procInfoHtable
  change ((step σ i).2.procInfoHtable.map _).Nodup at hnd'
  generalize (step σ i).2.procInfoHtable = procs at hchange hnd' ⊢
  generalize (step σ i).2.mem = m at hchange
  cases hchange with
  | same => rfl
  | @registered q ipcNs raw domainId role pool hcall =>
    rw [hcall] at h
    refine HTable.lookup_congr hnd' hnd fun p hp => ?_
    rw [HTable.mem_hashAdd]
    refine or_iff_right fun heq => h ?_
    rw [heq] at hp
    exact hp
  | @exited q p hcall hp =>
    rw [hcall] at h
    obtain ⟨hmem, rfl⟩ := findProcessInfo_mem hp
    refine HTable.lookup_congr hnd' hnd fun p' hp' => ?_
    rw [mem_exitedProcs hnd hmem]
    have hne : p'.globalPid ≠ p.globalPid := fun heq => h (heq.symm.trans hp')
    constructor
    · rintro (⟨hp', _⟩ | ⟨_, rfl⟩)
      · exact hp'
      · exact absurd rfl hne
    · exact fun hp' => .inl ⟨hp', hne⟩
  | drained hcall =>
    rw [hcall] at h
    exact HTable.lookup_hashDel_of_ne (fun heq => h (.inl heq.symm)) _
  | deregistered hcall =>
    rw [hcall] at h
    exact HTable.lookup_hashDel_of_ne (fun heq => h (.inr heq.symm)) _
  | @demoted q hcall =>
    have hne : pid ≠ q := by
      rintro rfl
      rcases hcall with hcall | ⟨_, hcall⟩ <;> rw [hcall] at h <;> exact h rfl
    refine (HTable.lookup_modify ?_ _).trans (if_neg hne)
    exact fun _ => rfl
  | reported => rfl

private theorem step_slots (hr : Reachable σ) {i : Input} {pid : Pid} (h : ¬ i.call.concerns pid)
    {a : DiscoveryAgentInfo} (ha : a.pid = pid) :
    a ∈ (step σ i).2.discoveryAgentHtable ↔ a ∈ σ.discoveryAgentHtable := by
  have hchange := step_agents (Reachable.wellFormed hr) i
  generalize (step σ i).2.discoveryAgentHtable = agents at hchange ⊢
  cases hchange with
  | same => exact .rfl
  | claimed hcall =>
    rw [hcall] at h
    rw [HTable.mem_hashAdd]
    refine or_iff_right fun heq => h ?_
    rw [heq] at ha
    exact ha
  | @left q hcall =>
    have hne : q ≠ pid := by
      rintro rfl
      rcases hcall with hcall | ⟨_, _, hcall, _⟩ <;> rw [hcall] at h <;> exact h rfl
    refine List.mem_eraseP_of_neg ?_
    unfold DiscoveryAgentInfo.ownedBy
    rw [ha, decide_eq_true_eq]
    exact fun heq => hne heq.symm

/-- **A call leaves alone** every pid that it is not about. -/
theorem step_untouched (hr : Reachable σ) {i : Input} {pid : Pid} (h : ¬ i.call.concerns pid) :
    Untouched σ (step σ i).2 pid :=
  ⟨step_find hr h, fun _ ha => step_slots hr h ha⟩

/-! ## What the module has on a process -/

/-- The role in which a process of the phase is registered, if it is. -/
def ProcessPhase.registeredAs : ProcessPhase → Option ProcessRole
  | .forking _ | .initialized => some .application
  | .serving .unlinkDaemon => some .unlinkDaemon
  | .serving .bridgeManager => some .bridgeManager
  | _ => none

theorem ProcessPhase.servesAs_iff {phase : ProcessPhase} :
    (phase.servesAs = some .unlinkDaemon ↔ phase.registeredAs = some .unlinkDaemon) ∧
      (phase.servesAs = some .bridgeManager ↔ phase.registeredAs = some .bridgeManager) := by
  unfold ProcessPhase.registeredAs ProcessPhase.servesAs
  cases phase with
  | serving d => cases d <;> simp
  | _ => simp

/-- The daemon that the process is or is about to be. -/
def ProcessPhase.provides : ProcessPhase → Option Daemon
  | .joining d _ => some d
  | phase => phase.servesAs

/-- Both ask for the same daemon: there is one unlink daemon in an ipc namespace, and one
of the others in a domain. -/
structure SameScope (d : Daemon) (l l' : Launch) : Prop where
  ipcNs : l.ipcNs = l'.ipcNs
  domainId : d ≠ .unlinkDaemon → l.domainId = l'.domainId

theorem SameScope.refl (d : Daemon) (l : Launch) : SameScope d l l := ⟨rfl, fun _ => rfl⟩

theorem SameScope.trans {d : Daemon} {l l' l'' : Launch} (h : SameScope d l l')
    (h' : SameScope d l' l'') : SameScope d l l'' :=
  ⟨h.ipcNs.trans h'.ipcNs, fun hd => (h.domainId hd).trans (h'.domainId hd)⟩

/-- The registration is the live one of the process. -/
structure RegistersTask (t : ProcessTask) (p : ProcessInfo) : Prop where
  role : t.phase.registeredAs = some p.role
  live : p.exited = false
  ipcNs : p.ipcNs = t.launch.ipcNs
  domainId : p.role ≠ .unlinkDaemon → p.domainId = t.launch.domainId

/-- The slot of a discovery agent. -/
def Launch.slot (l : Launch) (pid : Pid) : DiscoveryAgentInfo := ⟨pid, l.ipcNs, l.domainId⟩

/-- What the module has on a running process. -/
structure Backed (σ : Kmod) (pid : Pid) (t : ProcessTask) : Prop where
  unknown : t.phase.registeredAs = none → findProcessInfo σ pid = none
  known : t.phase.registeredAs ≠ none → ∃ p, findProcessInfo σ pid = some p ∧ RegistersTask t p
  slots : ∀ a ∈ σ.discoveryAgentHtable, a.pid = pid →
    t.phase.servesAs = some .discoveryAgent ∧ a = t.launch.slot pid
  held : t.phase.servesAs = some .discoveryAgent → t.launch.slot pid ∈ σ.discoveryAgentHtable

/-- What it has on a pid under which nobody runs: a former application or manager at most. -/
structure Gone (σ : Kmod) (pid : Pid) : Prop where
  role : ∀ p, findProcessInfo σ pid = some p → p.role = .application
  slots : ∀ a ∈ σ.discoveryAgentHtable, a.pid ≠ pid

/-- What it has on the pid fits the process there. -/
def FitsTask (σ : Kmod) (pid : Pid) : Option ProcessTask → Prop
  | none => Gone σ pid
  | some t => Backed σ pid t

theorem FitsTask.congr {pid : Pid} {t : Option ProcessTask} (h : FitsTask σ pid t)
    (hsame : Untouched σ σ' pid) :    FitsTask σ' pid t := by
  cases t with
  | none =>
    refine ⟨fun p hp => Gone.role h p (hsame.find.symm.trans hp), fun a ha hpid => ?_⟩
    exact Gone.slots h a ((hsame.slots a hpid).mp ha) hpid
  | some t =>
    refine ⟨fun hrole => hsame.find.trans (Backed.unknown h hrole), fun hrole => ?_, ?_, ?_⟩
    · obtain ⟨p, hp, hreg⟩ := Backed.known h hrole
      exact ⟨p, hsame.find.trans hp, hreg⟩
    · exact fun a ha hpid => Backed.slots h a ((hsame.slots a hpid).mp ha) hpid
    · exact fun hslot => (hsame.slots _ rfl).mpr (Backed.held h hslot)

/-- What the module has on a process that changes its phase, but neither its role nor
whether it holds a slot. -/
theorem Backed.phase {pid : Pid} {l : Launch} {phase phase' : ProcessPhase}
    (h : Backed σ pid ⟨l, phase⟩)
    (hrole : phase'.registeredAs = phase.registeredAs)
    (hslot : phase'.servesAs = some .discoveryAgent ↔ phase.servesAs = some .discoveryAgent) :
    Backed σ pid ⟨l, phase'⟩ := by
  refine ⟨fun hnone => h.unknown (hrole.symm.trans hnone), fun hsome => ?_, fun a ha hpid => ?_,
    fun hs => h.held (hslot.mp hs)⟩
  · obtain ⟨p, hp, hreg⟩ := h.known fun hnone => hsome (hrole.trans hnone)
    exact ⟨p, hp, hrole.trans hreg.role, hreg.live, hreg.ipcNs, hreg.domainId⟩
  · obtain ⟨hs, heq⟩ := h.slots a ha hpid
    exact ⟨hslot.mpr hs, heq⟩

/-! ## The invariant -/

/-- Some process serves as the daemon in the scope. -/
def Served (s : Startup) (l : Launch) (d : Daemon) : Prop :=
  ∃ q t, s.tasks q = some t ∧ t.phase.servesAs = some d ∧ SameScope d t.launch l

/-- The daemon serves the scope, or a child that `parent` has forked for it is on its way. -/
def Provided (s : Startup) (l : Launch) (parent : Pid) (d : Daemon) : Prop :=
  (∃ child, s.tasks child = some ⟨l, .joining d parent⟩) ∨ Served s l d

/-- The daemons that the application wants are provided, but for those it still has to fork. -/
structure Covered (s : Startup) (pid : Pid) (t : ProcessTask) : Prop where
  initialized : t.phase = .initialized → ∀ d, t.launch.wants d = true → Provided s t.launch pid d
  forking : ∀ todo, t.phase = .forking todo → ∀ d, t.launch.wants d = true →
    d ∈ todo ∨ Provided s t.launch pid d

/-- The processes and the module agree. -/
structure StartupOk (s : Startup) : Prop where
  run : ∃ tr, Transition.Run daemons Daemonlike tr s.drain
  fits : ∀ pid, FitsTask s.kmod pid (s.tasks pid)
  pids : ∀ p ∈ s.kmod.procInfoHtable, 0 < p.globalPid ∧ 0 < p.localPid
  pos : ∀ pid t, s.tasks pid = some t → 0 < pid
  covered : ∀ pid t, s.tasks pid = some t → Covered s pid t

variable {s s' : Startup}

theorem StartupOk.reachable (h : StartupOk s) : Reachable s.kmod := by
  obtain ⟨tr, hrun⟩ := h.run
  exact drain_reachable hrun

theorem StartupOk.drainOk (h : StartupOk s) : DrainOk s.drain := by
  obtain ⟨tr, hrun⟩ := h.run
  exact run_drainOk hrun

theorem StartupOk.backed (h : StartupOk s) {pid : Pid} {t : ProcessTask}
    (ht : s.tasks pid = some t) : Backed s.kmod pid t := by
  have hfits := h.fits pid
  rw [ht] at hfits
  exact hfits

theorem StartupOk.gone (h : StartupOk s) {pid : Pid} (ht : s.tasks pid = none) :
    Gone s.kmod pid := by
  have hfits := h.fits pid
  rw [ht] at hfits
  exact hfits

/-- A registration that is not an application's is a running process's. -/
theorem StartupOk.owner (h : StartupOk s) {p : ProcessInfo} (hp : p ∈ s.kmod.procInfoHtable)
    (hrole : p.role ≠ .application) :
    ∃ t, s.tasks p.globalPid = some t ∧ RegistersTask t p := by
  have hfind := findProcessInfo_self h.reachable hp
  cases ht : s.tasks p.globalPid with
  | none => exact absurd ((h.gone ht).role p hfind) hrole
  | some t =>
    have hback := h.backed ht
    have hreg : t.phase.registeredAs ≠ none := by
      intro hnone
      rw [hback.unknown hnone] at hfind
      cases hfind
    obtain ⟨p', hp', hreg⟩ := hback.known hreg
    obtain rfl := Option.some.inj (hfind.symm.trans hp')
    exact ⟨t, rfl, hreg⟩

/-- So is a slot. -/
theorem StartupOk.slotOwner (h : StartupOk s) {a : DiscoveryAgentInfo}
    (ha : a ∈ s.kmod.discoveryAgentHtable) :
    ∃ t, s.tasks a.pid = some t ∧ t.phase.servesAs = some .discoveryAgent ∧
      a = t.launch.slot a.pid := by
  cases ht : s.tasks a.pid with
  | none => exact absurd rfl ((h.gone ht).slots a ha)
  | some t =>
    obtain ⟨hserves, heq⟩ := (h.backed ht).slots a ha rfl
    exact ⟨t, rfl, hserves, heq⟩

/-- ADD_PROCESS reports the daemon. -/
def AddProcessReply.reports (args : AddProcessReply) : Daemon → Bool
  | .unlinkDaemon => args.unlinkDaemonExist
  | .bridgeManager => args.bridgeDaemonExist
  | .discoveryAgent => args.discoveryAgentExist

/-- **What ADD_PROCESS reports is there**: a process that serves the scope. -/
theorem StartupOk.served (h : StartupOk s) {l : Launch} {d : Daemon}
    (hreports : (daemonsAlive s.kmod l.ipcNs l.domainId).reports d = true) : Served s l d := by
  cases d with
  | unlinkDaemon =>
    have hreports : hasAliveUnlinkDaemon s.kmod l.ipcNs = true := hreports
    obtain ⟨p, hp, halive⟩ := List.any_eq_true.mp hreports
    obtain ⟨hns, hrole⟩ : p.ipcNs = l.ipcNs ∧ p.role = .unlinkDaemon := by simpa using halive
    obtain ⟨t, ht, hreg⟩ := h.owner hp (by rw [hrole]; decide)
    refine ⟨_, t, ht, ?_, hreg.ipcNs.symm.trans hns, fun hne => absurd rfl hne⟩
    exact ProcessPhase.servesAs_iff.1.mpr (hrole ▸ hreg.role)
  | bridgeManager =>
    obtain ⟨p, hp⟩ := hasAliveBridgeManager_iff.mp hreports
    obtain ⟨t, ht, hreg⟩ := h.owner hp.mem (by rw [hp.role]; decide)
    have hdom := hreg.domainId (by rw [hp.role]; decide)
    refine ⟨_, t, ht, ?_, hreg.ipcNs.symm.trans hp.ipcNs, fun _ => hdom.symm.trans hp.domainId⟩
    exact ProcessPhase.servesAs_iff.2.mpr (hp.role ▸ hreg.role)
  | discoveryAgent =>
    have hreports : (findDiscoveryAgent s.kmod l.ipcNs l.domainId).isSome = true := hreports
    obtain ⟨a, hfind⟩ := Option.isSome_iff_exists.mp hreports
    obtain ⟨hns, hdom⟩ : a.ipcNs = l.ipcNs ∧ a.domainId = l.domainId := by
      simpa using List.find?_some hfind
    obtain ⟨t, ht, hserves, heq⟩ := h.slotOwner (List.mem_of_find?_eq_some hfind)
    refine ⟨_, t, ht, hserves, ?_, fun _ => ?_⟩
    · rw [← hns, heq]
      rfl
    · rw [← hdom, heq]
      rfl

/-- The application is registered in its domain, and has not exited. -/
def IsApplication (s : Startup) (pid : Pid) (l : Launch) : Prop :=
  ∃ phase, s.tasks pid = some ⟨l, phase⟩ ∧ phase.registeredAs = some .application

theorem StartupOk.application (h : StartupOk s) {pid : Pid} {l : Launch}
    (ha : IsApplication s pid l) :
    ∃ p, findProcessInfo s.kmod pid = some p ∧ p.role = .application ∧ p.exited = false ∧
      p.ipcNs = l.ipcNs ∧ p.domainId = l.domainId := by
  obtain ⟨phase, ht, hphase⟩ := ha
  obtain ⟨p, hp, hreg⟩ := (h.backed ht).known (by rw [hphase]; simp)
  have hrole : p.role = .application := Option.some.inj (hreg.role.symm.trans hphase)
  exact ⟨p, hp, hrole, hreg.live, hreg.ipcNs, hreg.domainId (by rw [hrole]; decide)⟩

/-! ## One process at a time -/

/-- A provided daemon stays provided when one process changes, unless it was that one. -/
theorem Provided.update {parent : Pid} {new : Option ProcessTask} {l : Launch} {d : Daemon}
    (h : Provided s l parent d) (pid : Pid) (htasks : s'.tasks = Function.update s.tasks pid new)
    (hlost : ∀ t, s.tasks pid = some t → t.phase.provides = some d → SameScope d t.launch l →
      Served s' l d) : Provided s' l parent d := by
  rcases h with ⟨child, hchild⟩ | ⟨q, t, ht, hserves, hscope⟩
  · by_cases hpid : child = pid
    · subst hpid
      exact .inr (hlost _ hchild rfl (.refl d l))
    · refine .inl ⟨child, ?_⟩
      rw [htasks, Function.update_of_ne hpid, hchild]
  · right
    by_cases hpid : q = pid
    · subst hpid
      refine hlost t ht ?_ hscope
      revert hserves
      cases t.phase <;> simp [ProcessPhase.provides, ProcessPhase.servesAs]
    · refine ⟨q, t, ?_, hserves, hscope⟩
      rw [htasks, Function.update_of_ne hpid, ht]

/-- **One process takes a step.** The invariant stays when what the module has on the
others is as before, the process fits again, and no application loses a daemon with it. -/
theorem StartupOk.update (h : StartupOk s) {pid : Pid} {old new : Option ProcessTask}
    (hold : s.tasks pid = old) (hrun : ∃ tr, Transition.Run daemons Daemonlike tr s'.drain)
    (htasks : s'.tasks = Function.update s.tasks pid new) (hkmod : s'.kmod = σ')
    (hothers : ∀ q, q ≠ pid → Untouched s.kmod σ' q) (hself : FitsTask σ' pid new)
    (hpids : ∀ p ∈ σ'.procInfoHtable, 0 < p.globalPid ∧ 0 < p.localPid)
    (hpos : ∀ t, new = some t → 0 < pid) (hnew : ∀ t, new = some t → Covered s' pid t)
    (hlost : ∀ t d, old = some t → t.phase.provides = some d → ∀ q l, IsApplication s q l →
      SameScope d t.launch l → Served s' l d) : StartupOk s' := by
  subst hold hkmod
  refine ⟨hrun, fun q => ?_, hpids, fun q t ht => ?_, fun q t ht => ?_⟩
  · by_cases hq : q = pid
    · subst hq
      rw [htasks, Function.update_self]
      exact hself
    · rw [htasks, Function.update_of_ne hq]
      exact (h.fits q).congr (hothers q hq)
  · by_cases hq : q = pid
    · subst hq
      rw [htasks, Function.update_self] at ht
      exact hpos t ht
    · rw [htasks, Function.update_of_ne hq] at ht
      exact h.pos q t ht
  · by_cases hq : q = pid
    · subst hq
      rw [htasks, Function.update_self] at ht
      exact hnew t ht
    · rw [htasks, Function.update_of_ne hq] at ht
      have hcov := h.covered q t ht
      obtain ⟨l, phase⟩ := t
      refine ⟨fun hphase d hwants => ?_, fun todo hphase d hwants => ?_⟩ <;>
        have happ : IsApplication s q l := ⟨phase, ht, by
          have hphase : phase = _ := hphase
          rw [hphase]
          rfl⟩
      · exact (hcov.initialized hphase d hwants).update pid htasks
          fun t' ht' hp hscope => hlost t' d ht' hp q l happ hscope
      · exact (hcov.forking todo hphase d hwants).imp_right fun hprov =>
          hprov.update pid htasks fun t' ht' hp hscope => hlost t' d ht' hp q l happ hscope

/-! ## Calls of the module -/

/-- The calls of the processes are those that the drain of their exits asks for. -/
theorem StartupOk.daemonlike (h : StartupOk s) {i : Input}
    (hget : ∀ ipcNs, i.call ≠ .getExitProcess ipcNs)
    (hcommit : ∀ ipcNs globalPid callerPid, i.call ≠ .commitExitProcess ipcNs globalPid callerPid)
    (hexit : ∀ pid, i.call = .processExitCleanup pid → s.tasks pid = none)
    (hdemotes : ∀ pid, i.call.demotes pid → ∃ l, s.tasks pid = some ⟨l, .serving .bridgeManager⟩) :
    Daemonlike s.drain (.call i) := by
  refine ⟨hget, hcommit, fun pid hcall => ?_, fun pid ipcNs hcall hdaemon => ?_⟩
  · -- the caller of a GET_EXIT_PROCESS is a daemon, and under this pid nobody runs
    cases hl : s.drain.handler pid with
    | none => rfl
    | some l =>
      obtain ⟨p, hp, hrole, _⟩ := h.drainOk.caller pid l hl
      have happ := (h.gone (hexit pid hcall)).role p hp
      rw [hrole] at happ
      cases happ
  · obtain ⟨l, ht⟩ := hdemotes pid hcall
    obtain ⟨p, hp, hreg⟩ := (h.backed ht).known (by simp [ProcessPhase.registeredAs])
    obtain ⟨p', hp', hrole, _⟩ := hdaemon
    obtain rfl := Option.some.inj (hp.symm.trans hp')
    have hreg := hreg.role
    rw [hrole] at hreg
    cases hreg

theorem StartupOk.runCall (h : StartupOk s) {i : Input} (hg : Daemonlike s.drain (.call i)) :
    ∃ tr, Transition.Run daemons Daemonlike tr (s.call i).2.drain := by
  obtain ⟨tr, hrun⟩ := h.run
  exact ⟨_, .step (.call i) hrun hg⟩

/-- Where the pids of the registrations come from. -/
theorem step_pids (hr : Reachable σ) {i : Input}
    (hpids : ∀ p ∈ σ.procInfoHtable, 0 < p.globalPid ∧ 0 < p.localPid)
    (hadd : ∀ pid ipcNs role domainId, i.call = .addProcess pid ipcNs role domainId →
      0 < pid ∧ SeesItself i.env pid) :
    ∀ p ∈ (step σ i).2.procInfoHtable, 0 < p.globalPid ∧ 0 < p.localPid := by
  have hchange := step_procs (Reachable.wellFormed hr) i
  intro p hp
  generalize (step σ i).2.procInfoHtable = procs at hchange hp
  generalize (step σ i).2.mem = m at hchange
  cases hchange with
  | same => exact hpids p hp
  | @registered pid ipcNs raw domainId role pool hcall =>
    rcases HTable.mem_hashAdd.mp hp with rfl | hp
    · obtain ⟨hpos, q, hq, hqpos⟩ := hadd _ _ _ _ hcall
      refine ⟨hpos, ?_⟩
      show 0 < (i.env.convertPidToLocal pid).getD (-1)
      rw [hq]
      exact hqpos
    · exact hpids p hp
  | @exited pid q _ hq =>
    obtain ⟨hmem, rfl⟩ := findProcessInfo_mem hq
    rcases (mem_exitedProcs (reachable_poolsOk hr).pids hmem).mp hp with ⟨hp, _⟩ | ⟨_, rfl⟩
    · exact hpids p hp
    · exact hpids q hmem
  | drained => exact hpids p (HTable.mem_hashDel.mp hp).1
  | deregistered => exact hpids p (HTable.mem_hashDel.mp hp).1
  | demoted =>
    obtain ⟨q, hq, rfl⟩ := HTable.mem_modify.mp hp
    split
    · exact hpids q hq
    · exact hpids q hq
  | reported => exact hpids p hp

/-- **One process makes a call about its own pid.** -/
theorem StartupOk.callUpdate (h : StartupOk s) {pid : Pid} {old new : Option ProcessTask}
    (hold : s.tasks pid = old) {i : Input} (hg : Daemonlike s.drain (.call i))
    (hconcerns : ∀ q, i.call.concerns q → q = pid)
    (hadd : ∀ pid ipcNs role domainId, i.call = .addProcess pid ipcNs role domainId →
      0 < pid ∧ SeesItself i.env pid)
    (hself : FitsTask (step s.kmod i).2 pid new) (hpos : ∀ t, new = some t → 0 < pid)
    (hnew : ∀ t, new = some t → Covered ((s.call i).2.setTask pid new) pid t)
    (hlost : ∀ t d, old = some t → t.phase.provides = some d → ∀ q l, IsApplication s q l →
      SameScope d t.launch l → Served ((s.call i).2.setTask pid new) l d) :
    StartupOk ((s.call i).2.setTask pid new) := by
  refine h.update hold (h.runCall hg) rfl rfl (fun q hq => ?_) hself ?_ hpos hnew hlost
  · exact step_untouched h.reachable fun hc => hq (hconcerns q hc)
  · exact step_pids h.reachable h.pids hadd

/-- **One process makes a step of its own**, with no call. -/
theorem StartupOk.setTask (h : StartupOk s) {pid : Pid} {old new : Option ProcessTask}
    (hold : s.tasks pid = old) (hself : FitsTask s.kmod pid new)
    (hpos : ∀ t, new = some t → 0 < pid)
    (hnew : ∀ t, new = some t → Covered (s.setTask pid new) pid t)
    (hlost : ∀ t d, old = some t → t.phase.provides = some d → ∀ q l, IsApplication s q l →
      SameScope d t.launch l → Served (s.setTask pid new) l d) : StartupOk (s.setTask pid new) :=
  h.update hold h.run rfl rfl (fun q _ => .refl s.kmod q) hself h.pids hpos hnew hlost

/-- Only an application is promised anything. -/
theorem Covered.trivial {pid : Pid} {t : ProcessTask}
    (h : t.phase.registeredAs ≠ some .application) : Covered s pid t := by
  refine ⟨fun hphase => absurd ?_ h, fun todo hphase => absurd ?_ h⟩ <;> rw [hphase] <;> rfl

/-- **A child is forked**, or a program is executed. -/
theorem StartupOk.fork (h : StartupOk s) {child : Pid} (hfree : FreePid s child) {t : ProcessTask}
    (hrole : t.phase.registeredAs = none) (hserves : t.phase.servesAs = none) :
    StartupOk (s.setTask child (some t)) := by
  refine h.setTask hfree.task ?_ (fun _ _ => hfree.pos) ?_ (by simp)
  · refine ⟨fun _ => hfree.process, fun hne => absurd hrole hne,
      fun a ha hpid => absurd hpid (hfree.agent a ha), fun hs => ?_⟩
    rw [hserves] at hs
    cases hs
  · rintro t ⟨⟩
    exact .trivial (by simp [hrole])

theorem Served.of_tasks {l : Launch} {d : Daemon} {new : Option ProcessTask}
    (h : Served s l d) (pid : Pid) (htasks : s'.tasks = Function.update s.tasks pid new)
    (hnot : ∀ t, s.tasks pid = some t → t.phase.servesAs ≠ some d) : Served s' l d := by
  obtain ⟨q, t, ht, hserves, hscope⟩ := h
  refine ⟨q, t, ?_, hserves, hscope⟩
  have hq : q ≠ pid := by
    rintro rfl
    exact hnot t ht hserves
  rw [htasks, Function.update_of_ne hq, ht]

theorem Served.scope {l l' : Launch} {d : Daemon} (h : Served s l d) (hscope : SameScope d l l') :
    Served s l' d := by
  obtain ⟨q, t, ht, hserves, hscope'⟩ := h
  exact ⟨q, t, ht, hserves, hscope'.trans hscope⟩

/-- The processes stay where they are. -/
theorem StartupOk.sameTasks (h : StartupOk s)
    (hrun : ∃ tr, Transition.Run daemons Daemonlike tr s'.drain) (htasks : s'.tasks = s.tasks)
    (hkmod : s'.kmod = σ') (hothers : ∀ q, Untouched s.kmod σ' q ∨ (s.tasks q = none ∧ Gone σ' q))
    (hpids : ∀ p ∈ σ'.procInfoHtable, 0 < p.globalPid ∧ 0 < p.localPid) : StartupOk s' := by
  subst hkmod
  have hprov : ∀ {l parent d}, Provided s l parent d → Provided s' l parent d := by
    intro l parent d hp
    unfold Provided Served at hp ⊢
    rw [htasks]
    exact hp
  refine ⟨hrun, fun q => ?_, hpids, fun q t ht => h.pos q t (htasks ▸ ht), fun q t ht => ?_⟩
  · rw [htasks]
    rcases hothers q with hsame | ⟨hnone, hgone⟩
    · exact (h.fits q).congr hsame
    · rw [hnone]
      exact hgone
  · rw [htasks] at ht
    have hcov := h.covered q t ht
    exact ⟨fun hphase d hwants => hprov (hcov.initialized hphase d hwants),
      fun todo hphase d hwants => (hcov.forking todo hphase d hwants).imp_right hprov⟩

/-- The processes and the module stay as they are. -/
theorem StartupOk.sameKmod (h : StartupOk s)
    (hrun : ∃ tr, Transition.Run daemons Daemonlike tr s'.drain) (htasks : s'.tasks = s.tasks)
    (hkmod : s'.kmod = s.kmod) : StartupOk s' :=
  h.sameTasks hrun htasks hkmod (fun q => .inl (.refl s.kmod q)) h.pids

/-! ## What the ioctls tell a process -/

/-- ADD_PROCESS has told the caller that the daemon it wants to be exists. -/
def IsTold (σ : Kmod) (ipcNs : IpcNs) (domainId : Nat) (role : ProcessRole) : Prop :=
  (role = .bridgeManager ∧ hasAliveBridgeManager σ ipcNs domainId = true) ∨
    (role = .unlinkDaemon ∧ hasAliveUnlinkDaemon σ ipcNs = true)

theorem addProcess_told {env : Env} {pid : Pid} {ipcNs : IpcNs} {raw domainId : Nat}
    {role : ProcessRole} (hrole : decodeRole raw = some role)
    (h : addProcess σ env pid ipcNs raw domainId = (.ok (daemonsAlive σ ipcNs domainId), σ)) :
    IsTold σ ipcNs domainId role := by
  unfold addProcess at h
  simp only [hrole] at h
  split at h
  · cases h
  split at h
  · cases h
  split at h
  · next hmanager => exact .inl hmanager
  split at h
  · next hdaemon => exact .inr hdaemon
  split at h
  · cases h
  -- a caller that gets this far has a pool to show, or an error
  rcases assignMemory_cases (env.kmalloc .mappedPid) pid σ.mem with heq | ⟨pool, _, heq⟩ <;>
    rw [heq] at h <;> cases h

/-- **What a successful ADD_PROCESS has done**: it has found the daemon that the caller
wants to be, or it has registered the caller. -/
theorem addProcess_ok {env : Env} {pid : Pid} {ipcNs : IpcNs} {raw domainId : Nat}
    {args : AddProcessReply} (h : (addProcess σ env pid ipcNs raw domainId).1 = .ok args) :
    (∀ d, args.reports d = (daemonsAlive σ ipcNs domainId).reports d) ∧
    ∃ role, decodeRole raw = some role ∧
      ((IsTold σ ipcNs domainId role ∧ (addProcess σ env pid ipcNs raw domainId).2 = σ) ∨
      (¬ IsTold σ ipcNs domainId role ∧ ∃ place pool,
        (addProcess σ env pid ipcNs raw domainId).2.procInfoHtable =
          HTable.hashAdd place σ.procInfoHtable (newProcess env pid ipcNs role domainId pool) ∧
        (addProcess σ env pid ipcNs raw domainId).2.discoveryAgentHtable =
          σ.discoveryAgentHtable)) := by
  rcases addProcess_cases (σ := σ) env pid ipcNs raw domainId with ⟨e, heq⟩ | heq |
    ⟨role, pool, hrole, hadmits, _, heq⟩
  · rw [heq] at h
    cases h
  · cases hrole : decodeRole raw with
    | none =>
      have hnone : addProcess σ env pid ipcNs raw domainId = (.error .EINVAL, σ) := by
        unfold addProcess
        rw [hrole]
      rw [hnone] at h
      cases h
    | some role =>
      have htold := addProcess_told hrole heq
      rw [heq] at h ⊢
      cases h
      exact ⟨fun d => rfl, role, rfl, .inl ⟨htold, rfl⟩⟩
  · rw [heq] at h ⊢
    cases h
    refine ⟨fun d => by cases d <;> rfl, role, hrole, .inr ⟨?_, _, pool, rfl, rfl⟩⟩
    rintro (⟨hr, halive⟩ | ⟨hr, halive⟩)
    · rw [hadmits.manager hr] at halive
      cases halive
    · rw [hadmits.daemon hr] at halive
      cases halive

/-- An unregistered process registers. -/
theorem Backed.register {pid : Pid} {l : Launch} {phase phase' : ProcessPhase} {env : Env}
    {role : ProcessRole} {domainId place pool : Nat} (h : Backed σ pid ⟨l, phase⟩)
    (hr' : Reachable σ')
    (hprocs : σ'.procInfoHtable =
      HTable.hashAdd place σ.procInfoHtable (newProcess env pid l.ipcNs role domainId pool))
    (hagents : σ'.discoveryAgentHtable = σ.discoveryAgentHtable)
    (hphase : phase.servesAs ≠ some .discoveryAgent)
    (hphase' : phase'.servesAs ≠ some .discoveryAgent) (hrole : phase'.registeredAs = some role)
    (hdomain : role ≠ .unlinkDaemon → domainId = l.domainId) : Backed σ' pid ⟨l, phase'⟩ := by
  refine ⟨fun hnone => ?_, fun _ => ⟨newProcess env pid l.ipcNs role domainId pool, ?_, ?_⟩,
    fun a ha hpid => ?_, fun hs => absurd hs hphase'⟩
  · rw [show phase'.registeredAs = none from hnone] at hrole
    cases hrole
  · exact findProcessInfo_self hr' (hprocs ▸ HTable.mem_hashAdd.mpr (.inl rfl))
  · exact ⟨hrole, rfl, rfl, fun hne => (if_neg hne).trans (hdomain hne)⟩
  · rw [hagents] at ha
    exact absurd (h.slots a ha hpid).1 hphase

/-- A process that the module does not know leaves nothing behind. -/
theorem Backed.forget {pid : Pid} {t : ProcessTask} (h : Backed σ pid t)
    (hrole : t.phase.registeredAs = none ∨ t.phase.registeredAs = some .application)
    (hslot : t.phase.servesAs ≠ some .discoveryAgent) : Gone σ pid := by
  refine ⟨fun p hp => ?_, fun a ha hpid => hslot (h.slots a ha hpid).1⟩
  rcases hrole with hnone | happ
  · rw [h.unknown hnone] at hp
    cases hp
  · obtain ⟨p', hp', hreg⟩ := h.known (by rw [happ]; simp)
    obtain rfl := Option.some.inj (hp.symm.trans hp')
    exact Option.some.inj (hreg.role.symm.trans happ)

theorem mem_daemonsToSpawn {l : Launch} {args : AddProcessReply} {d : Daemon} :
    d ∈ daemonsToSpawn l args ↔ l.wants d = true ∧ args.reports d = false := by
  have hmem : ∀ {c : Prop} [Decidable c] {d' : Daemon},
      d ∈ (if c then [d'] else []) ↔ c ∧ d = d' := by
    intro c _ d'
    split <;> simp [*]
  unfold daemonsToSpawn
  rw [List.mem_append, List.mem_append, hmem, hmem]
  cases d with
  | discoveryAgent =>
    simp only [reduceCtorEq, and_false, false_or, Launch.wants, AddProcessReply.reports]
    cases args.discoveryAgentExist <;> cases discoveryAgentAutoForkDisabled l.noDiscoveryAgent <;>
      cases l.agentPath <;> simp
  | _ =>
    simp [Launch.wants, AddProcessReply.reports]

end Agnocast
