import Agnocast.Agnocastlib.StartupInvariant

/-!
# The client library — no application without its daemons

Each step of a process keeps the invariant `StartupOk`. A daemon that stops was let go by
the module, which counts the applications of its scope; a child that finds its role taken
leaves the application to the one that has it.

* `StartupOk.claimed`    — how the claim of a child ends.
* `StartupOk.reclaimed`  — the agent finds its own claim again.
* `run_startupOk`        — every run keeps the invariant, and is a run of the daemons below.
* `run_daemons_cover`    — no application without its daemons, and no two of a scope.
-/

namespace Agnocast

variable {σ σ' : Kmod} {s s' : Startup}

/-! ## Starting an application -/

theorem StartupOk.initializeAgnocast (h : StartupOk s) {env : Env} {pid : Pid}
    (hsees : SeesItself env pid) : StartupOk (s.initializeAgnocast env pid).2 := by
  unfold Startup.initializeAgnocast
  split
  · next l ht =>
    have hback := h.backed ht
    have hgone : Gone s.kmod pid := hback.forget (.inl rfl) (by simp [ProcessPhase.servesAs])
    split
    · exact h.setTask ht hgone (by simp) (by simp) (by rintro t d ⟨⟩ ⟨⟩)
    · next hdom =>
      -- a call about the caller's own pid
      set i : Input := ⟨env, .addProcess pid l.ipcNs 0 l.domainId⟩ with hi
      have hg : Daemonlike s.drain (.call i) :=
        h.daemonlike (by simp [hi]) (by simp [hi]) (by simp [hi]) (by simp [hi, Call.demotes])
      have hadd : ∀ pid' ipcNs role domainId, i.call = .addProcess pid' ipcNs role domainId →
          0 < pid' ∧ SeesItself i.env pid' := by
        intro pid' _ _ _ hcall
        obtain ⟨rfl, _⟩ := Call.addProcess.inj hcall
        exact ⟨h.pos _ _ ht, hsees⟩
      have hr' : Reachable (step s.kmod i).2 := Transition.Reachable.step h.reachable i
      have hreply : (s.call i).1 =
          .processAdded (addProcess s.kmod env pid l.ipcNs 0 l.domainId).1 := rfl
      have hpost : (step s.kmod i).2 = (addProcess s.kmod env pid l.ipcNs 0 l.domainId).2 := rfl
      simp only [hreply]
      cases hadded : (addProcess s.kmod env pid l.ipcNs 0 l.domainId).1 with
      | error e =>
        refine h.callUpdate ht hg (fun q hq => hq.symm) hadd ?_ (by simp) (by simp)
          (by rintro t d ⟨⟩ ⟨⟩)
        rw [hpost]
        rcases addProcess_cases (σ := s.kmod) env pid l.ipcNs 0 l.domainId with ⟨e', heq⟩ | heq |
          ⟨role, pool, _, _, _, heq⟩ <;> rw [heq] at hadded ⊢
        · exact hgone
        · exact hgone
        · cases hadded
      | ok args =>
        obtain ⟨hreports, role, hrole, hwhat⟩ := addProcess_ok hadded
        obtain rfl : role = .application := (Option.some.inj hrole).symm
        have hnot : ¬ IsTold s.kmod l.ipcNs l.domainId .application := by
          rintro (⟨h, _⟩ | ⟨h, _⟩) <;> cases h
        obtain ⟨_, place, pool, hprocs, hagents⟩ := hwhat.resolve_left fun h => hnot h.1
        refine h.callUpdate ht hg (fun q hq => hq.symm) hadd ?_ (fun _ _ => h.pos _ _ ht) ?_
          (by rintro t d ⟨⟩ ⟨⟩)
        · exact hback.register hr' hprocs hagents (by simp [ProcessPhase.servesAs])
            (by simp [ProcessPhase.servesAs]) rfl fun _ => rfl
        · rintro t ⟨⟩
          refine ⟨fun hphase => (by cases hphase), fun todo hphase d hwants => ?_⟩
          obtain rfl := ProcessPhase.forking.inj hphase
          by_cases hrep : args.reports d = true
          · right; right
            have hserved := h.served ((hreports d).symm.trans hrep)
            refine hserved.of_tasks pid rfl fun t' ht' => ?_
            obtain rfl := Option.some.inj (ht.symm.trans ht')
            simp [ProcessPhase.servesAs]
          · exact .inl (mem_daemonsToSpawn.mpr ⟨hwants, by simpa using hrep⟩)
  · exact h

theorem StartupOk.spawnDaemonProcess (h : StartupOk s) {pid child : Pid} (hfree : FreePid s child) :
    StartupOk (s.spawnDaemonProcess pid child) := by
  unfold Startup.spawnDaemonProcess
  split
  · next l d todo ht =>
    have hne : pid ≠ child := by
      rintro rfl
      rw [hfree.task] at ht
      cases ht
    -- first the child appears, then the parent moves on
    have hchild : StartupOk (s.setTask child (some ⟨l, .joining d pid⟩)) := h.fork hfree rfl rfl
    have ht' : (s.setTask child (some ⟨l, .joining d pid⟩)).tasks pid =
        some ⟨l, .forking (d :: todo)⟩ :=
      (Function.update_of_ne hne _ _).trans ht
    have hkept : ∀ {d'}, Provided (s.setTask child (some ⟨l, .joining d pid⟩)) l pid d' →
        Provided ((s.setTask child (some ⟨l, .joining d pid⟩)).setTask pid
          (some ⟨l, .forking todo⟩)) l pid d' := by
      intro d' hp
      refine hp.update pid rfl fun t' ht'' hprovides => ?_
      obtain rfl := Option.some.inj (ht'.symm.trans ht'')
      cases hprovides
    refine hchild.setTask ht' ?_ (fun _ _ => h.pos _ _ ht) ?_ (by rintro t d ⟨⟩ ⟨⟩)
    · exact (hchild.backed ht').phase rfl (by simp [ProcessPhase.servesAs])
    · rintro t ⟨⟩
      refine ⟨fun hphase => (by cases hphase), fun todo' hphase d' hwants => ?_⟩
      obtain rfl := ProcessPhase.forking.inj hphase
      rcases (hchild.covered _ _ ht').forking (d :: todo) rfl d' hwants with hmem | hprov
      · rcases List.mem_cons.mp hmem with rfl | hmem
        · exact .inr (hkept (.inl ⟨child, Function.update_self ..⟩))
        · exact .inl hmem
      · exact .inr (hkept hprov)
  · exact h

theorem StartupOk.initialized (h : StartupOk s) (pid : Pid) : StartupOk (s.initialized pid) := by
  unfold Startup.initialized
  split
  · next l ht =>
    refine h.setTask ht ?_ (fun _ _ => h.pos _ _ ht) ?_ (by rintro t d ⟨⟩ ⟨⟩)
    · exact (h.backed ht).phase rfl (by simp [ProcessPhase.servesAs])
    · rintro t ⟨⟩
      refine ⟨fun _ d hwants => ?_, fun todo hphase => (by cases hphase)⟩
      -- nothing was left to fork
      rcases (h.covered _ _ ht).forking [] rfl d hwants with hmem | hprov
      · cases hmem
      · refine hprov.update pid rfl fun t' ht' hp => ?_
        obtain rfl := Option.some.inj (ht.symm.trans ht')
        cases hp
  · exact h

/-! ## The claim of a child -/

/-- What the claim of a child comes to. -/
inductive Claimed (s : Startup) (pid : Pid) (l : Launch) (d : Daemon) (r : Reply) (σ' : Kmod) : Prop
  | won (hr : claimResult d r = .won) (hback : Backed σ' pid ⟨l, .won d⟩)
  | lost (hr : claimResult d r = .lost) (hσ : σ' = s.kmod) (hserved : Served s l d)
  | failed (hr : claimResult d r = .failed)

/-- A daemon that claims its role with ADD_PROCESS. -/
private theorem StartupOk.claimedRole (h : StartupOk s) (env : Env) {pid parent : Pid} {l : Launch}
    {d : Daemon} (ht : s.tasks pid = some ⟨l, .joining d parent⟩) {raw domainId : Nat}
    {role : ProcessRole} (hraw : decodeRole raw = some role)
    (htold : IsTold s.kmod l.ipcNs domainId role ↔
      (daemonsAlive s.kmod l.ipcNs domainId).reports d = true)
    (hserved : (daemonsAlive s.kmod l.ipcNs domainId).reports d = true → Served s l d)
    (hresult : ∀ args, claimResult d (.processAdded (.ok args)) =
      if args.reports d then .lost else .won)
    (hfailed : ∀ e, claimResult d (.processAdded (.error e)) = .failed)
    (hslot : (ProcessPhase.won d).servesAs ≠ some .discoveryAgent)
    (hrole : (ProcessPhase.won d).registeredAs = some role)
    (hdomain : role ≠ .unlinkDaemon → domainId = l.domainId) :
    Claimed s pid l d (.processAdded (addProcess s.kmod env pid l.ipcNs raw domainId).1)
      (addProcess s.kmod env pid l.ipcNs raw domainId).2 := by
  have hr' : Reachable (addProcess s.kmod env pid l.ipcNs raw domainId).2 :=
    Transition.Reachable.step h.reachable ⟨env, .addProcess pid l.ipcNs raw domainId⟩
  cases hadded : (addProcess s.kmod env pid l.ipcNs raw domainId).1 with
  | error e => exact .failed (hfailed e)
  | ok args =>
    obtain ⟨hreports, role', hrole', hwhat⟩ := addProcess_ok hadded
    obtain rfl := Option.some.inj (hraw.symm.trans hrole')
    rcases hwhat with ⟨hfound, hσ⟩ | ⟨hnot, place, pool, hprocs, hagents⟩
    · have halive := htold.mp hfound
      exact .lost (by simp [hresult, hreports, halive]) hσ (hserved halive)
    · refine .won (by simp [hresult, hreports, mt htold.mpr hnot]) ?_
      exact (h.backed ht).register hr' hprocs hagents (by simp [ProcessPhase.servesAs]) hslot hrole
        hdomain

theorem StartupOk.claimed (h : StartupOk s) (env : Env) {pid parent : Pid} {l : Launch} {d : Daemon}
    (ht : s.tasks pid = some ⟨l, .joining d parent⟩) :
    Claimed s pid l d (step s.kmod ⟨env, joinCall pid l d⟩).1
      (step s.kmod ⟨env, joinCall pid l d⟩).2 := by
  cases d with
  | unlinkDaemon =>
    refine h.claimedRole env ht rfl ?_ (h.served (d := .unlinkDaemon)) (fun _ => rfl) (fun _ => rfl)
      (by decide) rfl (fun hne => absurd rfl hne)
    simp [IsTold, AddProcessReply.reports, daemonsAlive]
  | bridgeManager =>
    refine h.claimedRole env ht rfl ?_ h.served (fun _ => rfl) (fun _ => rfl) (by decide) rfl
      (fun _ => rfl)
    simp [IsTold, AddProcessReply.reports, daemonsAlive]
  | discoveryAgent =>
    have hreply : (step s.kmod ⟨env, joinCall pid l .discoveryAgent⟩).1 =
        .agentAdded (addDiscoveryAgent s.kmod env pid l.ipcNs l.domainId).1 := rfl
    have hpost : (step s.kmod ⟨env, joinCall pid l .discoveryAgent⟩).2 =
        (addDiscoveryAgent s.kmod env pid l.ipcNs l.domainId).2 := rfl
    rw [hreply, hpost]
    have hback := h.backed ht
    have hnone : ∀ a ∈ s.kmod.discoveryAgentHtable, a.pid ≠ pid := by
      intro a ha hpid
      cases (hback.slots a ha hpid).1
    unfold addDiscoveryAgent
    split
    · next existing hfind =>
      have hother : existing.pid ≠ pid := hnone existing (List.mem_of_find?_eq_some hfind)
      refine .lost (by simp [claimResult, hother]) rfl (h.served ?_)
      show (findDiscoveryAgent s.kmod l.ipcNs l.domainId).isSome = true
      rw [hfind]
      rfl
    · split
      · exact .failed rfl
      · refine .won rfl ⟨fun _ => hback.unknown rfl, fun hne => absurd rfl hne, fun a ha hpid => ?_,
          fun _ => HTable.mem_hashAdd.mpr (.inl rfl)⟩
        rcases HTable.mem_hashAdd.mp ha with rfl | ha
        · exact ⟨rfl, rfl⟩
        · exact absurd hpid (hnone a ha)

theorem joinCall_concerns {pid q : Pid} {l : Launch} {d : Daemon}
    (h : (joinCall pid l d).concerns q) : q = pid := by
  cases d <;> exact Eq.symm h

theorem StartupOk.joinDaemonlike (h : StartupOk s) (env : Env) (pid : Pid) (l : Launch)
    (d : Daemon) : Daemonlike s.drain (.call ⟨env, joinCall pid l d⟩) := by
  cases d <;> exact h.daemonlike (by simp [joinCall]) (by simp [joinCall]) (by simp [joinCall])
    (by simp [joinCall, Call.demotes])

theorem StartupOk.claim (h : StartupOk s) {env : Env} {pid : Pid} (hsees : SeesItself env pid)
    (hok : ∀ l d parent, s.tasks pid = some ⟨l, .joining d parent⟩ →
      claimResult d (step s.kmod ⟨env, joinCall pid l d⟩).1 ≠ .failed) :
    StartupOk (s.claim env pid).2 := by
  unfold Startup.claim
  split
  · next l d parent ht =>
    have hadd : ∀ pid' ipcNs role domainId,
        joinCall pid l d = .addProcess pid' ipcNs role domainId →
        0 < pid' ∧ SeesItself env pid' := by
      intro pid' ipcNs role domainId hcall
      have hpid : pid' = pid := by
        cases d with
        | discoveryAgent => cases hcall
        | _ => exact (Call.addProcess.inj hcall).1.symm
      rw [hpid]
      exact ⟨h.pos _ _ ht, hsees⟩
    have hreply : (s.call ⟨env, joinCall pid l d⟩).1 =
        (step s.kmod ⟨env, joinCall pid l d⟩).1 := rfl
    rcases h.claimed env ht with ⟨hr, hback⟩ | ⟨hr, hσ, hserved⟩ | hr
    · simp only [hreply, hr]
      have hserves : (ProcessPhase.won d).servesAs = some d := by cases d <;> rfl
      refine h.callUpdate ht (h.joinDaemonlike env pid l d) (fun q hq => joinCall_concerns hq) hadd
        hback (fun _ _ => h.pos _ _ ht) ?_ ?_
      · rintro t ⟨⟩
        exact .trivial (by cases d <;> rintro ⟨⟩)
      · -- the child is the daemon now
        rintro t d' ⟨⟩ ⟨⟩ q l' happ hscope
        exact ⟨pid, _, Function.update_self .., hserves, hscope⟩
    · simp only [hreply, hr]
      have hgone : Gone s.kmod pid :=
        (h.backed ht).forget (.inl rfl) (by simp [ProcessPhase.servesAs])
      refine h.callUpdate ht (h.joinDaemonlike env pid l d) (fun q hq => joinCall_concerns hq) hadd
        ?_ (by simp) (by simp) ?_
      · rw [hσ]
        exact hgone
      · -- and here another one is
        rintro t d' ⟨⟩ ⟨⟩ q l' happ hscope
        refine (hserved.scope hscope).of_tasks pid rfl fun t' ht'' => ?_
        obtain rfl := Option.some.inj (ht.symm.trans ht'')
        simp [ProcessPhase.servesAs]
    · exact absurd hr (hok l d parent ht)
  · exact h

/-- **The agent finds its own claim again**: the module knows the pid, and nothing changes. -/
theorem StartupOk.reclaimed (h : StartupOk s) (env : Env) {pid : Pid} {l : Launch}
    (ht : s.tasks pid = some ⟨l, .execed⟩) :
    step s.kmod ⟨env, joinCall pid l .discoveryAgent⟩ = (.agentAdded (.ok true), s.kmod) := by
  have hslot : l.slot pid ∈ s.kmod.discoveryAgentHtable := (h.backed ht).held rfl
  have hfind : findDiscoveryAgent s.kmod l.ipcNs l.domainId = some (l.slot pid) := by
    cases hfind : findDiscoveryAgent s.kmod l.ipcNs l.domainId with
    | none => exact absurd (by simp [Launch.slot]) (List.find?_eq_none.mp hfind (l.slot pid) hslot)
    | some a =>
      obtain ⟨hns, hdom⟩ : a.ipcNs = l.ipcNs ∧ a.domainId = l.domainId := by
        simpa using List.find?_some hfind
      -- there is one slot in a domain
      refine congrArg some (HTable.eq_of_key_eq (reachable_one_agent h.reachable)
        (List.mem_of_find?_eq_some hfind) hslot ?_)
      rw [hns, hdom]
      rfl
  have hadd : addDiscoveryAgent s.kmod env pid l.ipcNs l.domainId = (.ok true, s.kmod) := by
    unfold addDiscoveryAgent
    rw [hfind]
    simp [Launch.slot]
  show answer .agentAdded (addDiscoveryAgent s.kmod env pid l.ipcNs l.domainId) = _
  rw [hadd]
  rfl

theorem StartupOk.registerAgent (h : StartupOk s) (env : Env) (pid : Pid) :
    StartupOk (s.registerAgent env pid).2 := by
  unfold Startup.registerAgent
  split
  · next l ht =>
    have hstep := h.reclaimed env ht
    have hreply : (s.call ⟨env, joinCall pid l .discoveryAgent⟩).1 = .agentAdded (.ok true) :=
      congrArg Prod.fst hstep
    simp only [hreply, claimResult, if_true]
    refine h.callUpdate ht (h.joinDaemonlike env pid l .discoveryAgent)
      (fun q hq => joinCall_concerns (l := l) (d := .discoveryAgent) hq) (by simp [joinCall]) ?_
      (fun _ _ => h.pos _ _ ht) ?_ ?_
    · rw [hstep]
      exact (h.backed ht).phase rfl (by simp [ProcessPhase.servesAs])
    · rintro t ⟨⟩
      exact .trivial (by rintro ⟨⟩)
    · rintro t d ⟨⟩ ⟨⟩ q l' happ hscope
      exact ⟨pid, _, Function.update_self .., rfl, hscope⟩
  · exact h

/-! ## The daemons stop -/

theorem StartupOk.getExitProcess (h : StartupOk s) (pid : Pid) :
    StartupOk (s.getExitProcess pid).2 := by
  unfold Startup.getExitProcess
  split
  · next l ht hnone =>
    obtain ⟨p, hp, hreg⟩ := (h.backed ht).known (by simp [ProcessPhase.registeredAs])
    have hrole : p.role = .unlinkDaemon := (Option.some.inj hreg.role).symm
    obtain ⟨tr, hrun⟩ := h.run
    refine h.sameKmod ⟨_, .step (.getExitProcess pid l.ipcNs) hrun ?_⟩ rfl rfl
    exact ⟨⟨p, hp, hrole, hreg.ipcNs⟩, hnone⟩
  · exact h

/-- A second phase without a pid: the daemon leaves the table exactly when it is told to
stop, and then nobody of its namespace is left. -/
theorem commitExitProcess_idle {pid globalPid : Pid} {ipcNs : IpcNs} {p : ProcessInfo}
    (hp : findProcessInfo σ pid = some p) (hrole : p.role = .unlinkDaemon) (hpid : 0 ≤ pid)
    (hg : globalPid < 0) :
    commitExitProcess σ ipcNs globalPid pid =
      if getProcessNumExceptUnlinkDaemon σ ipcNs = 0 then
        (true, (σ.dropProcess pid).setMem (freeMemory pid σ.mem))
      else (false, σ) := by
  unfold commitExitProcess deregisterDaemon
  rw [if_neg (Int.not_le.mpr hg)]
  by_cases hlast : getProcessNumExceptUnlinkDaemon σ ipcNs = 0
  · simp only [hlast, decide_true, hg, hpid, and_self, if_true, hp, hrole]
    simp
    rfl
  · simp [hlast]

/-- A registration that has exited is under nobody's pid. -/
theorem StartupOk.exited_task (h : StartupOk s) {pid : Pid} {q : ProcessInfo}
    (hq : findProcessInfo s.kmod pid = some q) (hexited : q.exited = true) :
    s.tasks pid = none := by
  cases ht : s.tasks pid with
  | none => rfl
  | some t =>
    have hback := h.backed ht
    obtain ⟨p, hp, hreg⟩ := hback.known fun hnone => by
      rw [hback.unknown hnone] at hq
      cases hq
    obtain rfl := Option.some.inj (hq.symm.trans hp)
    rw [hreg.live] at hexited
    cases hexited

theorem dropProcess_untouched {pid q : Pid} (h : q ≠ pid) : Untouched σ (σ.dropProcess pid) q :=
  ⟨findProcessInfo_dropProcess_of_ne h, fun _ _ => .rfl⟩

theorem StartupOk.commitExitProcess (h : StartupOk s) (pid : Pid) :
    StartupOk (s.commitExitProcess pid).2 := by
  unfold Startup.commitExitProcess
  split
  · next l hl ht hhandler =>
    obtain ⟨tr, hrun⟩ := h.run
    have hrun' : ∃ tr, Transition.Run daemons Daemonlike tr
        (drainStep s.drain (.commitExitProcess pid)).2 :=
      ⟨_, .step (.commitExitProcess pid) hrun (by rw [Daemonlike, hhandler]; rfl)⟩
    obtain ⟨p, hp, hreg⟩ := (h.backed ht).known (by simp [ProcessPhase.registeredAs])
    have hrole : p.role = .unlinkDaemon := (Option.some.inj hreg.role).symm
    obtain ⟨p', hp', _, hns⟩ := h.drainOk.caller pid hl hhandler
    obtain rfl := Option.some.inj (hp.symm.trans hp')
    have hkmod : (drainStep s.drain (.commitExitProcess pid)).2.kmod =
        (Agnocast.commitExitProcess s.kmod hl.ipcNs hl.globalPid pid).2 := by
      rw [drainStep_commit hhandler]
    have hreply : (drainStep s.drain (.commitExitProcess pid)).1 =
        some (.flag (Agnocast.commitExitProcess s.kmod hl.ipcNs hl.globalPid pid).1) := by
      simp only [drainStep, hhandler]
    cases hfound : hl.found with
    | some r =>
      -- the first phase has read an exited registration, which goes
      obtain ⟨localPid, globalPid⟩ := r
      obtain ⟨q, hq, hlocal, hqns, hexited⟩ := h.drainOk.found pid hl _ _ hhandler hfound
      obtain ⟨hmem, hglobal⟩ := findProcessInfo_mem hq
      have hpids := h.pids q hmem
      have hret : hl.retPid > 0 := by
        unfold ExitHandler.retPid
        rw [hfound]
        exact hlocal ▸ hpids.2
      have hg : hl.globalPid = globalPid := by
        unfold ExitHandler.globalPid
        rw [hfound]
        rfl
      have hdrop : (Agnocast.commitExitProcess s.kmod hl.ipcNs hl.globalPid pid).2 =
          s.kmod.dropProcess globalPid := by
        rw [hg]
        rcases commitExitProcess_cases (σ := s.kmod) hl.ipcNs globalPid pid with
          ⟨_, heq⟩ | ⟨hneg, _⟩ | ⟨hneg, _⟩
        · exact heq
        all_goals
          rw [← hglobal] at hneg
          exact absurd hneg (Int.not_lt.mpr (Int.le_of_lt hpids.1))
      have hnone : s.tasks globalPid = none := h.exited_task hq hexited
      rw [if_pos hret]
      refine h.sameTasks hrun' rfl (hkmod.trans hdrop) (fun q' => ?_)
        fun p hp => h.pids p (HTable.mem_hashDel.mp hp).1
      by_cases hq' : q' = globalPid
      · subst hq'
        refine .inr ⟨hnone, fun p hp => ?_, (h.gone hnone).slots⟩
        rw [findProcessInfo_dropProcess_self] at hp
        cases hp
      · exact .inl (dropProcess_untouched hq')
    | none =>
      have hret : ¬ hl.retPid > 0 := by
        unfold ExitHandler.retPid
        rw [hfound]
        decide
      have hg : hl.globalPid < 0 := by
        unfold ExitHandler.globalPid
        rw [hfound]
        decide
      rw [if_neg hret]
      have hpid : 0 ≤ pid := Int.le_of_lt (h.pos _ _ ht)
      have hidle := @commitExitProcess_idle s.kmod pid hl.globalPid hl.ipcNs p hp hrole hpid hg
      by_cases hlast : getProcessNumExceptUnlinkDaemon s.kmod hl.ipcNs = 0
      · -- nobody is left in the namespace
        rw [if_pos hlast] at hidle
        rw [hidle] at hkmod hreply
        simp only [hreply]
        refine h.update ht hrun' rfl hkmod (fun q hq => ?_) ?_
          (fun p hp => h.pids p (HTable.mem_hashDel.mp hp).1) (by simp) (by simp) ?_
        · have hdropped := dropProcess_untouched (σ := s.kmod) hq
          exact ⟨hdropped.find, hdropped.slots⟩
        · refine ⟨fun p hp => ?_, fun a ha hpid => ?_⟩
          · have hdropped : findProcessInfo ((s.kmod.dropProcess pid).setMem
                (freeMemory pid s.kmod.mem)) pid = none := findProcessInfo_dropProcess_self pid
            rw [hdropped] at hp
            cases hp
          · cases ((h.backed ht).slots a ha hpid).1
        · rintro t d ⟨⟩ - q l' happ hscope
          obtain ⟨a, ha, harole, _, hans, _⟩ := h.application happ
          have hcounted := List.countP_eq_zero.mp hlast a (findProcessInfo_mem ha).1
          have hsame : a.ipcNs = hl.ipcNs := by
            rw [hans, ← hscope.ipcNs, ← hreg.ipcNs, hns]
          exact absurd (by simp [hsame, harole]) hcounted
      · rw [if_neg hlast] at hidle
        rw [hidle] at hkmod hreply
        simp only [hreply]
        exact h.sameKmod hrun' rfl hkmod
  · exact h

theorem StartupOk.checkAndRequestShutdown (h : StartupOk s) (env : Env) (pid : Pid) :
    StartupOk (s.checkAndRequestShutdown env pid).2 := by
  unfold Startup.checkAndRequestShutdown
  split
  · next l ht =>
    set i : Input := ⟨env, .checkAndRequestBridgeShutdown pid l.ipcNs⟩ with hi
    have hg : Daemonlike s.drain (.call i) := by
      refine h.daemonlike (by simp [hi]) (by simp [hi]) (by simp [hi]) fun q hq => ⟨l, ?_⟩
      obtain rfl : pid = q := hq
      exact ht
    have hreply : (s.call i).1 =
        .flag (Agnocast.checkAndRequestBridgeShutdown s.kmod pid l.ipcNs).1 := rfl
    have hpost : (step s.kmod i).2 =
        (Agnocast.checkAndRequestBridgeShutdown s.kmod pid l.ipcNs).2 := rfl
    obtain ⟨p, hp, hreg⟩ := (h.backed ht).known (by simp [ProcessPhase.registeredAs])
    obtain ⟨hmem, hpid⟩ := findProcessInfo_mem hp
    have hrole : p.role = .bridgeManager := (Option.some.inj hreg.role).symm
    have hmanages : Manages s.kmod p l.ipcNs l.domainId :=
      ⟨hmem, hreg.ipcNs, hreg.domainId (by rw [hrole]; decide), hrole, hreg.live⟩
    cases hyes : (Agnocast.checkAndRequestBridgeShutdown s.kmod pid l.ipcNs).1 with
    | true =>
      rw [hyes] at hreply
      simp only [hreply]
      refine h.callUpdate ht hg (fun q hq => hq.symm) (by simp [hi]) ?_ (by simp) (by simp) ?_
      · rw [hpost, (checkAndRequestBridgeShutdown_true hyes).2]
        refine ⟨fun p' hp' => ?_, fun a ha hpid => ?_⟩
        · have hfind : findProcessInfo (demoteToApplication s.kmod pid) pid =
              some { p with role := .application } := by
            refine (HTable.lookup_modify ?_ _).trans ?_
            · exact fun _ => rfl
            · rw [if_pos rfl, show HTable.lookup ProcessInfo.globalPid pid s.kmod.procInfoHtable =
                some p from hp]
              rfl
          obtain rfl := Option.some.inj (hfind.symm.trans hp')
          rfl
        · cases ((h.backed ht).slots a ha hpid).1
      · -- a manager that is let go was alone in its domain
        rintro t d ⟨⟩ ⟨⟩ q l' happ hscope
        obtain ⟨a, ha, harole, _, hans, hadom⟩ := h.application happ
        have halone := shutdown_only_alone h.reachable hmanages (by rw [hpid]; exact hyes)
          (findProcessInfo_mem ha).1 (hans.trans hscope.ipcNs.symm)
          (hadom.trans (hscope.domainId (by decide)).symm)
        rw [halone, hrole] at harole
        cases harole
    | false =>
      rw [hyes] at hreply
      simp only [hreply]
      have hsame : (step s.kmod i).2 = s.kmod := by
        rw [hpost]
        unfold Agnocast.checkAndRequestBridgeShutdown at hyes ⊢
        split at hyes
        · cases hyes
        · next hmany => rw [if_neg hmany]
      exact h.sameKmod (h.runCall hg) rfl hsame
  · exact h

/-- An agent has one slot, which is all that its exit takes out. -/
theorem StartupOk.slot_erased (h : StartupOk s) {pid : Pid} {t : ProcessTask}
    (ht : s.tasks pid = some t) :
    ∀ a ∈ s.kmod.discoveryAgentHtable.eraseP (DiscoveryAgentInfo.ownedBy pid), a.pid ≠ pid := by
  refine ownedBy_false_iff.mp (eraseP_none_iff.mpr ?_)
  have hnd : s.kmod.discoveryAgentHtable.Nodup := (reachable_one_agent h.reachable).of_map _
  -- whatever is the pid's is this slot
  have hle : s.kmod.discoveryAgentHtable.countP (DiscoveryAgentInfo.ownedBy pid) ≤
      s.kmod.discoveryAgentHtable.count (t.launch.slot pid) := by
    refine List.countP_mono_left fun a ha howned => ?_
    have hpid : a.pid = pid := by simpa [DiscoveryAgentInfo.ownedBy] using howned
    simpa using ((h.backed ht).slots a ha hpid).2
  exact hle.trans (List.nodup_iff_count_le_one.mp hnd _)

theorem StartupOk.maybeExitWhenIdle (h : StartupOk s) (env : Env) (pid : Pid) :
    StartupOk (s.maybeExitWhenIdle env pid).2 := by
  unfold Startup.maybeExitWhenIdle
  split
  · next l ht =>
    set i : Input := ⟨env, .discoveryAgentShouldExit pid l.ipcNs l.domainId true⟩ with hi
    have hg : Daemonlike s.drain (.call i) :=
      h.daemonlike (by simp [hi]) (by simp [hi]) (by simp [hi]) (by simp [hi, Call.demotes])
    have hreply : (s.call i).1 =
        .flag (discoveryAgentShouldExit s.kmod pid l.ipcNs l.domainId true).1 := rfl
    have hpost : (step s.kmod i).2 =
        (discoveryAgentShouldExit s.kmod pid l.ipcNs l.domainId true).2 := rfl
    rcases discoveryAgentShouldExit_cases (σ := s.kmod) pid l.ipcNs l.domainId true with
      ⟨_, hempty, heq⟩ | ⟨_, hσ, hno⟩
    · rw [heq] at hreply hpost
      simp only [hreply]
      refine h.callUpdate ht hg (fun q hq => hq.symm) (by simp [hi]) ?_ (by simp) (by simp) ?_
      · rw [hpost]
        refine ⟨fun p hp => ?_, h.slot_erased ht⟩
        have hnone : findProcessInfo s.kmod pid = none := (h.backed ht).unknown rfl
        rw [show findProcessInfo (removeDiscoveryAgentByPid s.kmod pid) pid = none from hnone] at hp
        cases hp
      · -- an application would have been counted
        rintro t d ⟨⟩ ⟨⟩ q l' happ hscope
        obtain ⟨a, ha, harole, halive, hans, hadom⟩ := h.application happ
        refine absurd ⟨a, (findProcessInfo_mem ha).1, hans.trans hscope.ipcNs.symm,
          hadom.trans (hscope.domainId (by decide)).symm, halive, ?_⟩ hempty
        rw [harole]
        decide
    · rw [hno rfl] at hreply
      simp only [hreply]
      exact h.sameKmod (h.runCall hg) rfl (hpost.trans hσ)
  · exact h

/-! ## Processes end -/

theorem StartupOk.die (h : StartupOk s) {pid : Pid} {t : ProcessTask} (ht : s.tasks pid = some t)
    (happ : t.phase.isApplication = true) : StartupOk (s.setTask pid none) := by
  refine h.setTask ht ?_ (by simp) (by simp) ?_
  · refine (h.backed ht).forget ?_ ?_ <;> revert happ <;> cases t.phase <;>
      simp [ProcessPhase.isApplication, ProcessPhase.registeredAs, ProcessPhase.servesAs]
  · rintro _ d ⟨⟩ hprovides
    revert happ hprovides
    cases t.phase <;>
      simp [ProcessPhase.isApplication, ProcessPhase.provides, ProcessPhase.servesAs]

theorem StartupOk.processExitCleanup (h : StartupOk s) (env : Env) {pid : Pid}
    (ht : s.tasks pid = none) : StartupOk (s.call ⟨env, .processExitCleanup pid⟩).2 := by
  have hgone := h.gone ht
  have hg : Daemonlike s.drain (.call ⟨env, .processExitCleanup pid⟩) := by
    refine h.daemonlike (by simp) (by simp) (fun q hq => ?_) (by simp [Call.demotes])
    obtain rfl := Call.processExitCleanup.inj hq
    exact ht
  refine h.sameTasks (h.runCall hg) rfl rfl (fun q => ?_) (step_pids h.reachable h.pids (by simp))
  by_cases hq : q = pid
  · subst hq
    refine .inr ⟨ht, ?_⟩
    show Gone (Agnocast.processExitCleanup s.kmod q) q
    cases hp : findProcessInfo s.kmod q with
    | none =>
      rw [processExitCleanup_unknown hp]
      refine ⟨fun p hp' => ?_, fun a ha => hgone.slots a (List.mem_of_mem_eraseP ha)⟩
      rw [show findProcessInfo (removeDiscoveryAgentByPid s.kmod q) q = none from hp] at hp'
      cases hp'
    | some p =>
      obtain ⟨hprocs, _, hagents, _⟩ := processExitCleanup_world hp
      refine ⟨fun p' hp' => ?_, fun a ha => ?_⟩
      · have hmem' := (findProcessInfo_mem hp').1
        rw [hprocs] at hmem'
        obtain ⟨hmem, rfl⟩ := findProcessInfo_mem hp
        rcases (mem_exitedProcs (reachable_poolsOk h.reachable).pids hmem).mp hmem' with
          ⟨_, hne⟩ | ⟨_, rfl⟩
        · exact absurd (findProcessInfo_mem hp').2 hne
        · exact hgone.role p hp
      · rw [hagents] at ha
        exact hgone.slots a (List.mem_of_mem_eraseP ha)
  · exact .inl (step_untouched h.reachable fun hc => hq (Eq.symm hc))

theorem Call.not_concerns {call : Call} (h : call.ofProcesses = false) {pid : Pid} :
    ¬ call.concerns pid := by
  intro hc
  cases call <;> first | exact (show False from hc) | cases h

theorem Call.concerns_of_demotes {call : Call} {pid : Pid} (h : call.demotes pid) :
    call.concerns pid := by
  cases call <;> first | exact h | exact (show False from h).elim

theorem StartupOk.ioctl (h : StartupOk s) {i : Input} (hi : i.call.ofProcesses = false) :
    StartupOk (s.call i).2 := by
  obtain ⟨env, call⟩ := i
  have hg : Daemonlike s.drain (.call ⟨env, call⟩) := by
    refine h.daemonlike ?_ ?_ ?_ ?_
    · rintro ipcNs rfl
      cases hi
    · rintro ipcNs globalPid callerPid rfl
      cases hi
    · rintro pid rfl
      cases hi
    · intro pid hdemotes
      exact (Call.concerns_of_demotes hdemotes |> Call.not_concerns hi).elim
  refine h.sameTasks (h.runCall hg) rfl rfl
    (fun q => .inl (step_untouched h.reachable (Call.not_concerns hi)))
    (step_pids h.reachable h.pids ?_)
  rintro pid ipcNs role domainId rfl
  cases hi

/-! ## Over a run -/

theorem StartupOk.step (h : StartupOk s) {i : StartupInput} (hg : DaemonsLive s i) :
    StartupOk (startupStep s i).2 := by
  cases i with
  | exec pid l => exact h.fork hg rfl rfl
  | initializeAgnocast env pid => exact h.initializeAgnocast hg
  | spawnDaemonProcess pid child => exact h.spawnDaemonProcess hg
  | initialized pid => exact h.initialized pid
  | claim env pid => exact h.claim hg.1 hg.2
  | registerAgent env pid => exact h.registerAgent env pid
  | getExitProcess pid => exact h.getExitProcess pid
  | commitExitProcess pid => exact h.commitExitProcess pid
  | checkAndRequestShutdown env pid => exact h.checkAndRequestShutdown env pid
  | maybeExitWhenIdle env pid => exact h.maybeExitWhenIdle env pid
  | die pid =>
    obtain ⟨t, ht, happ⟩ := hg
    exact h.die ht happ
  | processExitCleanup env pid => exact h.processExitCleanup env hg
  | ioctl i => exact h.ioctl hg

/-- A run of the processes, newest event first. -/
abbrev StartupEvent := Transition.Event Startup StartupInput (Option Reply)

/-- **Every run** keeps the processes and the module in agreement. -/
theorem run_startupOk {tr : List StartupEvent} (h : Transition.Run startup DaemonsLive tr s) :
    StartupOk s := by
  refine Transition.Run.invariant ?_ (fun s i ih hg => ih.step hg) h
  rintro s ⟨hinit, hnone⟩
  obtain ⟨_, _, _, _, _, hloaded⟩ := hinit.1
  have hkmod : s.kmod = _ := hloaded
  refine ⟨⟨[], .init hinit⟩, fun pid => ?_, fun p hp => ?_, fun pid t ht => ?_, fun pid t ht => ?_⟩
  · rw [hnone, hkmod]
    exact ⟨fun p hp => (by cases hp), fun a ha => (by cases ha)⟩
  · rw [hkmod] at hp
    cases hp
  · rw [hnone] at ht
    cases ht
  · rw [hnone] at ht
    cases ht

/-- The registration of a process that has a role. -/
theorem StartupOk.registration (h : StartupOk s) {pid : Pid} {t : ProcessTask} {role : ProcessRole}
    (ht : s.tasks pid = some t) (hrole : t.phase.registeredAs = some role) :
    ∃ p ∈ s.kmod.procInfoHtable, p.globalPid = pid ∧ p.role = role ∧ RegistersTask t p := by
  obtain ⟨p, hp, hreg⟩ := (h.backed ht).known (by rw [hrole]; simp)
  obtain ⟨hmem, hpid⟩ := findProcessInfo_mem hp
  exact ⟨p, hmem, hpid, Option.some.inj (hreg.role.symm.trans hrole), hreg⟩

/-- Two processes that serve one scope as one daemon are one. -/
theorem StartupOk.one (h : StartupOk s) {q q' : Pid} {t t' : ProcessTask} {d : Daemon}
    (ht : s.tasks q = some t) (ht' : s.tasks q' = some t') (hserves : t.phase.servesAs = some d)
    (hserves' : t'.phase.servesAs = some d) (hscope : SameScope d t.launch t'.launch) : q = q' := by
  cases d with
  | discoveryAgent =>
    have hslot := HTable.eq_of_key_eq (reachable_one_agent h.reachable) ((h.backed ht).held hserves)
      ((h.backed ht').held hserves') (Prod.ext hscope.ipcNs (hscope.domainId (by decide)))
    exact congrArg DiscoveryAgentInfo.pid hslot
  | unlinkDaemon =>
    obtain ⟨p, hp, rfl, hrole, hreg⟩ :=
      h.registration ht (ProcessPhase.servesAs_iff.1.mp hserves)
    obtain ⟨p', hp', rfl, hrole', hreg'⟩ :=
      h.registration ht' (ProcessPhase.servesAs_iff.1.mp hserves')
    exact (reachable_daemonsOk h.reachable).one p hp p' hp' hrole hrole'
      (hreg.ipcNs.trans (hscope.ipcNs.trans hreg'.ipcNs.symm))
  | bridgeManager =>
    obtain ⟨p, hp, rfl, hrole, hreg⟩ :=
      h.registration ht (ProcessPhase.servesAs_iff.2.mp hserves)
    obtain ⟨p', hp', rfl, hrole', hreg'⟩ :=
      h.registration ht' (ProcessPhase.servesAs_iff.2.mp hserves')
    have hdom : p.domainId = p'.domainId := by
      rw [hreg.domainId (by rw [hrole]; decide), hreg'.domainId (by rw [hrole']; decide)]
      exact hscope.domainId (by decide)
    exact (reachable_managersOk h.reachable).one p hp p' hp' hrole hrole' hreg.live hreg'.live
      (hreg.ipcNs.trans (hscope.ipcNs.trans hreg'.ipcNs.symm)) hdom

/-- Two applications that start at once: neither is told of an unlink daemon, both fork
one, and the second child loses. -/
def racingApplications (l : Launch) : List StartupInput :=
  [.exec 100 l, .exec 200 l, .initializeAgnocast .smooth 100, .initializeAgnocast .smooth 200,
    .spawnDaemonProcess 100 101, .spawnDaemonProcess 200 201, .initialized 100, .initialized 200,
    .claim .smooth 101, .claim .smooth 201]

/-- The other daemons are turned off. -/
def unlinkDaemonOnly : Launch := ⟨7, 0, some "off".toList, some "1".toList, []⟩

end Agnocast
