import Agnocast.Memory.Pools

/-!
# The processes — one bridge manager per domain

A bridge manager serves one domain of one ipc namespace. ADD_PROCESS decides under
the table's lock whether there is one already, and a manager that retires gives up
its role under the same lock, so a process that starts either is counted by the
retiring manager or is told that there is none.

* `ManagersOk`          — the invariant: one live manager per domain.
* `retire_leaves_none`  — a manager that retires leaves its domain without one.
* `run_bridge_manager_handed_over` — the promise over a run.
-/

namespace Agnocast

variable {σ : Kmod}

/-! ## One manager -/

/-- `p` is the bridge manager of a domain as ADD_PROCESS sees it. -/
structure Manages (σ : Kmod) (p : ProcessInfo) (ipcNs : IpcNs) (domainId : Nat) : Prop where
  mem : p ∈ σ.procInfoHtable
  ipcNs : p.ipcNs = ipcNs
  domainId : p.domainId = domainId
  role : p.role = .bridgeManager
  live : p.exited = false

theorem hasAliveBridgeManager_iff {ipcNs : IpcNs} {domainId : Nat} :
    hasAliveBridgeManager σ ipcNs domainId = true ↔ ∃ p, Manages σ p ipcNs domainId := by
  unfold hasAliveBridgeManager
  rw [List.any_eq_true]
  constructor
  · rintro ⟨p, hp, h⟩
    simp only [Bool.not_eq_true', decide_eq_true_eq] at h
    exact ⟨p, hp, h.1, h.2.1, h.2.2.1, h.2.2.2⟩
  · rintro ⟨p, h⟩
    exact ⟨p, h.mem, by simp [h.ipcNs, h.domainId, h.role, h.live]⟩

/-- The domains of the daemons: no two live managers share one, and only the unlink
daemon has none. -/
structure ManagersOk (procs : List ProcessInfo) : Prop where
  one : ∀ p ∈ procs, ∀ q ∈ procs, p.role = .bridgeManager → q.role = .bridgeManager →
    p.exited = false → q.exited = false → p.ipcNs = q.ipcNs → p.domainId = q.domainId →
    p.globalPid = q.globalPid
  manager : ∀ p ∈ procs, p.role = .bridgeManager → p.domainId ≠ agnocastDomainIdNone
  daemon : ∀ p ∈ procs, p.role = .unlinkDaemon → p.domainId = agnocastDomainIdNone

/-- Every registration was there before, in the same domain; it may have exited or
become an application's. -/
private theorem ManagersOk.of_fewer {procs procs' : List ProcessInfo} (h : ManagersOk procs)
    (hold : ∀ p' ∈ procs', ∃ p ∈ procs, p'.globalPid = p.globalPid ∧ p'.ipcNs = p.ipcNs ∧
      p'.domainId = p.domainId ∧ (p'.role = p.role ∨ p'.role = .application) ∧
      (p'.exited = false → p.exited = false)) : ManagersOk procs' := by
  have hrole : ∀ {r r' : ProcessRole}, r' = r ∨ r' = .application → r' ≠ .application → r = r' := by
    rintro r r' (rfl | rfl) hne
    · rfl
    · exact absurd rfl hne
  refine ⟨fun p' hp' q' hq' hpr hqr hpe hqe hns hdom => ?_, fun p' hp' hr => ?_, fun p' hp' hr => ?_⟩
  · obtain ⟨p, hp, hpid, hpns, hpdom, hprole, hplive⟩ := hold p' hp'
    obtain ⟨q, hq, hqid, hqns, hqdom, hqrole, hqlive⟩ := hold q' hq'
    rw [hpid, hqid]
    refine h.one p hp q hq ?_ ?_ (hplive hpe) (hqlive hqe) ?_ ?_
    · exact (hrole hprole (by rw [hpr]; decide)).trans hpr
    · exact (hrole hqrole (by rw [hqr]; decide)).trans hqr
    · rw [← hpns, ← hqns, hns]
    · rw [← hpdom, ← hqdom, hdom]
  · obtain ⟨p, hp, _, _, hdom, hprole, _⟩ := hold p' hp'
    rw [hdom]
    exact h.manager p hp ((hrole hprole (by rw [hr]; decide)).trans hr)
  · obtain ⟨p, hp, _, _, hdom, hprole, _⟩ := hold p' hp'
    rw [hdom]
    exact h.daemon p hp ((hrole hprole (by rw [hr]; decide)).trans hr)

private theorem ManagersOk.registered (h : ManagersOk σ.procInfoHtable) {env : Env} {pid : Pid}
    {ipcNs : IpcNs} {role : ProcessRole} {domainId pool place : Nat}
    (hadmits : Admits σ pid ipcNs role domainId) :
    ManagersOk (HTable.hashAdd place σ.procInfoHtable
      (newProcess env pid ipcNs role domainId pool)) := by
  -- a manager is only admitted to a domain that has none
  have hnone : role = .bridgeManager → ∀ q ∈ σ.procInfoHtable, q.role = .bridgeManager →
      q.exited = false → q.ipcNs = ipcNs → q.domainId ≠ domainId := by
    intro hrole q hq hqrole hqlive hns hdom
    have halive := hasAliveBridgeManager_iff.mpr ⟨q, hq, hns, hdom, hqrole, hqlive⟩
    rw [hadmits.manager hrole] at halive
    cases halive
  have hdom : role ≠ .unlinkDaemon →
      (newProcess env pid ipcNs role domainId pool).domainId = domainId := fun hrole => if_neg hrole
  refine ⟨fun p hp q hq hpr hqr hpe hqe hns hd => ?_, fun p hp hr => ?_, fun p hp hr => ?_⟩
  · rcases HTable.mem_hashAdd.mp hp with rfl | hp <;> rcases HTable.mem_hashAdd.mp hq with rfl | hq
    · rfl
    · have hrole : role = .bridgeManager := hpr
      rw [hdom (by rw [hrole]; decide)] at hd
      exact absurd hd.symm (hnone hrole q hq hqr hqe hns.symm)
    · have hrole : role = .bridgeManager := hqr
      rw [hdom (by rw [hrole]; decide)] at hd
      exact absurd hd (hnone hrole p hp hpr hpe hns)
    · exact h.one p hp q hq hpr hqr hpe hqe hns hd
  · rcases HTable.mem_hashAdd.mp hp with rfl | hp
    · have hrole : role = .bridgeManager := hr
      have hne : role ≠ .unlinkDaemon := by rw [hrole]; decide
      rw [hdom hne]
      exact hadmits.domain hne
    · exact h.manager p hp hr
  · rcases HTable.mem_hashAdd.mp hp with rfl | hp
    · exact if_pos hr
    · exact h.daemon p hp hr

/-- What a step leaves of the registrations that were there. -/
theorem ProcChange.kept {i : Input} {procs : List ProcessInfo} {m : MemoryAllocator}
    (h : ProcChange σ i procs m) (hnot : ∀ pid ipcNs raw domainId,
      i.call ≠ .addProcess pid ipcNs raw domainId) {p' : ProcessInfo} (hp' : p' ∈ procs) :
    ∃ p ∈ σ.procInfoHtable, p'.globalPid = p.globalPid ∧ p'.ipcNs = p.ipcNs ∧
      p'.domainId = p.domainId ∧ (p'.role = p.role ∨ p'.role = .application) ∧
      (p'.exited = false → p.exited = false) := by
  have hsame : ∀ p ∈ σ.procInfoHtable, ∃ q ∈ σ.procInfoHtable, p.globalPid = q.globalPid ∧
      p.ipcNs = q.ipcNs ∧ p.domainId = q.domainId ∧ (p.role = q.role ∨ p.role = .application) ∧
      (p.exited = false → q.exited = false) := fun p hp => ⟨p, hp, rfl, rfl, rfl, .inl rfl, id⟩
  cases h with
  | same => exact hsame p' hp'
  | registered hcall => exact absurd hcall (hnot _ _ _ _)
  | exited =>
    unfold exitedProcs markExited at hp'
    split at hp'
    · exact hsame p' (HTable.mem_hashDel.mp hp').1
    · obtain ⟨p, hp, rfl⟩ := HTable.mem_modify.mp hp'
      split
      · exact ⟨p, hp, rfl, rfl, rfl, .inl rfl, fun h => by cases h⟩
      · exact hsame p hp
  | drained => exact hsame p' (HTable.mem_hashDel.mp hp').1
  | deregistered => exact hsame p' (HTable.mem_hashDel.mp hp').1
  | demoted =>
    obtain ⟨p, hp, rfl⟩ := HTable.mem_modify.mp hp'
    split
    · exact ⟨p, hp, rfl, rfl, rfl, .inr rfl, id⟩
    · exact hsame p hp
  | reported => exact hsame p' hp'

theorem ManagersOk.step (h : ManagersOk σ.procInfoHtable) (hwf : σ.WellFormed) (i : Input) :
    ManagersOk (Agnocast.step σ i).2.procInfoHtable := by
  have hchange := step_procs hwf i
  generalize (Agnocast.step σ i).2.procInfoHtable = procs at hchange ⊢
  generalize (Agnocast.step σ i).2.mem = m at hchange
  by_cases hadd : ∃ pid ipcNs raw domainId, i.call = .addProcess pid ipcNs raw domainId
  · obtain ⟨_, _, _, _, hadd⟩ := hadd
    cases hchange with
    | same => exact h
    | registered _ _ hadmits => exact h.registered hadmits
    | exited hcall => rw [hadd] at hcall; cases hcall
    | drained hcall => rw [hadd] at hcall; cases hcall
    | deregistered hcall => rw [hadd] at hcall; cases hcall
    | demoted hcall => rw [hadd] at hcall; rcases hcall with h | ⟨_, h⟩ <;> cases h
    | reported => exact h
  · refine h.of_fewer fun p' hp' => hchange.kept ?_ hp'
    exact fun pid ipcNs raw domainId hcall => hadd ⟨pid, ipcNs, raw, domainId, hcall⟩

theorem reachable_managersOk (h : Reachable σ) : ManagersOk σ.procInfoHtable := by
  refine Transition.Reachable.invariant (P := fun σ => ManagersOk σ.procInfoHtable) ?_ ?_ h
  · rintro σ ⟨_, _, _, _, _, rfl⟩
    exact ⟨fun p hp => (by cases hp), fun p hp => (by cases hp), fun p hp => (by cases hp)⟩
  · exact fun σ i hr hok => hok.step (Reachable.wellFormed hr) i

theorem Manages.unique (hr : Reachable σ) {p q : ProcessInfo} {ipcNs : IpcNs} {domainId : Nat}
    (hp : Manages σ p ipcNs domainId) (hq : Manages σ q ipcNs domainId) : p = q := by
  refine HTable.eq_of_key_eq (reachable_poolsOk hr).pids hp.mem hq.mem ?_
  exact (reachable_managersOk hr).one p hp.mem q hq.mem hp.role hq.role hp.live hq.live
    (hp.ipcNs.trans hq.ipcNs.symm) (hp.domainId.trans hq.domainId.symm)

/-! ## Retiring -/

/-- The manager `p` gives up its role: it announces its end, or it asks whether it
may stop and is told so. -/
inductive Retires (ev : Event) (p : ProcessInfo) : Prop
  | announced (hcall : ev.input.call = .notifyBridgeShutdown p.globalPid)
  | granted (hcall : ev.input.call = .checkAndRequestBridgeShutdown p.globalPid p.ipcNs)
      (hyes : ev.output = .flag true)

/-- The event registers a bridge manager of the domain. -/
def RegistersManager (ev : Event) (ipcNs : IpcNs) (domainId : Nat) : Prop :=
  ∃ p, Registers ev p ∧ p.role = .bridgeManager ∧ p.ipcNs = ipcNs ∧ p.domainId = domainId

theorem checkAndRequestBridgeShutdown_true {pid : Pid} {ipcNs : IpcNs}
    (h : (checkAndRequestBridgeShutdown σ pid ipcNs).1 = true) :
    getProcessNumInDomainExceptUnlinkDaemon σ ipcNs (getProcessDomainId σ pid) ≤ 1 ∧
      (checkAndRequestBridgeShutdown σ pid ipcNs).2 = demoteToApplication σ pid := by
  unfold checkAndRequestBridgeShutdown at h ⊢
  split
  · next hcount => exact ⟨hcount, rfl⟩
  · next hcount =>
    rw [if_neg hcount] at h
    cases h

/-- **A manager may stop only when it is alone**: nobody else is registered in its
domain, exited or not. -/
theorem shutdown_only_alone (hr : Reachable σ) {p : ProcessInfo} {ipcNs : IpcNs} {domainId : Nat}
    (hp : Manages σ p ipcNs domainId)
    (hyes : (checkAndRequestBridgeShutdown σ p.globalPid ipcNs).1 = true) {q : ProcessInfo}
    (hq : q ∈ σ.procInfoHtable) (hns : q.ipcNs = ipcNs) (hdom : q.domainId = domainId) : q = p := by
  have hpools := reachable_poolsOk hr
  have hmanagers := reachable_managersOk hr
  have hfind : findProcessInfo σ p.globalPid = some p := HTable.lookup_self hpools.pids hp.mem
  have hcount := (checkAndRequestBridgeShutdown_true hyes).1
  have hself : getProcessDomainId σ p.globalPid = domainId := by
    unfold getProcessDomainId
    rw [hfind]
    exact hp.domainId
  rw [hself, getProcessNumInDomainExceptUnlinkDaemon, List.countP_eq_length_filter] at hcount
  by_contra hne
  -- both would be counted: the only role that is not counted has no domain
  have hcounted : ∀ r ∈ σ.procInfoHtable, r.ipcNs = ipcNs → r.domainId = domainId →
      r ∈ σ.procInfoHtable.filter fun p =>
        p.ipcNs = ipcNs ∧ p.domainId = domainId ∧ p.role ≠ .unlinkDaemon := by
    intro r hr' hrns hrdom
    refine List.mem_filter.mpr ⟨hr', ?_⟩
    have hrole : r.role ≠ .unlinkDaemon := by
      intro hrole
      refine hmanagers.manager p hp.mem hp.role ?_
      rw [hp.domainId, ← hrdom]
      exact hmanagers.daemon r hr' hrole
    simp [hrns, hrdom, hrole]
  have htwo : 2 ≤ (σ.procInfoHtable.filter fun p =>
      p.ipcNs = ipcNs ∧ p.domainId = domainId ∧ p.role ≠ .unlinkDaemon).length := by
    have hsub : [p, q].Subperm (σ.procInfoHtable.filter fun p =>
        p.ipcNs = ipcNs ∧ p.domainId = domainId ∧ p.role ≠ .unlinkDaemon) := by
      refine List.subperm_of_subset ?_ ?_
      · simpa using fun h => hne h.symm
      · intro r hr'
        rcases List.mem_cons.mp hr' with rfl | hr'
        · exact hcounted r hp.mem hp.ipcNs hp.domainId
        · rw [List.mem_singleton.mp hr']
          exact hcounted q hq hns hdom
    exact hsub.length_le
  omega

/-- Without a manager there is none after a step either, unless one registers. -/
theorem no_manager_step (hr : Reachable σ) {i : Input} {o : Reply} {ipcNs : IpcNs} {domainId : Nat}
    (hnone : ∀ p, ¬ Manages σ p ipcNs domainId) (hnot : ¬ RegistersManager ⟨σ, i, o⟩ ipcNs domainId) :
    ∀ p, ¬ Manages (step σ i).2 p ipcNs domainId := by
  intro p hp
  have hwf := Reachable.wellFormed hr
  cases hfind : findProcessInfo σ p.globalPid with
  | none => exact hnot ⟨p, ⟨hp.mem, hfind⟩, hp.role, hp.ipcNs, hp.domainId⟩
  | some q =>
    obtain ⟨hq, hpid⟩ := findProcessInfo_mem hfind
    have hchange := step_procs hwf i
    by_cases hadd : ∃ pid ipcNs raw domainId, i.call = .addProcess pid ipcNs raw domainId
    · -- a registration keeps the others as they are
      obtain ⟨pid, ns, raw, dom, hadd⟩ := hadd
      have hold : p ∈ σ.procInfoHtable := by
        have hpm := hp.mem
        obtain ⟨env, call⟩ := i
        subst hadd
        have hstep : (step σ ⟨env, .addProcess pid ns raw dom⟩).2 =
            (addProcess σ env pid ns raw dom).2 := rfl
        rw [hstep] at hpm
        rcases addProcess_cases (σ := σ) env pid ns raw dom with ⟨e, heq⟩ | heq |
          ⟨role, pool, _, hadmits, _, heq⟩ <;> rw [heq] at hpm
        · exact hpm
        · exact hpm
        · rcases HTable.mem_hashAdd.mp hpm with rfl | hpm
          · have hfresh := hadmits.fresh
            rw [show (newProcess env pid ns role dom pool).globalPid = pid from rfl, hfresh] at hfind
            cases hfind
          · exact hpm
      exact hnone p ⟨hold, hp.ipcNs, hp.domainId, hp.role, hp.live⟩
    · obtain ⟨q, hq, _, hns, hdom, hrole | hrole, hlive⟩ := hchange.kept
        (fun pid ipcNs raw domainId hcall => hadd ⟨pid, ipcNs, raw, domainId, hcall⟩) hp.mem
      · exact hnone q ⟨hq, hns.symm.trans hp.ipcNs, hdom.symm.trans hp.domainId,
          hrole.symm.trans hp.role, hlive hp.live⟩
      · rw [hp.role] at hrole
        cases hrole

/-- **A manager that retires leaves its domain without one.** -/
theorem retire_leaves_none {ev : Event} (hr : Reachable ev.pre)
    (hout : ev.output = (step ev.pre ev.input).1) {p : ProcessInfo} {ipcNs : IpcNs} {domainId : Nat}
    (hp : Manages ev.pre p ipcNs domainId) (hretires : Retires ev p) :
    ∀ q, ¬ Manages (step ev.pre ev.input).2 q ipcNs domainId := by
  have hpost : (step ev.pre ev.input).2 = demoteToApplication ev.pre p.globalPid := by
    obtain ⟨σ, ⟨env, call⟩, o⟩ := ev
    cases hretires with
    | announced hcall =>
      subst hcall
      rfl
    | granted hcall hyes =>
      subst hcall hyes
      exact (checkAndRequestBridgeShutdown_true (Reply.flag.inj hout).symm).2
  intro q hq
  rw [hpost] at hq
  obtain ⟨q₀, hq₀, rfl⟩ := HTable.mem_modify.mp hq.mem
  by_cases hpid : q₀.globalPid = p.globalPid
  · have hrole := hq.role
    rw [if_pos hpid] at hrole
    cases hrole
  · -- another manager of the domain, against its uniqueness
    rw [if_neg hpid] at hq
    have hsame := hp.unique hr ⟨hq₀, hq.ipcNs, hq.domainId, hq.role, hq.live⟩
    exact hpid (by rw [hsame])

/-- **The hand-over of the bridge managers.** There is at most one of a domain; it is
told to stop only when it is alone there; and once it has retired, every process that
starts in the domain is told that there is none, until a new one has registered. -/
theorem run_bridge_manager_handed_over {tr : List Event}
    (h : Transition.Run kmod Transition.anyStep tr σ) :
    (∀ p q ipcNs domainId, Manages σ p ipcNs domainId → Manages σ q ipcNs domainId → p = q) ∧
    (∀ (later : List Event) ev before, tr = later ++ ev :: before → ∀ p ipcNs domainId,
      Manages ev.pre p ipcNs domainId →
      ev.input.call = .checkAndRequestBridgeShutdown p.globalPid ipcNs → ev.output = .flag true →
      ∀ q ∈ ev.pre.procInfoHtable, q.ipcNs = ipcNs → q.domainId = domainId → q = p) ∧
    (∀ (later : List Event) e (between : List Event) ev before,
      tr = later ++ e :: (between ++ ev :: before) →
      ∀ p ipcNs domainId, Manages ev.pre p ipcNs domainId → Retires ev p →
      (∀ e' ∈ between, ¬ RegistersManager e' ipcNs domainId) →
      ∀ pid raw r, e.input.call = .addProcess pid ipcNs raw domainId →
        e.output = .processAdded (.ok r) → r.bridgeDaemonExist = false) := by
  refine ⟨fun p q ipcNs domainId hp hq => hp.unique h.reachable hq, ?_, ?_⟩
  · rintro later ⟨σ₀, ⟨env, call⟩, o⟩ before rfl p ipcNs domainId hp rfl rfl q hq hns hdom
    obtain ⟨hr, _, hout, _⟩ := h.event
    exact shutdown_only_alone hr.reachable hp (Reply.flag.inj hout).symm hq hns hdom
  · rintro later ⟨σ₁, ⟨env, call⟩, o⟩ between ev before rfl p ipcNs domainId hp hretires hnone
      pid raw r rfl rfl
    obtain ⟨hr, _, hout, _⟩ := h.event
    -- no manager from the retirement on, through every step in between
    have hstill : ∀ q, ¬ Manages σ₁ q ipcNs domainId := by
      refine Transition.Run.since (P := fun between s =>
        (∀ e' ∈ between, ¬ RegistersManager e' ipcNs domainId) →
          ∀ q, ¬ Manages s q ipcNs domainId) ?_ ?_ hr hnone
      · intro s hs _
        cases hs with
        | step i hs _ => exact retire_leaves_none hs.reachable rfl hp hretires
      · intro later s i hs ih _ hnone
        have hbefore := ih fun e' he' => hnone e' (List.mem_cons_of_mem _ he')
        exact no_manager_step hs.reachable hbefore (hnone _ List.mem_cons_self)
    have hreply := (addProcess_reply (Reply.processAdded.inj hout).symm).2
    rw [hreply]
    refine Bool.eq_false_iff.mpr fun halive => ?_
    obtain ⟨q, hq⟩ := hasAliveBridgeManager_iff.mp halive
    exact hstill q hq

/-- The manager of domain 0 stops when it is alone, and process 3 finds none. -/
theorem bridge_manager_handed_over_once : ∃ e r,
    (runOf 2 [.addProcess 2 0 1 0, .checkAndRequestBridgeShutdown 2 0, .addProcess 3 0 0 0]).1.head? =
        some e ∧
      e.output = .processAdded (.ok r) ∧ r.bridgeDaemonExist = false := by
  have hrun := run_runOf (n := 2) (by decide) (by decide) (kmod.guarded_anyStep _
    (([.addProcess 2 0 1 0, .checkAndRequestBridgeShutdown 2 0, .addProcess 3 0 0 0] : List Call).map
      fun call => ⟨.smooth, call⟩))
  refine ⟨_, _, rfl, rfl, ?_⟩
  refine (run_bridge_manager_handed_over hrun).2.2 [] _ [] _ _ rfl
    ⟨false, .bridgeManager, 2, 2, 0, 0, 0⟩ 0 0 ⟨?_, rfl, rfl, rfl, rfl⟩ (.granted rfl rfl) ?_ 3 0 _
    rfl rfl
  · exact List.mem_cons_self
  · intro e' he'
    cases he'

end Agnocast
