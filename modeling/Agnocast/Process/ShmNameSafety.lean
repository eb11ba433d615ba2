import Agnocast.Process.ShmNames

/-!
# The processes — names outlive their announcements

A segment is there from its creation until the daemon unlinks its name, and until the
second phase of a GET_EXIT_PROCESS its process is registered. Nobody registers under the
name meanwhile, so whoever creates a segment finds none, and whoever was told of one finds
it if the daemon waits.

* `ShmOk`         — the invariant of the segments.
* `names_outlive` — every run under `NamesKept`.
* `told_then_unlinked` — a process exits and its name is unlinked between the ioctl that
  reports it and the `shm_open`.
-/

namespace Agnocast

variable {s : ShmHost} {h h' : Host}

/-! ## Registrations -/

/-- The name of the process's segment. -/
def ProcessInfo.shmName (p : ProcessInfo) : ShmName := ⟨p.ipcNs, p.globalPid⟩

/-- Two registrations of one process. -/
structure SamePids (p q : ProcessInfo) : Prop where
  globalPid : q.globalPid = p.globalPid
  localPid : q.localPid = p.localPid
  ipcNs : q.ipcNs = p.ipcNs

theorem SamePids.refl (p : ProcessInfo) : SamePids p p := ⟨rfl, rfl, rfl⟩

theorem SamePids.shmName {p q : ProcessInfo} (hpq : SamePids p q) : q.shmName = p.shmName := by
  unfold ProcessInfo.shmName
  rw [hpq.globalPid, hpq.ipcNs]

/-- The registration that an ADD_PROCESS makes. -/
def AddsProcess (σ : Kmod) (i : Input) (q : ProcessInfo) : Prop :=
  ∃ raw domainId role pool, i.call = .addProcess q.globalPid q.ipcNs raw domainId ∧
    decodeRole raw = some role ∧ findProcessInfo σ q.globalPid = none ∧
    q = newProcess i.env q.globalPid q.ipcNs role domainId pool

/-- A registration was there, under the same pids, or is the one that the call makes. -/
theorem registration_pids {σ : Kmod} (hr : Reachable σ) {i : Input} {q : ProcessInfo}
    (hq : q ∈ (step σ i).2.procInfoHtable) :
    (∃ p ∈ σ.procInfoHtable, SamePids p q) ∨ AddsProcess σ i q := by
  have hself := findProcessInfo_self (Transition.Reachable.step hr i) hq
  rcases registration_origin hr hself with ⟨p, hp, heq, _⟩ |
    ⟨ipcNs, raw, domainId, role, pool, hcall, hrole, hfresh, _, heq⟩
  · refine .inl ⟨p, (findProcessInfo_mem hp).1, ?_⟩
    rw [heq]
    exact ⟨rfl, rfl, rfl⟩
  · obtain rfl : q.ipcNs = ipcNs := by rw [heq]; rfl
    exact .inr ⟨raw, domainId, role, pool, hcall, hrole, hfresh, heq⟩

/-- What a step of the machine that drains nobody does to the registrations; `New` are those
that it makes. -/
structure HostStep (New : ProcessInfo → Prop) (h h' : Host) : Prop where
  identified : h'.Identified
  ages : h.Ages h'
  kept : ∀ p ∈ h.kmod.procInfoHtable, p.role ≠ .unlinkDaemon →
    ∃ p' ∈ h'.kmod.procInfoHtable, SameRegistration p p'
  origin : ∀ q ∈ h'.kmod.procInfoHtable, (∃ p ∈ h.kmod.procInfoHtable, SamePids p q) ∨ New q
  makers : ∀ p ∈ h.kmod.procInfoHtable, h'.registeredBy p.globalPid = h.registeredBy p.globalPid

/-- The step leaves the module alone. -/
private theorem HostStep.of_kmod (hid : h'.Identified) (hages : h.Ages h')
    (hkmod : h'.kmod = h.kmod) (hmaker : h'.registeredBy = h.registeredBy) :
    HostStep (fun _ => False) h h' where
  identified := hid
  ages := hages
  kept p hp _ := ⟨p, hkmod ▸ hp, .refl p⟩
  origin q hq := .inl ⟨q, hkmod ▸ hq, .refl q⟩
  makers p _ := by rw [hmaker]

/-- A step of the machine that is no ioctl. -/
theorem Host.Identified.hostStep (hid : h.Identified) {i : HostInput}
    (hi : ∀ j, i ≠ .ioctl j) : HostStep (fun _ => False) h (h.step i).2 := by
  have hages := (hid.numbered.step i).1
  have hid' : (h.step i).2.Identified := hid.step (by
    cases i with
    | ioctl j => exact absurd rfl (hi j)
    | _ => trivial)
  cases i with
  | ioctl j => exact absurd rfl (hi j)
  | start pid =>
    refine .of_kmod hid' hages ?_ ?_ <;>
      · show _ = _
        simp only [Host.step, Host.start]
        split <;> rfl
  | exit pid =>
    refine .of_kmod hid' hages ?_ ?_ <;>
      · simp only [Host.step, Host.exit]
        split <;> rfl
  | release pid =>
    refine .of_kmod hid' hages ?_ ?_ <;>
      · simp only [Host.step, Host.release]
        split <;> rfl
  | pop =>
    refine .of_kmod hid' hages ?_ ?_ <;>
      · simp only [Host.step, Host.pop]
        split <;> rfl
  | cleanup =>
    -- the worker cleans up the pid that it has popped
    cases hpopped : h.popped with
    | none =>
      refine .of_kmod hid' hages ?_ ?_ <;> simp only [Host.step, Host.cleanup, hpopped]
    | some pid =>
      have hkmod : (h.step .cleanup).2.kmod =
          (Agnocast.step h.kmod ⟨.smooth, .processExitCleanup pid⟩).2 := by
        simp only [Host.step, Host.cleanup, hpopped]
        rfl
      refine ⟨hid', hages, fun p hp hrole => ?_, fun q hq => ?_, fun p _ => ?_⟩
      · rw [hkmod]
        exact registration_persists hid.reachable (fun _ _ _ hcall => (by cases hcall)) hp
          fun hr => absurd hr hrole
      · rw [hkmod] at hq
        refine .inl ((registration_pids hid.reachable hq).resolve_right ?_)
        rintro ⟨_, _, _, _, hcall, _⟩
        cases hcall
      · simp only [Host.step, Host.cleanup, hpopped]

/-- A registration that is there keeps its maker. -/
theorem Host.Identified.maker_ioctl (hid : h.Identified) (i : Input) {p : ProcessInfo}
    (hp : p ∈ h.kmod.procInfoHtable) :
    (h.ioctl i).2.registeredBy p.globalPid = h.registeredBy p.globalPid := by
  have hfound : findProcessInfo h.kmod p.globalPid = some p := findProcessInfo_self hid.reachable hp
  unfold Host.ioctl
  split
  · show h.registeredAfter _ p.globalPid = _
    unfold Host.registeredAfter
    rw [hfound]
    simp
  · rfl

/-- An ioctl that drains nobody. -/
theorem Host.Identified.hostStep_ioctl (hid : h.Identified) {i : Input}
    (hi : i.call.drains = false) (hg : Host.PidsDrained h (.ioctl i)) :
    HostStep (AddsProcess h.kmod i) h (h.ioctl i).2 := by
  have hages : h.Ages (h.ioctl i).2 := (hid.numbered.step (.ioctl i)).1
  refine ⟨hid.ioctl hg, hages, fun p hp hrole => ?_, fun q hq => ?_,
    fun p hp => hid.maker_ioctl i hp⟩
  · unfold Host.ioctl
    split
    · refine registration_persists hid.reachable (fun _ _ _ hcall => ?_) hp fun hr => absurd hr hrole
      rw [hcall] at hi
      cases hi
    · exact ⟨p, hp, .refl p⟩
  · unfold Host.ioctl at hq
    split at hq
    · exact registration_pids hid.reachable hq
    · exact .inl ⟨q, hq, .refl q⟩

/-! ## The invariant -/

/-- A process that lives and has its segment still to create is registered, and finds no
segment once the daemon owes no unlink of the name. -/
def ShmHost.Pending (s : ShmHost) (c : Creation) : Prop :=
  c.number < s.host.started ∧ (s.host.runs c.pid = some c.number →
    (∃ p ∈ s.host.kmod.procInfoHtable, p.role ≠ .unlinkDaemon ∧ p.shmName = c.name ∧
      p.globalPid = c.pid ∧ s.host.registeredBy c.pid = c.number) ∧
    (s.segments c.name = none ∨ c.name ∈ s.unlinking))

/-- **The segments**: a name has one until it is unlinked, and until then its process is
registered or the daemon knows; who was told of a name finds it. -/
structure ShmOk (s : ShmHost) : Prop where
  identified : s.host.Identified
  pids : ∀ p ∈ s.host.kmod.procInfoHtable, p.localPid = p.globalPid ∧ 0 < p.globalPid
  handler : ∀ daemon l localPid globalPid, s.handler daemon = some l →
    l.found = some (localPid, globalPid) → localPid = globalPid ∧
      ∃ p ∈ s.host.kmod.procInfoHtable, p.shmName = ⟨l.ipcNs, globalPid⟩ ∧ p.exited = true
  apart : ∀ d d' l l', s.handler d = some l → s.handler d' = some l' → l.ipcNs = l'.ipcNs → d = d'
  segments : ∀ name owner, s.segments name = some owner → name ∈ s.unlinking ∨
    ∃ p ∈ s.host.kmod.procInfoHtable, p.role ≠ .unlinkDaemon ∧ p.shmName = name
  creating : ∀ c ∈ s.creating, s.Pending c
  nodup : s.creating.Nodup
  told : ∀ r ∈ s.told, s.segments r.name = some r.owner

theorem ShmOk.init (hinit : shmHost.init s) : ShmOk s := by
  obtain ⟨hhost, hidle, hnone, hcreating, htold, _⟩ := hinit
  have hprocs : s.host.kmod.procInfoHtable = [] := by
    obtain ⟨σ, ⟨_, _, _, _, _, rfl⟩, hs⟩ := hhost
    rw [hs]
    rfl
  refine ⟨.init hhost, fun p hp => ?_, fun d l _ _ hl _ => ?_, fun d _ l _ hl => ?_,
    fun name owner hseg => ?_, fun c hc => ?_, ?_, fun r hr => ?_⟩
  · rw [hprocs] at hp
    cases hp
  · rw [hidle] at hl
    cases hl
  · rw [hidle] at hl
    cases hl
  · rw [hnone] at hseg
    cases hseg
  · rw [hcreating] at hc
    cases hc
  · rw [hcreating]
    exact List.nodup_nil
  · rw [htold] at hr
    cases hr

/-- A registration that is marked is no daemon's. -/
private theorem role_of_exited {σ : Kmod} (hr : Reachable σ) {p : ProcessInfo}
    (hp : p ∈ σ.procInfoHtable) (hexited : p.exited = true) : p.role ≠ .unlinkDaemon := by
  intro hrole
  rw [(reachable_daemonsOk hr).live p hp hrole] at hexited
  cases hexited

theorem SameRegistration.shmName {p p' : ProcessInfo} (hpp : SameRegistration p p') :
    p'.shmName = p.shmName := by
  unfold ProcessInfo.shmName
  rw [hpp.globalPid, hpp.ipcNs]

/-- **A step of the machine** that drains nobody. -/
theorem ShmOk.of_host {New : ProcessInfo → Prop} (hok : ShmOk s) (hstep : HostStep New s.host h)
    (hnew : ∀ q, New q → q.localPid = q.globalPid ∧ 0 < q.globalPid) :
    ShmOk { s with host := h } := by
  have hr := hok.identified.reachable
  refine ⟨hstep.identified, fun q hq => ?_, fun d l localPid globalPid hl hfound => ?_, hok.apart,
    fun name owner hseg => ?_, fun c hc => ?_, hok.nodup, hok.told⟩
  · rcases hstep.origin q hq with ⟨p, hp, hpq⟩ | hmade
    · rw [hpq.localPid, hpq.globalPid]
      exact hok.pids p hp
    · exact hnew q hmade
  · obtain ⟨hsame, p, hp, hname, hexited⟩ := hok.handler d l _ _ hl hfound
    obtain ⟨p', hp', hpp⟩ := hstep.kept p hp (role_of_exited hr hp hexited)
    exact ⟨hsame, p', hp', hpp.shmName.trans hname, hpp.exited hexited⟩
  · refine (hok.segments name owner hseg).imp_right fun ⟨p, hp, hrole, hname⟩ => ?_
    obtain ⟨p', hp', hpp⟩ := hstep.kept p hp hrole
    exact ⟨p', hp', fun hdaemon => hrole (hpp.daemon.mp hdaemon), hpp.shmName.trans hname⟩
  · obtain ⟨hlt, hpending⟩ := hok.creating c hc
    refine ⟨Nat.lt_of_lt_of_le hlt hstep.ages.started, fun hruns => ?_⟩
    obtain ⟨⟨p, hp, hrole, hname, hpid, hmaker⟩, hfree⟩ :=
      hpending (hstep.ages.runs _ _ hlt hruns)
    obtain ⟨p', hp', hpp⟩ := hstep.kept p hp hrole
    refine ⟨⟨p', hp', fun hdaemon => hrole (hpp.daemon.mp hdaemon), hpp.shmName.trans hname,
      hpp.globalPid.trans hpid, ?_⟩, hfree⟩
    have hsame := hstep.makers p hp
    rw [hpid] at hsame
    exact hsame.trans hmaker

/-! ## Ioctls -/

/-- The registration that an ADD_PROCESS with a pool makes. -/
theorem registered_of_pool {σ : Kmod} {env : Env} {pid : Pid} {ipcNs : IpcNs} {raw domainId : Nat}
    (hpool : (ShmHost.pool (some (step σ ⟨env, .addProcess pid ipcNs raw domainId⟩).1)).isSome) :
    findProcessInfo σ pid = none ∧ ∃ role pool, decodeRole raw = some role ∧
      newProcess env pid ipcNs role domainId pool ∈
        (step σ ⟨env, .addProcess pid ipcNs raw domainId⟩).2.procInfoHtable := by
  change (ShmHost.pool (some (.processAdded (addProcess σ env pid ipcNs raw domainId).1))).isSome at hpool
  show _ ∧ ∃ role pool, _ ∧ _ ∈ (addProcess σ env pid ipcNs raw domainId).2.procInfoHtable
  rcases addProcess_cases (σ := σ) env pid ipcNs raw domainId with ⟨e, heq⟩ | heq |
    ⟨role, pool, hrole, hadmits, _, heq⟩
  · rw [heq] at hpool
    cases hpool
  · rw [heq] at hpool
    cases hpool
  · rw [heq]
    exact ⟨hadmits.fresh, role, pool, hrole, HTable.mem_hashAdd.mpr (.inl rfl)⟩

/-- Whoever has to create a segment after a call has just registered. -/
theorem ShmOk.newCreations (hok : ShmOk s) {i : Input} (hg : s.Ready i) {c : Creation}
    (hc : c ∈ s.newCreations i (s.host.ioctl i).1) :
    c ∉ s.creating ∧ ({ s with host := (s.host.ioctl i).2 } : ShmHost).Pending c := by
  obtain ⟨env, call⟩ := i
  have hid := hok.identified
  cases call with
  | addProcess pid ipcNs raw domainId =>
    unfold ShmHost.newCreations at hc
    simp only at hc
    split at hc
    case isFalse => cases hc
    next hmade =>
    obtain ⟨hpool, hrole⟩ := hmade
    obtain rfl := List.mem_singleton.mp hc
    -- the call was issued, by the process that runs under the pid
    have hissue : s.host.canIssue (.addProcess pid ipcNs raw domainId) = true := by
      refine Bool.not_eq_false _ ▸ fun hno => ?_
      unfold Host.ioctl at hpool
      rw [hno] at hpool
      cases hpool
    obtain ⟨number, hruns⟩ : ∃ number, s.host.runs pid = some number :=
      Option.isSome_iff_exists.mp hissue
    have hioctl : s.host.ioctl ⟨env, .addProcess pid ipcNs raw domainId⟩ =
        (some (step s.host.kmod ⟨env, .addProcess pid ipcNs raw domainId⟩).1,
          { s.host with
            kmod := (step s.host.kmod ⟨env, .addProcess pid ipcNs raw domainId⟩).2
            registeredBy := s.host.registeredAfter
              (step s.host.kmod ⟨env, .addProcess pid ipcNs raw domainId⟩).2 }) := by
      unfold Host.ioctl
      rw [if_pos hissue]
    rw [hioctl] at hpool
    obtain ⟨hfresh, role, pool, hdecode, hmem⟩ := registered_of_pool hpool
    have hlocal : env.convertPidToLocal pid = some pid := hg.pids.1 pid
    have hnobody : ∀ p ∈ s.host.kmod.procInfoHtable, p.globalPid ≠ pid := by
      intro p hp hpid
      have hself := findProcessInfo_self hid.reachable hp
      rw [hpid, hfresh] at hself
      cases hself
    have hlt : number < s.host.started := hid.numbered.lt pid number hruns
    rw [hlocal, hruns]
    refine ⟨fun hold => ?_, ?_⟩
    · -- an older creation of the process would come with a registration
      obtain ⟨⟨p, hp, _, _, hpid, _⟩, _⟩ := (hok.creating _ hold).2 hruns
      exact hnobody p hp hpid
    · rw [hioctl]
      refine ⟨hlt, fun _ => ⟨⟨_, hmem, fun hdaemon => hrole ?_, ?_, rfl, ?_⟩, ?_⟩⟩
      · rw [hdecode]
        exact congrArg some hdaemon
      · rfl
      · have hself : findProcessInfo (step s.host.kmod ⟨env, .addProcess pid ipcNs raw domainId⟩).2
            pid = some _ := findProcessInfo_self (Transition.Reachable.step hid.reachable _) hmem
        show s.host.registeredAfter _ pid = number
        unfold Host.registeredAfter
        rw [hfresh, hself, hruns]
        rfl
      · cases hseg : s.segments ⟨ipcNs, pid⟩ with
        | none => exact .inl hseg
        | some owner =>
          refine .inr ((hok.segments _ owner hseg).resolve_right ?_)
          rintro ⟨p, hp, _, hname⟩
          exact hnobody p hp (congrArg ShmName.pid hname)
  | _ => cases hc

theorem ShmHost.newCreations_nodup (s : ShmHost) (i : Input) (reply : Option Reply) :
    (s.newCreations i reply).Nodup := by
  unfold ShmHost.newCreations
  split
  · split
    · exact List.nodup_singleton _
    · exact List.nodup_nil
  · exact List.nodup_nil

/-- What a subscriber is told of is there. -/
theorem ShmOk.newTold (hok : ShmOk s) {i : Input} (hg : s.Ready i) {r : ToldShm}
    (hr : r ∈ s.newTold i (s.host.ioctl i).1) : s.segments r.name = some r.owner := by
  unfold ShmHost.newTold at hr
  unfold Host.ioctl at hr
  split at hr
  case h_2 => cases hr
  next w sub reply htarget hreply =>
  split at hreply
  case isFalse => cases hreply
  obtain ⟨info, hinfo, rfl⟩ := List.mem_map.mp hr
  obtain rfl := Option.some.inj hreply
  obtain ⟨q, hq, p, hp, hlive, hlocal⟩ :=
    shmInfos_live hok.identified.reachable.wellFormed htarget hinfo
  rw [hg.pids.1] at hlocal
  have hthere := hg.created w sub htarget q hq p hp hlive
  rwa [Option.some.inj hlocal] at hthere

theorem ShmOk.ioctl (hok : ShmOk s) {i : Input} (hi : i.call.drains = false) (hg : s.Ready i) :
    ShmOk (s.ioctl i) := by
  have hcreations := fun c hc => hok.newCreations hg (c := c) hc
  have htold := fun r hr => hok.newTold hg (r := r) hr
  have hhost : ShmOk { s with host := (s.host.ioctl i).2 } := by
    refine hok.of_host (hok.identified.hostStep_ioctl hi hg.drained) ?_
    rintro q ⟨raw, domainId, role, pool, hcall, _, _, heq⟩
    have hlocal : q.localPid = (i.env.convertPidToLocal q.globalPid).getD (-1) :=
      congrArg ProcessInfo.localPid heq
    rw [hg.pids.1] at hlocal
    exact ⟨hlocal, hg.pids.2 _ _ _ _ hcall⟩
  refine { hhost with creating := fun c hc => ?_, nodup := ?_, told := fun r hr => ?_ }
  · rcases List.mem_append.mp hc with hc | hc
    · exact (hcreations c hc).2
    · exact hhost.creating c hc
  · refine List.nodup_append.mpr ⟨s.newCreations_nodup i _, hok.nodup, fun c hc c' hc' heq => ?_⟩
    exact (hcreations c hc).1 (heq ▸ hc')
  · rcases List.mem_append.mp hr with hr | hr
    · exact htold r hr
    · exact hok.told r hr

/-! ## GET_EXIT_PROCESS -/

/-- The first phase reads an exited registration. -/
theorem ShmOk.getExitProcess (hok : ShmOk s) (daemon : Pid) (ipcNs : IpcNs)
    (hg : ∀ d l, s.handler d = some l → l.ipcNs ≠ ipcNs) :
    ShmOk { s with
      handler := Function.update s.handler daemon
        (some ⟨ipcNs, Agnocast.getExitProcess s.host.kmod ipcNs⟩) } := by
  have hcases : ∀ {d l}, Function.update s.handler daemon
      (some ⟨ipcNs, Agnocast.getExitProcess s.host.kmod ipcNs⟩) d = some l →
      (d = daemon ∧ l = ⟨ipcNs, Agnocast.getExitProcess s.host.kmod ipcNs⟩) ∨
        s.handler d = some l := by
    intro d l hl
    by_cases hd : d = daemon
    · rw [hd, Function.update_self] at hl
      exact .inl ⟨hd, (Option.some.inj hl).symm⟩
    · rw [Function.update_of_ne hd] at hl
      exact .inr hl
  refine { hok with handler := ?_, apart := ?_ }
  · intro d l localPid globalPid hl hfound
    rcases hcases hl with ⟨rfl, rfl⟩ | hold
    · obtain ⟨p, hp, rfl, hexited, rfl, rfl⟩ := getExitProcess_eq_some hfound
      exact ⟨(hok.pids p hp).1, p, hp, rfl, hexited⟩
    · exact hok.handler d l localPid globalPid hold hfound
  · intro d d' l l' hl hl' hns
    rcases hcases hl with ⟨rfl, rfl⟩ | hold <;> rcases hcases hl' with ⟨rfl, rfl⟩ | hold'
    · rfl
    · exact absurd hns.symm (hg d' l' hold')
    · exact absurd hns (hg d l hold)
    · exact hok.apart d d' l l' hold hold' hns

/-- A call that is over. -/
theorem update_none_eq_some {handler : Pid → Option ExitHandler} {daemon d : Pid} {l : ExitHandler}
    (hl : Function.update handler daemon none d = some l) : d ≠ daemon ∧ handler d = some l := by
  by_cases hd : d = daemon
  · rw [hd, Function.update_self] at hl
    cases hl
  · rw [Function.update_of_ne hd] at hl
    exact ⟨hd, hl⟩

/-- What the second phase leaves: all registrations but daemons' and the one that was read. -/
theorem ShmOk.commit_keeps (hok : ShmOk s) {daemon : Pid} {l : ExitHandler}
    (hl : s.handler daemon = some l) {σ : Kmod}
    (hσ : (commitExitProcess s.host.kmod l.ipcNs l.globalPid daemon).2 = σ) :
    (∀ q ∈ σ.procInfoHtable, q ∈ s.host.kmod.procInfoHtable) ∧
    ∀ p ∈ s.host.kmod.procInfoHtable, p ∈ σ.procInfoHtable ∨ p.role = .unlinkDaemon ∨
      (p.exited = true ∧ l.found = some (p.globalPid, p.globalPid) ∧ p.ipcNs = l.ipcNs) := by
  have hpids := (reachable_poolsOk hok.identified.reachable).pids
  -- a commit drops one registration at most
  have hdropped : ∀ pid, ∀ q ∈ (s.host.kmod.dropProcess pid).procInfoHtable,
      q ∈ s.host.kmod.procInfoHtable := fun pid q hq => (HTable.mem_hashDel.mp hq).1
  have hothers : ∀ pid, ∀ p ∈ s.host.kmod.procInfoHtable, p.globalPid ≠ pid →
      p ∈ (s.host.kmod.dropProcess pid).procInfoHtable :=
    fun pid p hp hne => HTable.mem_hashDel.mpr ⟨hp, hne⟩
  rcases commitExitProcess_cases (σ := s.host.kmod) l.ipcNs l.globalPid daemon with
    ⟨hg, heq⟩ | ⟨_, _, _, p₀, hp₀, hrole, heq⟩ | ⟨_, heq⟩ <;> rw [heq] at hσ <;> subst hσ
  · refine ⟨hdropped _, fun p hp => ?_⟩
    by_cases hpid : p.globalPid = l.globalPid
    · -- the pid is that of the registration that the first phase has read
      cases hfound : l.found with
      | none =>
        unfold ExitHandler.globalPid at hg
        rw [hfound] at hg
        cases hg
      | some found =>
        obtain ⟨localPid, globalPid⟩ := found
        obtain ⟨rfl, q, hq, hname, hexited⟩ := hok.handler daemon l _ _ hl hfound
        have hglobal : l.globalPid = localPid := by
          unfold ExitHandler.globalPid
          rw [hfound]
          rfl
        have hqpid : q.globalPid = localPid := congrArg ShmName.pid hname
        obtain rfl := HTable.eq_of_key_eq hpids hp hq ((hpid.trans hglobal).trans hqpid.symm)
        exact .inr (.inr ⟨hexited, by rw [hqpid], congrArg ShmName.ipcNs hname⟩)
    · exact .inl (hothers _ p hp hpid)
  · refine ⟨hdropped _, fun p hp => ?_⟩
    -- nobody has exited, and the daemon itself goes
    by_cases hpid : p.globalPid = daemon
    · obtain ⟨hmem, hself⟩ := findProcessInfo_mem hp₀
      obtain rfl := HTable.eq_of_key_eq hpids hp hmem (hpid.trans hself.symm)
      exact .inr (.inl hrole)
    · exact .inl (hothers _ p hp hpid)
  · exact ⟨fun _ hq => hq, fun _ hp => .inl hp⟩

/-- **The second phase**: the registration goes, and the name is the daemon's to unlink. -/
theorem ShmOk.commit (hok : ShmOk s) {daemon : Pid} {l : ExitHandler}
    (hl : s.handler daemon = some l) : ShmOk (s.commit daemon l) := by
  have hid := hok.identified
  obtain ⟨hfrom, hkeeps⟩ := hok.commit_keeps hl rfl
  have hself : (s.host.ioctl ⟨.smooth, .commitExitProcess l.ipcNs l.globalPid daemon⟩).2 =
      { s.host with
        kmod := (commitExitProcess s.host.kmod l.ipcNs l.globalPid daemon).2
        registeredBy :=
          s.host.registeredAfter (commitExitProcess s.host.kmod l.ipcNs l.globalPid daemon).2 } := rfl
  have hdrained : Host.PidsDrained s.host
      (.ioctl ⟨.smooth, .commitExitProcess l.ipcNs l.globalPid daemon⟩) := by
    intro p hp
    obtain ⟨_, _, _, _, _, _, hcall, _⟩ := hp.cases hid.reachable.wellFormed
    cases hcall
  have hid' := hid.ioctl hdrained
  -- a name that gets owed stays so, and the one that was read is
  have howed : ∀ name ∈ s.unlinking, name ∈ (s.commit daemon l).unlinking := by
    intro name hname
    show name ∈ l.found.elim s.unlinking fun found => _
    cases l.found with
    | none => exact hname
    | some found =>
      simp only [Option.elim_some]
      split
      · exact List.mem_cons_of_mem _ hname
      · exact hname
  have hread : ∀ p ∈ s.host.kmod.procInfoHtable,
      l.found = some (p.globalPid, p.globalPid) → p.ipcNs = l.ipcNs →
      p.shmName ∈ (s.commit daemon l).unlinking := by
    intro p hp hfound hns
    show _ ∈ l.found.elim s.unlinking fun found => _
    rw [hfound, Option.elim_some, if_pos (hok.pids p hp).2, ← hns]
    exact List.mem_cons_self
  refine ⟨hid', fun p hp => hok.pids p (hfrom p hp), fun d l' localPid globalPid hl' hfound => ?_,
    fun d d' l₁ l₂ h₁ h₂ => hok.apart d d' l₁ l₂ (update_none_eq_some h₁).2 (update_none_eq_some h₂).2,
    fun name owner hseg => ?_, fun c hc => ?_, hok.nodup, hok.told⟩
  · -- what another call has read lies in another namespace
    obtain ⟨hne, hold⟩ := update_none_eq_some hl'
    obtain ⟨hsame, p, hp, hname, hexited⟩ := hok.handler d l' _ _ hold hfound
    refine ⟨hsame, p, ?_, hname, hexited⟩
    rcases hkeeps p hp with hkept | hrole | ⟨_, _, hns⟩
    · exact hkept
    · exact absurd hrole (role_of_exited hid.reachable hp hexited)
    · have hns' : p.ipcNs = l'.ipcNs := congrArg ShmName.ipcNs hname
      exact absurd (hok.apart d daemon l' l hold hl (hns'.symm.trans hns)) hne
  · rcases hok.segments name owner hseg with hname | ⟨p, hp, hrole, rfl⟩
    · exact .inl (howed name hname)
    · rcases hkeeps p hp with hkept | hdaemon | ⟨_, hfound, hns⟩
      · exact .inr ⟨p, hkept, hrole, rfl⟩
      · exact absurd hdaemon hrole
      · exact .inl (hread p hp hfound hns)
  · obtain ⟨hlt, hpending⟩ := hok.creating c hc
    refine ⟨hlt, fun hruns => ?_⟩
    obtain ⟨⟨p, hp, hrole, hname, hpid, hmaker⟩, hfree⟩ := hpending hruns
    refine ⟨⟨p, ?_, hrole, hname, hpid, ?_⟩, hfree.imp_right (howed c.name)⟩
    · rcases hkeeps p hp with hkept | hdaemon | ⟨hexited, _⟩
      · exact hkept
      · exact absurd hdaemon hrole
      · -- a process that runs is not marked
        have hgone := hid.marked p hp hexited
        rw [hpid, hmaker] at hgone
        exact absurd hruns (hgone.2 c.pid)
    · have hsame := hid.maker_ioctl ⟨.smooth, .commitExitProcess l.ipcNs l.globalPid daemon⟩ hp
      rw [hpid] at hsame
      exact hsame.trans hmaker

/-! ## Segments -/

/-- Who creates its segment finds none. -/
theorem ShmOk.free (hok : ShmOk s) {c : Creation} (hc : c ∈ s.creating)
    (hruns : s.host.runs c.pid = some c.number) (hg : c.name ∉ s.unlinking) :
    s.segments c.name = none := ((hok.creating c hc).2 hruns).2.resolve_right hg

/-- **A process creates its segment.** -/
theorem ShmOk.create (hok : ShmOk s) {c : Creation} (hc : c ∈ s.creating)
    (hruns : s.host.runs c.pid = some c.number) (hg : c.name ∉ s.unlinking) :
    ShmOk { s with
      creating := s.creating.erase c
      segments := Function.update s.segments c.name (some ((s.segments c.name).getD c.number)) } := by
  have hfree := hok.free hc hruns hg
  obtain ⟨⟨p, hp, hrole, hname, hpid, hmaker⟩, _⟩ := (hok.creating c hc).2 hruns
  refine { hok with
    segments := fun name owner hseg => ?_, creating := fun c' hc' => ?_
    nodup := hok.nodup.erase c, told := fun r hr => ?_ }
  · by_cases heq : name = c.name
    · exact .inr ⟨p, hp, hrole, hname.trans heq.symm⟩
    · refine hok.segments name owner ?_
      change Function.update s.segments c.name _ name = some owner at hseg
      rwa [Function.update_of_ne heq] at hseg
  · obtain ⟨hne, hold⟩ := (hok.nodup.mem_erase_iff).mp hc'
    refine (hok.creating c' hold).imp_right fun hpending hruns' => ?_
    obtain ⟨⟨p', hp', hrole', hname', hpid', hmaker'⟩, hfree'⟩ := hpending hruns'
    refine ⟨⟨p', hp', hrole', hname', hpid', hmaker'⟩, hfree'.imp_left fun hnone => ?_⟩
    -- two creations of one name would be those of one process
    have hother : c'.name ≠ c.name := by
      intro heq
      have hpids : c'.pid = c.pid := by
        rw [← hpid', ← hpid]
        exact congrArg ShmName.pid (hname'.trans (heq.trans hname.symm))
      refine hne ?_
      have hnumber : c'.number = c.number := by rw [← hmaker', ← hmaker, hpids]
      cases c
      cases c'
      simp_all
    show Function.update s.segments c.name _ c'.name = none
    rw [Function.update_of_ne hother, hnone]
  · have hthere := hok.told r hr
    show Function.update s.segments c.name _ r.name = some r.owner
    rw [Function.update_of_ne, hthere]
    intro heq
    rw [heq, hfree] at hthere
    cases hthere

/-- **A daemon unlinks a name** that nobody has still to open. -/
theorem ShmOk.unlink (hok : ShmOk s) {name : ShmName} (hg : ∀ r ∈ s.told, r.name ≠ name) :
    ShmOk { s with
      segments := Function.update s.segments name none
      unlinking := s.unlinking.erase name } := by
  refine { hok with
    segments := fun name' owner hseg => ?_, creating := fun c hc => ?_, told := fun r hr => ?_ }
  · change Function.update s.segments name none name' = some owner at hseg
    by_cases heq : name' = name
    · rw [heq, Function.update_self] at hseg
      cases hseg
    · rw [Function.update_of_ne heq] at hseg
      exact (hok.segments name' owner hseg).imp_left (List.mem_erase_of_ne heq).mpr
  · refine (hok.creating c hc).imp_right fun hpending hruns => ?_
    refine (hpending hruns).imp_right fun hfree => ?_
    show Function.update s.segments name none c.name = none ∨ c.name ∈ s.unlinking.erase name
    by_cases heq : c.name = name
    · rw [heq, Function.update_self]
      exact .inl rfl
    · rw [Function.update_of_ne heq]
      exact hfree.imp_right (List.mem_erase_of_ne heq).mpr
  · show Function.update s.segments name none r.name = some r.owner
    rw [Function.update_of_ne (hg r hr)]
    exact hok.told r hr

/-! ## Runs -/

/-- **One step** keeps the segments. -/
theorem ShmOk.step (hok : ShmOk s) {i : ShmInput} (hg : NamesKept s i) :
    ShmOk (s.step i).2 := by
  cases i with
  | host i =>
    by_cases hioctl : ∃ j, i = .ioctl j
    · obtain ⟨j, rfl⟩ := hioctl
      show ShmOk (if j.call.drains then s else s.ioctl j)
      split
      · exact hok
      · next hi => exact hok.ioctl (Bool.eq_false_iff.mpr hi) hg
    · have hi : ∀ j, i ≠ .ioctl j := fun j hj => hioctl ⟨j, hj⟩
      have hstep : (s.step (.host i)).2 = { s with host := (s.host.step i).2 } := by
        cases i with
        | ioctl j => exact absurd rfl (hi j)
        | _ => rfl
      rw [hstep]
      exact hok.of_host (hok.identified.hostStep hi) fun _ => False.elim
  | getExitProcess daemon ipcNs => exact hok.getExitProcess daemon ipcNs hg
  | copyFailed daemon =>
    exact { hok with
      handler := fun d l x y hl => hok.handler d l x y (update_none_eq_some hl).2
      apart := fun d d' l l' hl hl' =>
        hok.apart d d' l l' (update_none_eq_some hl).2 (update_none_eq_some hl').2 }
  | commitExitProcess daemon =>
    show ShmOk ((s.handler daemon).elim s fun l => s.commit daemon l)
    cases hl : s.handler daemon with
    | none => exact hok
    | some l => exact hok.commit hl
  | create c =>
    simp only [ShmHost.step]
    split
    · next hc => exact hok.create hc.1 hc.2 hg
    · exact hok
  | openTold r =>
    simp only [ShmHost.step]
    split
    · exact { hok with told := fun r' hr' => hok.told r' (List.mem_of_mem_erase hr') }
    · exact hok
  | abandon r => exact { hok with told := fun r' hr' => hok.told r' (List.mem_of_mem_erase hr') }
  | unlink name =>
    show ShmOk (if name ∈ s.unlinking then _ else s)
    split
    · exact hok.unlink hg
    · exact hok

/-- What the invariant says of the next answer. -/
theorem ShmOk.answer (hok : ShmOk s) {i : ShmInput} (hg : NamesKept s i) :
    (∀ owner found, (s.step i).1 = some (.opened owner found) → found = some owner) ∧
      ∀ found, (s.step i).1 = some (.created found) → found = none := by
  cases i with
  | host i => cases i <;> exact ⟨fun _ _ h => (by cases h), fun _ h => (by cases h)⟩
  | create c =>
    simp only [ShmHost.step]
    split
    · next hc =>
      refine ⟨fun _ _ h => (by cases h), fun found h => ?_⟩
      cases h
      exact hok.free hc.1 hc.2 hg
    · exact ⟨fun _ _ h => (by cases h), fun _ h => (by cases h)⟩
  | openTold r =>
    simp only [ShmHost.step]
    split
    · next hr =>
      refine ⟨fun owner found h => ?_, fun _ h => (by cases h)⟩
      cases h
      exact hok.told r hr
    · exact ⟨fun _ _ h => (by cases h), fun _ h => (by cases h)⟩
  | _ => exact ⟨fun _ _ h => (by cases h), fun _ h => (by cases h)⟩

/-- **Names outlive their announcements** in every run in which daemons wait for whoever was
told, new processes for the daemon, and registrations for the exit worker. -/
theorem names_outlive {tr : List ShmEvent} {s : ShmHost}
    (hrun : Transition.Run shmHost NamesKept tr s) : NamesOutlive tr := by
  have hall : ShmOk s ∧ NamesOutlive tr := by
    refine hrun.history (P := fun tr s => ShmOk s ∧ NamesOutlive tr) (fun s hs => ?_)
      fun tr s i _ ih hg => ?_
    · exact ⟨.init hs, fun _ hev => (by cases hev), fun _ hev => (by cases hev)⟩
    · obtain ⟨hok, hpast⟩ := ih
      obtain ⟨hopened, hcreated⟩ := hok.answer hg
      refine ⟨hok.step hg, fun ev hev => ?_, fun ev hev => ?_⟩
      · rcases List.mem_cons.mp hev with rfl | hev
        · exact hopened
        · exact hpast.opened ev hev
      · rcases List.mem_cons.mp hev with rfl | hev
        · exact hcreated
        · exact hpast.created ev hev
  exact hall.2

/-! ## A process that exits after it was told of -/

/-- A daemon, a publisher and a subscriber register, the subscriber is told of the publisher,
which exits, is cleaned up and is read by the daemon; and what comes then. -/
def publisherExits (last : List ShmInput) : List ShmInput :=
  [.host (.start 10), .host (.ioctl ⟨.smooth, .addProcess 10 0 2 0⟩),
    .host (.start 11), .host (.ioctl ⟨.smooth, .addProcess 11 0 0 0⟩), .create ⟨⟨0, 11⟩, 11, 1⟩,
    .host (.start 12), .host (.ioctl ⟨.smooth, .addProcess 12 0 0 0⟩), .create ⟨⟨0, 12⟩, 12, 2⟩,
    .host (.ioctl ⟨.smooth, .addPublisher ['/', 't'] 0 ⟨[], 11, 1, false, false⟩⟩),
    .host (.ioctl ⟨.smooth, .addSubscriber ['/', 't'] 0
      ⟨[], 12, 1, false, true, false, false, false⟩ 7⟩),
    .host (.ioctl ⟨.smooth, .receiveMsg 12 ['/', 't'] 0 1 4⟩),
    .host (.exit 11), .host (.release 11), .host .pop, .host .cleanup,
    .getExitProcess 10 0, .commitExitProcess 10] ++ last

/-- A machine with `n` pools and nothing else. -/
def ShmHost.bare (n : Nat) : ShmHost :=
  ⟨.booted (.loaded (poolsOf n)), fun _ => none, fun _ => none, [], [], []⟩

theorem ShmHost.bare_init {n : Nat} (hpos : 0 < n) (hn : n < 2 ^ 34) :
    shmHost.init (.bare n) :=
  ⟨⟨_, moduleInit_poolsOf hpos hn, rfl⟩, fun _ => rfl, fun _ => rfl, rfl, rfl, rfl⟩

/-- An ioctl in which nothing fails, while nobody waits for an exit cleanup. -/
private theorem ready_smooth {call : Call}
    (hempty : s.host.queue.head = s.host.queue.tail ∧ s.host.popped = none)
    (hpos : ∀ pid ∈ Host.registrant call, 0 < pid)
    (hcreated : ∀ target ∈ fetchTarget s.host.kmod call,
      ∀ q ∈ (s.host.kmod.topicStructs target.1.topic).pubInfoHtable,
        s.segments ⟨target.1.ipcNs, q.pid⟩ = some (s.host.registeredBy q.pid)) :
    s.Ready ⟨.smooth, call⟩ := by
  refine ⟨⟨fun _ => rfl, fun pid ipcNs role domainId hcall => ?_⟩, fun p _ hwait => ?_,
    fun w sub htarget q hq _ _ _ => hcreated (w, sub) htarget q hq⟩
  · change call = _ at hcall
    rw [hcall] at hpos
    exact hpos pid rfl
  · rcases hwait with hmem | hpopped
    · unfold RingBuffer.contents at hmem
      rw [RingBuffer.length_eq, if_pos (le_of_eq hempty.1), hempty.1, Nat.sub_self] at hmem
      cases hmem
    · rw [hempty.2] at hpopped
      cases hpopped

private theorem namesKept_create {c : Creation} (h : c.name ∉ s.unlinking) :
    NamesKept s (.create c) := h

private theorem namesKept_unlink {name : ShmName} (h : ∀ r ∈ s.told, r.name ≠ name) :
    NamesKept s (.unlink name) := h

/-- The subscriber opens the name before the daemon unlinks it. -/
theorem names_outlive_of_open_first :
    let r := shmHost.exec (.bare 3) [] (publisherExits [.openTold ⟨⟨0, 11⟩, 1⟩, .unlink ⟨0, 11⟩])
    NamesOutlive r.1 ∧ r.2.segments ⟨0, 11⟩ = none ∧
      (r.1.any fun ev => ev.output = some (.opened 1 (some 1))) = true := by
  refine ⟨names_outlive ((Transition.Run.init (ShmHost.bare_init (by decide) (by decide))).exec ?_),
    by decide +kernel, by decide +kernel⟩
  refine ⟨trivial, ready_smooth ?_ ?_ ?_, trivial, ready_smooth ?_ ?_ ?_, namesKept_create ?_,
    trivial, ready_smooth ?_ ?_ ?_, namesKept_create ?_, ready_smooth ?_ ?_ ?_,
    ready_smooth ?_ ?_ ?_, ready_smooth ?_ ?_ ?_, trivial, trivial, trivial, trivial,
    fun _ _ hl => (by cases hl), trivial, trivial, namesKept_unlink ?_, trivial⟩
  all_goals decide +kernel

/-- **Told, then unlinked**: between the ioctl that tells a subscriber of a publisher and its
`shm_open`, the publisher exits and the daemon unlinks the name. -/
theorem told_then_unlinked :
    ¬ ∀ (tr : List ShmEvent) (s : ShmHost), Transition.Run shmHost Transition.anyStep tr s →
      NamesOutlive tr := by
  intro hall
  have hrun := (Transition.Run.init (ShmHost.bare_init (n := 3) (by decide) (by decide))).exec
    (shmHost.guarded_anyStep _ (publisherExits [.unlink ⟨0, 11⟩, .openTold ⟨⟨0, 11⟩, 1⟩]))
  have hlost : ((shmHost.exec (.bare 3) []
      (publisherExits [.unlink ⟨0, 11⟩, .openTold ⟨⟨0, 11⟩, 1⟩])).1.any fun ev =>
        ev.output = some (.opened 1 none)) = true := by
    decide +kernel
  obtain ⟨ev, hev, hout⟩ := List.any_eq_true.mp hlost
  cases (hall _ _ hrun).opened ev hev 1 none (of_decide_eq_true hout)

end Agnocast
