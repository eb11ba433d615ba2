import Agnocast.Delivery.Notify
import Agnocast.Memory.Pools
import Agnocast.Store.References

/-!
# The processes — the exit cleanup is complete

`agnocast_process_exit_cleanup` takes everything that carries the pid of an exited
process out of the tables, and keeps of its publishers only what other processes
still reference.

* `ExitComplete`  — what is left after the cleanup of one process.
* `Tidy`          — the invariant of runs in which only clients, registered and alive,
  add endpoints: subscribers and mappings are those of live processes, and a
  publisher whose process is gone is kept for some subscriber.
* `exit_cleanup_complete` — one cleanup is complete, and when the last process has been
  cleaned up nothing is left.
* `cleanup_of_strangers` — what the guards of the two parts keep out.
-/

namespace Agnocast

variable {σ : Kmod}

/-! ## One cleanup -/

/-- Every subscriber belongs to a registered process. -/
def SubscribersRegistered (σ : Kmod) : Prop :=
  ∀ tp, ∀ s ∈ (σ.topicStructs tp).subInfoHtable, (findProcessInfo σ s.pid).isSome

/-- Nothing of process `pid` is left but publishers whose entries other processes
reference. -/
structure ExitComplete (pid : Pid) (σ : Kmod) : Prop where
  subs : ∀ tp, ∀ s ∈ (σ.topicStructs tp).subInfoHtable, s.pid ≠ pid
  bridges : ∀ b ∈ σ.bridgeHtable, b.pid ≠ pid
  pools : ∀ i < σ.mem.mempoolNum, pid ∉ σ.mem.mapped i
  notify : ∀ tp, ∀ p ∈ (σ.topicStructs tp).pubInfoHtable, ∀ ctx ∈ p.notifyCtxs,
    ∃ s ∈ (σ.topicStructs tp).subInfoHtable, s.notifyCtx = some ctx ∧ s.pid ≠ pid
  pubs : ∀ tp, ∀ p ∈ (σ.topicStructs tp).pubInfoHtable, p.pid = pid →
    (∃ en ∈ (σ.topicStructs tp).entries, en.publisherId = p.id) ∧
    ∀ en ∈ (σ.topicStructs tp).entries, en.publisherId = p.id →
      isReferenced en = true ∧ ∀ b ∈ en.referencingSubscribers.bits,
        ∃ s ∈ (σ.topicStructs tp).subInfoHtable, s.id = b ∧ s.pid ≠ pid ∧
          (findProcessInfo σ s.pid).isSome

/-- The other registrations stay. -/
theorem findProcessInfo_exit_of_ne {pid q : Pid} {p : ProcessInfo}
    (hp : findProcessInfo σ pid = some p) (hq : q ≠ pid) :
    findProcessInfo (processExitCleanup σ pid) q = findProcessInfo σ q := by
  have hpid : p.globalPid = pid := (findProcessInfo_mem hp).2
  unfold findProcessInfo
  rw [(processExitCleanup_world hp).1]
  unfold exitedProcs markExited
  rw [hpid]
  split
  · exact HTable.lookup_hashDel_of_ne hq σ.procInfoHtable
  · refine (HTable.lookup_modify ?_ _).trans (if_neg hq)
    exact fun _ => rfl

/-- The cleanup takes the subscribers of the process and no others. -/
theorem exit_subs (hr : Reachable σ) {pid : Pid} {p : ProcessInfo}
    (hp : findProcessInfo σ pid = some p) (tp : Nat) :
    ∀ s ∈ ((processExitCleanup σ pid).topicStructs tp).subInfoHtable,
      s ∈ (σ.topicStructs tp).subInfoHtable ∧ s.pid ≠ pid := by
  intro s hs
  obtain ⟨σ₁, _, hsame⟩ := exit_topicStep hr.wellFormed hp tp
  rw [hsame.subs, visitTopic_subs (hr.wellFormed.store tp)] at hs
  simpa using hs

/-- **One cleanup is complete.** -/
private theorem exitComplete (hr : Reachable σ) (hreg : SubscribersRegistered σ) {pid : Pid}
    {p : ProcessInfo} (hp : findProcessInfo σ pid = some p) :
    ExitComplete pid (processExitCleanup σ pid) := by
  have hr' : Reachable (processExitCleanup σ pid) :=
    Transition.Reachable.step hr ⟨.smooth, .processExitCleanup pid⟩
  have hvisit := fun tp => exit_topicStep hr.wellFormed hp tp
  have hsubs := exit_subs hr hp
  refine ⟨fun tp s hs => (hsubs tp s hs).2, fun b hb => ?_, fun i hi hmem => ?_,
    fun tp q hq ctx hctx => ?_, fun tp q hq hpid => ?_⟩
  · rw [(processExitCleanup_world hp).2.2.2] at hb
    simpa using (List.mem_filter.mp hb).2
  · rw [(processExitCleanup_world hp).2.1] at hi hmem
    exact ((mem_mapped_freeMemory (reachable_poolsOk hr).counted).mp hmem).2 hi rfl
  · -- the list is what the filter leaves of the subscribers, and they are other processes'
    obtain ⟨s, hs, hnotifies⟩ :=
      List.mem_filterMap.mp (((hr'.notifyOk tp).listed q hq).mem_iff.mp hctx)
    refine ⟨s, hs, ?_, (hsubs tp s hs).2⟩
    unfold notifies at hnotifies
    split at hnotifies
    · cases hnotifies
    · next ctx' heq =>
      split at hnotifies
      · cases hnotifies
      · split at hnotifies
        · cases hnotifies
        · rw [heq, Option.some.inj hnotifies]
  · obtain ⟨σ₁, hprocs, hsame⟩ := hvisit tp
    have hc := hr'.wellFormed.store tp
    -- the visit of each topic leaves it clean of the pid
    have hclean : Cleaned pid ((processExitCleanup σ pid).topicStructs tp) :=
      (visit_cleaned (hr.wellFormed.store tp)
        ((processGone_of_exit hp hprocs).mpr (.inl rfl))).of_content hsame.toSameContent
    have hsettled := hclean.pubs q hq hpid
    refine ⟨hsettled.entry hc hq, fun en hen hid => ⟨hsettled.2 en hen hid, fun b hb => ?_⟩⟩
    -- who still references an entry is a subscriber of another process
    obtain ⟨s, hs, hsid⟩ := hc.bit_holder hen hb
    obtain ⟨hold, hne⟩ := hsubs tp s hs
    refine ⟨s, hs, hsid, hne, ?_⟩
    rw [findProcessInfo_exit_of_ne hp hne]
    exact hreg tp s hold

/-! ## Clients -/

/-- The process is registered, alive and no unlink daemon. -/
def Client (σ : Kmod) (pid : Pid) : Prop :=
  ∃ p, findProcessInfo σ pid = some p ∧ p.exited = false ∧ p.role ≠ .unlinkDaemon

/-- Endpoints are added for clients only, a commit takes out exited registrations only,
and an unlink daemon takes no pid that a publisher still carries. -/
def ClientsOnly (σ : Kmod) (i : Input) : Prop :=
  match i.call with
  | .addSubscriber _ _ args _ => Client σ args.pid
  | .addPublisher _ _ args => Client σ args.pid
  | .addProcess pid _ role _ => decodeRole role = some .unlinkDaemon →
      ∀ tp, ∀ p ∈ (σ.topicStructs tp).pubInfoHtable, p.pid ≠ pid
  | .commitExitProcess _ globalPid _ =>
      ∀ p, findProcessInfo σ globalPid = some p → p.exited = true
  | _ => True

theorem ClientsOnly.subscriber {i : Input} (hg : ClientsOnly σ i) {topicName : Name}
    {ipcNs : IpcNs} {args : SubscriberArgs} {eventfd : Int}
    (hcall : i.call = .addSubscriber topicName ipcNs args eventfd) : Client σ args.pid := by
  unfold ClientsOnly at hg
  rwa [hcall] at hg

theorem ClientsOnly.publisher {i : Input} (hg : ClientsOnly σ i) {topicName : Name}
    {ipcNs : IpcNs} {args : PublisherArgs} (hcall : i.call = .addPublisher topicName ipcNs args) :
    Client σ args.pid := by
  unfold ClientsOnly at hg
  rwa [hcall] at hg

theorem processGone_eq_false {pid : Pid} :
    processGone σ pid = false ↔ ∃ p, findProcessInfo σ pid = some p ∧ p.exited = false := by
  unfold processGone
  cases findProcessInfo σ pid <;> simp

theorem Client.live {pid : Pid} (h : Client σ pid) : processGone σ pid = false := by
  obtain ⟨p, hp, hlive, _⟩ := h
  exact processGone_eq_false.mpr ⟨p, hp, hlive⟩

/-- **What happens to a registration**: a step keeps it but for its role, unless its
process is cleaned up, or a daemon leaves, or a commit names its pid. -/
theorem registration_step (hr : Reachable σ) {i : Input} {pid : Pid} {p : ProcessInfo}
    (hp : findProcessInfo σ pid = some p) (hexit : i.call ≠ .processExitCleanup pid)
    (hcommit : ∀ ipcNs callerPid, i.call ≠ .commitExitProcess ipcNs pid callerPid) :
    (∃ p', findProcessInfo (step σ i).2 pid = some p' ∧
      (p' = p ∨ p' = { p with role := .application })) ∨
    (p.role = .unlinkDaemon ∧ (step σ i).2.mem = freeMemory pid σ.mem) := by
  have hpids := (reachable_poolsOk hr).pids
  have hpids' := (reachable_poolsOk (Transition.Reachable.step hr i)).pids
  obtain ⟨hmem, hpid⟩ := findProcessInfo_mem hp
  have hchange := step_procs hr.wellFormed i
  change ((step σ i).2.procInfoHtable.map ProcessInfo.globalPid).Nodup at hpids'
  unfold findProcessInfo
  generalize (step σ i).2.procInfoHtable = procs at hchange hpids' ⊢
  generalize (step σ i).2.mem = m at hchange ⊢
  have hmemPid : ∀ p' ∈ procs, p'.globalPid = pid →
      HTable.lookup ProcessInfo.globalPid pid procs = some p' :=
    fun p' hp' hpid' => (HTable.lookup_eq_some_iff hpids').mpr ⟨hp', hpid'⟩
  -- pids are unique, so what stays in the table is what a lookup finds
  cases hchange with
  | same => exact .inl ⟨p, hp, .inl rfl⟩
  | reported => exact .inl ⟨p, hp, .inl rfl⟩
  | registered => exact .inl ⟨p, hmemPid p (HTable.mem_hashAdd.mpr (.inr hmem)) hpid, .inl rfl⟩
  | @exited pid₀ p₀ hcall hp₀ =>
    have hne : p.globalPid ≠ p₀.globalPid := by
      rw [hpid, (findProcessInfo_mem hp₀).2]
      rintro rfl
      exact hexit hcall
    refine .inl ⟨p, hmemPid p ?_ hpid, .inl rfl⟩
    unfold exitedProcs markExited
    split
    · exact HTable.mem_hashDel.mpr ⟨hmem, hne⟩
    · exact HTable.mem_modify_of_ne hmem hne
  | @drained ipcNs globalPid callerPid hcall hge =>
    have hne : pid ≠ globalPid := by
      rintro rfl
      exact hcommit _ _ hcall
    exact .inl ⟨p, (HTable.lookup_hashDel_of_ne hne _).trans hp, .inl rfl⟩
  | @deregistered ipcNs globalPid callerPid p₀ hcall hlt hlast hp₀ hrole =>
    by_cases heq : pid = callerPid
    · subst heq
      obtain rfl := Option.some.inj (hp.symm.trans hp₀)
      exact .inr ⟨hrole, rfl⟩
    · exact .inl ⟨p, (HTable.lookup_hashDel_of_ne heq _).trans hp, .inl rfl⟩
  | @demoted pid₀ hcall =>
    by_cases heq : p.globalPid = pid₀
    · have hrole : ({ p with role := .application } : ProcessInfo).globalPid = pid := hpid
      exact .inl ⟨_, hmemPid _ (HTable.mem_modify_of_eq hmem heq) hrole, .inr rfl⟩
    · exact .inl ⟨p, hmemPid p (HTable.mem_modify_of_ne hmem heq) hpid, .inl rfl⟩

/-- A process that no call takes out of the table stays registered, in its domain. -/
theorem process_stays (hr : Reachable σ) {i : Input} {pid : Pid}
    (hp : ∃ p, findProcessInfo σ pid = some p ∧ p.role ≠ .unlinkDaemon)
    (hexit : i.call ≠ .processExitCleanup pid)
    (hcommit : ∀ ipcNs callerPid, i.call ≠ .commitExitProcess ipcNs pid callerPid) :
    (∃ p, findProcessInfo (step σ i).2 pid = some p ∧ p.role ≠ .unlinkDaemon) ∧
      getProcessDomainId (step σ i).2 pid = getProcessDomainId σ pid := by
  obtain ⟨p, hp, hrole⟩ := hp
  unfold getProcessDomainId
  rcases registration_step hr hp hexit hcommit with ⟨p', hp', rfl | rfl⟩ | ⟨hdaemon, _⟩
  · rw [hp', hp]
    exact ⟨⟨_, rfl, hrole⟩, rfl⟩
  · rw [hp', hp]
    exact ⟨⟨_, rfl, fun heq => by cases heq⟩, rfl⟩
  · exact absurd hdaemon hrole

/-- **A process finds the topic of its subscriber** as long as both stay. -/
theorem finds_topic_step (hr : Reachable σ) (i : Input) {current : Pid} {topicName : Name}
    {ipcNs : IpcNs} {w : TopicWrapper}
    (hw : findTopicForCurrent σ current topicName ipcNs = some w)
    (hdomain : getProcessDomainId (step σ i).2 current = getProcessDomainId σ current)
    {s s' : SubscriberInfo} (hs : s ∈ (σ.topicStructs w.topic).subInfoHtable)
    (hs' : s' ∈ ((step σ i).2.topicStructs w.topic).subInfoHtable) (hsame : SameSubscriber s s')
    (hdom : s.domainId = w.domainId) :
    findTopicForCurrent (step σ i).2 current topicName ipcNs = some w := by
  unfold findTopicForCurrent at hw ⊢
  rw [hdomain]
  obtain ⟨hmem, hcell⟩ := findTopic_mem hw
  have hkept := keeps_wrapper_step hr i hmem hs hs' hsame hdom
  exact (HTable.lookup_eq_some_iff (hr.wellFormed.step i).cells).mpr ⟨hkept, hcell⟩

/-- **What happens to a live registration** in a run of clients: likewise. -/
theorem live_step (hr : Reachable σ) {i : Input} (hg : ClientsOnly σ i) {pid : Pid}
    {p : ProcessInfo} (hp : findProcessInfo σ pid = some p) (hlive : p.exited = false)
    (hexit : i.call ≠ .processExitCleanup pid) :
    (∃ p', findProcessInfo (step σ i).2 pid = some p' ∧ p'.exited = false ∧
      (p'.role = p.role ∨ p'.role = .application)) ∨
    (p.role = .unlinkDaemon ∧ (step σ i).2.mem = freeMemory pid σ.mem) := by
  have hcommit : ∀ ipcNs callerPid, i.call ≠ .commitExitProcess ipcNs pid callerPid := by
    intro ipcNs callerPid hcall
    unfold ClientsOnly at hg
    rw [hcall] at hg
    rw [hg p hp] at hlive
    cases hlive
  rcases registration_step hr hp hexit hcommit with ⟨p', hp', rfl | rfl⟩ | hdaemon
  · exact .inl ⟨p', hp', hlive, .inl rfl⟩
  · exact .inl ⟨_, hp', hlive, .inr rfl⟩
  · exact .inr hdaemon

theorem Client.step (hr : Reachable σ) {i : Input} (hg : ClientsOnly σ i) {pid : Pid}
    (h : Client σ pid) (hexit : i.call ≠ .processExitCleanup pid) :
    Client (Agnocast.step σ i).2 pid := by
  obtain ⟨p, hp, hlive, hrole⟩ := h
  rcases live_step hr hg hp hlive hexit with ⟨p', hp', hlive', hrole'⟩ | ⟨hdaemon, _⟩
  · refine ⟨p', hp', hlive', fun h => ?_⟩
    rcases hrole' with heq | heq <;> rw [heq] at h
    · exact hrole h
    · cases h
  · exact absurd hdaemon hrole

/-- **Where a registration comes from**: it was there, in the same role or a higher one, or
the call makes it. -/
theorem registration_origin (hr : Reachable σ) {i : Input} {pid : Pid} {q : ProcessInfo}
    (hq : findProcessInfo (step σ i).2 pid = some q) :
    (∃ p, findProcessInfo σ pid = some p ∧ q = { p with role := q.role, exited := q.exited } ∧
      (q.role = p.role ∨ q.role = .application) ∧ (q.exited = false → p.exited = false)) ∨
    ∃ ipcNs raw domainId role pool, i.call = .addProcess pid ipcNs raw domainId ∧
      decodeRole raw = some role ∧ findProcessInfo σ pid = none ∧ σ.mem.Unassigned pool ∧
      q = newProcess i.env pid ipcNs role domainId pool := by
  have hpids := (reachable_poolsOk hr).pids
  obtain ⟨hmem, hpid⟩ := findProcessInfo_mem hq
  have hchange := step_procs hr.wellFormed i
  -- pids are unique, so a registration of the pid is the one that is found
  have hold : ∀ {p : ProcessInfo}, p ∈ σ.procInfoHtable → p.globalPid = pid →
      q = { p with role := q.role, exited := q.exited } →
      (q.role = p.role ∨ q.role = .application) → (q.exited = false → p.exited = false) →
      ∃ p, findProcessInfo σ pid = some p ∧ q = { p with role := q.role, exited := q.exited } ∧
        (q.role = p.role ∨ q.role = .application) ∧ (q.exited = false → p.exited = false) :=
    fun {p} hp hpid hsame hrole hmark =>
      ⟨p, (HTable.lookup_eq_some_iff hpids).mpr ⟨hp, hpid⟩, hsame, hrole, hmark⟩
  have hsame : q ∈ σ.procInfoHtable → ∃ p, findProcessInfo σ pid = some p ∧
      q = { p with role := q.role, exited := q.exited } ∧
      (q.role = p.role ∨ q.role = .application) ∧ (q.exited = false → p.exited = false) :=
    fun hq => hold hq hpid rfl (.inl rfl) id
  generalize (step σ i).2.procInfoHtable = procs at hchange hmem
  generalize (step σ i).2.mem = m at hchange
  cases hchange with
  | same => exact .inl (hsame hmem)
  | reported => exact .inl (hsame hmem)
  | @registered pid₀ ipcNs raw domainId role pool hcall hrole hadmits hfree =>
    rcases HTable.mem_hashAdd.mp hmem with rfl | hmem
    · have hpid₀ : pid₀ = pid := hpid
      subst hpid₀
      exact .inr ⟨ipcNs, raw, domainId, role, pool, hcall, hrole, hadmits.fresh, hfree, rfl⟩
    · exact .inl (hsame hmem)
  | @exited pid₀ p₀ hcall hp₀ =>
    unfold exitedProcs markExited at hmem
    split at hmem
    · exact .inl (hsame (HTable.mem_hashDel.mp hmem).1)
    · obtain ⟨p, hp, rfl⟩ := HTable.mem_modify.mp hmem
      split at hpid
      · next heq =>
        rw [if_pos heq] at hold ⊢
        exact .inl (hold hp hpid rfl (.inl rfl) (by simp))
      · next heq =>
        rw [if_neg heq] at hold ⊢
        exact .inl (hold hp hpid rfl (.inl rfl) id)
  | drained => exact .inl (hsame (HTable.mem_hashDel.mp hmem).1)
  | deregistered => exact .inl (hsame (HTable.mem_hashDel.mp hmem).1)
  | demoted =>
    obtain ⟨p, hp, rfl⟩ := HTable.mem_modify.mp hmem
    split at hpid
    · next heq =>
      rw [if_pos heq] at hold ⊢
      exact .inl (hold hp hpid rfl (.inr rfl) id)
    · next heq =>
      rw [if_neg heq] at hold ⊢
      exact .inl (hold hp hpid rfl (.inl rfl) id)

theorem registration_from (hr : Reachable σ) {i : Input} {pid : Pid} {q : ProcessInfo}
    (hq : findProcessInfo (step σ i).2 pid = some q) :
    (∃ p, findProcessInfo σ pid = some p ∧ (q.role = p.role ∨ q.role = .application) ∧
      (q.exited = false → p.exited = false)) ∨
    ∃ ipcNs raw domainId, i.call = .addProcess pid ipcNs raw domainId ∧
      decodeRole raw = some q.role ∧ q.exited = false ∧ findProcessInfo σ pid = none := by
  rcases registration_origin hr hq with ⟨p, hp, _, hrole, hmark⟩ |
    ⟨ipcNs, raw, domainId, role, pool, hcall, hdecode, hfree, _, rfl⟩
  · exact .inl ⟨p, hp, hrole, hmark⟩
  · exact .inr ⟨ipcNs, raw, domainId, hcall, hdecode, rfl, hfree⟩

/-! ## The invariant -/

/-- What is kept in a run of clients: for a live client, or for somebody who references it. -/
structure Tidy (σ : Kmod) : Prop where
  subs : ∀ tp, ∀ s ∈ (σ.topicStructs tp).subInfoHtable, Client σ s.pid
  pubs : ∀ tp, ∀ p ∈ (σ.topicStructs tp).pubInfoHtable, ∀ q, findProcessInfo σ p.pid = some q →
    q.role ≠ .unlinkDaemon
  zombies : ∀ tp, ∀ p ∈ (σ.topicStructs tp).pubInfoHtable, processGone σ p.pid = true →
    Held (σ.topicStructs tp) p
  pools : ∀ i < σ.mem.mempoolNum, ∀ pid ∈ σ.mem.mapped i, processGone σ pid = false
  topics : (∀ pid, ¬ Client σ pid) → σ.topicHashtable = []

private theorem held_congr {t t' : TopicStruct} (h : SameStore t t') {p : PublisherInfo} :
    Held t' p ↔ Held t p := by
  unfold Held
  rw [h.subs]

private theorem Tidy.init (h : moduleInit σ) : Tidy σ := by
  obtain ⟨num, start, gb, m, hinit, rfl⟩ := h
  refine ⟨fun tp s hs => ?_, fun tp p hp => ?_, fun tp p hp => ?_, fun i hi pid hpid => ?_,
    fun _ => rfl⟩
  · cases hs
  · cases hp
  · cases hp
  · have hpid : pid ∈ m.mapped i := hpid
    rw [((initMemoryAllocator_laidOut hinit).2 i).2] at hpid
    cases hpid

/-- A publisher's process is no daemon, as long as no daemon takes its pid over. -/
private theorem roles_step (hr : Reachable σ) (h : Tidy σ) {i : Input} (hg : ClientsOnly σ i) :
    ∀ tp, ∀ p ∈ ((step σ i).2.topicStructs tp).pubInfoHtable,
      ∀ q, findProcessInfo (step σ i).2 p.pid = some q → q.role ≠ .unlinkDaemon := by
  intro tp p' hp' q hq hdaemon
  obtain ⟨t, t', hleft, hstep, hright⟩ := step_topicStep hr i tp
  rw [hright.pubs] at hp'
  have hc := hleft.consistent (hr.wellFormed.store tp)
  -- whoever the publisher belongs to was no daemon before
  have hbefore : ∀ r, findProcessInfo σ p'.pid = some r → r.role ≠ .unlinkDaemon := by
    intro r hreg
    rcases hstep.pub_from hr.wellFormed hc hp' with ⟨p, hp, hsame⟩ |
      ⟨topicName, ipcNs, args, hcall, _, hpid⟩
    · rw [hleft.pubs] at hp
      rw [hsame.pid_eq] at hreg
      exact h.pubs tp p hp r hreg
    · obtain ⟨r', hreg', _, hrole⟩ := hg.publisher hcall
      rw [← hpid] at hreg'
      rwa [Option.some.inj (hreg.symm.trans hreg')]
  rcases registration_from hr hq with ⟨r, hreg, hrole, _⟩ | ⟨ipcNs, raw, domainId, hcall, hrole, _⟩
  · rcases hrole with heq | heq <;> rw [heq] at hdaemon
    · exact hbefore r hreg hdaemon
    · cases hdaemon
  · -- a daemon registers, so no publisher carries its pid
    rcases hstep.pub_from hr.wellFormed hc hp' with ⟨p, hp, hsame⟩ | ⟨_, _, _, hadd, _⟩
    · unfold ClientsOnly at hg
      rw [hcall] at hg
      rw [hleft.pubs] at hp
      exact hg (hdaemon ▸ hrole) tp p hp hsame.pid_eq.symm
    · rw [hcall] at hadd
      cases hadd

/-! ### The cleanup of a registered process -/

private theorem client_exit {pid q : Pid} {p : ProcessInfo} (hp : findProcessInfo σ pid = some p)
    (hq : q ≠ pid) (h : Client σ q) : Client (processExitCleanup σ pid) q := by
  unfold Client
  rw [findProcessInfo_exit_of_ne hp hq]
  exact h

private theorem Tidy.exit (hr : Reachable σ) (h : Tidy σ) {pid : Pid} {p : ProcessInfo}
    (hp : findProcessInfo σ pid = some p) : Tidy (processExitCleanup σ pid) := by
  have hr' : Reachable (processExitCleanup σ pid) :=
    Transition.Reachable.step hr ⟨.smooth, .processExitCleanup pid⟩
  have hgone : ∀ q, processGone (processExitCleanup σ pid) q = true ↔
      q = pid ∨ processGone σ q = true := fun q => processGone_of_exit hp rfl
  have hclients : ∀ tp, ∀ s ∈ ((processExitCleanup σ pid).topicStructs tp).subInfoHtable,
      Client (processExitCleanup σ pid) s.pid := by
    intro tp s hs
    obtain ⟨σ₁, _, hsame⟩ := exit_topicStep hr.wellFormed hp tp
    rw [hsame.subs, visitTopic_subs (hr.wellFormed.store tp)] at hs
    obtain ⟨hs, hne⟩ := List.mem_filter.mp hs
    exact client_exit hp (by simpa using hne) (h.subs tp s hs)
  have hroles : ∀ tp, ∀ q ∈ ((processExitCleanup σ pid).topicStructs tp).pubInfoHtable,
      ∀ r, findProcessInfo (processExitCleanup σ pid) q.pid = some r → r.role ≠ .unlinkDaemon :=
    roles_step hr h (i := ⟨.smooth, .processExitCleanup pid⟩) trivial
  have hheld : ∀ tp, ∀ q ∈ ((processExitCleanup σ pid).topicStructs tp).pubInfoHtable,
      processGone (processExitCleanup σ pid) q.pid = true →
        Held ((processExitCleanup σ pid).topicStructs tp) q := by
    intro tp q hq hqgone
    obtain ⟨σ₁, hprocs, hsame⟩ := exit_topicStep hr.wellFormed hp tp
    have hgone₁ := fun q => processGone_of_exit (q := q) hp hprocs
    rw [hsame.pubs] at hq
    rw [held_congr hsame]
    -- who was gone before is held already; the exited one is swept by the visit
    refine visitTopic_held (hr.wellFormed.store tp) ((hgone₁ pid).mpr (.inl rfl))
      (fun q₀ hq₀ hq₀gone hne => ?_) q hq ((hgone₁ q.pid).mpr ((hgone q.pid).mp hqgone))
    exact h.zombies tp q₀ hq₀ (((hgone₁ q₀.pid).mp hq₀gone).resolve_left hne)
  refine ⟨hclients, hroles, hheld, fun i hi q hq => ?_, fun hnone => ?_⟩
  · -- nobody maps a pool but live processes, and the exited one maps none
    rw [(processExitCleanup_world hp).2.1] at hi hq
    obtain ⟨hq, hne⟩ := (mem_mapped_freeMemory (reachable_poolsOk hr).counted).mp hq
    have hlive := h.pools i hi q hq
    refine Bool.eq_false_iff.mpr fun hqgone => ?_
    rcases (hgone q).mp hqgone with heq | hqgone
    · exact hne hi heq
    · rw [hlive] at hqgone
      cases hqgone
  · -- every wrapper that is left has an endpoint, and every endpoint needs a client
    refine List.eq_nil_iff_forall_not_mem.mpr fun w hw => ?_
    have hhas := exit_inhabited_of_registered hr.wellFormed hp w hw
    rw [wrapperHasDomainEndpoints_iff, TopicStruct.mem_endpointDomains] at hhas
    rcases hhas with ⟨q, hq, _⟩ | ⟨s, hs, _⟩
    · by_cases hqgone : processGone (processExitCleanup σ pid) q.pid = true
      · obtain ⟨s, hs⟩ := List.exists_mem_of_ne_nil _ (hheld w.topic q hq hqgone).2
        exact hnone s.pid (hclients w.topic s hs)
      · obtain ⟨r, hr, hlive⟩ := processGone_eq_false.mp (Bool.eq_false_iff.mpr hqgone)
        exact hnone q.pid ⟨r, hr, hlive, hroles w.topic q hq r hr⟩
    · exact hnone s.pid (hclients w.topic s hs)

/-! ### Any other step -/

/-- The call is not the cleanup of a registered process. -/
private def NoExit (σ : Kmod) (i : Input) : Prop :=
  ∀ pid, i.call = .processExitCleanup pid → findProcessInfo σ pid = none

private theorem client_other (hr : Reachable σ) {i : Input} (hg : ClientsOnly σ i)
    (hexit : NoExit σ i) {pid : Pid} (h : Client σ pid) : Client (step σ i).2 pid := by
  refine h.step hr hg fun hcall => ?_
  obtain ⟨p, hp, _⟩ := h
  rw [hexit pid hcall] at hp
  cases hp

/-- Every call works on topics and pools, or on the process table, or cleans up. -/
private theorem gone_other (hr : Reachable σ) {i : Input} (hg : ClientsOnly σ i)
    (hexit : NoExit σ i) {pid : Pid} {p : ProcessInfo} (hp : findProcessInfo σ pid = some p)
    (hlive : p.exited = false) : processGone (step σ i).2 pid = false ∨
      (p.role = .unlinkDaemon ∧ (step σ i).2.mem = freeMemory pid σ.mem) := by
  have hcall : i.call ≠ .processExitCleanup pid := by
    intro hcall
    rw [hexit pid hcall] at hp
    cases hp
  rcases live_step hr hg hp hlive hcall with ⟨p', hp', hlive', _⟩ | hdaemon
  · exact .inl (processGone_eq_false.mpr ⟨p', hp', hlive'⟩)
  · exact .inr hdaemon

private theorem subs_other (hr : Reachable σ) (h : Tidy σ) {i : Input} (hg : ClientsOnly σ i)
    (hexit : NoExit σ i) :
    ∀ tp, ∀ s ∈ ((step σ i).2.topicStructs tp).subInfoHtable, Client (step σ i).2 s.pid := by
  intro tp s' hs'
  obtain ⟨t, t', hleft, hstep, hright⟩ := step_topicStep hr i tp
  rw [hright.subs] at hs'
  refine client_other hr hg hexit ?_
  rcases hstep.sub_from hr.wellFormed (hleft.consistent (hr.wellFormed.store tp)) hs' with
    ⟨s, hs, hsame⟩ | ⟨topicName, ipcNs, args, eventfd, hcall, hpid⟩
  · rw [hleft.subs] at hs
    rw [hsame.pid_eq]
    exact h.subs tp s hs
  · rw [hpid]
    exact hg.subscriber hcall

private theorem zombies_other (hr : Reachable σ) (h : Tidy σ) {i : Input} (hg : ClientsOnly σ i)
    (hexit : NoExit σ i) : ∀ tp, ∀ p ∈ ((step σ i).2.topicStructs tp).pubInfoHtable,
      processGone (step σ i).2 p.pid = true → Held ((step σ i).2.topicStructs tp) p := by
  intro tp p' hp' hgone
  -- a publisher whose process is gone now was there before, and its process was gone
  have hbefore : ∀ pid, (∀ q, findProcessInfo σ pid = some q → q.role ≠ .unlinkDaemon) →
      processGone (step σ i).2 pid = true → processGone σ pid = true := by
    intro pid hrole hgone
    by_contra hlive
    obtain ⟨q, hq, hq'⟩ := processGone_eq_false.mp (Bool.eq_false_iff.mpr hlive)
    have hstill := (client_other hr hg hexit ⟨q, hq, hq', hrole q hq⟩).live
    rw [hgone] at hstill
    cases hstill
  obtain ⟨t, t', hleft, hstep, hright⟩ := step_topicStep hr i tp
  have hc := hleft.consistent (hr.wellFormed.store tp)
  rw [held_congr hright]
  rw [hright.pubs] at hp'
  have hall : ∀ p ∈ t.pubInfoHtable, processGone σ p.pid = true → Held t p := by
    intro p hp hpgone
    rw [hleft.pubs] at hp
    exact (held_congr hleft).mpr (h.zombies tp p hp hpgone)
  have hpgone : processGone σ p'.pid = true := by
    refine hbefore p'.pid (fun q hq => ?_) hgone
    rcases hstep.pub_from hr.wellFormed hc hp' with ⟨p, hp, hsame⟩ |
      ⟨topicName, ipcNs, args, hcall, _, hpid⟩
    · rw [hleft.pubs] at hp
      rw [hsame.pid_eq] at hq
      exact h.pubs tp p hp q hq
    · obtain ⟨r, hreg, _, hrole⟩ := hg.publisher hcall
      rw [hpid] at hq
      rwa [Option.some.inj (hq.symm.trans hreg)]
  exact hstep.held hc hexit
    (fun topicName ipcNs args hcall => (hg.publisher hcall).live) hall p' hp' hpgone

private theorem pools_other (hr : Reachable σ) (h : Tidy σ) {i : Input} (hg : ClientsOnly σ i)
    (hexit : NoExit σ i) : ∀ k < (step σ i).2.mem.mempoolNum,
      ∀ pid ∈ (step σ i).2.mem.mapped k, processGone (step σ i).2 pid = false := by
  intro k hk pid hpid
  have hcounted := (reachable_poolsOk hr).counted
  -- whoever mapped a pool before is alive, and if it leaves now it maps nothing
  have hold : k < σ.mem.mempoolNum → pid ∈ σ.mem.mapped k →
      processGone (step σ i).2 pid = false := by
    intro hk' hpid'
    obtain ⟨p, hp, hlive⟩ := processGone_eq_false.mp (h.pools k hk' pid hpid')
    refine (gone_other hr hg hexit hp hlive).resolve_right fun ⟨_, hmem⟩ => ?_
    rw [hmem] at hpid
    exact ((mem_mapped_freeMemory hcounted).mp hpid).2 hk' rfl
  have hchange := step_procs hr.wellFormed i
  have hpids := (reachable_poolsOk (Transition.Reachable.step hr i)).pids
  change ((step σ i).2.procInfoHtable.map ProcessInfo.globalPid).Nodup at hpids
  have hchange := step_procs hr.wellFormed i
  generalize hm : (step σ i).2.mem = m at hchange hk hpid
  generalize hprocs : (step σ i).2.procInfoHtable = procs at hchange hpids
  cases hchange with
  | same | drained | demoted => exact hold hk hpid
  | exited | deregistered => exact hold hk ((mem_mapped_freeMemory hcounted).mp hpid).1
  | @registered pid₀ ipcNs raw domainId role pool hcall hrole hadmits hfree =>
    rcases MemoryAllocator.mem_mapped_mapPools.mp hpid with hpid | ⟨_, rfl⟩
    · exact hold hk hpid
    · refine processGone_eq_false.mpr ⟨newProcess i.env pid ipcNs role domainId pool, ?_, rfl⟩
      unfold findProcessInfo
      rw [hprocs, HTable.lookup_eq_some_iff hpids]
      exact ⟨HTable.mem_hashAdd.mpr (.inl rfl), rfl⟩
  | @reported w s _ htarget hmaps =>
    obtain ⟨pools, _, _, _, rfl⟩ := hmaps
    rcases MemoryAllocator.mem_mapped_mapPools.mp hpid with hpid | ⟨_, rfl⟩
    · exact hold hk hpid
    · -- the process of a subscriber maps the pool
      obtain ⟨_, _, _, _, hf⟩ := fetch_cases hr.wellFormed i htarget
      exact (client_other hr hg hexit (h.subs w.topic s hf.subscriber)).live

/-- Without clients no topic is left, and nobody makes one. -/
private theorem topics_other (hr : Reachable σ) (h : Tidy σ) {i : Input} (hg : ClientsOnly σ i)
    (hexit : NoExit σ i) (hnone : ∀ pid, ¬ Client (step σ i).2 pid) :
    (step σ i).2.topicHashtable = [] := by
  have hbefore : ∀ pid, ¬ Client σ pid := fun pid hc => hnone pid (client_other hr hg hexit hc)
  have hempty := h.topics hbefore
  have hfind : ∀ current topicName ipcNs, findTopicForCurrent σ current topicName ipcNs = none := by
    intro current topicName ipcNs
    unfold findTopicForCurrent findTopic
    rw [hempty]
    rfl
  by_cases hmoves : i.call.movesEndpoints = false
  · rw [(step_sameEndpoints hr.wellFormed i hmoves).wrappers]
    exact hempty
  obtain ⟨env, call⟩ := i
  cases call with
  | addSubscriber => exact absurd (hg.subscriber rfl) (hbefore _)
  | addPublisher => exact absurd (hg.publisher rfl) (hbefore _)
  | removeSubscriber current topicName ipcNs id =>
    show (removeSubscriber σ current topicName ipcNs id).2.topicHashtable = []
    unfold removeSubscriber
    rw [hfind]
    exact hempty
  | removePublisher current topicName ipcNs id =>
    show (removePublisher σ current topicName ipcNs id).2.topicHashtable = []
    unfold removePublisher
    rw [hfind]
    exact hempty
  | processExitCleanup pid =>
    show (processExitCleanup σ pid).topicHashtable = []
    rw [processExitCleanup_unknown (hexit pid rfl)]
    exact hempty
  | _ => exact absurd rfl hmoves

/-- **One step of clients** keeps the state tidy. -/
theorem Tidy.step (hr : Reachable σ) (h : Tidy σ) {i : Input} (hg : ClientsOnly σ i) :
    Tidy (Agnocast.step σ i).2 := by
  by_cases hexit : NoExit σ i
  · exact ⟨subs_other hr h hg hexit, roles_step hr h hg, zombies_other hr h hg hexit,
      pools_other hr h hg hexit, topics_other hr h hg hexit⟩
  · unfold NoExit at hexit
    push Not at hexit
    obtain ⟨pid, hcall, hp⟩ := hexit
    obtain ⟨p, hp⟩ := Option.ne_none_iff_exists'.mp hp
    obtain ⟨env, call⟩ := i
    obtain rfl : call = _ := hcall
    exact h.exit hr hp

theorem run_tidy {tr : List Event} (h : Transition.Run kmod ClientsOnly tr σ) : Tidy σ :=
  h.history (P := fun _ σ => Tidy σ) (fun _ hinit => .init hinit)
    fun _ _ _ hr hσ hg => hσ.step hr.reachable hg

/-! ## The last process -/

/-- Nothing is left: no topic, and nobody maps a pool. -/
def NothingLeft (σ : Kmod) : Prop :=
  σ.topicHashtable = [] ∧ ∀ i < σ.mem.mempoolNum,
    (σ.mem.mempoolEntries i).mappedNum = 0 ∧ σ.mem.mapped i = []

/-- **The exit cleanup is complete**: of a registered process nothing is left but what
other registered processes reference, and once every process of a run of clients has been
cleaned up nothing is left at all. -/
theorem exit_cleanup_complete :
    (∀ σ pid, Reachable σ → SubscribersRegistered σ → (findProcessInfo σ pid).isSome →
      ExitComplete pid (processExitCleanup σ pid)) ∧
    ∀ (tr : List Event) (σ : Kmod), Transition.Run kmod ClientsOnly tr σ →
      (∀ p ∈ σ.procInfoHtable, p.exited = true) → NothingLeft σ := by
  refine ⟨fun σ pid hr hreg hsome => ?_, fun tr σ h hall => ?_⟩
  · obtain ⟨p, hp⟩ := Option.isSome_iff_exists.mp hsome
    exact exitComplete hr hreg hp
  · have htidy := run_tidy h
    have hdead : ∀ pid, processGone σ pid = true := fun pid =>
      processGone_iff.mpr fun p hp => hall p (findProcessInfo_mem hp).1
    refine ⟨htidy.topics fun pid hc => ?_, fun i hi => ?_⟩
    · have hlive := hc.live
      rw [hdead pid] at hlive
      cases hlive
    · have hnil : σ.mem.mapped i = [] := by
        refine List.eq_nil_iff_forall_not_mem.mpr fun pid hpid => ?_
        have hlive := htidy.pools i hi pid hpid
        rw [hdead pid] at hlive
        cases hlive
      refine ⟨?_, hnil⟩
      rw [((reachable_poolsOk h.reachable).counted i).1, hnil]
      rfl

/-- A publisher and a subscriber that holds its entry exit one after the other. -/
theorem nothing_left_of_two :
    let σ := (runOf 3 [.addProcess 1 0 0 1, .addProcess 2 0 0 1,
      .addPublisher ['/', 't'] 0 ⟨[], 1, 1, false, false⟩,
      .addSubscriber ['/', 't'] 0 ⟨[], 2, 1, false, true, false, false, false⟩ 7,
      .publishMsg 1 ['/', 't'] 0 0 16, .receiveMsg 2 ['/', 't'] 0 1 10]).2
    ExitComplete 1 (processExitCleanup σ 1) ∧
      (∃ en ∈ ((processExitCleanup σ 1).topicStructs 0).entries, isReferenced en = true) ∧
      NothingLeft (processExitCleanup (processExitCleanup σ 1) 2) := by
  have hclient : ∀ {σ : Kmod} {pid : Pid} {p : ProcessInfo}, findProcessInfo σ pid = some p →
      p.exited = false → p.role ≠ .unlinkDaemon → Client σ pid := fun h h' h'' => ⟨_, h, h', h''⟩
  have hrun : Transition.Run kmod ClientsOnly _ (runOf 3 [.addProcess 1 0 0 1, .addProcess 2 0 0 1,
      .addPublisher ['/', 't'] 0 ⟨[], 1, 1, false, false⟩,
      .addSubscriber ['/', 't'] 0 ⟨[], 2, 1, false, true, false, false, false⟩ 7,
      .publishMsg 1 ['/', 't'] 0 0 16, .receiveMsg 2 ['/', 't'] 0 1 10]).2 :=
    run_runOf (by decide) (by decide) ⟨fun h => absurd h (by decide),
      fun h => absurd h (by decide), hclient rfl rfl (by decide), hclient rfl rfl (by decide),
      trivial, trivial, trivial⟩
  have hfirst := Transition.Run.step (⟨.smooth, .processExitCleanup 1⟩ : Input) hrun trivial
  have hboth := Transition.Run.step (⟨.smooth, .processExitCleanup 2⟩ : Input) hfirst trivial
  refine ⟨exit_cleanup_complete.1 _ 1 hrun.reachable (fun tp s hs => ?_) rfl, by decide,
    exit_cleanup_complete.2 _ _ hboth (by decide)⟩
  obtain ⟨p, hp, _⟩ := (run_tidy hrun).subs tp s hs
  rw [hp]
  rfl

/-- **What the guards keep out**: a bridge of a process that is not registered outlives it;
and the topics that remain without a registration, of a publisher that never registered,
whose live registration was committed away, of an idle daemon, and of an exited process
whose pid a daemon has taken over. -/
theorem cleanup_of_strangers :
    (¬ ∀ σ pid, Reachable σ → SubscribersRegistered σ →
      (∀ tp, ∀ p ∈ (σ.topicStructs tp).pubInfoHtable, (findProcessInfo σ p.pid).isSome) →
      ExitComplete pid (processExitCleanup σ pid)) ∧
    ∀ calls ∈ [
      [Call.addPublisher ['/', 't'] 0 ⟨[], 1, 1, false, false⟩],
      [.addProcess 1 0 0 1, .addPublisher ['/', 't'] 0 ⟨[], 1, 1, false, false⟩,
        .commitExitProcess 0 1 9],
      [.addProcess 1 0 2 0, .addPublisher ['/', 't'] 0 ⟨[], 1, 1, false, false⟩,
        .commitExitProcess 0 (-1) 1],
      [.addProcess 1 0 0 1, .addProcess 2 0 0 1,
        .addPublisher ['/', 't'] 0 ⟨[], 1, 1, false, false⟩,
        .addSubscriber ['/', 't'] 0 ⟨[], 2, 1, false, true, false, false, false⟩ 7,
        .publishMsg 1 ['/', 't'] 0 0 16, .receiveMsg 2 ['/', 't'] 0 1 10,
        .processExitCleanup 1, .commitExitProcess 0 1 9, .addProcess 1 0 2 0,
        .processExitCleanup 2, .commitExitProcess 0 2 1, .commitExitProcess 0 (-1) 1]],
      (∀ p ∈ (runOf 3 calls).2.procInfoHtable, p.exited = true) ∧
        (runOf 3 calls).2.topicHashtable ≠ [] := by
  refine ⟨fun h => ?_, by decide⟩
  have hcomplete := h (runOf 3 [.addBridge ['/', 't'] 1 true 0]).2 1
    (reachable_runOf (by decide) (by decide) _) (fun tp s hs => by cases hs)
    (fun tp p hp => by cases hp)
  exact hcomplete.bridges ⟨['/', 't'], 1, true, false, 0⟩ (by decide) rfl

end Agnocast
