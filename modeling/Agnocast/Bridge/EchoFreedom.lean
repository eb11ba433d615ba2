import Agnocast.Bridge.BridgedGraph
import Agnocast.Memory.Mapping

/-!
# The bridge managers — no echo

The two filters that keep a message from coming back compare owners: the kernel module drops for an
A2R bridge what its own process publishes, DDS drops for an R2A bridge what its own participant
sends. They suffice as long as one process owns both directions of a topic. A manager that was
told to stop keeps its bridges until it exits, and another may take over meanwhile.

* `HandsOver`    — a manager creates a bridge only when no other process has the opposite one.
* `EchoFree`     — the invariant: what a running manager has, and what the entries carry.
* `no_echo`      — in runs that hand over so, nothing comes back.
* `echo_at_hand_over` — a manager takes over from one that still runs, and a message circulates.
-/

namespace Agnocast

open Function

variable {σ : Kmod} {g : Graph} {d : Nat}

/-! ## The condition -/

/-- The call of an application: it has no bridge endpoints, leaves those of the managers alone, and
ends no manager. -/
def SparesManagers (g : Graph) : Call → Prop
  | .addSubscriber _ _ args _ => args.isBridge = false
  | .addPublisher _ _ args => args.isBridge = false
  | .publishMsg current topicName ipcNs id _ | .removePublisher current topicName ipcNs id =>
    ∀ w ∈ findTopicForCurrent g.kmod current topicName ipcNs,
      ∀ p ∈ findPublisherInfo (g.kmod.topicStructs w.topic) id, p.isBridge = false
  | .removeSubscriber current topicName ipcNs id =>
    ∀ w ∈ findTopicForCurrent g.kmod current topicName ipcNs,
      ∀ s ∈ findSubscriberInfo (g.kmod.topicStructs w.topic) id, s.isBridge = false
  | .processExitCleanup pid | .commitExitProcess _ pid _ => g.manager pid = none
  | _ => True

/-- The process has a bridge publisher in the topic of the cell, or has left one there. -/
def HasR2a (σ : Kmod) (c : Cell) (pid : Pid) : Prop :=
  ∃ w ∈ σ.topicHashtable, w.cell = c ∧ ∃ p ∈ (σ.topicStructs w.topic).pubInfoHtable,
    p.isBridge = true ∧ p.domainId = c.domainId ∧ p.pid = pid

/-- Nobody else feeds the A2R bridge of the process in the cell: the other processes that have
bridge publishers there are gone. -/
def Feeds (σ : Kmod) (c : Cell) (pid : Pid) : Prop :=
  ∀ w ∈ σ.topicHashtable, w.cell = c → ∀ p ∈ (σ.topicStructs w.topic).pubInfoHtable,
    p.isBridge = true → p.domainId = c.domainId → p.pid ≠ pid → processGone σ p.pid = true

/-- The manager of another process has an A2R bridge in the cell. -/
def OtherA2r (g : Graph) (d : Nat) (c : Cell) (pid : Pid) : Prop :=
  ∃ q ∈ g.kmod.procInfoHtable, q.globalPid ≠ pid ∧ ∃ M ∈ g.manager q.globalPid,
    M.ipcNs = c.ipcNs ∧ d = c.domainId ∧ M.a2r c.key ≠ none

/-- A process that registers has left no bridge publisher where a manager has an A2R bridge. -/
def ReturnsAlone (d : Nat) (g : Graph) (pid : Pid) : Prop :=
  findProcessInfo g.kmod pid = none →
    ∀ w ∈ g.kmod.topicHashtable, OtherA2r g d w.cell pid → ¬ HasR2a g.kmod w.cell pid

/-- **One process owns both directions**: an R2A bridge is created when no other manager of the
namespace has an A2R bridge on the topic, and DDS holds no message of the namespace that another
participant has sent on it; an A2R bridge is created when no other live process has a bridge
publisher on the topic, and no process comes to life that has left one where a manager has an A2R
bridge. -/
def HandsOver (d : Nat) (g : Graph) : GraphInput → Prop
  | .createR2a _ pid topicName => ∀ M ∈ g.manager pid,
      ¬ OtherA2r g d ⟨topicName, M.ipcNs, d⟩ pid ∧
      ∀ s ∈ g.samples, s.topicName = topicName → s.participant ≠ some M.participant →
        s.message.origin ≠ some M.ipcNs
  | .createA2r _ pid topicName _ _ _ _ => ∀ M ∈ g.manager pid,
      Feeds g.kmod ⟨topicName, M.ipcNs, d⟩ pid
  | .launch _ pid _ _ => ReturnsAlone d g pid
  | .ioctl i => ∀ pid ∈ i.call.newPid, ReturnsAlone d g pid
  | _ => True

/-- Applications keep to their own endpoints. -/
def ApplicationsSpare (g : Graph) : GraphInput → Prop
  | .ioctl i => SparesManagers g i.call
  | _ => True

/-- Applications keep to their own endpoints, and managers hand over. -/
def Orderly (d : Nat) (g : Graph) (i : GraphInput) : Prop := ApplicationsSpare g i ∧ HandsOver d g i

instance (c : Cell) (pid : Pid) : Decidable (HasR2a σ c pid) := inferInstanceAs (Decidable (∃ _, _))

instance (c : Cell) (pid : Pid) : Decidable (Feeds σ c pid) := inferInstanceAs (Decidable (∀ _, _))

instance (c : Cell) (pid : Pid) : Decidable (OtherA2r g d c pid) :=
  inferInstanceAs (Decidable (∃ _, _))

instance : (call : Call) → Decidable (SparesManagers g call)
  | .addSubscriber _ _ args _ => inferInstanceAs (Decidable (args.isBridge = false))
  | .addPublisher _ _ args => inferInstanceAs (Decidable (args.isBridge = false))
  | .publishMsg current topicName ipcNs id _ | .removePublisher current topicName ipcNs id =>
    inferInstanceAs (Decidable (∀ w ∈ findTopicForCurrent g.kmod current topicName ipcNs,
      ∀ p ∈ findPublisherInfo (g.kmod.topicStructs w.topic) id, p.isBridge = false))
  | .removeSubscriber current topicName ipcNs id =>
    inferInstanceAs (Decidable (∀ w ∈ findTopicForCurrent g.kmod current topicName ipcNs,
      ∀ s ∈ findSubscriberInfo (g.kmod.topicStructs w.topic) id, s.isBridge = false))
  | .processExitCleanup pid | .commitExitProcess _ pid _ =>
    Option.decidableEqNone (g.manager pid)
  | .addProcess .. | .receiveMsg .. | .takeMsg .. | .releaseMessageEntryReference ..
  | .addDomainBridge .. | .addDomainBridgePrefix .. | .setRos2SubscriberNum ..
  | .setRos2PublisherNum .. | .getExitProcess .. | .addBridge .. | .removeBridge ..
  | .notifyBridgeShutdown .. | .checkAndRequestBridgeShutdown .. | .addDiscoveryAgent ..
  | .discoveryAgentShouldExit .. => inferInstanceAs (Decidable True)

instance : (i : GraphInput) → Decidable (ApplicationsSpare g i)
  | .ioctl i => inferInstanceAs (Decidable (SparesManagers g i.call))
  | .launch .. | .createR2a .. | .createA2r .. | .removeR2a .. | .removeA2r .. | .deliver ..
  | .receive .. | .send .. | .ros2Publish .. | .forget .. | .exit .. =>
    inferInstanceAs (Decidable True)

instance (pid : Pid) : Decidable (ReturnsAlone d g pid) := inferInstanceAs (Decidable (_ → _))

instance : (i : GraphInput) → Decidable (HandsOver d g i)
  | .createR2a _ pid _ => inferInstanceAs (Decidable (∀ M ∈ g.manager pid, _ ∧ _))
  | .createA2r _ pid _ _ _ _ _ => inferInstanceAs (Decidable (∀ M ∈ g.manager pid, _))
  | .launch _ pid _ _ => inferInstanceAs (Decidable (ReturnsAlone d g pid))
  | .ioctl i => inferInstanceAs (Decidable (∀ pid ∈ i.call.newPid, ReturnsAlone d g pid))
  | .removeR2a .. | .removeA2r .. | .deliver .. | .receive .. | .send .. | .ros2Publish ..
  | .forget .. | .exit .. => inferInstanceAs (Decidable True)

instance (i : GraphInput) : Decidable (Orderly d g i) := inferInstanceAs (Decidable (_ ∧ _))

/-! ## The invariant -/

/-- The process runs, in the domain. -/
def RunsIn (σ : Kmod) (d : Nat) (pid : Pid) : Prop :=
  ∃ q, findProcessInfo σ pid = some q ∧ q.exited = false ∧ q.role ≠ .unlinkDaemon ∧ q.domainId = d

/-- The publisher of the R2A bridge of a process. -/
def OwnsPublisher (σ : Kmod) (c : Cell) (pid : Pid) (id : Int) : Prop :=
  ∃ w ∈ σ.topicHashtable, w.cell = c ∧ ∃ p ∈ (σ.topicStructs w.topic).pubInfoHtable,
    p.id = id ∧ p.pid = pid ∧ p.isBridge = true ∧ p.domainId = c.domainId

/-- The subscriber of the A2R bridge of a process. -/
def OwnsSubscriber (σ : Kmod) (c : Cell) (pid : Pid) (id : Int) : Prop :=
  ∃ w ∈ σ.topicHashtable, w.cell = c ∧ ∃ s ∈ (σ.topicStructs w.topic).subInfoHtable,
    s.id = id ∧ s.pid = pid ∧ s.isBridge = true ∧ s.domainId = c.domainId ∧
      s.ignoreLocalPublications = true

/-- What a running manager has. -/
structure ManagerOk (d : Nat) (σ : Kmod) (samples : List Sample) (pid : Pid) (M : ManagerProcess) :
    Prop where
  runs : RunsIn σ d pid
  r2a : ∀ n id, M.r2a n = some id → OwnsPublisher σ ⟨n, M.ipcNs, d⟩ pid id
  a2r : ∀ n id, M.a2r n = some id → OwnsSubscriber σ ⟨n, M.ipcNs, d⟩ pid id
  feeds : ∀ n, M.a2r n ≠ none → Feeds σ ⟨n, M.ipcNs, d⟩ pid
  pending : ∀ e ∈ M.pending, M.a2r e.1 ≠ none ∧ e.2 = .fresh M.ipcNs
  heard : ∀ n, M.r2a n ≠ none → ∀ s ∈ samples, s.topicName = n →
    s.participant ≠ some M.participant → s.message.origin ≠ some M.ipcNs

/-- What an entry in a topic of the namespace carries. -/
def Carries (ipcNs : IpcNs) (isBridge : Bool) (m : Message) : Prop :=
  if isBridge then m.origin ≠ some ipcNs else m = .fresh ipcNs

/-- What the entries carry. -/
def EntriesOk (σ : Kmod) (contents : Nat × Int → Message) : Prop :=
  ∃ f, NamesTopics f σ ∧ ∀ tp, ∀ en ∈ (σ.topicStructs tp).entries,
    ∀ p ∈ (σ.topicStructs tp).pubInfoHtable, p.id = en.publisherId →
      Carries (f tp) p.isBridge (contents (tp, en.entryId))

/-- The invariant. -/
structure EchoFree (d : Nat) (g : Graph) : Prop where
  reachable : Reachable g.kmod
  managers : ∀ pid M, g.manager pid = some M → ManagerOk d g.kmod g.samples pid M
  entries : EntriesOk g.kmod g.contents
  once : ∀ s ∈ g.samples, s.message.injected = []

/-! ## A call of the kernel module -/

theorem RunsIn.live {pid : Pid} (h : RunsIn σ d pid) : processGone σ pid = false := by
  obtain ⟨q, hq, hlive, -⟩ := h
  exact processGone_eq_false.mpr ⟨q, hq, hlive⟩

theorem RunsIn.domain {pid : Pid} (h : RunsIn σ d pid) : getProcessDomainId σ pid = d := by
  obtain ⟨q, hq, -, -, hdomain⟩ := h
  unfold getProcessDomainId
  rw [hq]
  exact hdomain

theorem RunsIn.step (hr : Reachable σ) {i : Input} {pid : Pid} (h : RunsIn σ d pid)
    (hexit : i.call ≠ .processExitCleanup pid)
    (hcommit : ∀ ipcNs callerPid, i.call ≠ .commitExitProcess ipcNs pid callerPid) :
    RunsIn (Agnocast.step σ i).2 d pid := by
  obtain ⟨q, hq, hlive, hrole, hdomain⟩ := h
  rcases registration_step hr hq hexit hcommit with ⟨q', hq', rfl | rfl⟩ | ⟨hdaemon, -⟩
  · exact ⟨_, hq', hlive, hrole, hdomain⟩
  · exact ⟨_, hq', hlive, by simp, hdomain⟩
  · exact absurd hdaemon hrole

/-- The bridge publisher of a process that runs stays, unless a call takes it away. -/
theorem OwnsPublisher.step (hr : Reachable σ) {i : Input} {c : Cell} {pid : Pid} {id : Int}
    (h : OwnsPublisher σ c pid id) (hlive : processGone σ pid = false)
    (hleaves : ∀ w ∈ σ.topicHashtable, w.cell = c → LeavesPublisher σ i.call w.topic id)
    (hexit : i.call ≠ .processExitCleanup pid) :
    OwnsPublisher (Agnocast.step σ i).2 c pid id := by
  obtain ⟨w, hw, hcell, p, hp, rfl, rfl, hbridge, hdomain⟩ := h
  obtain ⟨p', hp', hsame⟩ := keeps_publisher_step hr i hp hlive (hleaves w hw hcell) hexit
  have hdom : p.domainId = w.domainId := hdomain.trans (congrArg Cell.domainId hcell).symm
  have hw' := keeps_publisher_wrapper_step hr i hw hp hp' hsame hdom
  exact ⟨w, hw', hcell, p', hp', hsame.id_eq, hsame.pid_eq, hsame.isBridge_eq.trans hbridge,
    hsame.domainId_eq.trans hdomain⟩

/-- The subscriber of an A2R bridge likewise. -/
theorem OwnsSubscriber.step (hr : Reachable σ) {i : Input} {c : Cell} {pid : Pid} {id : Int}
    (h : OwnsSubscriber σ c pid id)
    (hleaves : ∀ w ∈ σ.topicHashtable, w.cell = c → ¬ Permits σ i.call w.topic (.leave id))
    (hexit : i.call ≠ .processExitCleanup pid) :
    OwnsSubscriber (Agnocast.step σ i).2 c pid id := by
  obtain ⟨w, hw, hcell, s, hs, rfl, rfl, hbridge, hdomain, hignore⟩ := h
  obtain ⟨s', hs', hsame⟩ := keeps_subscriber_step hr i hs ⟨hleaves w hw hcell, hexit⟩
  have hdom : s.domainId = w.domainId := hdomain.trans (congrArg Cell.domainId hcell).symm
  have hw' := keeps_wrapper_step hr i hw hs hs' hsame hdom
  exact ⟨w, hw', hcell, s', hs', hsame.id_eq, hsame.pid_eq, hsame.isBridge_eq.trans hbridge,
    hsame.domainId_eq.trans hdomain,
    (congrArg SubscriberInfo.ignoreLocalPublications hsame).trans hignore⟩

/-- **Where the bridge publisher of a process comes from**: it was there, or the process adds it. -/
theorem HasR2a.origin (hr : Reachable σ) {i : Input} {c : Cell} {pid : Pid}
    (h : HasR2a (step σ i).2 c pid) : HasR2a σ c pid ∨
      ∃ topicName ipcNs args, i.call = .addPublisher topicName ipcNs args ∧
        args.isBridge = true ∧ c = ⟨topicName, ipcNs, getProcessDomainId σ args.pid⟩ ∧
        args.pid = pid := by
  obtain ⟨w, hw, rfl, p', hp', hbridge, hdomain, rfl⟩ := h
  rcases publisher_origin_step hr hw hp' hdomain with
    ⟨hold, p, hp, hsame⟩ | ⟨topicName, ipcNs, args, hcall, hcell, -, hpid, hisBridge⟩
  · exact .inl ⟨w, hold, rfl, p, hp, hsame.isBridge_eq.symm.trans hbridge,
      hsame.domainId_eq.symm.trans hdomain, hsame.pid_eq.symm⟩
  · exact .inr ⟨topicName, ipcNs, args, hcall, hisBridge.symm.trans hbridge, hcell, hpid.symm⟩

theorem Feeds.gone {c : Cell} {pid pid' : Pid} (h : Feeds σ c pid) (hne : pid' ≠ pid)
    (hr2a : HasR2a σ c pid') : processGone σ pid' = true := by
  obtain ⟨w, hw, hcell, p, hp, hbridge, hdomain, rfl⟩ := hr2a
  exact h w hw hcell p hp hbridge hdomain hne

/-- An A2R bridge stays alone with its process, unless another process adds a bridge publisher or
comes to life. -/
theorem Feeds.step (hr : Reachable σ) {i : Input} {c : Cell} {pid : Pid} (h : Feeds σ c pid)
    (hadds : ∀ topicName ipcNs args, i.call = .addPublisher topicName ipcNs args →
      args.isBridge = true → c = ⟨topicName, ipcNs, getProcessDomainId σ args.pid⟩ →
      args.pid = pid)
    (hregisters : ∀ pid' ipcNs raw domainId, i.call = .addProcess pid' ipcNs raw domainId →
      findProcessInfo σ pid' = none → ¬ HasR2a σ c pid') :
    Feeds (Agnocast.step σ i).2 c pid := by
  intro w hw hcell p' hp' hbridge hdomain hne
  have hr2a : HasR2a (Agnocast.step σ i).2 c p'.pid :=
    ⟨w, hw, hcell, p', hp', hbridge, hdomain, rfl⟩
  rcases hr2a.origin hr with hold | ⟨topicName, ipcNs, args, hcall, hisBridge, hcell, hpid⟩
  · refine processGone_step hr (h.gone hne hold) fun ipcNs raw domainId hcall hnone => ?_
    exact absurd hold (hregisters p'.pid ipcNs raw domainId hcall hnone)
  · exact absurd (hpid.symm.trans (hadds topicName ipcNs args hcall hisBridge hcell)) hne

/-! ## What the entries carry -/

/-- A call leaves what the entries carry that are there. -/
theorem recordMessage_of_lt {call : Call} {m : IpcNs → Message} {contents : Nat × Int → Message}
    {tp : Nat} {id : Int} (hlt : id < (σ.topicStructs tp).currentEntryId) :
    recordMessage σ call m contents (tp, id) = contents (tp, id) := by
  cases call with
  | publishMsg current topicName ipcNs _ _ =>
    rw [recordMessage]
    cases findTopicForCurrent σ current topicName ipcNs with
    | none => rfl
    | some w =>
      refine update_of_ne (fun heq => ?_) _ _
      obtain ⟨rfl, rfl⟩ := Prod.mk.inj heq
      exact absurd hlt (lt_irrefl _)
  | _ => rfl

theorem EntriesOk.step (hr : Reachable σ) {i : Input} {m : IpcNs → Message}
    {contents : Nat × Int → Message} (h : EntriesOk σ contents)
    (hpublishes : ∀ current topicName ipcNs id addr w p,
      i.call = .publishMsg current topicName ipcNs id addr →
      findTopicForCurrent σ current topicName ipcNs = some w →
      findPublisherInfo (σ.topicStructs w.topic) id = some p →
      Carries w.ipcNs p.isBridge (m w.ipcNs)) :
    EntriesOk (Agnocast.step σ i).2 (recordMessage σ i.call m contents) := by
  obtain ⟨f, hf, hcarries⟩ := h
  -- topics keep the namespaces that they belong to
  obtain ⟨f', hold, hf'⟩ := names_step hr i hf
  refine ⟨f', hf', fun tp en' hen' p' hp' hid => ?_⟩
  have hc := hr.wellFormed.store tp
  -- the publisher of an entry is known by its id
  have hpub : ∀ q ∈ (σ.topicStructs tp).pubInfoHtable, q.id = p'.id → SamePublisher q p' := by
    intro q hq hqid
    rcases (hr.evolves i tp).pub p' hp' with ⟨p, hp, hsame⟩ | ⟨hnew, -⟩
    · rwa [HTable.eq_of_key_eq hc.pubs_nodup hq hp (hqid.trans hsame.id_eq)]
    · exact absurd (hc.pub_id q hq).2 (by omega)
  rcases entry_origin_step hr hen' with
    ⟨en, hen, hsame⟩ | ⟨q, hq, addr, ⟨current, topicName, ipcNs, w, _, hcall, hw, rfl, hfind, -⟩,
      hentryId, hpubId, -⟩
  · -- an entry that was there carries what it did
    obtain ⟨q, hq, hqid⟩ := hc.publisher en hen
    have hsamePub := hpub q hq (hqid.trans (hsame.publisherId_eq.symm.trans hid.symm))
    have hlt : tp < σ.nextTopicPtr := by
      by_contra hge
      rw [hr.fresh tp (not_lt.mp hge)] at hen
      cases hen
    rw [hold tp hlt, hsamePub.isBridge_eq, hsame.entryId_eq,
      recordMessage_of_lt (hc.entry_lt en hen)]
    exact hcarries tp en hen q hq hqid
  · -- a new one carries what is published
    have hsamePub := hpub q hq (hpubId.symm.trans hid.symm)
    obtain ⟨hmem, -⟩ := findTopicForCurrent_mem hw
    have hrecord : recordMessage σ i.call m contents (w.topic, en'.entryId) = m w.ipcNs := by
      rw [hcall, hentryId, recordMessage, hw]
      exact update_self _ _ _
    rw [hold w.topic (hr.wellFormed.topic_lt w hmem), hsamePub.isBridge_eq, hrecord, hf w hmem]
    exact hpublishes current topicName ipcNs q.id addr w q hcall hw hfind

/-! ## What a call may do -/

/-- A call that leaves the managers what they have, and publishes what may be published. -/
def Harmless (d : Nat) (g : Graph) (m : IpcNs → Message) : Call → Prop
  | .addPublisher topicName ipcNs args => args.isBridge = true →
      ¬ OtherA2r g d ⟨topicName, ipcNs, getProcessDomainId g.kmod args.pid⟩ args.pid
  | .addProcess pid _ _ _ => ReturnsAlone d g pid
  | .publishMsg current topicName ipcNs id _ => ∀ w p,
      findTopicForCurrent g.kmod current topicName ipcNs = some w →
      findPublisherInfo (g.kmod.topicStructs w.topic) id = some p →
      Carries w.ipcNs p.isBridge (m w.ipcNs)
  | .removePublisher current topicName ipcNs id => ∀ w pid M n,
      findTopicForCurrent g.kmod current topicName ipcNs = some w → g.manager pid = some M →
      M.r2a n = some id → ∀ w' ∈ g.kmod.topicHashtable, w'.cell = ⟨n, M.ipcNs, d⟩ →
      w.topic ≠ w'.topic
  | .removeSubscriber current topicName ipcNs id => ∀ w pid M n,
      findTopicForCurrent g.kmod current topicName ipcNs = some w → g.manager pid = some M →
      M.a2r n = some id → ∀ w' ∈ g.kmod.topicHashtable, w'.cell = ⟨n, M.ipcNs, d⟩ →
      w.topic ≠ w'.topic
  | .processExitCleanup pid | .commitExitProcess _ pid _ => g.manager pid = none
  | _ => True

/-- **What a running manager has stays** in a harmless call. -/
theorem ManagerOk.call (hr : Reachable g.kmod) {i : Input} {m : IpcNs → Message}
    (hi : Harmless d g m i.call) {pid : Pid} {M : ManagerProcess} (hM : g.manager pid = some M)
    (h : ManagerOk d g.kmod g.samples pid M) :
    ManagerOk d (step g.kmod i).2 g.samples pid M := by
  have hexit : i.call ≠ .processExitCleanup pid := by
    intro hcall
    rw [hcall] at hi
    cases hM.symm.trans hi
  have hcommit : ∀ ipcNs callerPid, i.call ≠ .commitExitProcess ipcNs pid callerPid := by
    intro ipcNs callerPid hcall
    rw [hcall] at hi
    cases hM.symm.trans hi
  refine ⟨h.runs.step hr hexit hcommit, fun n id hn => ?_, fun n id hn => ?_, fun n hn => ?_,
    h.pending, h.heard⟩
  · refine (h.r2a n id hn).step hr h.runs.live (fun w hw hcell => ?_) hexit
    intro current topicName ipcNs w' hcall hw' htopic
    rw [hcall] at hi
    exact hi w' pid M n hw' hM hn w hw hcell htopic
  · refine (h.a2r n id hn).step hr (fun w hw hcell => ?_) hexit
    rintro ⟨current, topicName, ipcNs, w', hcall, hw', htopic⟩
    rw [hcall] at hi
    exact hi w' pid M n hw' hM hn w hw hcell htopic
  · obtain ⟨q, hq, -⟩ := h.runs
    obtain ⟨hmem, hpid⟩ := findProcessInfo_mem hq
    have hother : ∀ pid' ≠ pid, OtherA2r g d ⟨n, M.ipcNs, d⟩ pid' := fun pid' hne =>
      ⟨q, hmem, hpid.symm ▸ hne.symm, M, hpid.symm ▸ hM, rfl, rfl, hn⟩
    refine (h.feeds n hn).step hr ?_ ?_
    · intro topicName ipcNs args hcall hbridge hcell
      rw [hcall] at hi
      by_contra hne
      exact hi hbridge (hcell ▸ hother args.pid hne)
    · rintro pid' ipcNs raw domainId hcall hnone hr2a
      rw [hcall] at hi
      -- the process of a manager is registered
      have hne : pid' ≠ pid := by
        rintro rfl
        rw [hnone] at hq
        cases hq
      obtain ⟨w, hw, hcell, -⟩ := id hr2a
      rw [← hcell] at hr2a
      exact hi hnone w hw (hcell.symm ▸ hother pid' hne) hr2a

/-- **A harmless call keeps the invariant.** -/
theorem EchoFree.call {i : Input} {m : IpcNs → Message} (h : EchoFree d g)
    (hi : Harmless d g m i.call) : EchoFree d (g.call i m) := by
  refine ⟨Transition.Reachable.step h.reachable i, fun pid M hM => ?_, ?_, h.once⟩
  · exact (h.managers pid M hM).call h.reachable hi hM
  · refine h.entries.step h.reachable ?_
    intro current topicName ipcNs id addr w p hcall hw hp
    rw [hcall] at hi
    exact hi w p hw hp

/-- The invariant says nothing of a manager that is not one any more, and what it says of one is
said of its record. -/
theorem EchoFree.setManager {pid : Pid} {r : Option ManagerProcess} (h : EchoFree d g)
    (hr : ∀ M, r = some M → ManagerOk d g.kmod g.samples pid M) :
    EchoFree d (g.setManager pid r) := by
  refine ⟨h.reachable, fun pid' M hM => ?_, h.entries, h.once⟩
  have hM : update g.manager pid r pid' = some M := hM
  by_cases heq : pid' = pid
  · subst heq
    rw [update_self] at hM
    exact hr M hM
  · rw [update_of_ne heq] at hM
    exact h.managers pid' M hM

theorem Graph.eq_of_setManager {pid : Pid} {M M' : ManagerProcess}
    (h : (g.setManager pid (some M)).manager pid = some M') : M' = M := by
  have h : update g.manager pid (some M) pid = some M' := h
  rw [update_self] at h
  exact (Option.some.inj h).symm

/-! ## What a manager has less -/

/-- A manager that has less than before has nothing that it should not have. -/
theorem ManagerOk.of_fewer {samples : List Sample} {pid : Pid} {M M' : ManagerProcess}
    (h : ManagerOk d σ samples pid M) (hns : M'.ipcNs = M.ipcNs)
    (hparticipant : M'.participant = M.participant)
    (hr2a : ∀ n id, M'.r2a n = some id → M.r2a n = some id)
    (ha2r : ∀ n id, M'.a2r n = some id → M.a2r n = some id)
    (hpending : ∀ e ∈ M'.pending, e ∈ M.pending ∧ M'.a2r e.1 ≠ none) :
    ManagerOk d σ samples pid M' := by
  have hkept : ∀ {f f' : Name → Option Int}, (∀ n id, f' n = some id → f n = some id) →
      ∀ n, f' n ≠ none → f n ≠ none := by
    intro f f' hf n hn
    obtain ⟨id, hid⟩ := Option.ne_none_iff_exists'.mp hn
    rw [hf n id hid]
    exact Option.some_ne_none id
  refine ⟨h.runs, fun n id hn => ?_, fun n id hn => ?_, fun n hn => ?_, fun e he => ?_,
    fun n hn s hs hname hother => ?_⟩
  · exact hns ▸ h.r2a n id (hr2a n id hn)
  · exact hns ▸ h.a2r n id (ha2r n id hn)
  · exact hns ▸ h.feeds n (hkept ha2r n hn)
  · exact ⟨(hpending e he).2, hns ▸ (h.pending e (hpending e he).1).2⟩
  · exact hns ▸ h.heard n (hkept hr2a n hn) s hs hname (hparticipant ▸ hother)

theorem eq_some_of_update_none {f : Name → Option Int} {n n' : Name} {id : Int}
    (h : update f n none n' = some id) : n' ≠ n ∧ f n' = some id := by
  rw [update_apply] at h
  split at h
  · cases h
  · next hne => exact ⟨hne, h⟩

theorem ManagerOk.withoutR2a {samples : List Sample} {pid : Pid} {M : ManagerProcess}
    (h : ManagerOk d σ samples pid M) (topicName : Name) :
    ManagerOk d σ samples pid (M.setR2a topicName none) :=
  h.of_fewer rfl rfl (fun _ _ hn => (eq_some_of_update_none hn).2) (fun _ _ hn => hn)
    fun e he => ⟨he, (h.pending e he).1⟩

theorem ManagerOk.withoutA2r {samples : List Sample} {pid : Pid} {M : ManagerProcess}
    (h : ManagerOk d σ samples pid M) (topicName : Name) :
    ManagerOk d σ samples pid ((M.setA2r topicName none).dropPending topicName) := by
  refine h.of_fewer rfl rfl (fun _ _ hn => hn) (fun _ _ hn => (eq_some_of_update_none hn).2) ?_
  intro e he
  obtain ⟨he, hname⟩ := List.mem_filter.mp he
  refine ⟨he, ?_⟩
  change (M.setA2r topicName none).a2r e.1 ≠ none
  rw [ManagerProcess.setA2r_a2r, if_neg (of_decide_eq_true hname)]
  exact (h.pending e he).1

/-! ## What a manager does -/

section

variable {env : Env} {pid : Pid} {topicName : Name} {M : ManagerProcess}

/-- A wrapper stands for its cell alone. -/
theorem wrapper_of_cell (hr : Reachable σ) {w w' : TopicWrapper} (hw : w ∈ σ.topicHashtable)
    (hw' : w' ∈ σ.topicHashtable) (hcell : w.cell = w'.cell) : w = w' :=
  HTable.eq_of_key_eq hr.wellFormed.cells hw hw' hcell

/-- The publisher that a manager finds under the id of its R2A bridge is a bridge publisher of its
process. -/
theorem OwnsPublisher.found (hr : Reachable σ) {ipcNs : IpcNs} {id : Int}
    (h : OwnsPublisher σ ⟨topicName, ipcNs, d⟩ pid id) (hruns : RunsIn σ d pid) {w : TopicWrapper}
    (hw : findTopicForCurrent σ pid topicName ipcNs = some w) :
    w.cell = ⟨topicName, ipcNs, d⟩ ∧ ∃ p ∈ (σ.topicStructs w.topic).pubInfoHtable,
      p.id = id ∧ p.pid = pid ∧ p.isBridge = true := by
  obtain ⟨w₀, hw₀, hcell₀, p, hp, hid, hpid, hbridge, -⟩ := h
  obtain ⟨hmem, hcell⟩ := findTopic_mem hw
  rw [hruns.domain] at hcell
  obtain rfl := wrapper_of_cell hr hmem hw₀ (hcell.trans hcell₀.symm)
  exact ⟨hcell, p, hp, hid, hpid, hbridge⟩

/-- The subscriber under the id of its A2R bridge likewise. -/
theorem OwnsSubscriber.found (hr : Reachable σ) {ipcNs : IpcNs} {id : Int}
    (h : OwnsSubscriber σ ⟨topicName, ipcNs, d⟩ pid id) (hruns : RunsIn σ d pid) {w : TopicWrapper}
    (hw : findTopicForCurrent σ pid topicName ipcNs = some w) :
    w.cell = ⟨topicName, ipcNs, d⟩ ∧ ∃ s ∈ (σ.topicStructs w.topic).subInfoHtable,
      s.id = id ∧ s.pid = pid ∧ s.isBridge = true ∧ s.domainId = d ∧
        s.ignoreLocalPublications = true := by
  obtain ⟨w₀, hw₀, hcell₀, s, hs, hid, hpid, hbridge, hdomain, hignore⟩ := h
  obtain ⟨hmem, hcell⟩ := findTopic_mem hw
  rw [hruns.domain] at hcell
  obtain rfl := wrapper_of_cell hr hmem hw₀ (hcell.trans hcell₀.symm)
  exact ⟨hcell, s, hs, hid, hpid, hbridge, hdomain, hignore⟩

theorem EchoFree.removeR2a (h : EchoFree d g) (hM : g.manager pid = some M) :
    EchoFree d (g.removeR2a env pid topicName M).2 := by
  unfold Graph.removeR2a
  split
  swap
  · exact h
  next id hid =>
  have hok := h.managers pid M hM
  have hless : EchoFree d (g.setManager pid (some (M.setR2a topicName none))) :=
    h.setManager fun _ hr => Option.some.inj hr ▸ hok.withoutR2a topicName
  refine hless.call fun w pid' M' n' hw hM' hn' w' hw' hcell' htopic => ?_
  -- another bridge with this publisher would be the same bridge, and that one is erased
  obtain ⟨hcell, p, hp, hpid, hpub, -⟩ := (hok.r2a topicName id hid).found h.reachable hok.runs hw
  obtain ⟨w₀, hw₀, hcell₀, p', hp', hid', hpub', -⟩ := (hless.managers pid' M' hM').r2a n' id hn'
  obtain rfl := wrapper_of_cell h.reachable hw' hw₀ (hcell'.trans hcell₀.symm)
  have hdomain : w.domainId = w'.domainId :=
    (congrArg Cell.domainId hcell).trans (congrArg Cell.domainId hcell').symm
  obtain rfl := one_wrapper h.reachable (findTopic_mem hw).1 hw' htopic hdomain
  have hsame := HTable.eq_of_key_eq (h.reachable.wellFormed.store w.topic).pubs_nodup hp hp'
    (hpid.trans hid'.symm)
  obtain rfl : pid = pid' := hpub.symm.trans (hsame ▸ hpub')
  obtain rfl := Graph.eq_of_setManager hM'
  exact (eq_some_of_update_none hn').1 (congrArg Cell.key (hcell'.symm.trans hcell))

theorem EchoFree.removeA2r (h : EchoFree d g) (hM : g.manager pid = some M) :
    EchoFree d (g.removeA2r env pid topicName M).2 := by
  unfold Graph.removeA2r
  split
  swap
  · exact h
  next id hid =>
  have hok := h.managers pid M hM
  have hless : EchoFree d
      (g.setManager pid (some ((M.setA2r topicName none).dropPending topicName))) :=
    h.setManager fun _ hr => Option.some.inj hr ▸ hok.withoutA2r topicName
  refine hless.call fun w pid' M' n' hw hM' hn' w' hw' hcell' htopic => ?_
  obtain ⟨hcell, s, hs, hsid, hsub, -⟩ := (hok.a2r topicName id hid).found h.reachable hok.runs hw
  obtain ⟨w₀, hw₀, hcell₀, s', hs', hid', hsub', -⟩ := (hless.managers pid' M' hM').a2r n' id hn'
  obtain rfl := wrapper_of_cell h.reachable hw' hw₀ (hcell'.trans hcell₀.symm)
  have hdomain : w.domainId = w'.domainId :=
    (congrArg Cell.domainId hcell).trans (congrArg Cell.domainId hcell').symm
  obtain rfl := one_wrapper h.reachable (findTopic_mem hw).1 hw' htopic hdomain
  have hsame := HTable.eq_of_key_eq (h.reachable.wellFormed.store w.topic).subs_nodup hs hs'
    (hsid.trans hid'.symm)
  obtain rfl : pid = pid' := hsub.symm.trans (hsame ▸ hsub')
  obtain rfl := Graph.eq_of_setManager hM'
  exact (eq_some_of_update_none hn').1 (congrArg Cell.key (hcell'.symm.trans hcell))

/-- The publisher of an R2A bridge is the only thing that its creation adds. -/
theorem EchoFree.createR2a (h : EchoFree d g) (hM : g.manager pid = some M)
    (hover : HandsOver d g (.createR2a env pid topicName)) :
    EchoFree d (g.createR2a env pid topicName M).2 := by
  obtain ⟨hother, hheard⟩ := hover M hM
  have hok := h.managers pid M hM
  unfold Graph.createR2a
  split
  swap
  · exact h
  -- no other manager receives on the topic, so the new publisher feeds nobody else
  have hharmless : Harmless d g .fresh (.addPublisher topicName M.ipcNs (M.r2aPublisher pid)) := by
    intro _
    change ¬ OtherA2r g d ⟨topicName, M.ipcNs, getProcessDomainId g.kmod pid⟩ pid
    rw [hok.runs.domain]
    exact hother
  have hcall := h.call (i := ⟨env, .addPublisher topicName M.ipcNs (M.r2aPublisher pid)⟩) hharmless
  simp only
  split
  · next id hreply =>
    refine hcall.setManager fun M' hM' => ?_
    obtain rfl := Option.some.inj hM'
    have hok' := hcall.managers pid M hM
    refine ⟨hok'.runs, fun n id' hn => ?_, hok'.a2r, hok'.feeds, hok'.pending,
      fun n hn s hs hname hparticipant => ?_⟩
    · rw [ManagerProcess.setR2a_r2a] at hn
      split at hn
      · next heq =>
        subst heq
        obtain rfl : id = id' := Option.some.inj hn
        -- the publisher is the one that the ioctl has answered with
        obtain ⟨w, hw, hcell, p, hp, hid, hpid, hbridge, hdomain⟩ :=
          addPublisher_answered (Reply.endpointAdded.inj hreply)
        have hcell : w.cell = ⟨n, M.ipcNs, d⟩ := by
          rw [hcell]
          exact congrArg (Cell.mk n M.ipcNs) hok.runs.domain
        exact ⟨w, hw, hcell, p, hp, hid, hpid, hbridge,
          hdomain.trans (congrArg Cell.domainId hcell)⟩
      · exact hok'.r2a n id' hn
    · rw [ManagerProcess.setR2a_r2a] at hn
      split at hn
      -- what DDS holds on the topic is of this participant
      · next heq => exact hheard s hs (hname.trans heq) hparticipant
      · exact hok'.heard n hn s hs hname hparticipant
  · exact hcall

/-- The subscriber of an A2R bridge likewise. -/
theorem EchoFree.createA2r {qosDepth : Nat} {transientLocal reliable : Bool} {eventfd : Int}
    (h : EchoFree d g) (hM : g.manager pid = some M)
    (hover : HandsOver d g
      (.createA2r env pid topicName qosDepth transientLocal reliable eventfd)) :
    EchoFree d
      (g.createA2r env pid topicName qosDepth transientLocal reliable eventfd M).2 := by
  have hok := h.managers pid M hM
  unfold Graph.createA2r
  split
  swap
  · exact h
  set args := M.a2rSubscription pid qosDepth transientLocal reliable with hargs
  have hcall := h.call (m := .fresh) (i := ⟨env, .addSubscriber topicName M.ipcNs args eventfd⟩)
    trivial
  simp only
  split
  · next id hreply =>
    refine hcall.setManager fun M' hM' => ?_
    obtain rfl := Option.some.inj hM'
    have hok' := hcall.managers pid M hM
    refine ⟨hok'.runs, hok'.r2a, fun n id' hn => ?_, fun n hn => ?_, fun e he => ?_, hok'.heard⟩
    · rw [ManagerProcess.setA2r_a2r] at hn
      split at hn
      · next heq =>
        subst heq
        obtain rfl : id = id' := Option.some.inj hn
        obtain ⟨w, hw, hcell, s, hs, hid, hpid, hbridge, hdomain, hignore⟩ :=
          addSubscriber_answered (Reply.endpointAdded.inj hreply)
        have hcell : w.cell = ⟨n, M.ipcNs, d⟩ := by
          rw [hcell]
          exact congrArg (Cell.mk n M.ipcNs) hok.runs.domain
        exact ⟨w, hw, hcell, s, hs, hid, hpid, hbridge,
          hdomain.trans (congrArg Cell.domainId hcell), hignore⟩
      · exact hok'.a2r n id' hn
    · rw [ManagerProcess.setA2r_a2r] at hn
      split at hn
      · next heq =>
        subst heq
        -- the condition is about the state before the call, which adds no publisher
        exact Feeds.step h.reachable (hover M hM) (fun _ _ _ h => by cases h)
          fun _ _ _ _ h => by cases h
      · exact hok'.feeds n hn
    · obtain ⟨hactive, hfresh⟩ := hok'.pending e he
      refine ⟨?_, hfresh⟩
      rw [ManagerProcess.setA2r_a2r]
      split
      · exact Option.some_ne_none id
      · exact hactive
  · exact hcall

/-- A new manager has no bridges yet. -/
theorem EchoFree.launch {ipcNs : IpcNs} {nodeName : Name} (h : EchoFree d g)
    (hover : HandsOver d g (.launch env pid ipcNs nodeName)) :
    EchoFree d (g.launch d env pid ipcNs nodeName).2 := by
  have hcall := h.call (m := .fresh) (i := ⟨env, .addProcess pid ipcNs 1 d⟩) hover
  unfold Graph.launch
  simp only
  split
  · next hreply =>
    -- an answer with a pool is a registration
    have hruns : RunsIn (step g.kmod ⟨env, .addProcess pid ipcNs 1 d⟩).2 d pid := by
      have hreply := Reply.processAdded.inj hreply
      have hafter : (step g.kmod ⟨env, .addProcess pid ipcNs 1 d⟩).2 =
        (addProcess g.kmod env pid ipcNs 1 d).2 := rfl
      have hpids := (reachable_poolsOk hcall.reachable).pids
      rcases addProcess_cases (σ := g.kmod) env pid ipcNs 1 d with ⟨e, heq⟩ | heq |
        ⟨role, pool, hrole, -, -, heq⟩
      · rw [heq] at hreply
        cases hreply
      · rw [heq] at hreply
        cases hreply
      · obtain rfl : ProcessRole.bridgeManager = role := Option.some.inj hrole
        refine ⟨newProcess env pid ipcNs .bridgeManager d pool, ?_, rfl, by simp [newProcess], rfl⟩
        refine (HTable.lookup_eq_some_iff hpids).mpr ⟨?_, rfl⟩
        change _ ∈ (step g.kmod ⟨env, .addProcess pid ipcNs 1 d⟩).2.procInfoHtable
        rw [hafter, heq]
        exact HTable.mem_hashAdd.mpr (.inl rfl)
    -- nothing is to be shown of bridges that are not there
    have hset : EchoFree d ((g.call ⟨env, .addProcess pid ipcNs 1 d⟩ .fresh).setManager pid
        (some ⟨ipcNs, nodeName, g.nextParticipant, fun _ => none, fun _ => none, []⟩)) := by
      refine hcall.setManager fun M hM => ?_
      obtain rfl := Option.some.inj hM
      exact ⟨hruns, fun _ _ hn => absurd hn (Option.some_ne_none _).symm,
        fun _ _ hn => absurd hn (Option.some_ne_none _).symm, fun _ hn => absurd rfl hn,
        fun _ he => absurd he List.not_mem_nil, fun _ hn => absurd rfl hn⟩
    exact ⟨hset.reachable, hset.managers, hset.entries, hset.once⟩
  · exact hcall

/-- An R2A bridge publishes under a bridge publisher what was not published in its namespace. -/
theorem EchoFree.deliver {s : Sample} {addr : Nat} (h : EchoFree d g)
    (hM : g.manager pid = some M) : EchoFree d (g.deliver env pid s addr M).2 := by
  have hok := h.managers pid M hM
  unfold Graph.deliver
  split
  swap
  · exact h
  next id hid =>
  split
  swap
  · exact h
  next hs =>
  refine h.call fun w p hw hp => ?_
  obtain ⟨hcell, p₀, hp₀, hid₀, -, hbridge⟩ :=
    (hok.r2a s.topicName id hid).found h.reachable hok.runs hw
  obtain ⟨hmem, hpid⟩ := HTable.mem_of_lookup hp
  rw [HTable.eq_of_key_eq (h.reachable.wellFormed.store w.topic).pubs_nodup hmem hp₀
    (hpid.trans hid₀.symm), hbridge]
  have hns : w.ipcNs = M.ipcNs := congrArg Cell.ipcNs hcell
  rw [hns]
  exact hok.heard s.topicName (hid ▸ Option.some_ne_none id) s hs.1 rfl hs.2

/-- What a bridge subscriber accepts is from another process, which is alive, in its domain. -/
theorem accepts_foreign {t : TopicStruct} {s : SubscriberInfo} {en : EntryNode}
    (h : accepts σ t s en = true) (hbridge : s.isBridge = true)
    (hignore : s.ignoreLocalPublications = true) :
    ∃ p ∈ t.pubInfoHtable, p.id = en.publisherId ∧ processGone σ p.pid = false ∧
      p.pid ≠ s.pid ∧ p.domainId = s.domainId := by
  have hdelivered : isEntryDeliverable σ t s en = .ok true := by
    unfold accepts at h
    split at h
    · next heq => rw [heq, h]
    · cases h
  unfold isEntryDeliverable at hdelivered
  split at hdelivered
  · cases hdelivered
  next p hp =>
  obtain ⟨hmem, hid⟩ := HTable.mem_of_lookup hp
  split at hdelivered
  · cases hdelivered
  next hlive =>
  split at hdelivered
  · cases hdelivered
  next hlocal =>
  refine ⟨p, hmem, hid, by simpa using hlive, fun heq => hlocal ⟨hignore, heq.symm⟩, ?_⟩
  by_contra hne
  rw [domainDeliveryAllowed, if_neg hne, hbridge, Bool.or_true, if_pos rfl] at hdelivered
  cases hdelivered

/-- **An A2R bridge receives what applications of its namespace publish**, and nothing else. -/
theorem EchoFree.receives {pubShmInfosSize : Nat} {id : Int} (h : EchoFree d g)
    (hM : g.manager pid = some M) (hid : M.a2r topicName = some id) :
    ∀ ho ∈ handouts (eventOf g.kmod
        ⟨env, .receiveMsg pid topicName M.ipcNs id pubShmInfosSize⟩),
      g.contents (ho.topic, ho.entryId) = .fresh M.ipcNs := by
  intro ho hho
  have hok := h.managers pid M hM
  obtain ⟨w, s, batch, infos, t', m, htarget, hf, en, hen, rfl⟩ :=
    handout_cases h.reachable.wellFormed hho
  -- the call is carried out for the subscriber of the bridge
  have hfound : findTopicForCurrent g.kmod pid topicName M.ipcNs = some w ∧ s.id = id := by
    simp only [fetchTarget] at htarget
    split at htarget
    · cases htarget
    · next w' hw' =>
      obtain ⟨s', hs', heq⟩ := Option.map_eq_some_iff.mp htarget
      obtain ⟨rfl, rfl⟩ := Prod.mk.inj heq
      exact ⟨hw', (HTable.mem_of_lookup hs').2⟩
  obtain ⟨hcell, s₀, hs₀, hsid, hspid, hbridge, hdomain, hignore⟩ :=
    (hok.a2r topicName id hid).found h.reachable hok.runs hfound.1
  have hc := h.reachable.wellFormed.store w.topic
  obtain rfl := HTable.eq_of_key_eq hc.subs_nodup hf.subscriber hs₀ (hfound.2.trans hsid.symm)
  obtain ⟨p, hp, hpub, hlive, hne, hpdomain⟩ := accepts_foreign (hf.accepted en hen) hbridge hignore
  -- a bridge publisher would be of another process
  have happlication : p.isBridge = false := by
    refine Bool.not_eq_true _ ▸ fun hisBridge => ?_
    have hgone := hok.feeds topicName (hid ▸ Option.some_ne_none id) w hf.wrapper hcell p hp
      hisBridge (hpdomain.trans hdomain) (hspid ▸ hne)
    rw [hlive] at hgone
    cases hgone
  obtain ⟨f, hnames, hcarries⟩ := h.entries
  have hen := hf.sublist.subset hen
  have hcarried := hcarries w.topic en hen p hp hpub
  rw [happlication, hnames w hf.wrapper, show w.ipcNs = M.ipcNs from congrArg Cell.ipcNs hcell]
    at hcarried
  exact hcarried

theorem EchoFree.receive {pubShmInfosSize : Nat} (h : EchoFree d g)
    (hM : g.manager pid = some M) :
    EchoFree d (g.receive env pid topicName pubShmInfosSize M).2 := by
  have hok := h.managers pid M hM
  unfold Graph.receive
  split
  swap
  · exact h
  next id hid =>
  refine EchoFree.call (h.setManager fun M' hM' => ?_) trivial
  obtain rfl := Option.some.inj hM'
  refine ⟨hok.runs, hok.r2a, hok.a2r, hok.feeds, fun e he => ?_, hok.heard⟩
  rcases List.mem_append.mp he with he | he
  · exact hok.pending e he
  · obtain ⟨ho, hho, rfl⟩ := List.mem_map.mp he
    exact ⟨hid ▸ Option.some_ne_none id, h.receives hM hid ho hho⟩

/-- An A2R bridge sends what no R2A bridge of the namespace will be given. -/
theorem EchoFree.send {m : Message} (h : EchoFree d g) (hM : g.manager pid = some M) :
    EchoFree d (g.send pid topicName m M).2 := by
  have hok := h.managers pid M hM
  unfold Graph.send
  split
  swap
  · exact h
  next hpending =>
  obtain ⟨hactive, rfl⟩ := hok.pending _ hpending
  have hset : EchoFree d (g.setManager pid
      (some { M with pending := M.pending.erase (topicName, .fresh M.ipcNs) })) := by
    refine h.setManager fun M' hM' => ?_
    obtain rfl := Option.some.inj hM'
    exact hok.of_fewer rfl rfl (fun _ _ hn => hn) (fun _ _ hn => hn) fun e he =>
      ⟨List.mem_of_mem_erase he, (hok.pending e (List.mem_of_mem_erase he)).1⟩
  refine ⟨hset.reachable, fun pid' M' hM' => ?_, hset.entries, fun s hs => ?_⟩
  · have hok' := hset.managers pid' M' hM'
    refine ⟨hok'.runs, hok'.r2a, hok'.a2r, hok'.feeds, hok'.pending, ?_⟩
    intro n hn s hs hname hother
    rcases List.mem_cons.mp hs with rfl | hs
    · rintro hsame
      have hns : M.ipcNs = M'.ipcNs := Option.some.inj hsame
      have htopic : topicName = n := hname
      subst htopic
      -- an R2A bridge of the namespace on the topic would feed the bridge that sends
      obtain ⟨id, hid⟩ := Option.ne_none_iff_exists'.mp hn
      obtain ⟨w, hw, hcell, p, hp, -, hpid, hbridge, hdomain⟩ := hok'.r2a topicName id hid
      by_cases heq : pid' = pid
      · subst heq
        obtain rfl := Graph.eq_of_setManager hM'
        exact hother rfl
      · have hgone := (hok.feeds topicName hactive).gone heq
          ⟨w, hw, hns ▸ hcell, p, hp, hbridge, hdomain, hpid⟩
        have hlive : processGone g.kmod pid' = false := hok'.runs.live
        rw [hlive] at hgone
        cases hgone
    · exact hok'.heard n hn s hs hname hother
  · rcases List.mem_cons.mp hs with rfl | hs
    · rfl
    · exact hset.once s hs

theorem EchoFree.exit (h : EchoFree d g) : EchoFree d (g.exit env pid).2 := by
  have hset : EchoFree d (g.setManager pid none) := h.setManager fun _ hM => by cases hM
  refine hset.call ?_
  change update g.manager pid none pid = none
  rw [update_self]

end

/-! ## Applications -/

/-- A call of an application is harmless, if no process starts to live that should not. -/
theorem EchoFree.harmless {i : Input} (h : EchoFree d g) (hspares : SparesManagers g i.call)
    (hover : HandsOver d g (.ioctl i)) : Harmless d g .fresh i.call := by
  obtain ⟨env, call⟩ := i
  have hr := h.reachable
  cases call with
  | addProcess pid ipcNs raw domainId => exact hover pid rfl
  | addPublisher topicName ipcNs args =>
    intro hbridge
    have hspares : args.isBridge = false := hspares
    -- applications add no bridge endpoints
    rw [hspares] at hbridge
    cases hbridge
  | publishMsg current topicName ipcNs id addr =>
    intro w p hw hp
    rw [hspares w hw p hp]
    rfl
  | removePublisher current topicName ipcNs id =>
    intro w pid M n hw hM hn w' hw' hcell htopic
    -- the publisher of a running bridge is a bridge publisher, so this one is another
    obtain ⟨w₀, hw₀, hcell₀, p, hp, rfl, -, hbridge, -⟩ := (h.managers pid M hM).r2a n id hn
    obtain rfl := wrapper_of_cell hr hw' hw₀ (hcell.trans hcell₀.symm)
    rw [← htopic] at hp
    rw [hspares w hw p (HTable.lookup_self (hr.wellFormed.store w.topic).pubs_nodup hp)] at hbridge
    cases hbridge
  | removeSubscriber current topicName ipcNs id =>
    intro w pid M n hw hM hn w' hw' hcell htopic
    -- and so for the subscribers
    obtain ⟨w₀, hw₀, hcell₀, s, hs, rfl, -, hbridge, -⟩ := (h.managers pid M hM).a2r n id hn
    obtain rfl := wrapper_of_cell hr hw' hw₀ (hcell.trans hcell₀.symm)
    rw [← htopic] at hs
    rw [hspares w hw s (HTable.lookup_self (hr.wellFormed.store w.topic).subs_nodup hs)] at hbridge
    cases hbridge
  | processExitCleanup | commitExitProcess => exact hspares
  | _ => trivial

/-! ## Runs -/

theorem EchoFree.initial (hσ : moduleInit σ) : EchoFree d (.initial σ) := by
  have hr : Reachable σ := ⟨[], .init hσ⟩
  obtain ⟨_, _, _, _, _, rfl⟩ := hσ
  refine ⟨hr, fun _ _ hM => absurd hM (Option.some_ne_none _).symm, ?_,
    fun _ hs => absurd hs List.not_mem_nil⟩
  exact ⟨fun _ => 0, fun _ hw => absurd hw List.not_mem_nil,
    fun _ _ hen => absurd hen List.not_mem_nil⟩

theorem EchoFree.ofManager {pid : Pid} {act : ManagerProcess → Outcome × Graph} (h : EchoFree d g)
    (hact : ∀ M, g.manager pid = some M → EchoFree d (act M).2) :
    EchoFree d (g.ofManager pid act).2 := by
  unfold Graph.ofManager
  split
  · next M hM => exact hact M hM
  · exact h

/-- **An orderly event keeps the invariant.** -/
theorem EchoFree.step {i : GraphInput} (h : EchoFree d g) (hi : Orderly d g i) :
    EchoFree d (g.step d i).2 := by
  obtain ⟨hspares, hover⟩ := hi
  cases i with
  | ioctl i => exact h.call (h.harmless hspares hover)
  | launch => exact h.launch hover
  | createR2a => exact h.ofManager fun _ hM => h.createR2a hM hover
  | createA2r => exact h.ofManager fun _ hM => h.createA2r hM hover
  | removeR2a => exact h.ofManager fun _ hM => h.removeR2a hM
  | removeA2r => exact h.ofManager fun _ hM => h.removeA2r hM
  | deliver => exact h.ofManager fun _ hM => h.deliver hM
  | receive => exact h.ofManager fun _ hM => h.receive hM
  | send => exact h.ofManager fun _ hM => h.send hM
  | ros2Publish topicName =>
    refine ⟨h.reachable, fun pid M hM => ?_, h.entries, fun s hs => ?_⟩
    · have hok := h.managers pid M hM
      refine ⟨hok.runs, hok.r2a, hok.a2r, hok.feeds, hok.pending, fun n hn s hs hname hother => ?_⟩
      -- what a ROS 2 node publishes has no namespace
      rcases List.mem_cons.mp hs with rfl | hs
      · exact (Option.some_ne_none _).symm
      · exact hok.heard n hn s hs hname hother
    · rcases List.mem_cons.mp hs with rfl | hs
      · rfl
      · exact h.once s hs
  | forget s =>
    refine ⟨h.reachable, fun pid M hM => ?_, h.entries, fun s hs => ?_⟩
    · have hok := h.managers pid M hM
      exact ⟨hok.runs, hok.r2a, hok.a2r, hok.feeds, hok.pending,
        fun n hn s hs => hok.heard n hn s (List.mem_of_mem_erase hs)⟩
    · exact h.once s (List.mem_of_mem_erase hs)
  | exit => exact h.ofManager fun _ _ => h.exit

/-- What a call hands out under a bridge publisher was not published in the namespace. -/
theorem EchoFree.noEcho_called (h : EchoFree d g) (i : GraphInput) (called : Input) :
    NoEcho ⟨g, i, .called called⟩ := by
  rintro target htarget ho hho en hen hid p hp hpub hbridge
  obtain ⟨w, s, batch, infos, t', m, htarget', hf, _, _, rfl⟩ :=
    handout_cases h.reachable.wellFormed hho
  obtain rfl : (w, s) = target := Option.some.inj (htarget'.symm.trans htarget)
  obtain ⟨f, hnames, hcarries⟩ := h.entries
  have hcarried := hcarries w.topic en hen p hp hpub
  rw [hbridge, hnames w hf.wrapper, hid] at hcarried
  exact hcarried

/-- **No event of a manager, and no call, is an echo.** -/
theorem EchoFree.noEcho (h : EchoFree d g) (i : GraphInput) : NoEcho ⟨g, i, (g.step d i).1⟩ := by
  have hcalled := h.noEcho_called i
  have hmanager : ∀ pid act, (∀ M, g.manager pid = some M → NoEcho ⟨g, i, (act M).1⟩) →
      NoEcho ⟨g, i, (g.ofManager pid act).1⟩ := by
    intro pid act hact
    unfold Graph.ofManager
    split
    · next M hM => exact hact M hM
    · trivial
  cases i with
  | ioctl | launch => exact hcalled _
  | createR2a =>
    refine hmanager _ _ fun M _ => ?_
    unfold Graph.createR2a
    split
    · exact hcalled _
    · trivial
  | createA2r =>
    refine hmanager _ _ fun M _ => ?_
    unfold Graph.createA2r
    split
    · exact hcalled _
    · trivial
  | removeR2a =>
    refine hmanager _ _ fun M _ => ?_
    unfold Graph.removeR2a
    split
    · exact hcalled _
    · trivial
  | removeA2r =>
    refine hmanager _ _ fun M _ => ?_
    unfold Graph.removeA2r
    split
    · exact hcalled _
    · trivial
  | deliver =>
    refine hmanager _ _ fun M _ => ?_
    unfold Graph.deliver
    split
    · split
      · exact hcalled _
      · trivial
    · trivial
  | receive =>
    refine hmanager _ _ fun M _ => ?_
    unfold Graph.receive
    split
    · exact hcalled _
    · trivial
  | send pid topicName m =>
    refine hmanager _ _ fun M hM => ?_
    unfold Graph.send
    split
    · next hpending =>
      -- it has received a message that was just published
      obtain ⟨-, rfl⟩ := (h.managers pid M hM).pending _ hpending
      exact List.not_mem_nil
    · trivial
  | ros2Publish | forget => trivial
  | exit => exact hmanager _ _ fun _ _ => hcalled _

/-- **No echo**: in a run whose managers own both directions of a topic or none, no message of a
namespace comes back to a subscriber of it through a bridge, none that was injected into a
namespace is sent from it, and none crosses DDS twice. -/
theorem no_echo {tr : List GraphEvent} (h : Transition.Run (bridgedGraph d) (Orderly d) tr g) :
    (∀ ev ∈ tr, NoEcho ev) ∧ ∀ s ∈ g.samples, s.message.injected = [] := by
  have hrun : EchoFree d g ∧ ∀ ev ∈ tr, NoEcho ev := by
    refine h.history (P := fun tr g => EchoFree d g ∧ ∀ ev ∈ tr, NoEcho ev) ?_ ?_
    · rintro _ ⟨σ, hσ, rfl⟩
      exact ⟨.initial hσ, fun _ hev => absurd hev List.not_mem_nil⟩
    · rintro tr g i - ⟨hfree, hold⟩ hi
      refine ⟨hfree.step hi, fun ev hev => ?_⟩
      rcases List.mem_cons.mp hev with rfl | hev
      · exact hfree.noEcho i
      · exact hold ev hev
  exact ⟨hrun.2, hrun.1.once⟩

/-! ## A successor -/

/-- Process 1 of namespace 7 publishes on a topic, and subscribes to what others publish there; the
manager, process 10, sends what it publishes. -/
def sentByManager : List GraphInput :=
  [.ioctl ⟨.smooth, .addProcess 1 7 0 0⟩,
    .ioctl ⟨.smooth, .addPublisher ['t'] 7 ⟨['a'], 1, 10, true, false⟩⟩,
    .ioctl ⟨.smooth, .addSubscriber ['t'] 7 ⟨['a'], 1, 10, true, true, false, true, false⟩ 3⟩,
    .launch .smooth 10 7 ['m'],
    .createA2r .smooth 10 ['t'] 10 true true 4,
    .ioctl ⟨.smooth, .publishMsg 1 ['t'] 7 0 0⟩,
    .receive .smooth 10 ['t'] 100,
    .send 10 ['t'] (.fresh 7)]

/-- Its R2A bridge is given what a ROS 2 node publishes, and not what its A2R bridge has sent. -/
def injectedByManager : List GraphInput :=
  sentByManager ++
  [.createR2a .smooth 10 ['t'],
    .deliver .smooth 10 ⟨['t'], some 0, .fresh 7⟩ (1024 ^ 3),
    .ros2Publish ['t'],
    .deliver .smooth 10 ⟨['t'], none, ⟨none, []⟩⟩ (1024 ^ 3),
    .ioctl ⟨.smooth, .receiveMsg 1 ['t'] 7 1 100⟩]

/-- Where the inputs lead from a module that was loaded with four pools. -/
def graphOf (inputs : List GraphInput) : List GraphEvent × Graph :=
  (bridgedGraph 0).exec (.initial (.loaded (poolsOf 4))) [] inputs

private theorem run_graphOf {G : Graph → GraphInput → Prop} {inputs : List GraphInput}
    (hg : (bridgedGraph 0).Guarded G (.initial (.loaded (poolsOf 4))) inputs) :
    Transition.Run (bridgedGraph 0) G (graphOf inputs).1 (graphOf inputs).2 :=
  (Transition.Run.init (T := bridgedGraph 0) (s := .initial (.loaded (poolsOf 4)))
    ⟨_, moduleInit_poolsOf (by decide) (by decide), rfl⟩).exec hg

/-- With one manager the message of the ROS 2 node is injected, and nothing comes back. -/
theorem no_echo_of_one_manager :
    (graphOf injectedByManager).2.contents (0, 1) = ⟨none, [7]⟩ ∧
    (∀ ev ∈ (graphOf injectedByManager).1, NoEcho ev) ∧
      ∀ s ∈ (graphOf injectedByManager).2.samples, s.message.injected = [] :=
  ⟨rfl, no_echo (run_graphOf (by decide))⟩

/-- The manager is told to stop, and its successor creates an R2A bridge before it has exited: DDS
gives it what the predecessor has sent. Process 1 receives it, and so does the predecessor. -/
def handedOverEarly : List GraphInput :=
  sentByManager ++
  [.ioctl ⟨.smooth, .notifyBridgeShutdown 10⟩,
    .launch .smooth 11 7 ['n'],
    .createR2a .smooth 11 ['t'],
    .deliver .smooth 11 ⟨['t'], some 0, .fresh 7⟩ (2 * 1024 ^ 3),
    .ioctl ⟨.smooth, .receiveMsg 1 ['t'] 7 1 100⟩,
    .receive .smooth 10 ['t'] 100,
    .send 10 ['t'] ⟨some 7, [7]⟩]

/-- **A message circulates** when a manager takes over from one that still runs: process 1 is handed
its own message, and the message is sent again. -/
theorem echo_at_hand_over : ∃ tr g, Transition.Run (bridgedGraph 0) ApplicationsSpare tr g ∧
    (∃ ev ∈ tr, (∃ i, ev.output = .called i) ∧ ¬ NoEcho ev) ∧
    ∃ ev ∈ tr, (∃ m, ev.output = .sent 7 m) ∧ ¬ NoEcho ev := by
  refine ⟨(graphOf handedOverEarly).1, _, run_graphOf (by decide), ?_, ?_⟩
  · exact ⟨_, List.mem_of_getElem? (i := 2) rfl, ⟨_, rfl⟩, by decide⟩
  · exact ⟨_, List.mem_of_getElem? (i := 0) rfl, ⟨_, rfl⟩, by decide⟩

end Agnocast
