import Agnocast.Process.UnlinkDaemon

/-!
# The processes — discovery agents

A discovery agent claims the slot of one domain. It is not a registered process: its
slot is taken out when it asks to stop and its domain is empty, or when its pid exits.
Both removals go by the pid and take the first slot they meet, and the question is
about the domain that the caller names.

* `step_agents`            — what a call does to the slots.
* `run_agents_sound_iff`   — the slots behave exactly when a pid that loses one has no
  other, and asks about its own domain.
* `second_slot_outlives_its_agent` — a pid with two slots leaves one behind.
-/

namespace Agnocast

variable {σ : Kmod}

/-! ## The slots -/

/-- The slot is one of the pid's. -/
def DiscoveryAgentInfo.ownedBy (pid : Pid) (a : DiscoveryAgentInfo) : Bool := a.pid = pid

/-- A live process other than an unlink daemon, which belongs to no domain, is
registered in the domain. -/
def LiveIn (σ : Kmod) (ipcNs : IpcNs) (domainId : Nat) : Prop :=
  ∃ p ∈ σ.procInfoHtable, p.ipcNs = ipcNs ∧ p.domainId = domainId ∧ p.exited = false ∧
    p.role ≠ .unlinkDaemon

theorem domain_empty_iff {ipcNs : IpcNs} {domainId : Nat} :
    getAliveProcessNumInDomainExceptUnlinkDaemon σ ipcNs domainId = 0 ↔ ¬ LiveIn σ ipcNs domainId := by
  unfold getAliveProcessNumInDomainExceptUnlinkDaemon LiveIn
  rw [List.countP_eq_zero]
  constructor
  · rintro hall ⟨p, hp, hns, hdom, hlive, hrole⟩
    exact hall p hp (by simp [hns, hdom, hlive, hrole])
  · intro hnone p hp hcounted
    simp only [decide_eq_true_eq] at hcounted
    obtain ⟨hns, hdom, hlive, hrole⟩ := hcounted
    exact hnone ⟨p, hp, hns, hdom, by simpa using hlive, hrole⟩

/-- `discovery_agent_should_exit` with `commit` set, on a domain without live processes. -/
def Resigns (σ : Kmod) (call : Call) (pid : Pid) : Prop :=
  ∃ ipcNs domainId, call = .discoveryAgentShouldExit pid ipcNs domainId true ∧
    ¬ LiveIn σ ipcNs domainId

theorem discoveryAgentShouldExit_cases (pid : Pid) (ipcNs : IpcNs) (domainId : Nat) (commit : Bool) :
    (commit = true ∧ ¬ LiveIn σ ipcNs domainId ∧
      discoveryAgentShouldExit σ pid ipcNs domainId commit = (true, removeDiscoveryAgentByPid σ pid)) ∨
    (¬ (commit = true ∧ ¬ LiveIn σ ipcNs domainId) ∧
      (discoveryAgentShouldExit σ pid ipcNs domainId commit).2 = σ ∧
      (commit = true → (discoveryAgentShouldExit σ pid ipcNs domainId commit).1 = false)) := by
  rw [← domain_empty_iff]
  unfold discoveryAgentShouldExit
  by_cases hempty : getAliveProcessNumInDomainExceptUnlinkDaemon σ ipcNs domainId = 0
  · cases commit with
    | true => exact .inl ⟨rfl, hempty, by simp [hempty]⟩
    | false => exact .inr ⟨by simp, by simp, by simp⟩
  · exact .inr ⟨fun h => hempty h.2, by simp [hempty], fun _ => by simp [hempty]⟩

theorem addDiscoveryAgent_cases (env : Env) (pid : Pid) (ipcNs : IpcNs) (domainId : Nat) :
    (addDiscoveryAgent σ env pid ipcNs domainId).2 = σ ∨
    (findDiscoveryAgent σ ipcNs domainId = none ∧
      addDiscoveryAgent σ env pid ipcNs domainId =
        (.ok true,
          { σ with
            discoveryAgentHtable :=
              HTable.hashAdd (env.place .discoveryAgent) σ.discoveryAgentHtable
                ⟨pid, ipcNs, domainId⟩ })) := by
  unfold addDiscoveryAgent
  split
  · exact .inl rfl
  · next hfree =>
    split
    · exact .inl rfl
    · exact .inr ⟨hfree, rfl⟩

/-- What one call does to the slots. -/
inductive AgentChange (σ : Kmod) (i : Input) : List DiscoveryAgentInfo → Prop
  | same (hexit : ∀ pid, i.call ≠ .processExitCleanup pid) (hresign : ∀ pid, ¬ Resigns σ i.call pid) :
      AgentChange σ i σ.discoveryAgentHtable
  | claimed {pid : Pid} {ipcNs : IpcNs} {domainId : Nat}
      (hcall : i.call = .addDiscoveryAgent pid ipcNs domainId)
      (hfree : findDiscoveryAgent σ ipcNs domainId = none)
      (hout : (step σ i).1 = .agentAdded (.ok true)) :
      AgentChange σ i (HTable.hashAdd (i.env.place .discoveryAgent) σ.discoveryAgentHtable
        ⟨pid, ipcNs, domainId⟩)
  | left {pid : Pid} (hcall : i.call = .processExitCleanup pid ∨ Resigns σ i.call pid) :
      AgentChange σ i (σ.discoveryAgentHtable.eraseP (DiscoveryAgentInfo.ownedBy pid))

private theorem AgentChange.of_same {i : Input} {σ' : Kmod}
    (hagents : σ'.discoveryAgentHtable = σ.discoveryAgentHtable)
    (hexit : ∀ pid, i.call ≠ .processExitCleanup pid) (hresign : ∀ pid, ¬ Resigns σ i.call pid) :
    AgentChange σ i σ'.discoveryAgentHtable := by
  rw [hagents]
  exact .same hexit hresign

/-- Every step does one of these to the slots. -/
theorem step_agents (hwf : σ.WellFormed) (i : Input) :
    AgentChange σ i (step σ i).2.discoveryAgentHtable := by
  -- calls on topics, and fetches, touch no slot
  by_cases htopics : i.call.onTopics = true
  · refine .of_same (step_sameWorld htopics).agents ?_ ?_
    · intro pid hcall
      rw [hcall] at htopics
      cases htopics
    · rintro pid ⟨_, _, hcall, _⟩
      rw [hcall] at htopics
      cases htopics
  by_cases hfetch : i.call.isFetch = true
  · refine .of_same (fetch_world hwf hfetch).2.1 ?_ ?_
    · intro pid hcall
      rw [hcall] at hfetch
      cases hfetch
    · rintro pid ⟨_, _, hcall, _⟩
      rw [hcall] at hfetch
      cases hfetch
  obtain ⟨env, call⟩ := i
  -- only a cleanup, or a `should_exit` that commits, lets an agent resign
  have hquiet : ∀ {call : Call}, (∀ pid, call ≠ .processExitCleanup pid) →
      (∀ pid ipcNs domainId commit, call ≠ .discoveryAgentShouldExit pid ipcNs domainId commit) →
      ∀ pid, ¬ Resigns σ call pid := by
    rintro call _ hnot pid ⟨ipcNs, domainId, hcall, _⟩
    exact hnot _ _ _ _ hcall
  cases call with
  | addProcess pid ipcNs raw domainId =>
    refine .of_same ?_ (by simp) (hquiet (by simp) (by simp))
    show (addProcess σ env pid ipcNs raw domainId).2.discoveryAgentHtable = _
    rcases addProcess_cases (σ := σ) env pid ipcNs raw domainId with ⟨e, heq⟩ | heq |
      ⟨role, pool, _, _, _, heq⟩ <;>
      exact congrArg (fun r => r.2.discoveryAgentHtable) heq
  | processExitCleanup pid =>
    show AgentChange σ _ (processExitCleanup σ pid).discoveryAgentHtable
    -- the slots of the process go, whether or not it is registered
    have hagents : (processExitCleanup σ pid).discoveryAgentHtable =
        σ.discoveryAgentHtable.eraseP (DiscoveryAgentInfo.ownedBy pid) := by
      cases hp : findProcessInfo σ pid with
      | none => rw [processExitCleanup_unknown hp]; rfl
      | some p => exact (processExitCleanup_world hp).2.2.1
    rw [hagents]
    exact .left (.inl rfl)
  | commitExitProcess ipcNs globalPid callerPid =>
    refine .of_same ?_ (by simp) (hquiet (by simp) (by simp))
    show (commitExitProcess σ ipcNs globalPid callerPid).2.discoveryAgentHtable = _
    rcases commitExitProcess_cases (σ := σ) ipcNs globalPid callerPid with
      ⟨_, heq⟩ | ⟨_, _, _, p, _, _, heq⟩ | ⟨_, heq⟩ <;>
      exact (congrArg Kmod.discoveryAgentHtable heq).trans rfl
  | notifyBridgeShutdown pid => exact .of_same rfl (by simp) (hquiet (by simp) (by simp))
  | checkAndRequestBridgeShutdown pid ipcNs =>
    refine .of_same ?_ (by simp) (hquiet (by simp) (by simp))
    show (checkAndRequestBridgeShutdown σ pid ipcNs).2.discoveryAgentHtable = _
    unfold checkAndRequestBridgeShutdown
    split <;> rfl
  | addBridge topicName pid isR2a ipcNs =>
    refine .of_same ?_ (by simp) (hquiet (by simp) (by simp))
    show (addBridge σ env topicName pid isR2a ipcNs).2.discoveryAgentHtable = _
    unfold addBridge
    split
    · split <;> rfl
    · split
      · rfl
      · split <;> rfl
  | removeBridge topicName pid isR2a ipcNs =>
    refine .of_same ?_ (by simp) (hquiet (by simp) (by simp))
    show (removeBridge σ topicName pid isR2a ipcNs).2.discoveryAgentHtable = _
    unfold removeBridge
    split
    · rfl
    · split <;> rfl
  | addDiscoveryAgent pid ipcNs domainId =>
    rcases addDiscoveryAgent_cases (σ := σ) env pid ipcNs domainId with heq | ⟨hfree, heq⟩
    · exact .of_same (congrArg Kmod.discoveryAgentHtable heq) (by simp) (hquiet (by simp) (by simp))
    · have hstep : step σ ⟨env, .addDiscoveryAgent pid ipcNs domainId⟩ =
          answer .agentAdded (addDiscoveryAgent σ env pid ipcNs domainId) := rfl
      rw [hstep, heq]
      exact .claimed rfl hfree (by rw [hstep, heq]; rfl)
  | discoveryAgentShouldExit pid ipcNs domainId commit =>
    show AgentChange σ _ (discoveryAgentShouldExit σ pid ipcNs domainId commit).2.discoveryAgentHtable
    rcases discoveryAgentShouldExit_cases (σ := σ) pid ipcNs domainId commit with
      ⟨rfl, hempty, heq⟩ | ⟨hnot, heq, _⟩ <;> rw [heq]
    · exact .left (.inr ⟨ipcNs, domainId, rfl, hempty⟩)
    · refine .of_same rfl (by simp) ?_
      -- the call that would resign is this one, and it kept the slot
      rintro q ⟨ns, d, hcall, hempty⟩
      obtain ⟨-, rfl, rfl, rfl⟩ := Call.discoveryAgentShouldExit.inj hcall
      exact hnot ⟨rfl, hempty⟩
  | receiveMsg => exact absurd rfl hfetch
  | takeMsg => exact absurd rfl hfetch
  | _ => exact absurd rfl htopics

/-! ## Over a run -/

/-- The event gives its caller the slot. -/
def Claims (ev : Event) (a : DiscoveryAgentInfo) : Prop :=
  ev.input.call = .addDiscoveryAgent a.pid a.ipcNs a.domainId ∧ ev.output = .agentAdded (.ok true)

/-- The owner of the slot has claimed it, and its pid has not exited since. -/
def AliveSinceClaim (tr : List Event) (a : DiscoveryAgentInfo) : Prop :=
  ∃ (later : List Event) (ev : Event) (before : List Event), tr = later ++ ev :: before ∧
    Claims ev a ∧ ∀ e ∈ later, e.input.call ≠ .processExitCleanup a.pid

/-- The slots after an event. -/
def agentsAfter (ev : Event) : List DiscoveryAgentInfo :=
  (step ev.pre ev.input).2.discoveryAgentHtable

/-- What the slots promise over a run. -/
structure AgentsSound (tr : List Event) (σ : Kmod) : Prop where
  /-- every domain has one slot at most -/
  one : (σ.discoveryAgentHtable.map fun a => (a.ipcNs, a.domainId)).Nodup
  /-- an agent that asks is only let go when its own domain is empty -/
  onlyEmpty : ∀ (later : List Event) ev before, tr = later ++ ev :: before → ∀ pid ipcNs domainId,
    ev.input.call = .discoveryAgentShouldExit pid ipcNs domainId true →
    ∀ a ∈ ev.pre.discoveryAgentHtable, a ∉ agentsAfter ev → ¬ LiveIn ev.pre a.ipcNs a.domainId
  /-- once told to stop, it has no slot -/
  resigned : ∀ (later : List Event) ev before, tr = later ++ ev :: before → ∀ pid ipcNs domainId,
    ev.input.call = .discoveryAgentShouldExit pid ipcNs domainId true → ev.output = .flag true →
    ∀ a ∈ agentsAfter ev, a.pid ≠ pid
  /-- nor has a pid that exited -/
  exited : ∀ (later : List Event) ev before, tr = later ++ ev :: before → ∀ pid,
    ev.input.call = .processExitCleanup pid → ∀ a ∈ agentsAfter ev, a.pid ≠ pid
  /-- so the owner of a slot has not exited since it claimed it -/
  alive : ∀ a ∈ σ.discoveryAgentHtable, AliveSinceClaim tr a

/-- A pid that is about to lose a slot has no other one, and when it asks, its own
domain is empty along with the one that it names. -/
def SlotsFit (σ : Kmod) : Call → Prop
  | .processExitCleanup pid => σ.discoveryAgentHtable.countP (DiscoveryAgentInfo.ownedBy pid) ≤ 1
  | .discoveryAgentShouldExit pid ipcNs domainId true => ¬ LiveIn σ ipcNs domainId →
      σ.discoveryAgentHtable.countP (DiscoveryAgentInfo.ownedBy pid) ≤ 1 ∧
        ∀ a ∈ σ.discoveryAgentHtable, a.pid = pid → ¬ LiveIn σ a.ipcNs a.domainId
  | _ => True

/-- Taking out the first match leaves none exactly when there was one at most. -/
theorem eraseP_none_iff {α : Type} {p : α → Bool} {l : List α} :
    (∀ a ∈ l.eraseP p, p a = false) ↔ l.countP p ≤ 1 := by
  induction l with
  | nil => simp
  | cons a l ih =>
    by_cases ha : p a = true
    · rw [List.eraseP_cons_of_pos ha, List.countP_cons_of_pos ha]
      have hzero : l.countP p + 1 ≤ 1 ↔ l.countP p = 0 := by omega
      rw [hzero, List.countP_eq_zero]
      simp
    · rw [List.eraseP_cons_of_neg ha, List.countP_cons_of_neg ha, ← ih]
      simp [ha]

theorem ownedBy_false_iff {pid : Pid} {l : List DiscoveryAgentInfo} :
    (∀ a ∈ l, DiscoveryAgentInfo.ownedBy pid a = false) ↔ ∀ a ∈ l, a.pid ≠ pid := by
  simp [DiscoveryAgentInfo.ownedBy]

/-- The slots stay one per domain whatever happens. -/
theorem reachable_one_agent (h : Reachable σ) :
    (σ.discoveryAgentHtable.map fun a => (a.ipcNs, a.domainId)).Nodup := by
  refine Transition.Reachable.invariant
    (P := fun σ => (σ.discoveryAgentHtable.map fun a => (a.ipcNs, a.domainId)).Nodup) ?_ ?_ h
  · rintro σ ⟨_, _, _, _, _, rfl⟩
    exact List.nodup_nil
  · intro σ i hr ih
    have hchange := step_agents (Reachable.wellFormed hr) i
    show ((step σ i).2.discoveryAgentHtable.map _).Nodup
    generalize (step σ i).2.discoveryAgentHtable = agents at hchange ⊢
    cases hchange with
    | same => exact ih
    | claimed _ hfree =>
      refine HTable.nodup_map_hashAdd.mpr ⟨fun hin => ?_, ih⟩
      obtain ⟨a, ha, heq⟩ := List.mem_map.mp hin
      obtain ⟨hns, hdom⟩ := Prod.mk.inj heq
      have hnot := List.find?_eq_none.mp hfree a ha
      exact hnot (by simp [hns, hdom])
    | left => exact ih.sublist (List.eraseP_sublist.map _)

/-- The removals of one event, for each kind. -/
private theorem agentsAfter_exit {ev : Event} (hwf : ev.pre.WellFormed) {pid : Pid}
    (hcall : ev.input.call = .processExitCleanup pid) :
    agentsAfter ev = ev.pre.discoveryAgentHtable.eraseP (DiscoveryAgentInfo.ownedBy pid) := by
  have hchange := step_agents hwf ev.input
  unfold agentsAfter
  generalize (step ev.pre ev.input).2.discoveryAgentHtable = agents at hchange ⊢
  cases hchange with
  | same hexit => exact absurd hcall (hexit pid)
  | claimed hclaim => rw [hcall] at hclaim; cases hclaim
  | left hleft =>
    rcases hleft with hexit | ⟨_, _, hresign, _⟩
    · rw [hcall] at hexit
      cases hexit
      rfl
    · rw [hcall] at hresign
      cases hresign

private theorem agentsAfter_ask {ev : Event} (hwf : ev.pre.WellFormed) {pid : Pid} {ipcNs : IpcNs}
    {domainId : Nat} (hcall : ev.input.call = .discoveryAgentShouldExit pid ipcNs domainId true) :
    (¬ LiveIn ev.pre ipcNs domainId ∧
      agentsAfter ev = ev.pre.discoveryAgentHtable.eraseP (DiscoveryAgentInfo.ownedBy pid)) ∨
    (LiveIn ev.pre ipcNs domainId ∧ agentsAfter ev = ev.pre.discoveryAgentHtable) := by
  have hchange := step_agents hwf ev.input
  unfold agentsAfter
  generalize (step ev.pre ev.input).2.discoveryAgentHtable = agents at hchange ⊢
  cases hchange with
  | same _ hresign =>
    by_cases hlive : LiveIn ev.pre ipcNs domainId
    · exact .inr ⟨hlive, rfl⟩
    · exact absurd ⟨ipcNs, domainId, hcall, hlive⟩ (hresign pid)
  | claimed hclaim => rw [hcall] at hclaim; cases hclaim
  | left hleft =>
    rcases hleft with hexit | ⟨_, _, hresign, hempty⟩
    · rw [hcall] at hexit
      cases hexit
    · rw [hcall] at hresign
      cases hresign
      exact .inl ⟨hempty, rfl⟩

/-- An agent that has answered yes has found the domain empty. -/
private theorem ask_true {ev : Event} (hout : ev.output = (step ev.pre ev.input).1) {pid : Pid}
    {ipcNs : IpcNs} {domainId : Nat}
    (hcall : ev.input.call = .discoveryAgentShouldExit pid ipcNs domainId true) :
    ev.output = .flag true ↔ ¬ LiveIn ev.pre ipcNs domainId := by
  obtain ⟨σ, ⟨env, call⟩, o⟩ := ev
  subst hcall
  rw [hout]
  show Reply.flag (discoveryAgentShouldExit σ pid ipcNs domainId true).1 = _ ↔ _
  rcases discoveryAgentShouldExit_cases (σ := σ) pid ipcNs domainId true with
    ⟨_, hempty, heq⟩ | ⟨hnot, _, hfalse⟩
  · rw [heq]
    exact iff_of_true rfl hempty
  · rw [hfalse rfl]
    exact iff_of_false (by simp) fun hempty => hnot ⟨rfl, hempty⟩

/-- While the removals fit, every slot belongs to a pid that has not exited since. -/
private theorem run_alive {tr : List Event} (h : Transition.Run kmod Transition.anyStep tr σ) :
    (∀ ev ∈ tr, SlotsFit ev.pre ev.input.call) →
      ∀ a ∈ σ.discoveryAgentHtable, AliveSinceClaim tr a := by
  refine Transition.Run.history (P := fun tr σ => (∀ ev ∈ tr, SlotsFit ev.pre ev.input.call) →
    ∀ a ∈ σ.discoveryAgentHtable, AliveSinceClaim tr a) ?_ ?_ h
  · rintro σ ⟨_, _, _, _, _, rfl⟩ _ a ha
    cases ha
  intro tr σ i hr ih _ hfit a ha
  have hwf := Reachable.wellFormed hr.reachable
  -- a slot that stays was claimed before, and its pid has not exited in between
  have hold : a ∈ σ.discoveryAgentHtable → i.call ≠ .processExitCleanup a.pid →
      AliveSinceClaim (⟨σ, i, (kmod.step σ i).1⟩ :: tr) a := by
    intro ha hcall
    obtain ⟨later, ev, before, rfl, hclaims, hlater⟩ :=
      ih (fun ev hev => hfit ev (List.mem_cons_of_mem _ hev)) a ha
    refine ⟨_ :: later, ev, before, rfl, hclaims, fun e he => ?_⟩
    rcases List.mem_cons.mp he with rfl | he
    · exact hcall
    · exact hlater e he
  by_cases hexit : i.call = .processExitCleanup a.pid
  · -- the cleanup has taken out the only slot of the pid
    have hone : SlotsFit σ i.call := hfit ⟨σ, i, (kmod.step σ i).1⟩ List.mem_cons_self
    have hafter : agentsAfter ⟨σ, i, (kmod.step σ i).1⟩ =
        σ.discoveryAgentHtable.eraseP (DiscoveryAgentInfo.ownedBy a.pid) :=
      agentsAfter_exit hwf hexit
    rw [hexit] at hone
    have hnone := ownedBy_false_iff.mp (eraseP_none_iff.mpr hone)
    have ha : a ∈ agentsAfter ⟨σ, i, (kmod.step σ i).1⟩ := ha
    rw [hafter] at ha
    exact absurd rfl (hnone a ha)
  · have hchange := step_agents hwf i
    have ha : a ∈ (step σ i).2.discoveryAgentHtable := ha
    generalize (step σ i).2.discoveryAgentHtable = agents at hchange ha
    cases hchange with
    | same => exact hold ha hexit
    | claimed hcall _ hout =>
      rcases HTable.mem_hashAdd.mp ha with rfl | ha
      · exact ⟨[], _, tr, rfl, ⟨hcall, hout⟩, fun e he => (by cases he)⟩
      · exact hold ha hexit
    | left => exact hold (List.mem_of_mem_eraseP ha) hexit

/-- **The slots of the discovery agents** keep their promises over a run exactly when
every removal fits: the pid that loses a slot has no other, and a pid that asks has its
slot in a domain that is empty too. -/
theorem run_agents_sound_iff {tr : List Event}
    (h : Transition.Run kmod Transition.anyStep tr σ) :
    AgentsSound tr σ ↔ ∀ ev ∈ tr, SlotsFit ev.pre ev.input.call := by
  constructor
  · intro hsound ev hev
    obtain ⟨later, before, rfl⟩ := List.append_of_mem hev
    obtain ⟨hr, _, hout, _⟩ := h.event
    have hwf := Reachable.wellFormed hr.reachable
    -- the two kinds of removals; no other call has a condition
    by_cases hexit : ∃ pid, ev.input.call = .processExitCleanup pid
    · obtain ⟨pid, hcall⟩ := hexit
      have hnone := hsound.exited later ev before rfl pid hcall
      rw [agentsAfter_exit hwf hcall] at hnone
      rw [hcall]
      exact eraseP_none_iff.mp (ownedBy_false_iff.mpr hnone)
    by_cases hask : ∃ pid ipcNs domainId, ev.input.call =
        .discoveryAgentShouldExit pid ipcNs domainId true
    · obtain ⟨pid, ipcNs, domainId, hcall⟩ := hask
      rw [hcall]
      intro hempty
      have hyes := (ask_true hout hcall).mpr hempty
      have hnone := hsound.resigned later ev before rfl pid ipcNs domainId hcall hyes
      refine ⟨?_, fun a ha hpid => ?_⟩
      · rcases agentsAfter_ask hwf hcall with ⟨_, hafter⟩ | ⟨hlive, _⟩
        · rw [hafter] at hnone
          exact eraseP_none_iff.mp (ownedBy_false_iff.mpr hnone)
        · exact absurd hlive hempty
      · exact hsound.onlyEmpty later ev before rfl pid ipcNs domainId hcall a ha
          fun hafter => hnone a hafter hpid
    · generalize ev.input.call = call at hexit hask
      cases call with
      | processExitCleanup pid => exact absurd ⟨pid, rfl⟩ hexit
      | discoveryAgentShouldExit pid ipcNs domainId commit =>
        cases commit with
        | false => trivial
        | true => exact absurd ⟨pid, ipcNs, domainId, rfl⟩ hask
      | _ => trivial
  · intro hfit
    refine ⟨reachable_one_agent h.reachable, ?_, ?_, ?_, run_alive h hfit⟩
    · rintro later ev before rfl pid ipcNs domainId hcall a ha hgone
      obtain ⟨hr, _⟩ := h.event
      have hone : SlotsFit ev.pre ev.input.call := hfit ev (by simp)
      rw [hcall] at hone
      rcases agentsAfter_ask (Reachable.wellFormed hr.reachable) hcall with
        ⟨hempty, hafter⟩ | ⟨_, hafter⟩
      · refine (hone hempty).2 a ha ?_
        by_contra hpid
        rw [hafter] at hgone
        exact hgone ((List.mem_eraseP_of_neg (by simpa [DiscoveryAgentInfo.ownedBy] using hpid)).mpr ha)
      · exact absurd ha (hafter ▸ hgone)
    · rintro later ev before rfl pid ipcNs domainId hcall hyes
      obtain ⟨hr, _, hout, _⟩ := h.event
      have hempty := (ask_true hout hcall).mp hyes
      have hone : SlotsFit ev.pre ev.input.call := hfit ev (by simp)
      rw [hcall] at hone
      rcases agentsAfter_ask (Reachable.wellFormed hr.reachable) hcall with
        ⟨_, hafter⟩ | ⟨hlive, _⟩
      · rw [hafter]
        exact ownedBy_false_iff.mp (eraseP_none_iff.mpr (hone hempty).1)
      · exact absurd hlive hempty
    · rintro later ev before rfl pid hcall
      obtain ⟨hr, _⟩ := h.event
      have hone : SlotsFit ev.pre ev.input.call := hfit ev (by simp)
      rw [hcall] at hone
      rw [agentsAfter_exit (Reachable.wellFormed hr.reachable) hcall]
      exact ownedBy_false_iff.mp (eraseP_none_iff.mpr hone)

/-- An agent with one slot claims it and exits. -/
theorem agents_sound_after_exit : AgentsSound
    (runOf 1 [.addDiscoveryAgent 5 0 0, .processExitCleanup 5]).1
    (runOf 1 [.addDiscoveryAgent 5 0 0, .processExitCleanup 5]).2 := by
  have hrun := run_runOf (n := 1) (by decide) (by decide) (kmod.guarded_anyStep _
    (([.addDiscoveryAgent 5 0 0, .processExitCleanup 5] : List Call).map fun call => ⟨.smooth, call⟩))
  refine (run_agents_sound_iff hrun).mpr fun ev hev => ?_
  rcases List.mem_cons.mp hev with rfl | hev
  · show List.countP _ _ ≤ 1
    decide
  · rw [List.mem_singleton.mp hev]
    trivial

/-- Process 5 is the agent of two domains and exits: the slot of one of them stays. -/
theorem second_slot_outlives_its_agent : ¬ ∀ tr σ,
    Transition.Run kmod Transition.anyStep tr σ → AgentsSound tr σ := by
  intro h
  have hrun := run_runOf (n := 1) (by decide) (by decide) (kmod.guarded_anyStep _
    (([.addDiscoveryAgent 5 0 0, .addDiscoveryAgent 5 0 1, .processExitCleanup 5] : List Call).map
      fun call => ⟨.smooth, call⟩))
  have hnone := (h _ _ hrun).exited [] _ _ rfl 5 rfl ⟨5, 0, 0⟩ (by decide)
  exact hnone rfl

end Agnocast
