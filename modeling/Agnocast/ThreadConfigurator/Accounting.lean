import Agnocast.ThreadConfigurator.TrackedGroups

/-!
# The thread configurator — accounting

* `NodeOk` — the indices fit the lists, and no callback group is tracked twice.
* `callbackGroupCallback_ok`, `nonRosThreadCallback_ok` — what an announcement keeps.
* `carryOver_ok`, `applyNonRosThreads_spec` — what a request keeps.
* `Counted` — the counter of what is not applied, wherever the executor has come to.
* `configuratorOk_of_reachable` — both hold in every state of every run.
-/

namespace Agnocast

open Transition Index

/-! ## The node -/

theorem ThreadConfig.exactKey_congr {c c' : ThreadConfig} (h : c.key = c'.key) :
    c.exactKey = c'.exactKey := by
  obtain ⟨hwild, -, hd, hstr⟩ := ThreadConfig.isWildcard_congr h
  unfold ThreadConfig.exactKey
  rw [hwild, hd, hstr]

theorem ThreadConfig.wildcardKey_congr {c c' : ThreadConfig} (h : c.key = c'.key) :
    c.wildcardKey = c'.wildcardKey := by
  obtain ⟨hwild, hpart, hd, -⟩ := ThreadConfig.isWildcard_congr h
  unfold ThreadConfig.wildcardKey
  rw [hwild, hd, hpart]

/-- The invariant of the node but for the counter. -/
structure NodeOk (n : ThreadConfiguratorNode) : Prop where
  exactIndex : n.idToCallbackGroupConfig =
    places (n.callbackGroupConfigs.map ThreadConfig.exactKey)
  wildcardIndex : n.nodeToWildcardConfig =
    places (n.callbackGroupConfigs.map ThreadConfig.wildcardKey)
  nonRosIndex : n.idToNonRosThreadConfig =
    places (n.nonRosThreadConfigs.map ThreadConfig.nameKey)
  callbackGroups : CallbackGroupsOk n.callbackGroupConfigs
  names : (n.nonRosThreadConfigs.map ThreadConfig.threadStr).Nodup

/-- The entries with `applied = false`. -/
def ThreadConfiguratorNode.unapplied (n : ThreadConfiguratorNode) : Nat :=
  n.callbackGroupConfigs.countP (fun c => !c.applied) +
    n.nonRosThreadConfigs.countP (fun c => !c.applied)

section

variable {n : ThreadConfiguratorNode} {i : Nat} {f : ThreadConfig → ThreadConfig}

theorem NodeOk.changeCallbackGroup (h : NodeOk n) (hkey : ∀ c, (f c).key = c.key)
    (hok : CallbackGroupsOk (n.callbackGroupConfigs.modify i f)) :
    NodeOk (n.changeCallbackGroup i f) where
  exactIndex := by
    show n.idToCallbackGroupConfig = places ((n.callbackGroupConfigs.modify i f).map _)
    rw [map_modify fun c => ThreadConfig.exactKey_congr (hkey c), h.exactIndex]
  wildcardIndex := by
    show n.nodeToWildcardConfig = places ((n.callbackGroupConfigs.modify i f).map _)
    rw [map_modify fun c => ThreadConfig.wildcardKey_congr (hkey c), h.wildcardIndex]
  nonRosIndex := h.nonRosIndex
  callbackGroups := hok
  names := h.names

theorem NodeOk.changeNonRosThread (h : NodeOk n) (hname : ∀ c, (f c).threadStr = c.threadStr) :
    NodeOk (n.changeNonRosThread i f) where
  exactIndex := h.exactIndex
  wildcardIndex := h.wildcardIndex
  nonRosIndex := by
    show n.idToNonRosThreadConfig = places ((n.nonRosThreadConfigs.modify i f).map _)
    rw [map_modify (g := ThreadConfig.nameKey) fun c => congrArg some (hname c), h.nonRosIndex]
  callbackGroups := h.callbackGroups
  names := by
    show ((n.nonRosThreadConfigs.modify i f).map ThreadConfig.threadStr).Nodup
    rw [map_modify hname]
    exact h.names

theorem NodeOk.countDown (h : NodeOk n) : NodeOk n.countDown :=
  ⟨h.exactIndex, h.wildcardIndex, h.nonRosIndex, h.callbackGroups, h.names⟩

theorem unapplied_changeCallbackGroup (happlied : ∀ c, (f c).applied = c.applied) :
    (n.changeCallbackGroup i f).unapplied = n.unapplied := by
  unfold ThreadConfiguratorNode.unapplied
  congr 1
  exact countP_modify_of_eq (fun c => by rw [happlied]) _ _

theorem unapplied_changeNonRosThread (happlied : ∀ c, (f c).applied = c.applied) :
    (n.changeNonRosThread i f).unapplied = n.unapplied := by
  unfold ThreadConfiguratorNode.unapplied
  congr 1
  exact countP_modify_of_eq (fun c => by rw [happlied]) _ _

/-- **One less is not applied** once an entry is marked that was not. -/
theorem unapplied_markCallbackGroup {c : ThreadConfig} (hc : n.callbackGroupConfigs[i]? = some c)
    (happlied : c.applied = false) :
    (n.changeCallbackGroup i ThreadConfig.markApplied).unapplied + 1 = n.unapplied := by
  have hcount : (n.callbackGroupConfigs.modify i ThreadConfig.markApplied).countP
      (fun c => !c.applied) + 1 = n.callbackGroupConfigs.countP fun c => !c.applied :=
    countP_modify hc (by simp [happlied]) rfl
  show (n.callbackGroupConfigs.modify i ThreadConfig.markApplied).countP (fun c => !c.applied) +
    n.nonRosThreadConfigs.countP (fun c => !c.applied) + 1 = _
  unfold ThreadConfiguratorNode.unapplied
  omega

theorem unapplied_markNonRosThread {c : ThreadConfig} (hc : n.nonRosThreadConfigs[i]? = some c)
    (happlied : c.applied = false) :
    (n.changeNonRosThread i ThreadConfig.markApplied).unapplied + 1 = n.unapplied := by
  have hcount : (n.nonRosThreadConfigs.modify i ThreadConfig.markApplied).countP
      (fun c => !c.applied) + 1 = n.nonRosThreadConfigs.countP fun c => !c.applied :=
    countP_modify hc (by simp [happlied]) rfl
  show n.callbackGroupConfigs.countP (fun c => !c.applied) +
    (n.nonRosThreadConfigs.modify i ThreadConfig.markApplied).countP (fun c => !c.applied) + 1 = _
  unfold ThreadConfiguratorNode.unapplied
  omega

end

/-! ## Announcements -/

section

variable {n : ThreadConfiguratorNode}

/-- What `callback_group_callback` does before the system calls. -/
inductive AnnounceOutcome (n : ThreadConfiguratorNode) (domainId : Nat) (id : Name) (tid : Int) :
    Option Nat × ThreadConfiguratorNode → Prop
  | unknown (hexact : Dict.get n.idToCallbackGroupConfig (domainId, id) = none)
      (hwildcard : Dict.get n.nodeToWildcardConfig (domainId, extractNodePart id) = none) :
      AnnounceOutcome n domainId id tid (none, n)
  | exact {i : Nat} (hexact : Dict.get n.idToCallbackGroupConfig (domainId, id) = some i)
      (hwildcard : Dict.get n.nodeToWildcardConfig (domainId, extractNodePart id) = none) :
      AnnounceOutcome n domainId id tid (some i, n.changeCallbackGroup i (·.record id tid))
  | moved {i w : Nat} (hexact : Dict.get n.idToCallbackGroupConfig (domainId, id) = some i)
      (hwildcard : Dict.get n.nodeToWildcardConfig (domainId, extractNodePart id) = some w) :
      AnnounceOutcome n domainId id tid
        (some i, (n.changeCallbackGroup w (·.forget id)).changeCallbackGroup i (·.record id tid))
  | wildcard {w : Nat} (hexact : Dict.get n.idToCallbackGroupConfig (domainId, id) = none)
      (hwildcard : Dict.get n.nodeToWildcardConfig (domainId, extractNodePart id) = some w) :
      AnnounceOutcome n domainId id tid (some w, n.changeCallbackGroup w (·.record id tid))

theorem callbackGroupCallback_outcome (n : ThreadConfiguratorNode) (domainId : Nat) (id : Name)
    (tid : Int) : AnnounceOutcome n domainId id tid (n.callbackGroupCallback domainId id tid) := by
  unfold ThreadConfiguratorNode.callbackGroupCallback
  cases hexact : Dict.get n.idToCallbackGroupConfig (domainId, id) with
  | some i =>
    cases hwildcard : Dict.get n.nodeToWildcardConfig (domainId, extractNodePart id) with
    | some w => exact .moved hexact hwildcard
    | none => exact .exact hexact hwildcard
  | none =>
    cases hwildcard : Dict.get n.nodeToWildcardConfig (domainId, extractNodePart id) with
    | some w => exact .wildcard hexact hwildcard
    | none => exact .unknown hexact hwildcard

theorem exact_of_get (h : NodeOk n) {domainId : Nat} {id : Name} {i : Nat}
    (hget : Dict.get n.idToCallbackGroupConfig (domainId, id) = some i) :
    ∃ c, n.callbackGroupConfigs[i]? = some c ∧ c.isWildcard = false ∧ c.domainId = domainId ∧
      c.threadStr = id := by
  rw [h.exactIndex] at hget
  obtain ⟨c, hc, hkey⟩ := of_get_places hget
  obtain ⟨hexact, hkey⟩ := ThreadConfig.exactKey_eq_some.mp hkey
  obtain ⟨hd, hstr⟩ := Prod.mk.inj hkey
  exact ⟨c, hc, hexact, hd, hstr⟩

theorem wildcard_of_get (h : NodeOk n) {domainId : Nat} {node : Name} {w : Nat}
    (hget : Dict.get n.nodeToWildcardConfig (domainId, node) = some w) :
    ∃ c, n.callbackGroupConfigs[w]? = some c ∧ c.isWildcard = true ∧ c.domainId = domainId ∧
      c.wildcardPrefix = node := by
  rw [h.wildcardIndex] at hget
  obtain ⟨c, hc, hkey⟩ := of_get_places hget
  unfold ThreadConfig.wildcardKey at hkey
  split at hkey
  · next hwild =>
    obtain ⟨hd, hpart⟩ := Prod.mk.inj (Option.some.inj hkey)
    exact ⟨c, hc, hwild, hd, hpart⟩
  · cases hkey

/-- An index that finds nothing for a node has no wildcard entry that tracks one of its groups. -/
private theorem not_tracked (h : NodeOk n) {domainId : Nat} {id : Name}
    (hget : Dict.get n.nodeToWildcardConfig (domainId, extractNodePart id) = none) :
    ∀ w ∈ n.callbackGroupConfigs, w.isWildcard = true → w.domainId = domainId →
      id ∉ w.instances := by
  rintro w hw hwild rfl hid
  rw [h.wildcardIndex, get_places_eq_none] at hget
  refine hget w hw ?_
  unfold ThreadConfig.wildcardKey
  rw [if_pos hwild, h.callbackGroups.prefixes w hw hwild id hid]

/-- **An announcement** leaves the entries in order, and what is not applied. -/
theorem callbackGroupCallback_ok (h : NodeOk n) (domainId : Nat) (id : Name) (tid : Int) :
    NodeOk (n.callbackGroupCallback domainId id tid).2 ∧
      (n.callbackGroupCallback domainId id tid).2.unapplied = n.unapplied ∧
      (n.callbackGroupCallback domainId id tid).2.unappliedNum = n.unappliedNum := by
  have hrecord := record_applied id tid
  have houtcome := callbackGroupCallback_outcome n domainId id tid
  generalize n.callbackGroupCallback domainId id tid = outcome at houtcome
  cases houtcome with
  | unknown hexact hwildcard => exact ⟨h, rfl, rfl⟩
  | @exact i hexact hwildcard =>
    obtain ⟨c, hc, hnot, rfl, rfl⟩ := exact_of_get h hexact
    refine ⟨h.changeCallbackGroup (record_key _ tid) ?_, unapplied_changeCallbackGroup hrecord, rfl⟩
    exact h.callbackGroups.recordExact hc hnot (not_tracked h hwildcard) _ tid
  | @moved i w hexact hwildcard =>
    have hforgotten : NodeOk (n.changeCallbackGroup w (·.forget id)) :=
      h.changeCallbackGroup (forget_key id) (h.callbackGroups.forget w id)
    obtain ⟨c, hc, hnot, rfl, rfl⟩ := exact_of_get hforgotten hexact
    refine ⟨hforgotten.changeCallbackGroup (record_key _ tid) ?_, ?_, rfl⟩
    · refine hforgotten.callbackGroups.recordExact hc hnot (fun w' hw' hwild hd hid => ?_) _ tid
      -- an entry that tracks it is the one at `w`, and that one has forgotten it
      obtain ⟨j, hj⟩ := List.mem_iff_getElem?.mp hw'
      have hkey : w'.wildcardKey = some (c.domainId, extractNodePart c.threadStr) := by
        unfold ThreadConfig.wildcardKey
        rw [if_pos hwild, hd, hforgotten.callbackGroups.prefixes w' hw' hwild _ hid]
      have hplace : Dict.get (n.changeCallbackGroup w (·.forget c.threadStr)).nodeToWildcardConfig
          (c.domainId, extractNodePart c.threadStr) = some j := by
        rw [hforgotten.wildcardIndex]
        exact (get_places_eq_some_iff (distinct_wildcardKey hforgotten.callbackGroups.keys)).mpr
          ⟨w', hj, hkey⟩
      obtain rfl := Option.some.inj (hplace.symm.trans hwildcard)
      rcases getElem?_modify_eq_some hj with ⟨hne, _⟩ | ⟨w₀, _, _, rfl⟩
      · exact hne rfl
      · exact (mem_instances_forget.mp hid).1 rfl
    · rw [unapplied_changeCallbackGroup hrecord, unapplied_changeCallbackGroup (forget_applied _)]
  | @wildcard w hexact hwildcard =>
    obtain ⟨c, hc, hwild, rfl, hpart⟩ := wildcard_of_get h hwildcard
    refine ⟨h.changeCallbackGroup (record_key id tid) ?_, unapplied_changeCallbackGroup hrecord, rfl⟩
    refine h.callbackGroups.recordWildcard hc hwild hpart.symm (fun c' hc' hnot hd heq => ?_) tid
    rw [h.exactIndex, get_places_eq_none] at hexact
    refine hexact c' hc' (ThreadConfig.exactKey_eq_some.mpr ⟨hnot, ?_⟩)
    unfold ThreadConfig.key
    rw [hd, heq]

/-- What `non_ros_thread_callback` does. -/
inductive NonRosOutcome (n : ThreadConfiguratorNode) (name : Name) (tid : Int) :
    ThreadConfiguratorNode → Prop
  | unknown (hname : Dict.get n.idToNonRosThreadConfig name = none) : NonRosOutcome n name tid n
  | noted {i : Nat} (hname : Dict.get n.idToNonRosThreadConfig name = some i) :
      NonRosOutcome n name tid (n.changeNonRosThread i (·.setThreadId tid))
  | applied {i : Nat} (hname : Dict.get n.idToNonRosThreadConfig name = some i) {c : ThreadConfig}
      (hc : (n.changeNonRosThread i (·.setThreadId tid)).nonRosThreadConfigs[i]? = some c)
      (happlied : c.applied = false) :
      NonRosOutcome n name tid ((n.changeNonRosThread i (·.setThreadId tid)).changeNonRosThread i
        ThreadConfig.markApplied).countDown

theorem nonRosThreadCallback_outcome (n : ThreadConfiguratorNode) (name : Name) (tid : Int)
    (succeeds : Syscall → Bool) :
    NonRosOutcome n name tid (n.nonRosThreadCallback name tid succeeds) := by
  unfold ThreadConfiguratorNode.nonRosThreadCallback
  cases hname : Dict.get n.idToNonRosThreadConfig name with
  | none => exact .unknown hname
  | some i =>
    dsimp only
    split
    · exact .noted hname
    next config hconfig =>
    split
    · exact .noted hname
    split
    · next happlied => exact .applied hname hconfig (by simpa using happlied)
    · exact .noted hname

/-- **An announcement of a non-ROS thread** keeps the counter in step. -/
theorem nonRosThreadCallback_ok (h : NodeOk n) (name : Name) (tid : Int)
    (succeeds : Syscall → Bool) :
    NodeOk (n.nonRosThreadCallback name tid succeeds) ∧
      (n.nonRosThreadCallback name tid succeeds).callbackGroupConfigs = n.callbackGroupConfigs ∧
      (n.nonRosThreadCallback name tid succeeds).unappliedNum -
          (n.nonRosThreadCallback name tid succeeds).unapplied =
        n.unappliedNum - n.unapplied := by
  have houtcome := nonRosThreadCallback_outcome n name tid succeeds
  generalize n.nonRosThreadCallback name tid succeeds = n' at houtcome
  cases houtcome with
  | unknown hname => exact ⟨h, rfl, rfl⟩
  | @noted i hname =>
    refine ⟨h.changeNonRosThread (setThreadId_threadStr tid), rfl, ?_⟩
    rw [unapplied_changeNonRosThread (setThreadId_applied tid)]
    rfl
  | @applied i hname c hc happlied =>
    refine ⟨((h.changeNonRosThread (setThreadId_threadStr tid)).changeNonRosThread
      markApplied_threadStr).countDown, rfl, ?_⟩
    have hmark := unapplied_markNonRosThread hc happlied
    rw [unapplied_changeNonRosThread (setThreadId_applied tid)] at hmark
    show n.unappliedNum - 1 - (ThreadConfiguratorNode.unapplied ((n.changeNonRosThread i
      (·.setThreadId tid)).changeNonRosThread i ThreadConfig.markApplied) : Int) = _
    omega

end

/-! ## Reapply requests -/

section

variable {n : ThreadConfiguratorNode}

theorem carryOver_key (n : ThreadConfiguratorNode) (c : ThreadConfig) :
    (n.carryOver c).key = c.key := by
  unfold ThreadConfiguratorNode.carryOver
  split <;> split <;> rfl

theorem carryOver_applied (n : ThreadConfiguratorNode) (c : ThreadConfig) :
    (n.carryOver c).applied = c.applied := by
  unfold ThreadConfiguratorNode.carryOver
  split <;> split <;> rfl

theorem carryOverNonRos_threadStr (n : ThreadConfiguratorNode) (c : ThreadConfig) :
    (n.carryOverNonRos c).threadStr = c.threadStr := by
  unfold ThreadConfiguratorNode.carryOverNonRos
  split <;> rfl

theorem carryOverNonRos_applied (n : ThreadConfiguratorNode) (c : ThreadConfig) :
    (n.carryOverNonRos c).applied = c.applied := by
  unfold ThreadConfiguratorNode.carryOverNonRos
  split <;> rfl

theorem map_key_carryOver (n : ThreadConfiguratorNode) (newCb : List ThreadConfig) :
    (newCb.map n.carryOver).map ThreadConfig.key = newCb.map ThreadConfig.key := by
  rw [List.map_map]
  exact List.map_congr_left fun c _ => carryOver_key n c

theorem map_name_carryOver (n : ThreadConfiguratorNode) (newNrt : List ThreadConfig) :
    (newNrt.map n.carryOverNonRos).map ThreadConfig.threadStr =
      newNrt.map ThreadConfig.threadStr := by
  rw [List.map_map]
  exact List.map_congr_left fun c _ => carryOverNonRos_threadStr n c

/-- **Carrying over** lets no entry track what it did not. -/
theorem carryOver_ok (h : NodeOk n) {newCb : List ThreadConfig} (hfresh : ∀ c ∈ newCb, c.Fresh)
    (hkeys : (newCb.map ThreadConfig.key).Nodup) : CallbackGroupsOk (newCb.map n.carryOver) := by
  refine h.callbackGroups.of_tracks ?_ (fun c hc hnot => ?_) fun w hw hwild id hid => ?_
  · rwa [map_key_carryOver]
  · obtain ⟨c, hmem, rfl⟩ := List.mem_map.mp hc
    rw [(ThreadConfig.isWildcard_congr (carryOver_key n c)).1] at hnot
    rw [carryOver_key]
    unfold ThreadConfiguratorNode.carryOver
    rw [hnot, if_neg (by simp)]
    cases hold : n.exactConfig (c.domainId, c.threadStr) with
    | none => exact .inl (hfresh c hmem).threadId
    | some old =>
      unfold ThreadConfiguratorNode.exactConfig at hold
      rw [h.exactIndex, lookup_eq_some_iff (distinct_exactKey h.callbackGroups.keys)] at hold
      exact .inr ⟨old, hold.1, (ThreadConfig.exactKey_eq_some.mp hold.2).2, rfl⟩
  · obtain ⟨c, hmem, rfl⟩ := List.mem_map.mp hw
    rw [(ThreadConfig.isWildcard_congr (carryOver_key n c)).1] at hwild
    rw [carryOver_key]
    unfold ThreadConfiguratorNode.carryOver at hid
    rw [hwild, if_pos rfl] at hid
    cases hold : n.wildcardConfig (c.domainId, c.wildcardPrefix) with
    | none =>
      rw [hold] at hid
      unfold ThreadConfig.instances at hid
      rw [(hfresh c hmem).matchedTids] at hid
      cases hid
    | some old =>
      rw [hold] at hid
      unfold ThreadConfiguratorNode.wildcardConfig at hold
      rw [h.wildcardIndex, lookup_eq_some_iff (distinct_wildcardKey h.callbackGroups.keys)] at hold
      refine ⟨old, hold.1, ?_, hid⟩
      rw [(ThreadConfig.wildcardKey_eq_some.mp hold.2).2]
      unfold ThreadConfig.key
      rw [ThreadConfig.threadStr_eq hwild]

theorem NodeOk.setCallbackGroups (h : NodeOk n) {configs : List ThreadConfig}
    (hok : CallbackGroupsOk configs) : NodeOk (n.setCallbackGroups configs) :=
  ⟨rfl, rfl, h.nonRosIndex, hok, h.names⟩

theorem NodeOk.setNonRosThreads (h : NodeOk n) {configs : List ThreadConfig}
    (hnames : (configs.map ThreadConfig.threadStr).Nodup) : NodeOk (n.setNonRosThreads configs) :=
  ⟨h.exactIndex, h.wildcardIndex, rfl, h.callbackGroups, hnames⟩

private theorem countP_unapplied {l : List ThreadConfig} (h : ∀ c ∈ l, c.applied = false) :
    l.countP (fun c => !c.applied) = l.length :=
  List.countP_eq_length.mpr fun c hc => by simp [h c hc]

/-- **The loop over the non-ROS threads** counts down once for each entry that it marks. -/
theorem applyNonRosThreads_spec (succeeds : Nat → Syscall → Bool) (i : Nat)
    (configs : List ThreadConfig) (response : ReapplyResponse) :
    let outcome := applyNonRosThreads succeeds i configs response
    outcome.1.map (fun c => (c.threadStr, c.threadId)) =
        configs.map (fun c => (c.threadStr, c.threadId)) ∧
      outcome.1.countP (fun c => !c.applied) + outcome.2.1 =
        configs.countP fun c => !c.applied := by
  induction configs generalizing i response with
  | nil => exact ⟨rfl, rfl⟩
  | cons config rest ih =>
    -- an entry that stays as it is
    have hkept (r : ReapplyResponse) :
        let outcome := applyNonRosThreads succeeds (i + 1) rest r
        (config :: outcome.1).map (fun c => (c.threadStr, c.threadId)) =
            (config :: rest).map (fun c => (c.threadStr, c.threadId)) ∧
          (config :: outcome.1).countP (fun c => !c.applied) + outcome.2.1 =
            (config :: rest).countP fun c => !c.applied := by
      obtain ⟨hmap, hcount⟩ := ih (i + 1) r
      refine ⟨?_, ?_⟩
      · rw [List.map_cons, List.map_cons, hmap]
      · rw [List.countP_cons, List.countP_cons, ← hcount]
        omega
    unfold applyNonRosThreads
    split
    · exact hkept _
    split
    · split
      · next happlied =>
        obtain ⟨hmap, hcount⟩ := ih (i + 1) { response with
          appliedNonRosThreads := response.appliedNonRosThreads ++ [config.threadStr] }
        refine ⟨?_, ?_⟩
        · rw [List.map_cons, List.map_cons, hmap]
          rfl
        · have hcons : (config :: rest).countP (fun c => !c.applied) =
              rest.countP (fun c => !c.applied) + 1 := List.countP_cons_of_pos happlied
          have hmarked (l : List ThreadConfig) : (config.markApplied :: l).countP
              (fun c => !c.applied) = l.countP fun c => !c.applied :=
            List.countP_cons_of_neg (by simp [ThreadConfig.markApplied])
          rw [hcons, ← hcount]
          dsimp only
          rw [hmarked]
          rfl
      · exact hkept _
    · exact hkept _

end

/-! ## The counter -/

/-- How the counter stands to what is not applied, wherever the executor has come to. -/
def Counted (n : ThreadConfiguratorNode) : ConfiguratorPlace → Prop
  | .spinning => n.unappliedNum = n.unapplied
  | .recorded _ _ => n.unappliedNum = n.unapplied
  | .marked => n.unappliedNum = n.unapplied + 1
  | .swapped newNrt _ _ => (∀ c ∈ newNrt, c.Fresh) ∧
      (newNrt.map ThreadConfig.threadStr).Nodup ∧ ∀ c ∈ n.callbackGroupConfigs, c.applied = false
  | .applying i _ => n.unappliedNum = n.unapplied ∧
      ∀ j c, i ≤ j → n.callbackGroupConfigs[j]? = some c → c.applied = false
  | .applyingMarked i _ => n.unappliedNum = n.unapplied + 1 ∧
      ∀ j c, i < j → n.callbackGroupConfigs[j]? = some c → c.applied = false
  | .appliedNonRos _ => n.unappliedNum = n.unapplied

/-- The invariant of the node and its executor. -/
structure ConfiguratorOk (s : Configurator) : Prop where
  node : NodeOk s.node
  counted : Counted s.node s.place

/-- What the other thread does that keeps the counter in step keeps it for every place. -/
theorem Counted.of_same {n n' : ThreadConfiguratorNode} {place : ConfiguratorPlace}
    (h : Counted n place) (hgroups : n'.callbackGroupConfigs = n.callbackGroupConfigs)
    (hnum : n'.unappliedNum - n'.unapplied = n.unappliedNum - n.unapplied) : Counted n' place := by
  cases place with
  | spinning =>
    change n.unappliedNum = n.unapplied at h
    show n'.unappliedNum = n'.unapplied
    omega
  | recorded index tid =>
    change n.unappliedNum = n.unapplied at h
    show n'.unappliedNum = n'.unapplied
    omega
  | marked =>
    change n.unappliedNum = n.unapplied + 1 at h
    show n'.unappliedNum = n'.unapplied + 1
    omega
  | swapped newNrt newKernelThreads newIrqs => exact ⟨h.1, h.2.1, hgroups ▸ h.2.2⟩
  | applying i response =>
    refine ⟨?_, hgroups ▸ h.2⟩
    have hcount := h.1
    omega
  | applyingMarked i response =>
    refine ⟨?_, hgroups ▸ h.2⟩
    have hcount := h.1
    omega
  | appliedNonRos response =>
    change n.unappliedNum = n.unapplied at h
    show n'.unappliedNum = n'.unapplied
    omega

/-! ## Runs -/

section

variable {asInt : Name → Option Int} {asUnsigned : Name → Option Nat} {cpus defaultDomainId : Nat}
  {configFile : Name}

theorem parseAll_fresh {yaml : Yaml} {cb nrt : List ThreadConfig}
    {kernelThreads : List KernelThreadConfig} {irqs : List IrqConfig}
    (h : parseAll asInt asUnsigned cpus defaultDomainId yaml =
      .ok (cb, nrt, kernelThreads, irqs)) : FreshConfigs cb nrt := by
  unfold parseAll at h
  cases hyaml : parseYaml asInt asUnsigned cpus defaultDomainId yaml with
  | error what =>
    rw [hyaml] at h
    cases h
  | ok lists =>
    rw [hyaml] at h
    cases hkernel : parseKernelThreads asInt cpus yaml.entries with
    | error what =>
      rw [hkernel] at h
      cases h
    | ok newKernelThreads =>
      rw [hkernel] at h
      cases hirqs : parseIrqs asInt cpus yaml.entries with
      | error what =>
        rw [hirqs] at h
        cases h
      | ok newIrqs =>
        rw [hirqs] at h
        cases h
        exact parseYaml_fresh hyaml

theorem configuratorOk_construct {cb nrt : List ThreadConfig} (h : FreshConfigs cb nrt)
    (kernelThreads : List KernelThreadConfig) (irqs : List IrqConfig) :
    ConfiguratorOk ⟨.construct cb nrt kernelThreads irqs, .spinning⟩ := by
  refine ⟨⟨rfl, rfl, rfl, ⟨h.keys, fun w hw _ id hid => ?_, fun c hc _ _ _ _ _ _ => ?_⟩, h.names⟩, ?_⟩
  · unfold ThreadConfig.instances at hid
    rw [(h.callbackGroups w hw).matchedTids] at hid
    cases hid
  · exact (h.callbackGroups c hc).threadId
  · show (cb.length + nrt.length : Int) =
      (cb.countP (fun c => !c.applied) + nrt.countP (fun c => !c.applied) : Nat)
    rw [countP_unapplied fun c hc => (h.callbackGroups c hc).applied,
      countP_unapplied fun c hc => (h.nonRosThreads c hc).applied]
    push_cast
    rfl

/-- The new lists are in force, nothing of them is applied yet, and the counter starts again. -/
private theorem swapped_ok {n : ThreadConfiguratorNode} (hnode : NodeOk n)
    {newNrt : List ThreadConfig} {newKernelThreads : List KernelThreadConfig}
    {newIrqs : List IrqConfig} (hcounted : Counted n (.swapped newNrt newKernelThreads newIrqs))
    (succeeds : Nat → Syscall → Bool) (m : Machine) :
    ConfiguratorOk
      (Configurator.proceed ⟨n, .swapped newNrt newKernelThreads newIrqs⟩ succeeds m).2 := by
  obtain ⟨hfresh, hnames, hgroups⟩ := hcounted
  have hset : NodeOk (n.setNonRosThreads (newNrt.map n.carryOverNonRos)) :=
    hnode.setNonRosThreads (by rwa [map_name_carryOver])
  have hnrt : ∀ c ∈ newNrt.map n.carryOverNonRos, c.applied = false := by
    intro c hc
    obtain ⟨c, hmem, rfl⟩ := List.mem_map.mp hc
    rw [carryOverNonRos_applied, (hfresh c hmem).applied]
  refine ⟨⟨hset.exactIndex, hset.wildcardIndex, hset.nonRosIndex, hset.callbackGroups, hset.names⟩,
    ?_, fun j c _ hc => hgroups c (List.mem_of_getElem? hc)⟩
  show (n.callbackGroupConfigs.length + (newNrt.map n.carryOverNonRos).length : Int) =
    (n.callbackGroupConfigs.countP (fun c => !c.applied) +
      (newNrt.map n.carryOverNonRos).countP (fun c => !c.applied) : Nat)
  rw [countP_unapplied hgroups, countP_unapplied hnrt]
  push_cast
  rfl

/-- The reapply goes over the next callback group, or over all other threads when there is none. -/
private theorem applying_ok {n : ThreadConfiguratorNode} (hnode : NodeOk n) {index : Nat}
    {response : ReapplyResponse} (hcounted : Counted n (.applying index response))
    (succeeds : Nat → Syscall → Bool) (m : Machine) :
    ConfiguratorOk (Configurator.proceed ⟨n, .applying index response⟩ succeeds m).2 := by
  obtain ⟨hnum, hlater⟩ := hcounted
  unfold Configurator.proceed
  dsimp only
  split
  · next config hconfig =>
    generalize applyCallbackGroup succeeds config response = outcome
    obtain ⟨applied, response'⟩ := outcome
    dsimp only
    split
    · refine ⟨hnode.changeCallbackGroup markApplied_key
        (hnode.callbackGroups.markApplied index), ?_, fun j c hj hc => ?_⟩
      -- the entry is marked, and the counter follows in the next step
      · have hmark := unapplied_markCallbackGroup hconfig
          (hlater index config (Nat.le_refl index) hconfig)
        show n.unappliedNum = (n.changeCallbackGroup index ThreadConfig.markApplied).unapplied + 1
        omega
      · rcases getElem?_modify_eq_some hc with ⟨_, hc⟩ | ⟨_, _, heq, _⟩
        · exact hlater j c (Nat.le_of_lt hj) hc
        · omega
    · exact ⟨hnode, hnum, fun j c hj hc => hlater j c (by omega) hc⟩
  · obtain ⟨hmap, hcount⟩ := applyNonRosThreads_spec succeeds 0 n.nonRosThreadConfigs response
    generalize applyNonRosThreads succeeds 0 n.nonRosThreadConfigs response = outcome at hmap hcount
    obtain ⟨configs, count, response'⟩ := outcome
    dsimp only at hmap hcount ⊢
    -- the pass over the other threads changes neither names nor keys
    have hnames : configs.map ThreadConfig.threadStr =
        n.nonRosThreadConfigs.map ThreadConfig.threadStr := by
      have hfst := congrArg (List.map Prod.fst) hmap
      rwa [List.map_map, List.map_map] at hfst
    have hindex : configs.map ThreadConfig.nameKey =
        n.nonRosThreadConfigs.map ThreadConfig.nameKey := by
      have hsome := congrArg (List.map some) hnames
      rwa [List.map_map, List.map_map] at hsome
    refine ⟨⟨hnode.exactIndex, hnode.wildcardIndex, hindex ▸ hnode.nonRosIndex,
      hnode.callbackGroups, hnames ▸ hnode.names⟩, ?_⟩
    show n.unappliedNum - count = (n.callbackGroupConfigs.countP (fun c => !c.applied) +
      configs.countP (fun c => !c.applied) : Nat)
    rw [hnum]
    unfold ThreadConfiguratorNode.unapplied
    omega

/-- The executor's own step. -/
theorem proceed_ok {s : Configurator} (hs : ConfiguratorOk s) (succeeds : Nat → Syscall → Bool)
    (m : Machine) : ConfiguratorOk (s.proceed succeeds m).2 := by
  obtain ⟨n, place⟩ := s
  obtain ⟨hnode, hcounted⟩ := hs
  dsimp only at hnode hcounted
  cases place with
  | spinning => exact ⟨hnode, hcounted⟩
  | recorded index tid =>
    unfold Configurator.proceed
    dsimp only
    split
    · exact ⟨hnode, hcounted⟩
    next config hconfig =>
    split
    · exact ⟨hnode, hcounted⟩
    split
    · next happlied =>
      refine ⟨hnode.changeCallbackGroup markApplied_key (hnode.callbackGroups.markApplied index), ?_⟩
      -- marked, but not counted yet
      have hmark := unapplied_markCallbackGroup hconfig (by simpa using happlied)
      change n.unappliedNum = n.unapplied at hcounted
      show n.unappliedNum = (n.changeCallbackGroup index ThreadConfig.markApplied).unapplied + 1
      omega
    · exact ⟨hnode, hcounted⟩
  | marked =>
    refine ⟨hnode.countDown, ?_⟩
    -- the counter follows
    change n.unappliedNum = n.unapplied + 1 at hcounted
    show n.unappliedNum - 1 = n.unapplied
    omega
  | swapped newNrt newKernelThreads newIrqs => exact swapped_ok hnode hcounted succeeds m
  | applying index response => exact applying_ok hnode hcounted succeeds m
  | applyingMarked index response =>
    obtain ⟨hnum, hlater⟩ := hcounted
    refine ⟨⟨hnode.exactIndex, hnode.wildcardIndex, hnode.nonRosIndex, hnode.callbackGroups,
      hnode.names⟩, ?_, fun j c hj hc => hlater j c hj hc⟩
    show n.unappliedNum - 1 = n.unapplied
    omega
  | appliedNonRos response => exact ⟨hnode, hcounted⟩

/-- **One step** keeps the invariant. -/
theorem ConfiguratorOk.step {s : Configurator} (hs : ConfiguratorOk s) (i : ConfiguratorInput) :
    ConfiguratorOk (s.step asInt asUnsigned cpus defaultDomainId configFile i).2 := by
  cases i with
  | nonRosThread name tid succeeds =>
    obtain ⟨hnode, hgroups, hnum⟩ := nonRosThreadCallback_ok hs.node name tid succeeds
    exact ⟨hnode, hs.counted.of_same hgroups hnum⟩
  | callbackGroup domainId id tid =>
    obtain ⟨n, place⟩ := s
    cases place with
    | spinning =>
      obtain ⟨hnode, hunapplied, hnum⟩ := callbackGroupCallback_ok hs.node domainId id tid
      have hcounted : n.unappliedNum = n.unapplied := hs.counted
      unfold Configurator.step Configurator.take
      dsimp only
      generalize n.callbackGroupCallback domainId id tid = outcome at hnode hunapplied hnum
      obtain ⟨index?, n'⟩ := outcome
      dsimp only at hnode hunapplied hnum
      have hcounted' : n'.unappliedNum = n'.unapplied := by rw [hnum, hunapplied, hcounted]
      cases index? with
      | none => exact ⟨hnode, hcounted'⟩
      | some index => exact ⟨hnode, hcounted'⟩
    | _ => exact hs
  | reapplyConfig file =>
    obtain ⟨n, place⟩ := s
    cases place with
    | spinning =>
      unfold Configurator.step Configurator.take
      dsimp only
      unfold Configurator.onReapplyConfigRequest
      split
      · exact hs
      next yaml =>
      split
      · exact hs
      next newCb newNrt newKernelThreads newIrqs hparse =>
      have hfresh := parseAll_fresh hparse
      -- the new entries are in force from here on; none of them has been applied
      refine ⟨hs.node.setCallbackGroups (carryOver_ok hs.node hfresh.callbackGroups hfresh.keys),
        hfresh.nonRosThreads, hfresh.names, fun c hc => ?_⟩
      obtain ⟨c, hmem, rfl⟩ := List.mem_map.mp hc
      rw [carryOver_applied, (hfresh.callbackGroups c hmem).applied]
    | _ => exact hs
  | proceed succeeds m => exact proceed_ok hs succeeds m

theorem configuratorOk_of_reachable {s : Configurator}
    (h : Transition.Reachable (threadConfigurator asInt asUnsigned cpus defaultDomainId configFile) s) :
    ConfiguratorOk s := by
  refine h.invariant (fun s hinit => ?_) fun s i _ hs => hs.step i
  obtain ⟨yaml, cb, nrt, kernelThreads, irqs, hparse, rfl⟩ := hinit
  exact configuratorOk_construct (parseAll_fresh hparse) kernelThreads irqs

end

end Agnocast
