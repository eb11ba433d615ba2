import Agnocast.ThreadConfigurator.KnownTids

/-!
# The thread configurator — exact entries take precedence

On an announcement `callback_group_callback` looks the entry up; a reapply goes over the entries and
the threads that each of them knows. What it knows has been carried over from configurations before.

* `selectEntry`            — the entry that the precedence selects in a configuration.
* `configurationInForce`, `lastAnnouncement` — what a run says of the configuration and of a group.
* `applications`           — the attributes that a step applies, and to which threads.
* `applyCallbackGroup_known` — a reapply answers for exactly the threads that an entry knows.
* `Heard`                  — the invariant: what an entry knows was announced last, and by a wildcard
  entry when there was no exact one.
* `exact_precedence`       — what is applied is selected, but for an exact entry that is newer than
  the last announcement.
* `wildcard_applied_to_exact` — a reapply that adds such an entry.
-/

namespace Agnocast

open Transition Index

/-! ## The precedence -/

/-- The exact entry of a callback group. -/
def exactEntry (configs : List ThreadConfig) (domainId : Nat) (id : Name) : Option ThreadConfig :=
  configs.find? fun c => c.exactKey = some (domainId, id)

/-- The wildcard entry of its node. -/
def wildcardEntryOf (configs : List ThreadConfig) (domainId : Nat) (id : Name) :
    Option ThreadConfig :=
  configs.find? fun c => c.wildcardKey = some (domainId, extractNodePart id)

/-- The entry that the precedence selects. -/
def selectEntry (configs : List ThreadConfig) (domainId : Nat) (id : Name) : Option ThreadConfig :=
  (exactEntry configs domainId id).or (wildcardEntryOf configs domainId id)

/-! ## What a run says -/

/-- A step of the configurator in a run. -/
abbrev ConfiguratorEvent :=
  Transition.Event Configurator ConfiguratorInput (Option ReapplyResponse)

/-- The announcement that the executor takes in a step. -/
def takenAnnouncement (ev : ConfiguratorEvent) : Option (Nat × Name × Int) :=
  match ev.input, ev.pre.place with
  | .callbackGroup domainId id tid, .spinning => some (domainId, id, tid)
  | _, _ => none

/-- The announcement that was taken last. -/
def newestAnnouncement : List ConfiguratorEvent → Option (Nat × Name × Int)
  | [] => none
  | ev :: base => (takenAnnouncement ev).or (newestAnnouncement base)

section

variable (asInt : Name → Option Int) (asUnsigned : Name → Option Nat) (cpus defaultDomainId : Nat)

/-- The callback groups of the configuration that a step accepts. -/
def acceptedConfiguration (ev : ConfiguratorEvent) : Option (List ThreadConfig) :=
  match ev.input, ev.pre.place with
  | .reapplyConfig (.ok yaml), .spinning =>
    match parseAll asInt asUnsigned cpus defaultDomainId yaml with
    | .ok (newCb, _) => some newCb
    | .error _ => none
  | _, _ => none

/-- The callback groups of the configuration in force: of the request that was accepted last, or of
the document that the node was constructed with. -/
def configurationInForce : List ConfiguratorEvent → Configurator → List ThreadConfig
  | [], s => s.node.callbackGroupConfigs
  | ev :: base, _ =>
    (acceptedConfiguration asInt asUnsigned cpus defaultDomainId ev).getD
      (configurationInForce base ev.pre)

/-- The tid of the last announcement of a callback group, and the configuration that was in force. -/
def lastAnnouncement (domainId : Nat) (id : Name) :
    List ConfiguratorEvent → Option (Int × List ThreadConfig)
  | [] => none
  | ev :: base =>
    match takenAnnouncement ev with
    | some (domainId', id', tid) =>
      if domainId' = domainId ∧ id' = id then
        some (tid, configurationInForce asInt asUnsigned cpus defaultDomainId base ev.pre)
      else lastAnnouncement domainId id base
    | none => lastAnnouncement domainId id base

end

/-! ## What is applied -/

/-- Attributes that are applied to the thread of a callback group. -/
structure Application where
  domainId : Nat
  id : Name
  tid : Int
  attrs : SchedAttrs
  deriving DecidableEq

/-- The threads that a reapply goes over at an entry, with their callback groups. -/
def ThreadConfig.known (c : ThreadConfig) : List (Name × Int) :=
  if c.isWildcard then inKeyOrder c.matchedTids
  else if c.threadId = -1 then [] else [(c.threadStr, c.threadId)]

/-- The calls of `issue_syscalls` for callback groups in a step, after the steps before it. -/
def applications (base : List ConfiguratorEvent) (ev : ConfiguratorEvent) : List Application :=
  match ev.input, ev.pre.place with
  | .proceed _ _, .recorded index tid =>
    match ev.pre.node.callbackGroupConfigs[index]?, newestAnnouncement base with
    | some c, some (domainId, id, _) => [⟨domainId, id, tid, c.attrs⟩]
    | _, _ => []
  | .proceed _ _, .applying index _ =>
    match ev.pre.node.callbackGroupConfigs[index]? with
    | some c => c.known.map fun e => ⟨c.domainId, e.1, e.2, c.attrs⟩
    | none => []
  | _, _ => []

/-- The loop over the instances answers for each of them. -/
private theorem applyInstances_known (succeeds : Nat → Syscall → Bool) (config : ThreadConfig)
    (i : Nat) (instances : List (Name × Int)) (anyApplied : Bool) (response : ReapplyResponse) :
    ∃ done failed : List (Name × Int), (done ++ failed).Perm instances ∧
      (applyInstances succeeds config i instances anyApplied response).2 =
        { response with
          appliedCallbackGroups := response.appliedCallbackGroups ++
            done.map fun e => callbackGroupKey config.domainId e.1
          failedCallbackGroups := response.failedCallbackGroups ++
            failed.map fun e => callbackGroupKey config.domainId e.1 } := by
  induction instances generalizing i anyApplied response with
  | nil =>
    refine ⟨[], [], .nil, ?_⟩
    simp only [List.map_nil, List.append_nil]
    rfl
  | cons e rest ih =>
    unfold applyInstances
    dsimp only
    split
    -- the calls for the instance succeed
    · obtain ⟨done, failed, hperm, hresponse⟩ := ih (i + 1) true { response with
        appliedCallbackGroups := response.appliedCallbackGroups ++
          [callbackGroupKey config.domainId e.1] }
      refine ⟨e :: done, failed, hperm.cons e, ?_⟩
      rw [hresponse, List.map_cons, List.append_assoc, List.singleton_append]
    · obtain ⟨done, failed, hperm, hresponse⟩ := ih (i + 1) anyApplied { response with
        failedCallbackGroups := response.failedCallbackGroups ++
          [callbackGroupKey config.domainId e.1] }
      refine ⟨done, e :: failed, List.perm_middle.trans (hperm.cons e), ?_⟩
      rw [hresponse, List.map_cons, List.append_assoc, List.singleton_append]

/-- **A reapply answers for the threads that an entry knows**, and for no others. -/
theorem applyCallbackGroup_known (succeeds : Nat → Syscall → Bool) (config : ThreadConfig)
    (response : ReapplyResponse) :
    ∃ done failed : List (Name × Int), (done ++ failed).Perm config.known ∧
      (applyCallbackGroup succeeds config response).2.appliedCallbackGroups =
        response.appliedCallbackGroups ++
          done.map (fun e => callbackGroupKey config.domainId e.1) ∧
      (applyCallbackGroup succeeds config response).2.failedCallbackGroups =
        response.failedCallbackGroups ++
          failed.map fun e => callbackGroupKey config.domainId e.1 := by
  unfold applyCallbackGroup ThreadConfig.known
  dsimp only
  by_cases hwild : config.isWildcard = true
  · rw [if_pos hwild, if_pos hwild]
    -- a wildcard entry without instances answers for nobody
    by_cases hempty : config.matchedTids = []
    · rw [hempty, if_pos (by rfl)]
      exact ⟨[], [], .nil, (List.append_nil _).symm, (List.append_nil _).symm⟩
    · rw [if_neg (by simpa using hempty)]
      obtain ⟨done, failed, hperm, hresponse⟩ :=
        applyInstances_known succeeds config 0 (inKeyOrder config.matchedTids) false response
      rw [hresponse]
      exact ⟨done, failed, hperm, rfl, rfl⟩
  · rw [if_neg hwild, if_neg hwild]
    -- nor does an exact entry that has not been announced
    by_cases hnone : config.threadId = -1
    · rw [if_pos hnone, if_pos hnone]
      exact ⟨[], [], .nil, (List.append_nil _).symm, (List.append_nil _).symm⟩
    · rw [if_neg hnone, if_neg hnone]
      split
      · exact ⟨[_], [], .refl _, rfl, (List.append_nil _).symm⟩
      · exact ⟨[], [_], .refl _, (List.append_nil _).symm, rfl⟩

/-! ## Entries -/

/-- What the parser says of an entry. -/
def ThreadConfig.entry (c : ThreadConfig) : Nat × Name × SchedAttrs :=
  (c.domainId, c.threadStr, c.attrs)

theorem ThreadConfig.key_of_entry {c c' : ThreadConfig} (h : c.entry = c'.entry) :
    c.key = c'.key := by
  obtain ⟨hdomain, hrest⟩ := Prod.mk.inj h
  exact Prod.ext hdomain (Prod.mk.inj hrest).1

theorem ThreadConfig.attrs_of_entry {c c' : ThreadConfig} (h : c.entry = c'.entry) :
    c.attrs = c'.attrs := (Prod.mk.inj (Prod.mk.inj h).2).2

theorem record_entry (id : Name) (tid : Int) (c : ThreadConfig) :
    (c.record id tid).entry = c.entry := by
  unfold ThreadConfig.record
  split <;> rfl

theorem markApplied_entry (c : ThreadConfig) : c.markApplied.entry = c.entry := rfl

theorem forget_entry (id : Name) (c : ThreadConfig) : (c.forget id).entry = c.entry := rfl

theorem carryOver_entry (n : ThreadConfiguratorNode) (c : ThreadConfig) :
    (n.carryOver c).entry = c.entry := by
  unfold ThreadConfiguratorNode.carryOver
  split <;> split <;> rfl

/-- What is found by what the parser says is found among entries that say the same. -/
private theorem find?_entry {p : ThreadConfig → Bool}
    (hp : ∀ c c' : ThreadConfig, c.entry = c'.entry → p c = p c') {l l' : List ThreadConfig}
    (h : l.map ThreadConfig.entry = l'.map ThreadConfig.entry) :
    (l.find? p).map ThreadConfig.entry = (l'.find? p).map ThreadConfig.entry := by
  induction l generalizing l' with
  | nil =>
    rw [List.map_nil, eq_comm, List.map_eq_nil_iff] at h
    rw [h]
  | cons c l ih =>
    cases l' with
    | nil => cases h
    | cons c' l' =>
      rw [List.map_cons, List.map_cons, List.cons.injEq] at h
      rw [List.find?_cons, List.find?_cons, hp c c' h.1]
      cases p c' with
      | true => exact congrArg some h.1
      | false => exact ih h.2

section

variable {l l' : List ThreadConfig} {domainId : Nat} {id : Name} {c : ThreadConfig}

theorem exactEntry_congr (h : l.map ThreadConfig.entry = l'.map ThreadConfig.entry) :
    (exactEntry l domainId id).map ThreadConfig.entry =
      (exactEntry l' domainId id).map ThreadConfig.entry :=
  find?_entry (fun _ _ hentry => by
    rw [ThreadConfig.exactKey_congr (ThreadConfig.key_of_entry hentry)]) h

theorem wildcardEntryOf_congr (h : l.map ThreadConfig.entry = l'.map ThreadConfig.entry) :
    (wildcardEntryOf l domainId id).map ThreadConfig.entry =
      (wildcardEntryOf l' domainId id).map ThreadConfig.entry :=
  find?_entry (fun _ _ hentry => by
    rw [ThreadConfig.wildcardKey_congr (ThreadConfig.key_of_entry hentry)]) h

theorem selectEntry_congr (h : l.map ThreadConfig.entry = l'.map ThreadConfig.entry) :
    (selectEntry l domainId id).map ThreadConfig.entry =
      (selectEntry l' domainId id).map ThreadConfig.entry := by
  unfold selectEntry
  rw [Option.map_or, Option.map_or, exactEntry_congr h, wildcardEntryOf_congr h]

theorem exactEntry_eq_none :
    exactEntry l domainId id = none ↔ ∀ c ∈ l, c.exactKey ≠ some (domainId, id) := by
  unfold exactEntry
  simp

/-- With distinct keys the entry of a key is the one that is found. -/
private theorem find?_key {key : ThreadConfig → Option (Nat × Name)} (hd : Distinct key l)
    {k : Nat × Name} (hc : c ∈ l) (hkey : key c = some k) :
    l.find? (fun c => key c = some k) = some c := by
  cases hfind : l.find? (fun c => key c = some k) with
  | none => exact absurd hkey (by simpa using List.find?_eq_none.mp hfind c hc)
  | some b =>
    have hb : key b = some k := by simpa using List.find?_some hfind
    obtain ⟨i, hi⟩ := List.mem_iff_getElem?.mp hc
    obtain ⟨j, hj⟩ := List.mem_iff_getElem?.mp (List.mem_of_find?_eq_some hfind)
    obtain rfl := hd i j c b k hi hj hkey hb
    exact hj.symm.trans hi

theorem exactEntry_of_mem (hkeys : (l.map ThreadConfig.key).Nodup) (hc : c ∈ l)
    (hkey : c.exactKey = some (domainId, id)) : exactEntry l domainId id = some c :=
  find?_key (distinct_exactKey hkeys) hc hkey

theorem wildcardEntryOf_of_mem (hkeys : (l.map ThreadConfig.key).Nodup) (hc : c ∈ l)
    (hkey : c.wildcardKey = some (domainId, extractNodePart id)) :
    wildcardEntryOf l domainId id = some c :=
  find?_key (distinct_wildcardKey hkeys) hc hkey

/-! ## Known threads -/

theorem mem_known_of_isWildcard (h : c.isWildcard = true) {e : Name × Int} :
    e ∈ c.known ↔ e ∈ c.matchedTids := by
  unfold ThreadConfig.known inKeyOrder
  rw [if_pos h, List.mem_insertionSort]

theorem mem_known_of_exact (h : c.isWildcard = false) {e : Name × Int} :
    e ∈ c.known ↔ c.threadId ≠ -1 ∧ e = (c.threadStr, c.threadId) := by
  unfold ThreadConfig.known
  rw [h, if_neg (by simp)]
  split
  · next hnone => simp [hnone]
  · next hsome => simp [hsome]

/-- A wildcard entry with a new instance knows it, and of the others what it knew. -/
theorem known_record_wildcard (h : c.isWildcard = true) {tid : Int} {e : Name × Int}
    (he : e ∈ (c.record id tid).known) : e = (id, tid) ∨ (e ∈ c.known ∧ e.1 ≠ id) := by
  have hwild : (c.record id tid).isWildcard = true :=
    (ThreadConfig.isWildcard_congr (record_key id tid c)).1.trans h
  rw [mem_known_of_isWildcard hwild, record_of_isWildcard h] at he
  rw [mem_known_of_isWildcard h]
  exact Dict.eq_or_mem_of_mem_set he

/-- An exact entry knows the thread that has been recorded. -/
theorem known_record_exact (h : c.isWildcard = false) {tid : Int} {e : Name × Int}
    (he : e ∈ (c.record id tid).known) : e = (c.threadStr, tid) := by
  have hexact : (c.record id tid).isWildcard = false :=
    (ThreadConfig.isWildcard_congr (record_key id tid c)).1.trans h
  rw [mem_known_of_exact hexact, record_of_exact h] at he
  exact he.2

theorem known_forget (h : c.isWildcard = true) {e : Name × Int} (he : e ∈ (c.forget id).known) :
    e ∈ c.known ∧ e.1 ≠ id := by
  have hwild : (c.forget id).isWildcard = true := h
  rw [mem_known_of_isWildcard hwild] at he
  rw [mem_known_of_isWildcard h]
  obtain ⟨hmem, hne⟩ := List.mem_filter.mp he
  exact ⟨hmem, by simpa using hne⟩

/-- What an entry knows is of its key. -/
theorem CallbackGroupsOk.key_of_known (h : CallbackGroupsOk l) (hc : c ∈ l) {e : Name × Int}
    (he : e ∈ c.known) :
    (c.isWildcard = false ∧ c.exactKey = some (c.domainId, e.1)) ∨
      (c.isWildcard = true ∧ c.wildcardKey = some (c.domainId, extractNodePart e.1)) := by
  cases hwild : c.isWildcard with
  | false =>
    obtain ⟨-, rfl⟩ := (mem_known_of_exact hwild).mp he
    exact .inl ⟨rfl, ThreadConfig.exactKey_eq_some.mpr ⟨hwild, rfl⟩⟩
  | true =>
    refine .inr ⟨rfl, ?_⟩
    have hmem : e.1 ∈ c.instances := List.mem_map_of_mem ((mem_known_of_isWildcard hwild).mp he)
    unfold ThreadConfig.wildcardKey
    rw [if_pos hwild, h.prefixes c hc hwild e.1 hmem]

/-- What an entry carries over was known to the old entry of its key. -/
theorem NodeOk.known_carryOver {n : ThreadConfiguratorNode} (h : NodeOk n) (hfresh : c.Fresh)
    {e : Name × Int} (he : e ∈ (n.carryOver c).known) :
    ∃ old ∈ n.callbackGroupConfigs, old.key = c.key ∧ e ∈ old.known := by
  obtain ⟨hsame, -, -, -⟩ := ThreadConfig.isWildcard_congr (carryOver_key n c)
  have hkeys := h.callbackGroups.keys
  cases hwild : c.isWildcard with
  -- an exact entry takes over the thread of the old entry of its name
  | false =>
    rw [mem_known_of_exact (hsame.trans hwild)] at he
    unfold ThreadConfiguratorNode.carryOver at he
    rw [hwild, if_neg (by simp)] at he
    cases hold : n.exactConfig (c.domainId, c.threadStr) with
    | none =>
      rw [hold] at he
      exact absurd hfresh.threadId he.1
    | some old =>
      rw [hold] at he
      unfold ThreadConfiguratorNode.exactConfig at hold
      rw [h.exactIndex, lookup_eq_some_iff (distinct_exactKey hkeys)] at hold
      obtain ⟨hexact, hkey⟩ := ThreadConfig.exactKey_eq_some.mp hold.2
      refine ⟨old, hold.1, hkey, (mem_known_of_exact hexact).mpr ⟨he.1, he.2.trans ?_⟩⟩
      rw [(Prod.mk.inj hkey).2]
  -- a wildcard entry takes over the instances of the old entry of its node
  | true =>
    rw [mem_known_of_isWildcard (hsame.trans hwild)] at he
    unfold ThreadConfiguratorNode.carryOver at he
    rw [hwild, if_pos rfl] at he
    cases hold : n.wildcardConfig (c.domainId, c.wildcardPrefix) with
    | none =>
      rw [hold] at he
      dsimp only at he
      rw [hfresh.matchedTids] at he
      cases he
    | some old =>
      rw [hold] at he
      unfold ThreadConfiguratorNode.wildcardConfig at hold
      rw [h.wildcardIndex, lookup_eq_some_iff (distinct_wildcardKey hkeys)] at hold
      obtain ⟨holdwild, hkey⟩ := ThreadConfig.wildcardKey_eq_some.mp hold.2
      refine ⟨old, hold.1, hkey.trans ?_, (mem_known_of_isWildcard holdwild).mpr he⟩
      unfold ThreadConfig.key
      rw [ThreadConfig.threadStr_eq hwild]

end

/-! ## The invariant -/

section

variable {asInt : Name → Option Int} {asUnsigned : Name → Option Nat} {cpus defaultDomainId : Nat}
  {base : List ConfiguratorEvent} {s s' : Configurator} {ev : ConfiguratorEvent}

/-- What the entries and the executor have heard. -/
structure Heard (asInt : Name → Option Int) (asUnsigned : Name → Option Nat)
    (cpus defaultDomainId : Nat) (base : List ConfiguratorEvent) (s : Configurator) : Prop where
  /-- the entries are those of the configuration in force -/
  entries : s.node.callbackGroupConfigs.map ThreadConfig.entry =
    (configurationInForce asInt asUnsigned cpus defaultDomainId base s).map ThreadConfig.entry
  /-- what an entry knows was announced last, to a wildcard entry without an exact one -/
  known : ∀ c ∈ s.node.callbackGroupConfigs, ∀ e ∈ c.known, ∃ configs,
    lastAnnouncement asInt asUnsigned cpus defaultDomainId c.domainId e.1 base =
        some (e.2, configs) ∧
      (c.isWildcard = true → exactEntry configs c.domainId e.1 = none)
  /-- an announcement goes to the entry that is selected -/
  recorded : ∀ index tid, s.place = .recorded index tid → ∃ domainId id c,
    newestAnnouncement base = some (domainId, id, tid) ∧
      s.node.callbackGroupConfigs[index]? = some c ∧
      selectEntry s.node.callbackGroupConfigs domainId id = some c

theorem configurationInForce_of_none
    (h : acceptedConfiguration asInt asUnsigned cpus defaultDomainId ev = none) :
    configurationInForce asInt asUnsigned cpus defaultDomainId (ev :: base) s' =
      configurationInForce asInt asUnsigned cpus defaultDomainId base ev.pre := by
  conv => lhs; unfold configurationInForce
  rw [h, Option.getD_none]

theorem lastAnnouncement_of_none (h : takenAnnouncement ev = none) (domainId : Nat) (id : Name) :
    lastAnnouncement asInt asUnsigned cpus defaultDomainId domainId id (ev :: base) =
      lastAnnouncement asInt asUnsigned cpus defaultDomainId domainId id base := by
  conv => lhs; unfold lastAnnouncement
  rw [h]

/-- The newest announcement is the last one of its callback group. -/
theorem lastAnnouncement_of_newest {domainId : Nat} {id : Name} {tid : Int}
    (h : newestAnnouncement base = some (domainId, id, tid)) : ∃ configs,
      lastAnnouncement asInt asUnsigned cpus defaultDomainId domainId id base =
        some (tid, configs) := by
  induction base with
  | nil => cases h
  | cons ev base ih =>
    unfold newestAnnouncement at h
    cases htaken : takenAnnouncement ev with
    | none =>
      rw [htaken] at h
      rw [lastAnnouncement_of_none htaken]
      exact ih h
    | some announcement =>
      rw [htaken] at h
      obtain rfl := Option.some.inj h
      unfold lastAnnouncement
      rw [htaken]
      exact ⟨_, if_pos ⟨rfl, rfl⟩⟩

/-- A step that announces nothing and accepts nothing, and leaves to every entry what it says and
knows. -/
theorem Heard.quiet (h : Heard asInt asUnsigned cpus defaultDomainId base ev.pre)
    (htaken : takenAnnouncement ev = none)
    (haccepted : acceptedConfiguration asInt asUnsigned cpus defaultDomainId ev = none)
    (hconfigs : s'.node.callbackGroupConfigs = ev.pre.node.callbackGroupConfigs ∨
      ∃ i, s'.node.callbackGroupConfigs =
        ev.pre.node.callbackGroupConfigs.modify i ThreadConfig.markApplied)
    (hplace : ∀ index tid, s'.place = .recorded index tid →
      ev.pre.place = .recorded index tid ∧
        s'.node.callbackGroupConfigs = ev.pre.node.callbackGroupConfigs) :
    Heard asInt asUnsigned cpus defaultDomainId (ev :: base) s' := by
  refine ⟨?_, fun c hc e he => ?_, fun index tid hrecorded => ?_⟩
  · rw [configurationInForce_of_none haccepted, ← h.entries]
    rcases hconfigs with heq | ⟨i, heq⟩
    · rw [heq]
    · rw [heq, map_modify markApplied_entry]
  · rw [lastAnnouncement_of_none htaken]
    rcases hconfigs with heq | ⟨i, heq⟩
    · exact h.known c (heq ▸ hc) e he
    · rw [heq] at hc
      obtain ⟨j, hj⟩ := List.mem_iff_getElem?.mp hc
      -- the mark is not among what an entry says or knows
      rcases getElem?_modify_eq_some hj with ⟨_, hj'⟩ | ⟨c₀, hj', _, rfl⟩
      · exact h.known c (List.mem_of_getElem? hj') e he
      · exact h.known c₀ (List.mem_of_getElem? hj') e he
  · obtain ⟨hplace, heq⟩ := hplace index tid hrecorded
    unfold newestAnnouncement
    rw [htaken, heq]
    exact h.recorded index tid hplace

/-- After an announcement an entry knows the new thread, or another one that it knew before. -/
def LearnsOnly (n : ThreadConfiguratorNode) (domainId : Nat) (id : Name) (tid : Int)
    (configs : List ThreadConfig) : Prop :=
  ∀ c' ∈ configs, ∀ e ∈ c'.known,
    (c'.domainId = domainId ∧ e = (id, tid) ∧
        (c'.isWildcard = true → exactEntry n.callbackGroupConfigs domainId id = none)) ∨
      (¬(c'.domainId = domainId ∧ e.1 = id) ∧
        ∃ c ∈ n.callbackGroupConfigs, c.key = c'.key ∧ e ∈ c.known)

/-- An announcement, by what it makes of the entries. -/
private theorem Heard.announced (h : Heard asInt asUnsigned cpus defaultDomainId base ev.pre)
    {domainId : Nat} {id : Name} {tid : Int}
    (htaken : takenAnnouncement ev = some (domainId, id, tid))
    (haccepted : acceptedConfiguration asInt asUnsigned cpus defaultDomainId ev = none)
    (hentries : s'.node.callbackGroupConfigs.map ThreadConfig.entry =
      ev.pre.node.callbackGroupConfigs.map ThreadConfig.entry)
    (hknown : LearnsOnly ev.pre.node domainId id tid s'.node.callbackGroupConfigs)
    (hrecorded : ∀ index tid', s'.place = .recorded index tid' → tid' = tid ∧
      ∃ c, s'.node.callbackGroupConfigs[index]? = some c ∧
        selectEntry s'.node.callbackGroupConfigs domainId id = some c) :
    Heard asInt asUnsigned cpus defaultDomainId (ev :: base) s' := by
  refine ⟨?_, fun c' hc' e he => ?_, fun index tid' hplace => ?_⟩
  · rw [configurationInForce_of_none haccepted, ← h.entries, hentries]
  · unfold lastAnnouncement
    rw [htaken]
    dsimp only
    -- a thread that an entry knows is the one announced now, or was known before
    rcases hknown c' hc' e he with ⟨rfl, rfl, hexact⟩ | ⟨hnot, c, hc, hkey, hold⟩
    · refine ⟨_, if_pos ⟨rfl, rfl⟩, fun hwild => ?_⟩
      have hnone := congrArg (Option.map ThreadConfig.entry) (hexact hwild)
      rw [exactEntry_congr h.entries, Option.map_none, Option.map_eq_none_iff] at hnone
      exact hnone
    · obtain ⟨hsame, -, hd, -⟩ := ThreadConfig.isWildcard_congr hkey
      rw [if_neg fun heq => hnot ⟨heq.1.symm, heq.2.symm⟩, ← hd, ← hsame]
      exact h.known c hc e hold
  · obtain ⟨rfl, c, hc, hselect⟩ := hrecorded index tid' hplace
    unfold newestAnnouncement
    rw [htaken]
    exact ⟨domainId, id, c, rfl, hc, hselect⟩

/-- The executor's own step leaves to every entry what it says and knows. -/
private theorem proceed_quiet (s : Configurator) (succeeds : Nat → Syscall → Bool) (m : Machine) :
    ((s.proceed succeeds m).2.node.callbackGroupConfigs = s.node.callbackGroupConfigs ∨
      ∃ i, (s.proceed succeeds m).2.node.callbackGroupConfigs =
        s.node.callbackGroupConfigs.modify i ThreadConfig.markApplied) ∧
    ∀ index tid, (s.proceed succeeds m).2.place ≠ .recorded index tid := by
  obtain ⟨n, place⟩ := s
  cases place with
  | spinning => exact ⟨.inl rfl, fun _ _ h => by cases h⟩
  | recorded index tid =>
    unfold Configurator.proceed
    dsimp only
    split
    · exact ⟨.inl rfl, fun _ _ h => by cases h⟩
    split
    · exact ⟨.inl rfl, fun _ _ h => by cases h⟩
    split
    -- the attributes of the announced thread have been applied
    · exact ⟨.inr ⟨index, rfl⟩, fun _ _ h => by cases h⟩
    · exact ⟨.inl rfl, fun _ _ h => by cases h⟩
  | marked => exact ⟨.inl rfl, fun _ _ h => by cases h⟩
  | swapped newNrt newKernelThreads newIrqs => exact ⟨.inl rfl, fun _ _ h => by cases h⟩
  | applying index response =>
    unfold Configurator.proceed
    dsimp only
    split
    · next config hconfig =>
      generalize applyCallbackGroup succeeds config response = outcome
      obtain ⟨applied, response'⟩ := outcome
      dsimp only
      split
      · exact ⟨.inr ⟨index, rfl⟩, fun _ _ h => by cases h⟩
      · exact ⟨.inl rfl, fun _ _ h => by cases h⟩
    · exact ⟨.inl rfl, fun _ _ h => by cases h⟩
  | applyingMarked index response => exact ⟨.inl rfl, fun _ _ h => by cases h⟩
  | appliedNonRos response => exact ⟨.inl rfl, fun _ _ h => by cases h⟩

/-- What one entry knows after an announcement of `(domainId, id)`, if only the entry at `i` records
it: another entry that knew the group would have been found. -/
private theorem known_elsewhere {n : ThreadConfiguratorNode} (h : NodeOk n) {domainId : Nat}
    {id : Name} {j : Nat} {c : ThreadConfig} (hc : n.callbackGroupConfigs[j]? = some c)
    {e : Name × Int} (he : e ∈ c.known)
    (hexact : Dict.get n.idToCallbackGroupConfig (domainId, id) ≠ some j)
    (hwildcard : Dict.get n.nodeToWildcardConfig (domainId, extractNodePart id) ≠ some j) :
    ¬(c.domainId = domainId ∧ e.1 = id) := by
  rintro ⟨rfl, rfl⟩
  have hmem := List.mem_of_getElem? hc
  rcases h.callbackGroups.key_of_known hmem he with ⟨_, hkey⟩ | ⟨_, hkey⟩
  · refine hexact ?_
    rw [h.exactIndex]
    exact (get_places_eq_some_iff (distinct_exactKey h.callbackGroups.keys)).mpr ⟨c, hc, hkey⟩
  · refine hwildcard ?_
    rw [h.wildcardIndex]
    exact (get_places_eq_some_iff (distinct_wildcardKey h.callbackGroups.keys)).mpr ⟨c, hc, hkey⟩

/-- An index of exact entries that finds nothing. -/
private theorem exactEntry_of_get {n : ThreadConfiguratorNode} (h : NodeOk n) {domainId : Nat}
    {id : Name} (hget : Dict.get n.idToCallbackGroupConfig (domainId, id) = none) :
    exactEntry n.callbackGroupConfigs domainId id = none := by
  rw [h.exactIndex, get_places_eq_none] at hget
  exact exactEntry_eq_none.mpr hget

/-- Where the exact entry stands, there is the one that is selected. -/
private theorem selectEntry_of_exact {n : ThreadConfiguratorNode} (h : NodeOk n) {domainId : Nat}
    {id : Name} {i : Nat} (hget : Dict.get n.idToCallbackGroupConfig (domainId, id) = some i) :
    ∃ c, n.callbackGroupConfigs[i]? = some c ∧
      selectEntry n.callbackGroupConfigs domainId id = some c := by
  obtain ⟨c, hc, hexact, rfl, rfl⟩ := exact_of_get h hget
  refine ⟨c, hc, ?_⟩
  unfold selectEntry
  rw [exactEntry_of_mem h.callbackGroups.keys (List.mem_of_getElem? hc)
    (ThreadConfig.exactKey_eq_some.mpr ⟨hexact, rfl⟩), Option.some_or]

/-- Where there is no exact entry, the wildcard entry is the one that is selected. -/
private theorem selectEntry_of_wildcard {n : ThreadConfiguratorNode} (h : NodeOk n) {domainId : Nat}
    {id : Name} {w : Nat} (hexact : Dict.get n.idToCallbackGroupConfig (domainId, id) = none)
    (hwildcard : Dict.get n.nodeToWildcardConfig (domainId, extractNodePart id) = some w) :
    ∃ c, n.callbackGroupConfigs[w]? = some c ∧
      selectEntry n.callbackGroupConfigs domainId id = some c := by
  obtain ⟨c, hc, hwild, rfl, hpart⟩ := wildcard_of_get h hwildcard
  refine ⟨c, hc, ?_⟩
  have hkey : c.wildcardKey = some (c.domainId, extractNodePart id) := by
    unfold ThreadConfig.wildcardKey
    rw [if_pos hwild, hpart]
  unfold selectEntry
  rw [exactEntry_of_get h hexact, Option.none_or]
  exact wildcardEntryOf_of_mem h.callbackGroups.keys (List.mem_of_getElem? hc) hkey

/-- When the exact entry at `i` has recorded the thread, it knows nothing else. -/
private theorem of_mem_record_exact {n : ThreadConfiguratorNode} (h : NodeOk n) {domainId : Nat}
    {id : Name} {tid : Int} {i : Nat}
    (hexact : Dict.get n.idToCallbackGroupConfig (domainId, id) = some i) {c' : ThreadConfig}
    (hc' : c' ∈ n.callbackGroupConfigs.modify i (·.record id tid)) :
    (∃ j, j ≠ i ∧ n.callbackGroupConfigs[j]? = some c') ∨
      (c'.isWildcard = false ∧ c'.domainId = domainId ∧ ∀ e ∈ c'.known, e = (id, tid)) := by
  obtain ⟨j, hj⟩ := List.mem_iff_getElem?.mp hc'
  rcases getElem?_modify_eq_some hj with helse | ⟨c, hj', rfl, rfl⟩
  · exact .inl ⟨j, helse⟩
  · obtain ⟨c₀, hc₀, hnot, rfl, rfl⟩ := exact_of_get h hexact
    obtain rfl := Option.some.inj (hj'.symm.trans hc₀)
    obtain ⟨hsame, -, hd, -⟩ := ThreadConfig.isWildcard_congr (record_key c.threadStr tid c)
    exact .inr ⟨hsame.trans hnot, hd, fun e he => known_record_exact hnot he⟩

section

variable {n n' : ThreadConfiguratorNode} {domainId : Nat} {id : Name} {tid : Int}

private theorem learnsOnly_exact (h : NodeOk n) {i : Nat}
    (hexact : Dict.get n.idToCallbackGroupConfig (domainId, id) = some i)
    (hwildcard : Dict.get n.nodeToWildcardConfig (domainId, extractNodePart id) = none) :
    LearnsOnly n domainId id tid (n.callbackGroupConfigs.modify i (·.record id tid)) := by
  intro c' hc' e he
  rcases of_mem_record_exact h hexact hc' with ⟨j, hne, hj⟩ | ⟨hnot, hd, hknown⟩
  · refine .inr ⟨known_elsewhere h hj he ?_ (by simp [hwildcard]), c', List.mem_of_getElem? hj, rfl,
      he⟩
    rw [hexact]
    exact fun heq => hne (Option.some.inj heq).symm
  · exact .inl ⟨hd, hknown e he, fun hwild => by simp [hnot] at hwild⟩

private theorem learnsOnly_moved (h : NodeOk n) {i w : Nat}
    (hexact : Dict.get n.idToCallbackGroupConfig (domainId, id) = some i)
    (hwildcard : Dict.get n.nodeToWildcardConfig (domainId, extractNodePart id) = some w) :
    LearnsOnly n domainId id tid
      ((n.callbackGroupConfigs.modify w (·.forget id)).modify i (·.record id tid)) := by
  have hforgotten : NodeOk (n.changeCallbackGroup w (·.forget id)) :=
    h.changeCallbackGroup (forget_key id) (h.callbackGroups.forget w id)
  intro c' hc' e he
  rcases of_mem_record_exact hforgotten hexact hc' with ⟨j, hne, hj⟩ | ⟨hnot, hd, hknown⟩
  · rcases getElem?_modify_eq_some hj with ⟨hnew, hj'⟩ | ⟨c, hj', rfl, rfl⟩
    · refine .inr ⟨known_elsewhere h hj' he ?_ ?_, c', List.mem_of_getElem? hj', rfl, he⟩
      · rw [hexact]
        exact fun heq => hne (Option.some.inj heq).symm
      · rw [hwildcard]
        exact fun heq => hnew (Option.some.inj heq).symm
    · -- the wildcard entry has forgotten it
      obtain ⟨c₀, hc₀, hwild, _, _⟩ := wildcard_of_get h hwildcard
      obtain rfl := Option.some.inj (hj'.symm.trans hc₀)
      obtain ⟨hold, hid⟩ := known_forget hwild he
      exact .inr ⟨fun heq => hid heq.2, c, List.mem_of_getElem? hj', rfl, hold⟩
  · exact .inl ⟨hd, hknown e he, fun hwild => by simp [hnot] at hwild⟩

private theorem learnsOnly_wildcard (h : NodeOk n) {w : Nat}
    (hexact : Dict.get n.idToCallbackGroupConfig (domainId, id) = none)
    (hwildcard : Dict.get n.nodeToWildcardConfig (domainId, extractNodePart id) = some w) :
    LearnsOnly n domainId id tid (n.callbackGroupConfigs.modify w (·.record id tid)) := by
  intro c' hc' e he
  obtain ⟨j, hj⟩ := List.mem_iff_getElem?.mp hc'
  rcases getElem?_modify_eq_some hj with ⟨hne, hj'⟩ | ⟨c, hj', rfl, rfl⟩
  · refine .inr ⟨known_elsewhere h hj' he (by simp [hexact]) ?_, c', List.mem_of_getElem? hj', rfl,
      he⟩
    rw [hwildcard]
    exact fun heq => hne (Option.some.inj heq).symm
  · obtain ⟨c₀, hc₀, hwild, rfl, _⟩ := wildcard_of_get h hwildcard
    obtain rfl := Option.some.inj (hj'.symm.trans hc₀)
    have hkey := record_key id tid c
    rcases known_record_wildcard hwild he with rfl | ⟨hold, hid⟩
    · exact .inl ⟨(ThreadConfig.isWildcard_congr hkey).2.2.1, rfl,
        fun _ => exactEntry_of_get h hexact⟩
    · exact .inr ⟨fun heq => hid heq.2, c, List.mem_of_getElem? hj', hkey.symm, hold⟩

variable {index? : Option Nat}

/-- **Only the entry that is found** learns of an announcement, and no other entry knows the group. -/
theorem AnnounceOutcome.learnsOnly (h : NodeOk n)
    (houtcome : AnnounceOutcome n domainId id tid (index?, n')) :
    LearnsOnly n domainId id tid n'.callbackGroupConfigs := by
  cases houtcome with
  | unknown hexact hwildcard =>
    intro c hc e he
    obtain ⟨j, hj⟩ := List.mem_iff_getElem?.mp hc
    exact .inr ⟨known_elsewhere h hj he (by simp [hexact]) (by simp [hwildcard]), c, hc, rfl, he⟩
  | exact hexact hwildcard => exact learnsOnly_exact h hexact hwildcard
  | moved hexact hwildcard => exact learnsOnly_moved h hexact hwildcard
  | wildcard hexact hwildcard => exact learnsOnly_wildcard h hexact hwildcard

/-- The entry that is found is the one that is selected. -/
theorem AnnounceOutcome.selects (hok' : NodeOk n')
    (houtcome : AnnounceOutcome n domainId id tid (index?, n')) {index : Nat}
    (hindex : index? = some index) : ∃ c, n'.callbackGroupConfigs[index]? = some c ∧
      selectEntry n'.callbackGroupConfigs domainId id = some c := by
  cases houtcome with
  | unknown _ _ => cases hindex
  | exact hexact _ =>
    cases hindex
    exact selectEntry_of_exact hok' hexact
  | moved hexact _ =>
    cases hindex
    exact selectEntry_of_exact hok' hexact
  | wildcard hexact hwildcard =>
    cases hindex
    exact selectEntry_of_wildcard hok' hexact hwildcard

theorem AnnounceOutcome.entries (houtcome : AnnounceOutcome n domainId id tid (index?, n')) :
    n'.callbackGroupConfigs.map ThreadConfig.entry =
      n.callbackGroupConfigs.map ThreadConfig.entry := by
  cases houtcome with
  | unknown _ _ => rfl
  | @exact i _ _ => exact map_modify (record_entry id tid) _ i
  | @moved i w _ _ =>
    exact (map_modify (record_entry id tid) _ i).trans (map_modify (forget_entry id) _ w)
  | @wildcard w _ _ => exact map_modify (record_entry id tid) _ w

end

/-- **An announcement** keeps the invariant. -/
private theorem Heard.callbackGroup
    (h : Heard asInt asUnsigned cpus defaultDomainId base ev.pre) (hok : NodeOk ev.pre.node)
    {domainId : Nat} {id : Name} {tid : Int} (hinput : ev.input = .callbackGroup domainId id tid)
    (hspinning : ev.pre.place = .spinning) {index? : Option Nat} {n' : ThreadConfiguratorNode}
    (houtcome : AnnounceOutcome ev.pre.node domainId id tid (index?, n')) (hok' : NodeOk n')
    (hs' : s' = ⟨n', match index? with
      | none => .spinning
      | some index => .recorded index tid⟩) :
    Heard asInt asUnsigned cpus defaultDomainId (ev :: base) s' := by
  subst hs'
  have htaken : takenAnnouncement ev = some (domainId, id, tid) := by
    unfold takenAnnouncement
    rw [hinput, hspinning]
  have haccepted : acceptedConfiguration asInt asUnsigned cpus defaultDomainId ev = none := by
    unfold acceptedConfiguration
    rw [hinput]
  refine h.announced htaken haccepted houtcome.entries (houtcome.learnsOnly hok) ?_
  intro index tid' hplace
  cases index? with
  | none => cases hplace
  | some index' =>
    cases hplace
    exact ⟨rfl, houtcome.selects hok' rfl⟩

/-- **A request that is accepted** puts its entries in force; each knows what the old entry of its
key knew. -/
private theorem Heard.accepted
    (h : Heard asInt asUnsigned cpus defaultDomainId base ev.pre) (hok : NodeOk ev.pre.node)
    {yaml : Yaml} (hinput : ev.input = .reapplyConfig (.ok yaml))
    (hspinning : ev.pre.place = .spinning) {newCb newNrt : List ThreadConfig}
    {newKernelThreads : List KernelThreadConfig} {newIrqs : List IrqConfig}
    (hparse : parseAll asInt asUnsigned cpus defaultDomainId yaml =
      .ok (newCb, newNrt, newKernelThreads, newIrqs))
    (hs' : s' = ⟨ev.pre.node.setCallbackGroups (newCb.map ev.pre.node.carryOver),
      .swapped newNrt newKernelThreads newIrqs⟩) :
    Heard asInt asUnsigned cpus defaultDomainId (ev :: base) s' := by
  subst hs'
  have htaken : takenAnnouncement ev = none := by
    unfold takenAnnouncement
    rw [hinput]
  have haccepted : acceptedConfiguration asInt asUnsigned cpus defaultDomainId ev = some newCb := by
    unfold acceptedConfiguration
    rw [hinput, hspinning]
    dsimp only
    rw [hparse]
  refine ⟨?_, fun c' hc' e he => ?_, fun index tid hplace => ?_⟩
  · show (newCb.map ev.pre.node.carryOver).map ThreadConfig.entry = _
    unfold configurationInForce
    rw [haccepted, Option.getD_some, List.map_map]
    exact List.map_congr_left fun c _ => carryOver_entry ev.pre.node c
  · obtain ⟨c, hc, rfl⟩ := List.mem_map.mp hc'
    -- what is carried over was known under the same key, and nothing is announced meanwhile
    obtain ⟨old, hold, hkey, hknown⟩ :=
      hok.known_carryOver ((parseAll_fresh hparse).callbackGroups c hc) he
    obtain ⟨hsame, -, hd, -⟩ :=
      ThreadConfig.isWildcard_congr (hkey.trans (carryOver_key ev.pre.node c).symm)
    rw [lastAnnouncement_of_none htaken, ← hd, ← hsame]
    exact h.known old hold e hknown
  · cases hplace

/-- **One step** keeps the invariant. -/
theorem Heard.step {configFile : Name}
    (h : Heard asInt asUnsigned cpus defaultDomainId base s) (hok : ConfiguratorOk s)
    (i : ConfiguratorInput) :
    Heard asInt asUnsigned cpus defaultDomainId
      (⟨s, i, (s.step asInt asUnsigned cpus defaultDomainId configFile i).1⟩ :: base)
      (s.step asInt asUnsigned cpus defaultDomainId configFile i).2 := by
  have hok' : ConfiguratorOk (s.step asInt asUnsigned cpus defaultDomainId configFile i).2 :=
    hok.step i
  generalize hev : (⟨s, i, (s.step asInt asUnsigned cpus defaultDomainId configFile i).1⟩ :
    ConfiguratorEvent) = ev
  have hpre : ev.pre = s := hev ▸ rfl
  have hinput : ev.input = i := hev ▸ rfl
  subst hpre
  -- a step that leaves the state as it is
  have hsame (htaken : takenAnnouncement ev = none)
      (haccepted : acceptedConfiguration asInt asUnsigned cpus defaultDomainId ev = none) :
      Heard asInt asUnsigned cpus defaultDomainId (ev :: base) ev.pre :=
    h.quiet htaken haccepted (.inl rfl) fun _ _ hplace => ⟨hplace, rfl⟩
  cases i with
  | nonRosThread name tid succeeds =>
    have hgroups := (nonRosThreadCallback_ok hok.node name tid succeeds).2.1
    refine h.quiet ?_ ?_ (.inl hgroups) fun _ _ hplace => ⟨hplace, hgroups⟩
    · unfold takenAnnouncement
      rw [hinput]
    · unfold acceptedConfiguration
      rw [hinput]
  | callbackGroup domainId id tid =>
    have haccepted : acceptedConfiguration asInt asUnsigned cpus defaultDomainId ev = none := by
      unfold acceptedConfiguration
      rw [hinput]
    have houtcome := callbackGroupCallback_outcome ev.pre.node domainId id tid
    cases hplace : ev.pre.place with
    | spinning =>
      unfold Configurator.step Configurator.take at hok' ⊢
      rw [hplace] at hok' ⊢
      dsimp only at hok' ⊢
      generalize ev.pre.node.callbackGroupCallback domainId id tid = outcome at houtcome hok' ⊢
      obtain ⟨index?, n'⟩ := outcome
      cases index? with
      | none => exact h.callbackGroup hok.node hinput hplace houtcome hok'.node rfl
      | some index => exact h.callbackGroup hok.node hinput hplace houtcome hok'.node rfl
    | _ =>
      unfold Configurator.step Configurator.take
      rw [hplace]
      refine hsame ?_ haccepted
      unfold takenAnnouncement
      rw [hinput, hplace]
  | reapplyConfig file =>
    have htaken : takenAnnouncement ev = none := by
      unfold takenAnnouncement
      rw [hinput]
    cases hplace : ev.pre.place with
    | spinning =>
      unfold Configurator.step Configurator.take
      rw [hplace]
      dsimp only
      unfold Configurator.onReapplyConfigRequest
      split
      · refine hsame htaken ?_
        unfold acceptedConfiguration
        rw [hinput]
      next yaml =>
      split
      · next what hparse =>
        refine hsame htaken ?_
        unfold acceptedConfiguration
        rw [hinput, hplace]
        dsimp only
        rw [hparse]
      · next newCb newNrt newKernelThreads newIrqs hparse =>
        exact h.accepted hok.node hinput hplace hparse rfl
    | _ =>
      unfold Configurator.step Configurator.take
      rw [hplace]
      refine hsame htaken ?_
      unfold acceptedConfiguration
      rw [hinput, hplace]
      cases file <;> rfl
  | proceed succeeds m =>
    have htaken : takenAnnouncement ev = none := by
      unfold takenAnnouncement
      rw [hinput]
    have haccepted : acceptedConfiguration asInt asUnsigned cpus defaultDomainId ev = none := by
      unfold acceptedConfiguration
      rw [hinput]
    obtain ⟨hconfigs, hplace⟩ := proceed_quiet ev.pre succeeds m
    exact h.quiet htaken haccepted hconfigs fun index tid hrecorded =>
      absurd hrecorded (hplace index tid)

/-- **In every run** the entries and the executor have heard what was announced. -/
theorem heard_of_run {configFile : Name}
    (hr : Run (threadConfigurator asInt asUnsigned cpus defaultDomainId configFile) anyStep base s) :
    Heard asInt asUnsigned cpus defaultDomainId base s := by
  induction hr with
  | init hinit =>
    obtain ⟨yaml, cb, nrt, kernelThreads, irqs, hparse, rfl⟩ := hinit
    refine ⟨rfl, fun c hc e he => ?_, fun index tid hplace => ?_⟩
    · -- nobody has been announced
      have hfresh := (parseAll_fresh hparse).callbackGroups c hc
      unfold ThreadConfig.known at he
      rw [hfresh.threadId, hfresh.matchedTids, if_pos rfl] at he
      split at he <;> cases he
    · cases hplace
  | step i hr _ ih => exact ih.step (configuratorOk_of_reachable hr.reachable) i

end

/-! ## What is applied is selected -/

/-- Found in two lists whose entries say the same, the attributes are the same. -/
private theorem attrs_of_entries {found found' : Option ThreadConfig} {c : ThreadConfig}
    (h : found.map ThreadConfig.entry = found'.map ThreadConfig.entry) (hc : found = some c) :
    found'.map ThreadConfig.attrs = some c.attrs := by
  subst hc
  cases found' with
  | none => cases h
  | some c' => exact congrArg some (ThreadConfig.attrs_of_entry (Option.some.inj h)).symm

section

variable (asInt : Name → Option Int) (asUnsigned : Name → Option Nat) (cpus defaultDomainId : Nat)
  (configFile : Name)

/-- **Exact entries take precedence**, whatever configurations have been in force: attributes are
applied to the thread that was announced last for the callback group, and they are those of the
entry that the precedence selects in the configuration in force. The one exception is a reapply with
an exact entry that was not there at that announcement: the wildcard entry is applied then. -/
theorem exact_precedence (base : List ConfiguratorEvent) (ev : ConfiguratorEvent)
    (s : Configurator)
    (hr : Run (threadConfigurator asInt asUnsigned cpus defaultDomainId configFile) anyStep
      (ev :: base) s)
    (a : Application) (ha : a ∈ applications base ev) :
    ∃ configs, lastAnnouncement asInt asUnsigned cpus defaultDomainId a.domainId a.id base =
        some (a.tid, configs) ∧
      let inForce := configurationInForce asInt asUnsigned cpus defaultDomainId base ev.pre
      (selectEntry inForce a.domainId a.id).map ThreadConfig.attrs = some a.attrs ∨
        ((∃ index response, ev.pre.place = .applying index response) ∧
          (exactEntry inForce a.domainId a.id).isSome = true ∧
          exactEntry configs a.domainId a.id = none ∧
          (wildcardEntryOf inForce a.domainId a.id).map ThreadConfig.attrs = some a.attrs) := by
  have hr' : Run (threadConfigurator asInt asUnsigned cpus defaultDomainId configFile) anyStep
      ([] ++ ev :: base) s := hr
  obtain ⟨hbase, -, -, -⟩ := hr'.event
  have hheard := heard_of_run hbase
  have hok := (configuratorOk_of_reachable hbase.reachable).node
  unfold applications at ha
  split at ha
  · -- the announcement that has just been taken
    next index tid _ hplace =>
    obtain ⟨domainId, id, c, hnewest, hc, hselect⟩ := hheard.recorded index tid hplace
    rw [hc, hnewest] at ha
    obtain rfl := List.mem_singleton.mp ha
    obtain ⟨configs, hlast⟩ := lastAnnouncement_of_newest hnewest
    exact ⟨configs, hlast, .inl (attrs_of_entries (selectEntry_congr hheard.entries) hselect)⟩
  · -- the entries of a reapply, one by one
    next index response _ hplace =>
    split at ha
    · next c hc =>
      obtain ⟨e, he, rfl⟩ := List.mem_map.mp ha
      have hmem := List.mem_of_getElem? hc
      obtain ⟨configs, hlast, hexact⟩ := hheard.known c hmem e he
      refine ⟨configs, hlast, ?_⟩
      rcases hok.callbackGroups.key_of_known hmem he with ⟨_, hkey⟩ | ⟨hwild, hkey⟩
      · refine .inl (attrs_of_entries (selectEntry_congr hheard.entries) ?_)
        unfold selectEntry
        rw [exactEntry_of_mem hok.callbackGroups.keys hmem hkey, Option.some_or]
      · have hwildcard := wildcardEntryOf_of_mem hok.callbackGroups.keys hmem hkey
        cases hthere : exactEntry ev.pre.node.callbackGroupConfigs c.domainId e.1 with
        | none =>
          refine .inl (attrs_of_entries (selectEntry_congr hheard.entries) ?_)
          unfold selectEntry
          rw [hthere, Option.none_or, hwildcard]
        | some c' =>
          -- the wildcard entry still knows an instance that has an exact entry by now
          have hsome := Option.isSome_of_mem
            (attrs_of_entries (exactEntry_congr hheard.entries) hthere)
          rw [Option.isSome_map] at hsome
          exact .inr ⟨⟨index, response, hplace⟩, hsome, hexact hwild,
            attrs_of_entries (wildcardEntryOf_congr hheard.entries) hwildcard⟩
    · cases ha
  · cases ha

end

/-- `/n@a` is announced, and gets the attributes of the wildcard entry of its node. -/
theorem exact_precedence_announced :
    let announced := smallConfigurator.exec loadedConfigurator [] [.callbackGroup 0 "/n@a".toList 7]
    (∃ configs, lastAnnouncement zeroAsInt (fun _ => none) 4 0 0 "/n@a".toList announced.1 =
        some (7, configs)) ∧
      (selectEntry (configurationInForce zeroAsInt (fun _ => none) 4 0 announced.1 announced.2) 0
        "/n@a".toList).map ThreadConfig.attrs = some wildcardEntry.attrs := by
  intro announced
  obtain ⟨configs, hlast, hselect | ⟨⟨index, response, hplace⟩, -⟩⟩ :=
    exact_precedence zeroAsInt (fun _ => none) 4 0 "c.yaml".toList announced.1
      ⟨announced.2, proceedWell, none⟩ _
      ((Run.init loadedConfigurator_init).exec (smallConfigurator.guarded_anyStep loadedConfigurator
        [.callbackGroup 0 "/n@a".toList 7, proceedWell]))
      ⟨0, "/n@a".toList, 7, wildcardEntry.attrs⟩ (List.mem_singleton.mpr rfl)
  · exact ⟨⟨configs, hlast⟩, hselect⟩
  · cases hplace

/-- The document again, with an exact entry for `/n@a` besides. -/
def exactDocument : Yaml :=
  .map [("callback_groups".toList, .seq [
      .map [("id".toList, .scalar "/n/*".toList),
        ("policy".toList, .scalar "SCHED_OTHER".toList), ("nice".toList, .scalar ['0'])],
      .map [("id".toList, .scalar "/n@a".toList),
        ("policy".toList, .scalar "SCHED_BATCH".toList), ("nice".toList, .scalar ['0'])]]),
    ("non_ros_threads".toList, .seq [])]

/-- A reapply of that document goes over the instances of the wildcard entry, and `/n@a` is one of
them until it is announced again. -/
theorem wildcard_applied_to_exact :
    ¬∀ base ev s, Run smallConfigurator anyStep (ev :: base) s → ∀ a ∈ applications base ev,
      (selectEntry (configurationInForce zeroAsInt (fun _ => none) 4 0 base ev.pre) a.domainId
        a.id).map ThreadConfig.attrs = some a.attrs := by
  intro hall
  have hrun := (Run.init (G := anyStep) loadedConfigurator_init).exec
    (smallConfigurator.guarded_anyStep loadedConfigurator
      [.callbackGroup 0 "/n@a".toList 7, proceedWell, proceedWell,
        .reapplyConfig (.ok exactDocument), proceedWell, proceedWell])
  have hattrs := hall
    (smallConfigurator.exec loadedConfigurator []
      [.callbackGroup 0 "/n@a".toList 7, proceedWell, proceedWell,
        .reapplyConfig (.ok exactDocument), proceedWell]).1
    ⟨(smallConfigurator.exec loadedConfigurator []
      [.callbackGroup 0 "/n@a".toList 7, proceedWell, proceedWell,
        .reapplyConfig (.ok exactDocument), proceedWell]).2, proceedWell, none⟩ _ hrun
    ⟨0, "/n@a".toList, 7, wildcardEntry.attrs⟩ (List.mem_singleton.mpr rfl)
  have hpolicy := congrArg (Option.map SchedAttrs.policy) hattrs
  exact absurd hpolicy (by decide)

end Agnocast
