import Agnocast.ThreadConfigurator.Accounting

/-!
# The thread configurator — the tids that are known

* `ThreadConfiguratorNode.lastTid` — what an entry has recorded.
* `lastTid_step` — only an announcement changes it, as long as there is an entry of that form.
* `lastTid_of_announces` — an announcement is recorded.
* `lastTid_since` — in a run, the tid that was announced last is the one that is known.
* `configurator_accounting` — the promises of the node; `accounting_before_fetch_sub` is why the
  counter is not right between two writes of a request.
-/

namespace Agnocast

open Transition Index

/-! ## What is known -/

/-- An entry that an announcement may go to, and what it is asked for. -/
inductive ConfiguratorEntry
  /-- the exact entry of a callback group -/
  | exact (domainId : Nat) (id : Name)
  /-- the wildcard entry of the node of a callback group, for this group -/
  | wildcard (domainId : Nat) (id : Name)
  | nonRos (name : Name)

/-- The tid in an entry, `-1` before the first announcement; none if there is no entry. -/
def ThreadConfiguratorNode.lastTid (n : ThreadConfiguratorNode) : ConfiguratorEntry → Option Int
  | .exact domainId id => (n.exactConfig (domainId, id)).map ThreadConfig.threadId
  | .wildcard domainId id => (n.wildcardConfig (domainId, extractNodePart id)).map fun c =>
    (Dict.get c.matchedTids id).getD (-1)
  | .nonRos name => (n.nonRosConfig name).map ThreadConfig.threadId

/-- The input is an announcement of what the entry is asked for. -/
def ConfiguratorInput.Mentions : ConfiguratorInput → ConfiguratorEntry → Prop
  | .nonRosThread name _ _, .nonRos name' => name = name'
  | .callbackGroup domainId id _, .exact domainId' id' => domainId = domainId' ∧ id = id'
  | .callbackGroup domainId id _, .wildcard domainId' id' => domainId = domainId' ∧ id = id'
  | _, _ => False

/-- The input is an announcement that goes to the entry, with this tid. -/
def ConfiguratorInput.Announces (s : Configurator) :
    ConfiguratorInput → ConfiguratorEntry → Int → Prop
  | .nonRosThread name tid _, .nonRos name', tid' => name = name' ∧ tid = tid'
  | .callbackGroup domainId id tid, .exact domainId' id', tid' =>
    s.place = .spinning ∧ domainId = domainId' ∧ id = id' ∧ tid = tid'
  -- exact entries take precedence
  | .callbackGroup domainId id tid, .wildcard domainId' id', tid' =>
    s.place = .spinning ∧ domainId = domainId' ∧ id = id' ∧ tid = tid' ∧
      s.node.lastTid (.exact domainId id) = none
  | _, _, _ => False

section

variable {n : ThreadConfiguratorNode} {e : ConfiguratorEntry}

/-! ## Steps that announce nothing -/

theorem lastTid_countDown : n.countDown.lastTid e = n.lastTid e := by
  cases e <;> rfl

theorem lastTid_markCallbackGroup (i : Nat) :
    (n.changeCallbackGroup i ThreadConfig.markApplied).lastTid e = n.lastTid e := by
  cases e with
  | exact domainId id =>
    exact map_lookup_congr (g := ThreadConfig.threadId) (map_modify (f := ThreadConfig.markApplied) (fun _ => rfl)
      n.callbackGroupConfigs i) n.idToCallbackGroupConfig (domainId, id)
  | wildcard domainId id =>
    exact map_lookup_congr (g := fun c => (Dict.get c.matchedTids id).getD (-1))
      (map_modify (f := ThreadConfig.markApplied) (fun _ => rfl) n.callbackGroupConfigs i) n.nodeToWildcardConfig
      (domainId, extractNodePart id)
  | nonRos name => rfl

theorem lastTid_markNonRosThread (i : Nat) :
    (n.changeNonRosThread i ThreadConfig.markApplied).lastTid e = n.lastTid e := by
  cases e with
  | exact domainId id => rfl
  | wildcard domainId id => rfl
  | nonRos name =>
    exact map_lookup_congr (g := ThreadConfig.threadId) (map_modify (f := ThreadConfig.markApplied) (fun _ => rfl)
      n.nonRosThreadConfigs i) n.idToNonRosThreadConfig name

/-- **The swap** of the callback groups: an entry of the same form has what was known. -/
theorem lastTid_setCallbackGroups {newCb : List ThreadConfig}
    (hkeys : (newCb.map ThreadConfig.key).Nodup) {t t' : Int} (ht : n.lastTid e = some t)
    (ht' : (n.setCallbackGroups (newCb.map n.carryOver)).lastTid e = some t') : t' = t := by
  have hkeys' : ((newCb.map n.carryOver).map ThreadConfig.key).Nodup := by
    rwa [map_key_carryOver]
  cases e with
  | exact domainId id =>
    obtain ⟨c, hc, rfl⟩ := Option.map_eq_some_iff.mp ht'
    obtain ⟨hmem, hkey⟩ := (lookup_eq_some_iff (distinct_exactKey hkeys')).mp hc
    obtain ⟨c, -, rfl⟩ := List.mem_map.mp hmem
    rw [ThreadConfig.exactKey_congr (carryOver_key n c)] at hkey
    obtain ⟨hexact, hkey⟩ := ThreadConfig.exactKey_eq_some.mp hkey
    obtain ⟨old, hold, rfl⟩ := Option.map_eq_some_iff.mp ht
    unfold ThreadConfiguratorNode.carryOver
    rw [hexact, if_neg (by simp), show (c.domainId, c.threadStr) = (domainId, id) from hkey, hold]
  | wildcard domainId id =>
    obtain ⟨c, hc, rfl⟩ := Option.map_eq_some_iff.mp ht'
    obtain ⟨hmem, hkey⟩ := (lookup_eq_some_iff (distinct_wildcardKey hkeys')).mp hc
    obtain ⟨c, -, rfl⟩ := List.mem_map.mp hmem
    rw [ThreadConfig.wildcardKey_congr (carryOver_key n c)] at hkey
    unfold ThreadConfig.wildcardKey at hkey
    split at hkey
    · next hwild =>
      obtain ⟨old, hold, rfl⟩ := Option.map_eq_some_iff.mp ht
      unfold ThreadConfiguratorNode.carryOver
      rw [if_pos hwild, Option.some.inj hkey, hold]
    · cases hkey
  | nonRos name => exact Option.some.inj (ht'.symm.trans ht)

/-- The swap of the non-ROS threads. -/
theorem lastTid_setNonRosThreads {newNrt : List ThreadConfig}
    (hnames : (newNrt.map ThreadConfig.threadStr).Nodup) {t t' : Int} (ht : n.lastTid e = some t)
    (ht' : (n.setNonRosThreads (newNrt.map n.carryOverNonRos)).lastTid e = some t') : t' = t := by
  cases e with
  | exact domainId id => exact Option.some.inj (ht'.symm.trans ht)
  | wildcard domainId id => exact Option.some.inj (ht'.symm.trans ht)
  | nonRos name =>
    have hnames' : ((newNrt.map n.carryOverNonRos).map ThreadConfig.threadStr).Nodup := by
      rwa [map_name_carryOver]
    obtain ⟨c, hc, rfl⟩ := Option.map_eq_some_iff.mp ht'
    obtain ⟨hmem, hkey⟩ := (lookup_eq_some_iff (distinct_nameKey hnames')).mp hc
    obtain ⟨c, -, rfl⟩ := List.mem_map.mp hmem
    have hname : c.threadStr = name :=
      (carryOverNonRos_threadStr n c).symm.trans (Option.some.inj hkey)
    obtain ⟨old, hold, rfl⟩ := Option.map_eq_some_iff.mp ht
    unfold ThreadConfiguratorNode.carryOverNonRos
    rw [hname, hold]

/-! ## Announcements -/

/-- A change at a place that the index does not find is not seen. -/
private theorem lookup_change {index : List ((Nat × Name) × Nat)} {l : List ThreadConfig} {i : Nat}
    {f : ThreadConfig → ThreadConfig} {k : Nat × Name} (h : Dict.get index k ≠ some i) :
    Index.lookup index (l.modify i f) k = Index.lookup index l k := by
  rw [lookup_modify, if_neg h]

/-- A wildcard entry in which the tid of one instance changes knows the others as before. -/
private theorem lastTid_changeInstance (h : NodeOk n) {domainId : Nat} {id : Name} {i : Nat}
    {c : ThreadConfig} (hc : n.callbackGroupConfigs[i]? = some c) (hd : c.domainId = domainId)
    {f : ThreadConfig → ThreadConfig} (hf : c.isWildcard = true → ∀ id', id' ≠ id →
      Dict.get (f c).matchedTids id' = Dict.get c.matchedTids id')
    {domainId' : Nat} {id' : Name} (hne : ¬(domainId = domainId' ∧ id = id')) :
    (n.changeCallbackGroup i f).lastTid (.wildcard domainId' id') =
      n.lastTid (.wildcard domainId' id') := by
  show (Index.lookup _ (n.callbackGroupConfigs.modify i f) _).map _ = _
  rw [lookup_modify]
  split
  · next hget =>
    change Dict.get n.nodeToWildcardConfig _ = some i at hget
    obtain ⟨c', hc', hwild, hd', _⟩ := wildcard_of_get h hget
    obtain rfl := Option.some.inj (hc.symm.trans hc')
    -- the entry is of this domain, so it is another instance that is asked for
    have hid : id' ≠ id := by
      rintro rfl
      exact hne ⟨hd.symm.trans hd', rfl⟩
    show ((Index.lookup n.nodeToWildcardConfig n.callbackGroupConfigs _).map _).map _ =
      (Index.lookup n.nodeToWildcardConfig n.callbackGroupConfigs _).map _
    unfold Index.lookup
    rw [hget, Option.bind_some, hc, Option.map_some, Option.map_some, Option.map_some,
      hf hwild id' hid]
  · rfl

/-- Recording does not change what another entry knows. -/
private theorem lastTid_record (h : NodeOk n) {domainId : Nat} {id : Name} {tid : Int} {i : Nat}
    (hi : Dict.get n.idToCallbackGroupConfig (domainId, id) = some i ∨
      Dict.get n.nodeToWildcardConfig (domainId, extractNodePart id) = some i)
    (hne : ¬ConfiguratorInput.Mentions (.callbackGroup domainId id tid) e) :
    (n.changeCallbackGroup i (·.record id tid)).lastTid e = n.lastTid e := by
  -- the entry at `i` is of this domain, and the exact one of `id` or the wildcard one of its node
  obtain ⟨c, hc, hd, hform⟩ : ∃ c, n.callbackGroupConfigs[i]? = some c ∧ c.domainId = domainId ∧
      (c.isWildcard = false → c.threadStr = id) := by
    rcases hi with hi | hi
    · obtain ⟨c, hc, _, hd, hstr⟩ := exact_of_get h hi
      exact ⟨c, hc, hd, fun _ => hstr⟩
    · obtain ⟨c, hc, hwild, hd, _⟩ := wildcard_of_get h hi
      refine ⟨c, hc, hd, fun hnot => ?_⟩
      rw [hwild] at hnot
      cases hnot
  cases e with
  | exact domainId' id' =>
    refine congrArg (Option.map ThreadConfig.threadId) (lookup_change fun hget => hne ?_)
    obtain ⟨c', hc', hexact, hd', hstr⟩ := exact_of_get h hget
    obtain rfl := Option.some.inj (hc.symm.trans hc')
    exact ⟨hd.symm.trans hd', (hform hexact).symm.trans hstr⟩
  | wildcard domainId' id' =>
    refine lastTid_changeInstance h hc hd (fun hwild id' hid => ?_) hne
    rw [record_of_isWildcard hwild]
    dsimp only
    rw [Dict.get_set, if_neg hid]
  | nonRos name => rfl

/-- Forgetting an instance does not change what an entry knows of another one. -/
private theorem lastTid_forget (h : NodeOk n) {domainId : Nat} {id : Name} {tid : Int} {w : Nat}
    (hw : Dict.get n.nodeToWildcardConfig (domainId, extractNodePart id) = some w)
    (hne : ¬ConfiguratorInput.Mentions (.callbackGroup domainId id tid) e) :
    (n.changeCallbackGroup w (·.forget id)).lastTid e = n.lastTid e := by
  obtain ⟨c, hc, hwild, hd, _⟩ := wildcard_of_get h hw
  cases e with
  | exact domainId' id' =>
    exact map_lookup_congr (g := ThreadConfig.threadId) (map_modify (f := (·.forget id)) (fun _ => rfl)
      n.callbackGroupConfigs w) n.idToCallbackGroupConfig (domainId', id')
  | wildcard domainId' id' =>
    refine lastTid_changeInstance h hc hd (fun _ id' hid => ?_) hne
    show Dict.get (Dict.erase c.matchedTids id) id' = _
    rw [Dict.get_erase, if_neg hid]
  | nonRos name => rfl

theorem lastTid_callbackGroupCallback (h : NodeOk n) {domainId : Nat} {id : Name} {tid : Int}
    (hne : ¬ConfiguratorInput.Mentions (.callbackGroup domainId id tid) e) :
    (n.callbackGroupCallback domainId id tid).2.lastTid e = n.lastTid e := by
  have houtcome := callbackGroupCallback_outcome n domainId id tid
  generalize n.callbackGroupCallback domainId id tid = outcome at houtcome
  cases houtcome with
  | unknown hexact hwildcard => rfl
  | exact hexact hwildcard => exact lastTid_record h (.inl hexact) hne
  | @moved i w hexact hwildcard =>
    have hforgotten : NodeOk (n.changeCallbackGroup w (·.forget id)) :=
      h.changeCallbackGroup (forget_key id) (h.callbackGroups.forget w id)
    exact (lastTid_record hforgotten (.inl hexact) hne).trans (lastTid_forget h hwildcard hne)
  | wildcard hexact hwildcard => exact lastTid_record h (.inr hwildcard) hne

theorem lastTid_nonRosThreadCallback (h : NodeOk n) {name : Name} {tid : Int}
    {succeeds : Syscall → Bool}
    (hne : ¬ConfiguratorInput.Mentions (.nonRosThread name tid succeeds) e) :
    (n.nonRosThreadCallback name tid succeeds).lastTid e = n.lastTid e := by
  -- only the entry of `name` is changed
  have hchange {i : Nat} (hi : Dict.get n.idToNonRosThreadConfig name = some i) :
      (n.changeNonRosThread i (·.setThreadId tid)).lastTid e = n.lastTid e := by
    cases e with
    | exact domainId id => rfl
    | wildcard domainId id => rfl
    | nonRos name' =>
      show (Index.lookup _ (n.nonRosThreadConfigs.modify i _) _).map _ = _
      rw [lookup_modify, if_neg]
      · rfl
      · intro hi'
        change Dict.get n.idToNonRosThreadConfig name' = some i at hi'
        rw [h.nonRosIndex] at hi hi'
        obtain ⟨c, hc, hname⟩ := of_get_places hi
        obtain ⟨c', hc', hname'⟩ := of_get_places hi'
        obtain rfl := Option.some.inj (hc.symm.trans hc')
        exact hne (Option.some.inj (hname.symm.trans hname'))
  have houtcome := nonRosThreadCallback_outcome n name tid succeeds
  generalize n.nonRosThreadCallback name tid succeeds = n' at houtcome
  cases houtcome with
  | unknown hname => rfl
  | noted hname => exact hchange hname
  | @applied i hname c hc happlied =>
    rw [lastTid_countDown, lastTid_markNonRosThread, hchange hname]

/-- **An announcement of a callback group** is recorded in its exact entry, or else in the wildcard
entry of its node. -/
theorem lastTid_callbackGroupCallback_of_entry (h : NodeOk n) {domainId : Nat} {id : Name}
    (tid : Int) :
    ((n.lastTid (.exact domainId id)).isSome = true →
      (n.callbackGroupCallback domainId id tid).2.lastTid (.exact domainId id) = some tid) ∧
    (n.lastTid (.exact domainId id) = none →
      (n.lastTid (.wildcard domainId id)).isSome = true →
      (n.callbackGroupCallback domainId id tid).2.lastTid (.wildcard domainId id) = some tid) := by
  have hnone : n.lastTid (.exact domainId id) = none ↔
      Dict.get n.idToCallbackGroupConfig (domainId, id) = none := by
    show (Index.lookup _ _ _).map _ = none ↔ _
    rw [Option.map_eq_none_iff, h.exactIndex, lookup_eq_none, get_places_eq_none]
  have hsome {i : Nat} (hi : Dict.get n.idToCallbackGroupConfig (domainId, id) = some i) :
      n.lastTid (.exact domainId id) ≠ none := by
    rw [ne_eq, hnone, hi]
    simp
  -- recording at the place of the exact entry
  have hrecord {n' : ThreadConfiguratorNode} (h' : NodeOk n') {i : Nat}
      (hi : Dict.get n'.idToCallbackGroupConfig (domainId, id) = some i) :
      (n'.changeCallbackGroup i (·.record id tid)).lastTid (.exact domainId id) = some tid := by
    obtain ⟨c, hc, hexact, _, _⟩ := exact_of_get h' hi
    show (Index.lookup n'.idToCallbackGroupConfig (n'.callbackGroupConfigs.modify i _) _).map _ = _
    rw [lookup_modify, if_pos hi]
    unfold Index.lookup
    rw [hi, Option.bind_some, hc, Option.map_some, Option.map_some, record_of_exact hexact]
    rfl
  have houtcome := callbackGroupCallback_outcome n domainId id tid
  generalize n.callbackGroupCallback domainId id tid = outcome at houtcome
  cases houtcome with
  | unknown hexact hwildcard =>
    refine ⟨fun hthere => ?_, fun _ hthere => ?_⟩
    · rw [hnone.mpr hexact] at hthere
      cases hthere
    · obtain ⟨t, ht⟩ := Option.isSome_iff_exists.mp hthere
      obtain ⟨c, hc, rfl⟩ := Option.map_eq_some_iff.mp ht
      unfold ThreadConfiguratorNode.wildcardConfig Index.lookup at hc
      rw [hwildcard] at hc
      cases hc
  | exact hexact hwildcard => exact ⟨fun _ => hrecord h hexact, fun hno => absurd hno (hsome hexact)⟩
  | @moved i w hexact hwildcard =>
    have hforgotten : NodeOk (n.changeCallbackGroup w (·.forget id)) :=
      h.changeCallbackGroup (forget_key id) (h.callbackGroups.forget w id)
    exact ⟨fun _ => hrecord hforgotten hexact, fun hno => absurd hno (hsome hexact)⟩
  | @wildcard w hexact hwildcard =>
    refine ⟨fun hthere => ?_, fun _ _ => ?_⟩
    · rw [hnone.mpr hexact] at hthere
      cases hthere
    · obtain ⟨c, hc, hwild, _, _⟩ := wildcard_of_get h hwildcard
      show (Index.lookup n.nodeToWildcardConfig (n.callbackGroupConfigs.modify w _) _).map _ = _
      rw [lookup_modify, if_pos hwildcard]
      unfold Index.lookup
      rw [hwildcard, Option.bind_some, hc, Option.map_some, Option.map_some,
        record_of_isWildcard hwild]
      dsimp only
      rw [Dict.get_set, if_pos rfl]
      rfl

/-- An announcement of a non-ROS thread is recorded in its entry. -/
theorem lastTid_nonRosThreadCallback_of_entry {name : Name} (tid : Int)
    (succeeds : Syscall → Bool) (hthere : (n.lastTid (.nonRos name)).isSome = true) :
    (n.nonRosThreadCallback name tid succeeds).lastTid (.nonRos name) = some tid := by
  obtain ⟨t, ht⟩ := Option.isSome_iff_exists.mp hthere
  obtain ⟨c, hc, rfl⟩ := Option.map_eq_some_iff.mp ht
  obtain ⟨i, hi, hplace⟩ := Option.bind_eq_some_iff.mp hc
  have hset : (n.changeNonRosThread i (·.setThreadId tid)).lastTid (.nonRos name) = some tid := by
    show (Index.lookup n.idToNonRosThreadConfig (n.nonRosThreadConfigs.modify i _) _).map _ = _
    rw [lookup_modify, if_pos hi]
    unfold Index.lookup
    rw [hi, Option.bind_some, hplace, Option.map_some, Option.map_some]
    rfl
  have houtcome := nonRosThreadCallback_outcome n name tid succeeds
  generalize n.nonRosThreadCallback name tid succeeds = n' at houtcome
  cases houtcome with
  | unknown hname =>
    rw [hname] at hi
    cases hi
  | noted hname =>
    obtain rfl := Option.some.inj (hi.symm.trans hname)
    exact hset
  | applied hname happlied hfalse =>
    obtain rfl := Option.some.inj (hi.symm.trans hname)
    rw [lastTid_countDown, lastTid_markNonRosThread, hset]

end

/-! ## Runs -/

section

variable {asInt : Name → Option Int} {asUnsigned : Name → Option Nat} {cpus defaultDomainId : Nat}
  {configFile : Name} {s : Configurator} {e : ConfiguratorEntry}

private theorem lastTid_proceed (hs : ConfiguratorOk s) (succeeds : Nat → Syscall → Bool)
    (m : Machine) {t t' : Int} (ht : s.node.lastTid e = some t)
    (ht' : (s.proceed succeeds m).2.node.lastTid e = some t') : t' = t := by
  obtain ⟨n, place⟩ := s
  have hsame {n' : ThreadConfiguratorNode} (h : n'.lastTid e = n.lastTid e)
      (hn' : n'.lastTid e = some t') : t' = t := Option.some.inj (hn'.symm.trans (h.trans ht))
  cases place with
  | spinning => exact hsame rfl ht'
  | recorded index tid =>
    unfold Configurator.proceed at ht'
    dsimp only at ht'
    split at ht'
    · exact hsame rfl ht'
    split at ht'
    · exact hsame rfl ht'
    split at ht'
    · exact hsame (lastTid_markCallbackGroup index) ht'
    · exact hsame rfl ht'
  | marked => exact hsame lastTid_countDown ht'
  | swapped newNrt newKernelThreads newIrqs =>
    -- the new list carries the tids over by name
    refine lastTid_setNonRosThreads (e := e) hs.counted.2.1 ht ?_
    cases e <;> exact ht'
  | applying index response =>
    unfold Configurator.proceed at ht'
    dsimp only at ht'
    split at ht'
    · next config hconfig =>
      generalize applyCallbackGroup succeeds config response = outcome at ht'
      obtain ⟨applied, response'⟩ := outcome
      dsimp only at ht'
      split at ht'
      · exact hsame (lastTid_markCallbackGroup index) ht'
      · exact hsame rfl ht'
    · obtain ⟨hmap, -⟩ := applyNonRosThreads_spec succeeds 0 n.nonRosThreadConfigs response
      generalize applyNonRosThreads succeeds 0 n.nonRosThreadConfigs response = outcome at hmap ht'
      obtain ⟨configs, count, response'⟩ := outcome
      refine hsame ?_ ht'
      -- what is applied keeps its tid
      have htids : configs.map ThreadConfig.threadId =
          n.nonRosThreadConfigs.map ThreadConfig.threadId := by
        have hsnd := congrArg (List.map Prod.snd) hmap
        rwa [List.map_map, List.map_map] at hsnd
      cases e with
      | exact domainId id => rfl
      | wildcard domainId id => rfl
      | nonRos name => exact map_lookup_congr htids n.idToNonRosThreadConfig name
  | applyingMarked index response =>
    refine hsame ?_ ht'
    cases e <;> rfl
  | appliedNonRos response => exact hsame rfl ht'

/-- **Only an announcement changes what is known**, as long as there is an entry of this form. -/
theorem lastTid_step (hs : ConfiguratorOk s) {i : ConfiguratorInput} (hne : ¬i.Mentions e)
    {t t' : Int} (ht : s.node.lastTid e = some t)
    (ht' : (s.step asInt asUnsigned cpus defaultDomainId configFile i).2.node.lastTid e = some t') :
    t' = t := by
  cases i with
  | nonRosThread name tid succeeds =>
    change (s.node.nonRosThreadCallback name tid succeeds).lastTid e = some t' at ht'
    rw [lastTid_nonRosThreadCallback hs.node hne, ht] at ht'
    exact (Option.some.inj ht').symm
  | callbackGroup domainId id tid =>
    obtain ⟨n, place⟩ := s
    cases place with
    | spinning =>
      have hkept := lastTid_callbackGroupCallback hs.node hne
      unfold Configurator.step Configurator.take at ht'
      dsimp only at ht' hkept ht
      generalize n.callbackGroupCallback domainId id tid = outcome at ht' hkept
      obtain ⟨index?, n'⟩ := outcome
      have hn' : n'.lastTid e = some t' := by cases index? <;> exact ht'
      exact Option.some.inj (hn'.symm.trans (hkept.trans ht))
    | _ => exact Option.some.inj (ht'.symm.trans ht)
  | reapplyConfig file =>
    obtain ⟨n, place⟩ := s
    cases place with
    | spinning =>
      unfold Configurator.step Configurator.take at ht'
      dsimp only at ht'
      unfold Configurator.onReapplyConfigRequest at ht'
      split at ht'
      · exact Option.some.inj (ht'.symm.trans ht)
      split at ht'
      · exact Option.some.inj (ht'.symm.trans ht)
      next newCb newNrt newKernelThreads newIrqs hparse =>
      exact lastTid_setCallbackGroups (parseAll_fresh hparse).keys ht ht'
    | _ => exact Option.some.inj (ht'.symm.trans ht)
  | proceed succeeds m => exact lastTid_proceed hs succeeds m ht ht'

/-- **An announcement is recorded.** -/
theorem lastTid_of_announces (hs : ConfiguratorOk s) {i : ConfiguratorInput} {tid : Int}
    (hann : i.Announces s e tid) (hthere : (s.node.lastTid e).isSome = true) :
    (s.step asInt asUnsigned cpus defaultDomainId configFile i).2.node.lastTid e = some tid := by
  -- the step of an announcement that the executor takes
  have htake {domainId : Nat} {id : Name} (hplace : s.place = .spinning) {e : ConfiguratorEntry}
      (h : (s.node.callbackGroupCallback domainId id tid).2.lastTid e = some tid) :
      (s.step asInt asUnsigned cpus defaultDomainId configFile
        (.callbackGroup domainId id tid)).2.node.lastTid e = some tid := by
    obtain ⟨n, place⟩ := s
    cases hplace
    unfold Configurator.step Configurator.take
    dsimp only at h ⊢
    generalize n.callbackGroupCallback domainId id tid = outcome at h
    obtain ⟨index?, n'⟩ := outcome
    cases index? <;> exact h
  cases i with
  | nonRosThread name tid' succeeds =>
    cases e with
    | nonRos name' =>
      obtain ⟨rfl, rfl⟩ := hann
      exact lastTid_nonRosThreadCallback_of_entry tid' succeeds hthere
    | exact domainId id => exact hann.elim
    | wildcard domainId id => exact hann.elim
  | callbackGroup domainId id tid' =>
    cases e with
    | nonRos name' => exact hann.elim
    | exact domainId' id' =>
      obtain ⟨hplace, rfl, rfl, rfl⟩ := hann
      exact htake hplace ((lastTid_callbackGroupCallback_of_entry hs.node tid').1 hthere)
    | wildcard domainId' id' =>
      obtain ⟨hplace, rfl, rfl, rfl, hnone⟩ := hann
      exact htake hplace ((lastTid_callbackGroupCallback_of_entry hs.node tid').2 hnone hthere)
  | reapplyConfig file => cases e <;> exact hann.elim
  | proceed succeeds m => cases e <;> exact hann.elim

/-- **In a run**, whatever reapply requests come in between, the tid that was announced last is the
one that is known. -/
theorem lastTid_since {later base : List (Transition.Event Configurator ConfiguratorInput
      (Option ReapplyResponse))} {ev : Transition.Event Configurator ConfiguratorInput (Option ReapplyResponse)}
    {tid : Int}
    (hr : Run (threadConfigurator asInt asUnsigned cpus defaultDomainId configFile) anyStep
      (later ++ ev :: base) s) (hann : ev.input.Announces ev.pre e tid)
    (hthere : ∀ x ∈ ev :: later, (x.pre.node.lastTid e).isSome = true)
    (hne : ∀ x ∈ later, ¬x.input.Mentions e) (hnow : (s.node.lastTid e).isSome = true) :
    s.node.lastTid e = some tid := by
  have hthere' : ∀ x ∈ later, (x.pre.node.lastTid e).isSome = true :=
    fun x hx => hthere x (List.mem_cons_of_mem _ hx)
  refine Run.since (P := fun later s => (∀ x ∈ later, (x.pre.node.lastTid e).isSome = true) →
    (∀ x ∈ later, ¬x.input.Mentions e) → (s.node.lastTid e).isSome = true →
      s.node.lastTid e = some tid) (fun s₀ hr₀ _ _ _ => ?_)
    (fun later' s₀ i hr₀ ih _ hthere₀ hne₀ hnow₀ => ?_) hr hthere' hne hnow
  · -- right after the announcement
    cases hr₀ with
    | step i hr' _ =>
      exact lastTid_of_announces (configuratorOk_of_reachable hr'.reachable) hann
        (hthere _ List.mem_cons_self)
  · -- a step after it
    obtain ⟨t', ht'⟩ := Option.isSome_iff_exists.mp hnow₀
    have hbefore := ih (fun x hx => hthere₀ x (List.mem_cons_of_mem _ hx))
      (fun x hx => hne₀ x (List.mem_cons_of_mem _ hx)) (hthere₀ _ List.mem_cons_self)
    rw [ht', lastTid_step (configuratorOk_of_reachable hr₀.reachable)
      (hne₀ _ List.mem_cons_self) hbefore ht']

/-! ## The promises -/

/-- The executor is between two writes that belong together. -/
def ConfiguratorPlace.betweenWrites : ConfiguratorPlace → Bool
  | .swapped _ _ _ => true
  | .marked => true
  | .applyingMarked _ _ => true
  | _ => false

/-- The entry at a place tracks a callback group: it has been announced, and this entry would apply
its configuration to the thread. -/
def ThreadConfiguratorNode.Tracks (n : ThreadConfiguratorNode) (i domainId : Nat) (id : Name) :
    Prop :=
  ∃ c, n.callbackGroupConfigs[i]? = some c ∧ c.domainId = domainId ∧
    if c.isWildcard then id ∈ c.instances else c.threadStr = id ∧ c.threadId ≠ -1

end

section

variable (asInt : Name → Option Int) (asUnsigned : Name → Option Nat) (cpus defaultDomainId : Nat)
  (configFile : Name)

/-- What the node promises in a state. -/
structure ConfiguratorSound (s : Configurator) : Prop where
  /-- the counter is the number of entries that are not applied -/
  counted : s.place.betweenWrites = false → s.node.unappliedNum = s.node.unapplied
  /-- a callback group is tracked once -/
  tracked : ∀ domainId id i j, s.node.Tracks i domainId id → s.node.Tracks j domainId id → i = j
  /-- a request that is rejected changes nothing -/
  rejected : ∀ file response,
    (s.step asInt asUnsigned cpus defaultDomainId configFile (.reapplyConfig file)).1 =
      some response →
    response.success = false ∧
      (s.step asInt asUnsigned cpus defaultDomainId configFile (.reapplyConfig file)).2 = s
  /-- no step of a reapply changes the tid that an entry knows, if there is one of its form -/
  kept : ∀ i e t t', ¬i.Mentions e → s.node.lastTid e = some t →
    (s.step asInt asUnsigned cpus defaultDomainId configFile i).2.node.lastTid e = some t' →
    t' = t

/-- **The accounting of the thread configurator**: in every state of every run the counter is right
unless the executor is between two writes, no callback group is tracked twice, and a rejected
request changes nothing. In every run an entry knows the tid that was announced last, whatever
requests have been accepted since, as long as there is an entry of its form. -/
theorem configurator_accounting :
    (∀ s, Transition.Reachable (threadConfigurator asInt asUnsigned cpus defaultDomainId configFile) s →
      ConfiguratorSound asInt asUnsigned cpus defaultDomainId configFile s) ∧
    ∀ later ev base s e tid,
      Run (threadConfigurator asInt asUnsigned cpus defaultDomainId configFile) anyStep
        (later ++ ev :: base) s →
      ev.input.Announces ev.pre e tid →
      (∀ x ∈ ev :: later, (x.pre.node.lastTid e).isSome = true) →
      (∀ x ∈ later, ¬x.input.Mentions e) → (s.node.lastTid e).isSome = true →
      s.node.lastTid e = some tid := by
  refine ⟨fun s hreach => ?_, fun later ev base s e tid => lastTid_since⟩
  have hs : ConfiguratorOk s := configuratorOk_of_reachable hreach
  refine ⟨fun hplace => ?_, ?_, fun file response hresponse => ?_,
    fun i e t t' hne => lastTid_step hs hne⟩
  -- where the counter is behind, the executor is between two writes
  · have hcounted := hs.counted
    obtain ⟨n, place⟩ := s
    cases place with
    | spinning => exact hcounted
    | recorded index tid => exact hcounted
    | applying index response => exact hcounted.1
    | appliedNonRos response => exact hcounted
    | marked => cases hplace
    | swapped newNrt newKernelThreads newIrqs => cases hplace
    | applyingMarked index response => cases hplace
  -- two entries that track a group would share their key
  · rintro domainId id i j ⟨a, ha, hda, hta⟩ ⟨b, hb, hdb, htb⟩
    exact hs.node.callbackGroups.tracked_once ha hb hda hdb hta htb
  · obtain ⟨n, place⟩ := s
    cases place with
    | spinning =>
      unfold Configurator.step Configurator.take at hresponse ⊢
      dsimp only at hresponse ⊢
      unfold Configurator.onReapplyConfigRequest at hresponse ⊢
      split at hresponse
      · cases hresponse
        exact ⟨rfl, rfl⟩
      next yaml =>
      dsimp only
      split at hresponse
      · cases hresponse
        exact ⟨rfl, rfl⟩
      · cases hresponse
    | _ => cases hresponse

end

/-! ## A small configuration -/

/-- How `as<int>` reads a zero. -/
def zeroAsInt (text : Name) : Option Int := if text = ['0'] then some 0 else none

/-- A document with a wildcard entry for the node `/n`. -/
def wildcardDocument : Yaml :=
  .map [("callback_groups".toList, .seq [.map [("id".toList, .scalar "/n/*".toList),
      ("policy".toList, .scalar "SCHED_OTHER".toList), ("nice".toList, .scalar ['0'])]]),
    ("non_ros_threads".toList, .seq [])]

/-- The entry of that document. -/
def wildcardEntry : ThreadConfig :=
  ⟨"/n/*".toList, 0, -1, { SchedAttrs.blank with policy := some .other }, [], false⟩

/-- The configurator of that document. -/
def smallConfigurator : Transition.System Configurator ConfiguratorInput (Option ReapplyResponse) :=
  threadConfigurator zeroAsInt (fun _ => none) 4 0 "c.yaml".toList

/-- The node that has loaded it. -/
def loadedConfigurator : Configurator := ⟨.construct [wildcardEntry] [] [] [], .spinning⟩

theorem loadedConfigurator_init : smallConfigurator.init loadedConfigurator :=
  ⟨wildcardDocument, [wildcardEntry], [], [], [], rfl, rfl⟩

/-- The executor goes on, and every system call succeeds. -/
def proceedWell : ConfiguratorInput := .proceed (fun _ _ => true) ⟨[], [], 4⟩

/-- `/n@a` is announced, and then the document is reapplied. -/
theorem configurator_accounting_run :
    let announcement : ConfiguratorInput := .callbackGroup 0 "/n@a".toList 7
    let s := (smallConfigurator.exec loadedConfigurator []
      [announcement, proceedWell, proceedWell, .reapplyConfig (.ok wildcardDocument),
        proceedWell]).2
    s.node.unappliedNum = s.node.unapplied ∧
      s.node.lastTid (.wildcard 0 "/n@a".toList) = some 7 := by
  intro announcement s
  have hinit := Run.init (G := anyStep) loadedConfigurator_init
  have hpart := configurator_accounting zeroAsInt (fun _ => none) 4 0 "c.yaml".toList
  have hrun := hinit.exec (smallConfigurator.guarded_anyStep loadedConfigurator
    [announcement, proceedWell, proceedWell, .reapplyConfig (.ok wildcardDocument), proceedWell])
  refine ⟨(hpart.1 s hrun.reachable).counted rfl, ?_⟩
  refine hpart.2 (smallConfigurator.exec (smallConfigurator.step loadedConfigurator announcement).2 []
      [proceedWell, proceedWell, .reapplyConfig (.ok wildcardDocument), proceedWell]).1
    ⟨loadedConfigurator, announcement, none⟩ [] s (.wildcard 0 "/n@a".toList) 7 hrun
    ⟨rfl, rfl, rfl, rfl, rfl⟩ ?_ ?_ rfl
  · exact List.forall_mem_cons.mpr ⟨rfl, List.forall_mem_cons.mpr ⟨rfl, List.forall_mem_cons.mpr
      ⟨rfl, List.forall_mem_cons.mpr ⟨rfl, List.forall_mem_cons.mpr
        ⟨rfl, fun x hx => absurd hx List.not_mem_nil⟩⟩⟩⟩⟩
  · exact List.forall_mem_cons.mpr ⟨id, List.forall_mem_cons.mpr ⟨id, List.forall_mem_cons.mpr
      ⟨id, List.forall_mem_cons.mpr ⟨id, fun x hx => absurd hx List.not_mem_nil⟩⟩⟩⟩

/-- A request counts down after it has marked an entry: in between, the counter is one too many. -/
theorem accounting_before_fetch_sub :
    ¬∀ s, Transition.Reachable smallConfigurator s →
      (∀ newNrt newKernelThreads newIrqs, s.place ≠ .swapped newNrt newKernelThreads newIrqs) →
      s.place ≠ .marked → s.node.unappliedNum = s.node.unapplied := by
  intro hall
  have hreach := Transition.Reachable.exec loadedConfigurator_init
    [.callbackGroup 0 "/n@a".toList 7, proceedWell, proceedWell,
      .reapplyConfig (.ok wildcardDocument), proceedWell, proceedWell]
  generalize hs : (smallConfigurator.exec loadedConfigurator [] _).2 = s at hreach
  obtain ⟨response, hplace⟩ : ∃ response, s.place = .applyingMarked 0 response := by
    rw [← hs]
    exact ⟨_, rfl⟩
  have hnum : s.node.unappliedNum = 1 := by
    rw [← hs]
    rfl
  have hunapplied : s.node.unapplied = 0 := by
    rw [← hs]
    rfl
  have hcounted := hall s hreach
    (fun newNrt newKernelThreads newIrqs heq => by rw [hplace] at heq; cases heq)
    (fun heq => by rw [hplace] at heq; cases heq)
  rw [hnum, hunapplied] at hcounted
  exact absurd hcounted (by decide)

end Agnocast
