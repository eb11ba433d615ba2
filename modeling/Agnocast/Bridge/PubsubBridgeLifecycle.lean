import Agnocast.Bridge.PubsubBridge
import Agnocast.Bridge.ServiceBridgeLifecycle

/-!
# The bridge manager — the life of pub/sub bridges

A bridge comes on three ways (a message, the sweep, a lease of the daemon) and goes on one. On
each of the three the map of active bridges is looked at first, so a bridge is never replaced
while its group is in the executor.

* `PubsubBridges.Placed`    — one bridge for each topic and direction, and their groups in the
  executor, with the groups of the service bridges as a frame.
* `removeLoop_spec`         — what a pass removes, and what it keeps.
* `createPubsubBridgeIfNeeded_spec` — what becomes of a request.
* `pubsub_bridge_lifecycle` — a worker over a run.
-/

namespace Agnocast

/-! ## Active bridges -/

namespace PubsubBridges

/-- The groups of bridges. -/
def bridgeGroups (active : List (Bytes × PubsubBridgeResult)) : List Nat :=
  active.flatMap fun e => e.2.callbackGroup.toList

variable {b b' : PubsubBridges} {others : List Nat} {isR2a d : Bool} {topicName : Bytes}
  {result : PubsubBridgeResult} {active : List (Bytes × PubsubBridgeResult)}

/-- The groups of all bridges. -/
def groups (b : PubsubBridges) : List Nat := bridgeGroups b.r2a ++ bridgeGroups b.a2r

/-- **What the active bridges keep**, while `others` are groups of others. -/
structure Placed (b : PubsubBridges) (others : List Nat) : Prop where
  once : ∀ isR2a, ((b.active isR2a).map Prod.fst).Nodup
  present : ∀ isR2a, ∀ e ∈ b.active isR2a, e.2.entityHandle.isSome = true
  held : b.executor.Holds (b.groups ++ others)

@[simp] theorem active_setActive (isR2a d : Bool) (active : List (Bytes × PubsubBridgeResult)) :
    (b.setActive isR2a active).active d = if d = isR2a then active else b.active d := by
  cases isR2a <;> cases d <;> rfl

@[simp] theorem executor_setActive (isR2a : Bool) (active : List (Bytes × PubsubBridgeResult)) :
    (b.setActive isR2a active).executor = b.executor := by
  cases isR2a <;> rfl

theorem mem_groups {g : Nat} :
    g ∈ b.groups ↔ ∃ isR2a, ∃ e ∈ b.active isR2a, e.2.callbackGroup = some g := by
  have hmem : ∀ active : List (Bytes × PubsubBridgeResult), g ∈ bridgeGroups active ↔
      ∃ e ∈ active, e.2.callbackGroup = some g := fun active => by
    unfold bridgeGroups
    rw [List.mem_flatMap]
    simp only [Option.mem_toList]
  unfold groups
  rw [List.mem_append, hmem, hmem]
  constructor
  · rintro (h | h)
    · exact ⟨true, h⟩
    · exact ⟨false, h⟩
  · rintro ⟨isR2a, h⟩
    cases isR2a with
    | true => exact .inl h
    | false => exact .inr h

/-- The groups after one more bridge. -/
theorem groups_setActive_perm (hnew : topicName ∉ (b.active isR2a).map Prod.fst) :
    (b.setActive isR2a (Dict.set (b.active isR2a) topicName result)).groups.Perm
      (result.callbackGroup.toList ++ b.groups) := by
  have hset : ∀ active : List (Bytes × PubsubBridgeResult), topicName ∉ active.map Prod.fst →
      bridgeGroups (Dict.set active topicName result) =
        bridgeGroups active ++ result.callbackGroup.toList := fun active h => by
    unfold Dict.set bridgeGroups
    rw [if_neg h, List.flatMap_append, List.flatMap_singleton]
  cases isR2a with
  | true =>
    show (bridgeGroups (Dict.set b.r2a topicName result) ++ bridgeGroups b.a2r).Perm _
    rw [hset b.r2a hnew, List.append_assoc]
    exact List.perm_append_comm_assoc ..
  | false =>
    show (bridgeGroups b.r2a ++ bridgeGroups (Dict.set b.a2r topicName result)).Perm _
    rw [hset b.a2r hnew, ← List.append_assoc]
    exact List.perm_append_comm

theorem not_mem_of_isActive (h : b.isActive isR2a topicName = false) :
    topicName ∉ (b.active isR2a).map Prod.fst := by
  refine Dict.get_eq_none_iff.mp (Option.not_isSome_iff_eq_none.mp ?_)
  unfold isActive at h
  rw [h]
  exact Bool.false_ne_true

/-- No bridge goes. -/
def Grows (b b' : PubsubBridges) : Prop := ∀ isR2a, ∀ e ∈ b.active isR2a, e ∈ b'.active isR2a

theorem Grows.refl (b : PubsubBridges) : b.Grows b := fun _ _ h => h

theorem Grows.trans {b'' : PubsubBridges} (h : b.Grows b') (h' : b'.Grows b'') : b.Grows b'' :=
  fun isR2a e he => h' isR2a e (h isR2a e he)

/-- **A bridge that was not active becomes active**, and its group comes into the executor. -/
theorem Placed.activate {update : UpdateReply} (h : b.Placed others)
    (hnew : b.isActive isR2a topicName = false)
    (hactivate : b.activate isR2a topicName result update = some (.ok b')) :
    b'.Placed others ∧ b.Grows b' := by
  unfold PubsubBridges.activate at hactivate
  split at hactivate
  · obtain rfl := Except.ok.inj (Option.some.inj hactivate)
    exact ⟨h, .refl b⟩
  next hpresent =>
  -- the bridge is there whether or not the count could be updated
  have hdone : ∃ executor, b.executor.addIfPresent result.callbackGroup = some executor ∧
      b' = ({ b with executor := executor } : PubsubBridges).setActive isR2a
        (Dict.set (b.active isR2a) topicName result) := by
    cases update with
    | threw what => cases hactivate
    | updated =>
      obtain ⟨executor, hadd, heq⟩ := Option.map_eq_some_iff.mp hactivate
      exact ⟨executor, hadd, (Except.ok.inj heq).symm⟩
    | failed =>
      obtain ⟨executor, hadd, heq⟩ := Option.map_eq_some_iff.mp hactivate
      exact ⟨executor, hadd, (Except.ok.inj heq).symm⟩
  obtain ⟨executor, hadd, rfl⟩ := hdone
  have hmem := not_mem_of_isActive hnew
  have hactive : ∀ d, ({ b with executor := executor } : PubsubBridges).active d = b.active d :=
    fun d => rfl
  refine ⟨⟨fun d => ?_, fun d e he => ?_, ?_⟩, fun d e he => ?_⟩
  · rw [active_setActive, hactive]
    split
    next hd => exact Dict.nodup_keys_set (h.once isR2a)
    · exact h.once d
  · rw [active_setActive, hactive] at he
    split at he
    · rcases Dict.mem_set he with he | rfl
      · exact h.present isR2a e he
      · exact Option.isSome_iff_ne_none.mpr fun hnone =>
          hpresent (Option.isNone_iff_eq_none.mpr hnone)
    · exact h.present d e he
  · rw [executor_setActive]
    refine (h.held.addIfPresent hadd).of_perm ?_
    rw [← List.append_assoc]
    exact (groups_setActive_perm (b := { b with executor := executor }) hmem).symm.append_right _
  · rw [active_setActive, hactive]
    split
    next hd =>
      subst hd
      unfold Dict.set
      rw [if_neg hmem]
      exact List.mem_append_left _ he
    · exact he

/-! ## Creating a bridge -/

/-- **What becomes of a request.** If the creation throws, the request that it was for is dropped,
the others stay and no bridge is there that was not there. -/
theorem createPubsubBridgeIfNeeded_spec {self : EndpointInfo} {requests requests' : RequestMap}
    {messageType : Bytes} {direction : Direction} {a : TopicAnswers} {outcome : CreationOutcome}
    (h : b.Placed others)
    (hcreate : b.createPubsubBridgeIfNeeded self topicName requests messageType direction a =
      some (outcome, requests', b')) :
    b'.Placed others ∧ b.Grows b' ∧
      ((∀ id, outcome ≠ .threw id) ∧ requests' = requests ∨
        ∃ id, outcome = .threw id ∧ requests' = Dict.erase requests id ∧ b' = b) := by
  unfold createPubsubBridgeIfNeeded at hcreate
  dsimp only at hcreate
  split at hcreate
  · cases hcreate
  · obtain ⟨rfl, rfl, rfl⟩ : _ ∧ _ ∧ _ := by simpa using hcreate
    exact ⟨h, .refl b, .inl ⟨fun id heq => (by cases heq), rfl⟩⟩
  -- a bridge that is active is not created again
  next hshould =>
  have hnew : b.isActive (isR2aDirection direction) topicName = false := by
    unfold shouldCreatePubsubBridge at hshould
    split at hshould
    · cases hshould
    next hactive => simpa using hactive
  split at hcreate
  · obtain ⟨rfl, rfl, rfl⟩ : _ ∧ _ ∧ _ := by simpa using hcreate
    exact ⟨h, .refl b, .inl ⟨fun id heq => (by cases heq), rfl⟩⟩
  split at hcreate
  · obtain ⟨rfl, rfl, rfl⟩ : _ ∧ _ ∧ _ := by simpa using hcreate
    exact ⟨h, .refl b, .inr ⟨_, rfl, rfl, rfl⟩⟩
  split at hcreate
  · obtain ⟨rfl, rfl, rfl⟩ : _ ∧ _ ∧ _ := by simpa using hcreate
    exact ⟨h, .refl b, .inr ⟨_, rfl, rfl, rfl⟩⟩
  next result _ =>
  obtain ⟨activated, hactivate, heq⟩ := Option.map_eq_some_iff.mp hcreate
  cases activated with
  | ok b'' =>
    obtain ⟨rfl, rfl, rfl⟩ : _ ∧ _ ∧ _ := by simpa using heq
    obtain ⟨hplaced, hgrows⟩ := h.activate hnew hactivate
    exact ⟨hplaced, hgrows, .inl ⟨fun id heq => (by cases heq), rfl⟩⟩
  -- what the loader has made is not activated
  | error what =>
    obtain ⟨rfl, rfl, rfl⟩ : _ ∧ _ ∧ _ := by simpa using heq
    exact ⟨h, .refl b, .inr ⟨_, rfl, rfl, rfl⟩⟩

theorem Placed.activateDaemonForcedBridge {messageType : Bytes} {qos : Qos} {a : TopicAnswers}
    (h : b.Placed others) (hnew : b.isActive isR2a topicName = false)
    (hactivate : b.activateDaemonForcedBridge topicName messageType qos isR2a a = some b') :
    b'.Placed others ∧ b.Grows b' := by
  unfold PubsubBridges.activateDaemonForcedBridge at hactivate
  split at hactivate
  · obtain rfl := Option.some.inj hactivate
    exact ⟨h, .refl b⟩
  next result _ =>
  obtain ⟨activated, hactivated, heq⟩ := Option.map_eq_some_iff.mp hactivate
  cases activated with
  | ok b'' =>
    obtain rfl : b'' = b' := heq
    exact h.activate hnew hactivated
  | error what =>
    obtain rfl : b = b' := heq
    exact ⟨h, .refl b⟩

/-! ## Removing bridges -/

/-- The calls that remove and stop the groups of bridges, newest first. -/
def removalCalls (gone : List (Bytes × PubsubBridgeResult)) : List GroupCall :=
  (bridgeGroups gone).flatMap fun g => [.stop g, .remove g]

/-- The bridge was wanted: a local endpoint, and an external one or a lease. -/
def Demanded (self : EndpointInfo) (isR2a : Bool) (forced : Bytes → ℕ → Bool)
    (a : Bytes → TopicAnswers) (topicName : Bytes) : Prop :=
  0 < (a topicName).agnocastCount isR2a ∧
    ((a topicName).hasExternal isR2a self = .ok true ∨
      forced topicName (a topicName).now = true)

/-- **What a loop of the removal does.** The bridges that go are removed and stopped, once each;
if no count fails, those that stay were wanted. -/
theorem removeLoop_spec {self : EndpointInfo} {forced : Bytes → ℕ → Bool}
    {a : Bytes → TopicAnswers} {l kept : List (Bytes × PubsubBridgeResult)}
    {executor executor' : GroupRegistry} {failed : Bool}
    (hheld : executor.Holds (bridgeGroups l ++ others))
    (h : removeLoop self isR2a forced a l executor = some (kept, executor', failed)) :
    executor'.Holds (bridgeGroups kept ++ others) ∧ kept.Sublist l ∧
      (∃ gone, l.Perm (gone ++ kept) ∧ executor'.calls = removalCalls gone ++ executor.calls) ∧
      (failed = false → ∀ e ∈ kept, Demanded self isR2a forced a e.1) ∧
      (failed = true → ∃ e ∈ l, (a e.1).agnocastCount isR2a = -1) := by
  induction l generalizing executor kept others with
  | nil =>
    obtain ⟨rfl, rfl, rfl⟩ : _ ∧ _ ∧ _ := by simpa [removeLoop] using h
    exact ⟨hheld, .slnil, ⟨[], .nil, rfl⟩, fun _ e he => (by cases he), fun hf => (by cases hf)⟩
  | cons e rest ih =>
    obtain ⟨topicName, bridge⟩ := e
    unfold removeLoop at h
    split at h
    · cases h
    next isDemanded hexternal =>
    dsimp only at h
    split at h
    next hfailed =>
      obtain ⟨rfl, rfl, rfl⟩ : _ ∧ _ ∧ _ := by simpa using h
      exact ⟨hheld, .refl _, ⟨[], .refl _, rfl⟩, fun hf => (by cases hf),
        fun _ => ⟨_, List.mem_cons_self, hfailed⟩⟩
    next hcount =>
    have hcons : bridgeGroups ((topicName, bridge) :: rest) =
        bridge.callbackGroup.toList ++ bridgeGroups rest := List.flatMap_cons
    split at h
    · -- it goes
      obtain ⟨between, hremove, h⟩ := Option.bind_eq_some_iff.mp h
      rw [hcons, List.append_assoc] at hheld
      obtain ⟨between', hremove', hbetween, hcalls⟩ := hheld.removeAndStop
      obtain rfl := Option.some.inj (hremove'.symm.trans hremove)
      obtain ⟨hkept, hsub, ⟨gone, hperm, hcalls'⟩, hdemanded, hfailed⟩ := ih hbetween h
      refine ⟨hkept, hsub.cons _, ⟨gone ++ [(topicName, bridge)], ?_, ?_⟩, hdemanded,
        fun hf => ?_⟩
      · rw [List.append_assoc, List.singleton_append]
        exact (hperm.cons _).trans List.perm_middle.symm
      · rw [hcalls', hcalls, removalCalls, removalCalls, bridgeGroups, bridgeGroups,
          List.flatMap_append, List.flatMap_append, List.flatMap_singleton, List.append_assoc]
      · obtain ⟨e, he, hcount⟩ := hfailed hf
        exact ⟨e, List.mem_cons_of_mem _ he, hcount⟩
    next hstays =>
      -- it stays
      have hrest : ∃ r, removeLoop self isR2a forced a rest executor = some r ∧
          ((topicName, bridge) :: r.1, r.2) = (kept, executor', failed) := by
        split at h
        · cases h
        · exact Option.map_eq_some_iff.mp h
        · exact Option.map_eq_some_iff.mp h
      obtain ⟨⟨kept', executor'', failed'⟩, hloop, heq⟩ := hrest
      obtain ⟨rfl, rfl, rfl⟩ : _ ∧ _ ∧ _ := by simpa using heq
      have hframe : (bridgeGroups ((topicName, bridge) :: rest) ++ others).Perm
          (bridgeGroups rest ++ (bridge.callbackGroup.toList ++ others)) := by
        rw [hcons, List.append_assoc]
        exact List.perm_append_comm_assoc ..
      obtain ⟨hkept, hsub, ⟨gone, hperm, hcalls⟩, hdemanded, hfailed⟩ :=
        ih (hheld.of_perm hframe) hloop
      refine ⟨hkept.of_perm ?_, hsub.cons_cons _, ⟨gone, ?_, hcalls⟩, fun hf e he => ?_,
        fun hf => ?_⟩
      · have hcons' : bridgeGroups ((topicName, bridge) :: kept') =
            bridge.callbackGroup.toList ++ bridgeGroups kept' := List.flatMap_cons
        rw [hcons', List.append_assoc]
        exact List.perm_append_comm_assoc ..
      · exact (hperm.cons _).trans List.perm_middle.symm
      · rcases List.mem_cons.mp he with rfl | he
        · rw [not_or] at hstays
          refine ⟨Int.lt_of_not_ge hstays.1, ?_⟩
          cases isDemanded with
          | true => exact .inl hexternal
          | false => exact .inr (by simpa using hstays.2)
        · exact hdemanded hf e he
      · obtain ⟨e, he, hcount⟩ := hfailed hf
        exact ⟨e, List.mem_cons_of_mem _ he, hcount⟩

/-- The bridge of a topic is looked at, and an exception of a probe is caught by nobody. -/
def Uncaught (self : EndpointInfo) (isR2a : Bool) (a : TopicAnswers) : Prop :=
  (∃ what, a.hasExternal isR2a self = .error what) ∨ ∃ what, a.updateRos2Num = .threw what

/-- The removal of a bridge does not make the process exit; an exception does. -/
theorem removeLoop_eq_none {self : EndpointInfo} {forced : Bytes → ℕ → Bool}
    {a : Bytes → TopicAnswers} {l : List (Bytes × PubsubBridgeResult)} {executor : GroupRegistry}
    (hheld : executor.Holds (bridgeGroups l ++ others))
    (h : removeLoop self isR2a forced a l executor = none) :
    ∃ e ∈ l, Uncaught self isR2a (a e.1) := by
  induction l generalizing executor others with
  | nil => cases h
  | cons e rest ih =>
    obtain ⟨topicName, bridge⟩ := e
    have hcons : bridgeGroups ((topicName, bridge) :: rest) =
        bridge.callbackGroup.toList ++ bridgeGroups rest := List.flatMap_cons
    rw [hcons, List.append_assoc] at hheld
    have htail : (∃ e ∈ rest, Uncaught self isR2a (a e.1)) →
        ∃ e ∈ (topicName, bridge) :: rest, Uncaught self isR2a (a e.1) := by
      rintro ⟨e, he, huncaught⟩
      exact ⟨e, List.mem_cons_of_mem _ he, huncaught⟩
    unfold removeLoop at h
    split at h
    next what hexternal => exact ⟨_, List.mem_cons_self, .inl ⟨what, hexternal⟩⟩
    dsimp only at h
    split at h
    · cases h
    split at h
    · obtain ⟨between, hremove, hbetween, -⟩ := hheld.removeAndStop
      rw [hremove] at h
      exact htail (ih hbetween h)
    · split at h
      next what hupdate => exact ⟨_, List.mem_cons_self, .inr ⟨what, hupdate⟩⟩
      · exact htail (ih (hheld.of_perm (List.perm_append_comm_assoc ..))
          (Option.map_eq_none_iff.mp h))
      · exact htail (ih (hheld.of_perm (List.perm_append_comm_assoc ..))
          (Option.map_eq_none_iff.mp h))

end PubsubBridges

/-! ## The worker -/

namespace BridgeWorker

open PubsubBridges ServiceBridge

variable {s s' : BridgeWorker} {b b' : PubsubBridges} {others : List Nat}
  {topicName : Bytes} {id : Int32}

/-- The groups of the service bridges, and their shadow nodes. -/
def serviceGroups (services : List (Bytes × ServiceBridge)) : List Nat :=
  services.flatMap fun e => e.2.entity.groups

def serviceNodes (services : List (Bytes × ServiceBridge)) : List ((Bytes × Bytes) × Nat) :=
  services.flatMap fun e => e.2.ownedNode

/-- **What a worker keeps.** -/
structure Kept (s : BridgeWorker) : Prop where
  pubsub : s.pubsub.Placed (serviceGroups s.activeServiceBridges)
  services : (s.activeServiceBridges.map Prod.fst).Nodup
  settled : ∀ e ∈ s.activeServiceBridges, e.2.Settled
  owned : s.shadowNodes.Owned (serviceNodes s.activeServiceBridges)
  topics : (s.requestCache.map Prod.fst).Nodup

/-! ### Requests -/

/-- What a cache has under a topic and an id. -/
def cached (cache : List (Bytes × RequestMap)) (topicName : Bytes) (id : Int32) :
    Option CachedRequest :=
  (Dict.get cache topicName).bind fun requests => Dict.get requests id

theorem cached_cons (e : Bytes × RequestMap) (cache : List (Bytes × RequestMap)) :
    cached (e :: cache) topicName id =
      if topicName = e.1 then Dict.get e.2 id else cached cache topicName id := by
  unfold cached
  rw [Dict.get_cons]
  by_cases h : topicName = e.1 <;> simp [h]

theorem cached_eq_none {cache : List (Bytes × RequestMap)}
    (h : topicName ∉ cache.map Prod.fst) : cached cache topicName id = none := by
  unfold cached
  rw [Dict.get_eq_none_iff.mpr h]
  rfl

/-- The requests that are left are those that were there and did not throw. -/
theorem get_createPubsubBridgeIfNeeded {self : EndpointInfo} {requests requests' : RequestMap}
    {messageType : Bytes} {direction : Direction} {a : TopicAnswers} {outcome : CreationOutcome}
    (h : b.Placed others)
    (hcreate : b.createPubsubBridgeIfNeeded self topicName requests messageType direction a =
      some (outcome, requests', b')) :
    Dict.get requests' id =
      if (topicName, id) ∈ outcome.thrown topicName then none else Dict.get requests id := by
  rcases (createPubsubBridgeIfNeeded_spec h hcreate).2.2 with ⟨hno, rfl⟩ | ⟨id', rfl, rfl, -⟩
  · cases outcome with
    | threw id' => exact absurd rfl (hno id')
    | skipped => exact (if_neg List.not_mem_nil).symm
    | created => exact (if_neg List.not_mem_nil).symm
  · rw [Dict.get_erase]
    simp [CreationOutcome.thrown]

theorem fst_of_mem_thrown {outcome : CreationOutcome} {e : Bytes × Int32}
    (h : e ∈ outcome.thrown topicName) : e.1 = topicName := by
  cases outcome with
  | threw id' => rw [List.mem_singleton.mp h]
  | skipped => cases h
  | created => cases h

/-- **The pass that creates bridges**: bridges come and none goes, and the requests whose bridges
could not be created are dropped. -/
theorem createLoop_spec {self : EndpointInfo} {a : PassAnswers}
    {cache cache' : List (Bytes × RequestMap)} {thrown : Thrown} (hb : b.Placed others)
    (hcache : (cache.map Prod.fst).Nodup)
    (h : createLoop self a cache b = some (thrown, cache', b')) :
    b'.Placed others ∧ b.Grows b' ∧ (cache'.map Prod.fst).Sublist (cache.map Prod.fst) ∧
      (∀ e ∈ thrown, e.1 ∈ cache.map Prod.fst) ∧
      ∀ topicName id, cached cache' topicName id =
        if (topicName, id) ∈ thrown then none else cached cache topicName id := by
  induction cache generalizing b thrown cache' with
  | nil =>
    obtain ⟨rfl, rfl, rfl⟩ : _ ∧ _ ∧ _ := by simpa [createLoop] using h
    exact ⟨hb, .refl b, .refl _, fun e he => (by cases he),
      fun _ _ => (if_neg List.not_mem_nil).symm⟩
  | cons e rest ih =>
    obtain ⟨topic, requests⟩ := e
    rw [List.map_cons, List.nodup_cons] at hcache
    obtain ⟨hnew, hrest⟩ := hcache
    cases requests with
    | nil =>
      -- a topic without requests is erased from the cache
      obtain ⟨hplaced, hgrows, hsub, hthrown, hget⟩ := ih hb hrest h
      refine ⟨hplaced, hgrows, hsub.cons _, fun e he => List.mem_cons_of_mem _ (hthrown e he),
        fun topicName id => ?_⟩
      rw [hget, cached_cons]
      by_cases htopic : topicName = topic
      · subst htopic
        rw [if_pos rfl, cached_eq_none hnew]
        rfl
      · rw [if_neg htopic]
    | cons first requests =>
      -- the two directions one after the other, then the topics that are left
      obtain ⟨⟨out₁, requests₁, b₁⟩, hr2a, h⟩ := Option.bind_eq_some_iff.mp h
      obtain ⟨⟨out₂, requests₂, b₂⟩, ha2r, h⟩ := Option.bind_eq_some_iff.mp h
      obtain ⟨⟨thrown₃, cache₃, b₃⟩, hloop, heq⟩ := Option.map_eq_some_iff.mp h
      obtain ⟨rfl, rfl, rfl⟩ : _ ∧ _ ∧ _ := by simpa using heq
      obtain ⟨hplaced₁, hgrows₁, -⟩ := createPubsubBridgeIfNeeded_spec hb hr2a
      obtain ⟨hplaced₂, hgrows₂, -⟩ := createPubsubBridgeIfNeeded_spec hplaced₁ ha2r
      obtain ⟨hplaced₃, hgrows₃, hsub, hthrown, hget⟩ := ih hplaced₂ hrest hloop
      refine ⟨hplaced₃, (hgrows₁.trans hgrows₂).trans hgrows₃, ?_, fun e he => ?_,
        fun topicName id => ?_⟩
      · split
        · exact hsub.cons _
        · exact hsub.cons_cons _
      · rcases List.mem_append.mp he with he | he
        · rw [fst_of_mem_thrown he]
          exact List.mem_cons_self
        · rcases List.mem_append.mp he with he | he
          · rw [fst_of_mem_thrown he]
            exact List.mem_cons_self
          · exact List.mem_cons_of_mem _ (hthrown e he)
      · have hkept : cached (if requests₂ = [] then cache₃ else (topic, requests₂) :: cache₃)
            topicName id = cached ((topic, requests₂) :: cache₃) topicName id := by
          split
          -- the topic goes when its last request goes, and no other entry has its name
          next hnil =>
            subst hnil
            rw [cached_cons]
            split
            next htopic =>
              subst htopic
              exact cached_eq_none fun hmem => hnew (hsub.subset hmem)
            · rfl
          · rfl
        rw [hkept, cached_cons, cached_cons]
        by_cases htopic : topicName = topic
        · subst htopic
          have hnot₃ : (topicName, id) ∉ thrown₃ := fun hmem => hnew (hthrown _ hmem)
          rw [if_pos rfl, if_pos rfl, get_createPubsubBridgeIfNeeded hplaced₁ ha2r,
            get_createPubsubBridgeIfNeeded hb hr2a]
          -- a request is dropped by whichever direction has thrown
          by_cases h₁ : (topicName, id) ∈ out₁.thrown topicName <;>
            by_cases h₂ : (topicName, id) ∈ out₂.thrown topicName <;> simp [h₁, h₂, hnot₃]
        · have hnot : ∀ out : CreationOutcome, (topicName, id) ∉ out.thrown topic :=
            fun out hmem => htopic (fst_of_mem_thrown hmem)
          rw [if_neg htopic, if_neg htopic, hget]
          simp [hnot]

/-- The pass of the daemon's leases. -/
theorem forceLoop_spec {isR2a : Bool} {a : Bytes → TopicAnswers}
    {forced forced' : List (Bytes × DaemonForcedRequest)} (hb : b.Placed others)
    (h : forceLoop isR2a a forced b = some (forced', b')) : b'.Placed others ∧ b.Grows b' := by
  induction forced generalizing b forced' with
  | nil =>
    obtain ⟨-, rfl⟩ : _ ∧ _ := by simpa [forceLoop] using h
    exact ⟨hb, .refl b⟩
  | cons e rest ih =>
    obtain ⟨topic, request⟩ := e
    unfold forceLoop at h
    split at h
    · exact ih hb h
    obtain ⟨b₁, hactivated, h⟩ := Option.bind_eq_some_iff.mp h
    obtain ⟨⟨forced₂, b₂⟩, hloop, heq⟩ := Option.map_eq_some_iff.mp h
    obtain ⟨-, rfl⟩ := Prod.mk.inj heq
    have hone : b₁.Placed others ∧ b.Grows b₁ := by
      split at hactivated
      next hcond =>
        rw [Bool.and_eq_true, Bool.not_eq_true'] at hcond
        exact hb.activateDaemonForcedBridge hcond.1 hactivated
      · obtain rfl := Option.some.inj hactivated
        exact ⟨hb, .refl b⟩
    obtain ⟨hplaced, hgrows⟩ := ih hone.1 hloop
    exact ⟨hplaced, hone.2.trans hgrows⟩

/-! ### Service bridges -/

/-- The pass of the service bridges, with the groups and nodes of others as a frame. -/
theorem serviceLoop_spec {a : Bytes → TickAnswers} {services services' : List (Bytes × ServiceBridge)}
    {w w' : BridgeWorld} {nodes : List ((Bytes × Bytes) × Nat)}
    (hsettled : ∀ e ∈ services, e.2.Settled)
    (hheld : w.executor.Holds (serviceGroups services ++ others))
    (howned : w.shadowNodes.Owned (serviceNodes services ++ nodes))
    (h : serviceLoop a services w = some (services', w')) :
    (services'.map Prod.fst).Sublist (services.map Prod.fst) ∧ (∀ e ∈ services', e.2.Settled) ∧
      w'.executor.Holds (serviceGroups services' ++ others) ∧
      w'.shadowNodes.Owned (serviceNodes services' ++ nodes) := by
  induction services generalizing w services' others nodes with
  | nil =>
    obtain ⟨rfl, rfl⟩ : _ ∧ _ := by simpa [serviceLoop] using h
    exact ⟨.refl _, hsettled, hheld, howned⟩
  | cons e rest ih =>
    obtain ⟨name, x⟩ := e
    obtain ⟨⟨r, x', w₁⟩, htick, h⟩ := Option.bind_eq_some_iff.mp h
    obtain ⟨⟨rest', w₂⟩, hloop, heq⟩ := Option.map_eq_some_iff.mp h
    obtain ⟨hserviceseq, rfl⟩ := Prod.mk.inj heq
    have hgroups : serviceGroups ((name, x) :: rest) = x.entity.groups ++ serviceGroups rest :=
      List.flatMap_cons
    have hnodes : serviceNodes ((name, x) :: rest) = x.ownedNode ++ serviceNodes rest :=
      List.flatMap_cons
    rw [hgroups, List.append_assoc] at hheld
    rw [hnodes, List.append_assoc] at howned
    have hplaced : x.Placed w (serviceGroups rest ++ others) (serviceNodes rest ++ nodes) :=
      ⟨hsettled _ List.mem_cons_self, hheld, howned⟩
    have hticked : x'.Placed w₁ (serviceGroups rest ++ others) (serviceNodes rest ++ nodes) := by
      rcases hplaced.checkAndUpdate (i := 0) (a := a name) with ⟨hnone, -⟩ | ⟨_, _, _, heq, hp, -⟩
      · rw [hnone] at htick
        cases htick
      · obtain ⟨rfl, rfl, rfl⟩ : _ ∧ _ ∧ _ := by simpa using heq.symm.trans htick
        exact hp
    obtain ⟨hsub, hrest, hheld', howned'⟩ := ih
      (fun e he => hsettled e (List.mem_cons_of_mem _ he))
      (hticked.held.of_perm (List.perm_append_comm_assoc ..))
      (hticked.owned.perm (List.perm_append_comm_assoc ..)) hloop
    rw [← hserviceseq]
    split
    · refine ⟨hsub.cons_cons _, fun e he => ?_, hheld'.of_perm ?_, howned'.perm ?_⟩
      · rcases List.mem_cons.mp he with rfl | he
        · exact hticked.toSettled
        · exact hrest e he
      · have hcons : serviceGroups ((name, x') :: rest') =
            x'.entity.groups ++ serviceGroups rest' := List.flatMap_cons
        rw [hcons, List.append_assoc]
        exact List.perm_append_comm_assoc ..
      · have hcons : serviceNodes ((name, x') :: rest') =
            x'.ownedNode ++ serviceNodes rest' := List.flatMap_cons
        rw [hcons, List.append_assoc]
        exact List.perm_append_comm_assoc ..
    next hstate =>
      -- an item in the state none has nothing
      have hnone : x'.state = .none := by simpa using hstate
      have hnull : x'.entity = .null :=
        hticked.entity_eq_null (by rw [hnone]; rintro ⟨⟩) (by rw [hnone]; rintro ⟨⟩)
      have hnode : x'.shadowNode = none := by
        refine Option.not_isSome_iff_eq_none.mp fun hs => ?_
        rcases hticked.shadow hs with h' | h' <;> rw [hnone] at h' <;> cases h'
      rw [hnull] at hheld'
      rw [ServiceBridge.Placed.ownedNode_eq_nil hnode] at howned'
      exact ⟨hsub.cons _, hrest, hheld', howned'⟩

/-- An item changes, or a new one comes, and neither its bridge nor its shadow node does. -/
theorem Kept.setService {serviceName : Bytes} {x : ServiceBridge} (h : s.Kept)
    (hx : x.Settled)
    (hentity : x.entity = ((Dict.get s.activeServiceBridges serviceName).getD .new).entity)
    (hnode : x.ownedNode = ((Dict.get s.activeServiceBridges serviceName).getD .new).ownedNode) :
    Kept { s with activeServiceBridges := Dict.set s.activeServiceBridges serviceName x } := by
  have hsame : serviceGroups (Dict.set s.activeServiceBridges serviceName x) =
        serviceGroups s.activeServiceBridges ∧
      serviceNodes (Dict.set s.activeServiceBridges serviceName x) =
        serviceNodes s.activeServiceBridges := by
    unfold serviceGroups serviceNodes
    cases hget : Dict.get s.activeServiceBridges serviceName with
    | none =>
      rw [hget] at hentity hnode
      unfold Dict.set
      rw [if_neg (Dict.get_eq_none_iff.mp hget), List.flatMap_append, List.flatMap_append,
        List.flatMap_singleton, List.flatMap_singleton, hentity, hnode]
      exact ⟨List.append_nil _, List.append_nil _⟩
    | some x₀ =>
      rw [hget] at hentity hnode
      obtain ⟨l₁, l₂, heq, hset⟩ := Dict.exists_split_of_get h.services hget
      rw [hset, heq, List.flatMap_append, List.flatMap_append, List.flatMap_append,
        List.flatMap_append, List.flatMap_cons, List.flatMap_cons, List.flatMap_cons,
        List.flatMap_cons, hentity, hnode]
      exact ⟨rfl, rfl⟩
  refine ⟨?_, Dict.nodup_keys_set h.services, fun e he => ?_, ?_, h.topics⟩
  · show s.pubsub.Placed (serviceGroups (Dict.set s.activeServiceBridges serviceName x))
    rw [hsame.1]
    exact h.pubsub
  · rcases Dict.mem_set he with he | rfl
    · exact h.settled e he
    · exact hx
  · show s.shadowNodes.Owned (serviceNodes (Dict.set s.activeServiceBridges serviceName x))
    rw [hsame.2]
    exact h.owned

theorem Kept.settled_getD (h : s.Kept) (serviceName : Bytes) :
    ((Dict.get s.activeServiceBridges serviceName).getD .new).Settled := by
  cases hget : Dict.get s.activeServiceBridges serviceName with
  | none => exact settled_new
  | some x => exact h.settled _ (Dict.mem_of_get hget)

/-! ### Steps -/

/-- The request that a message asks for. -/
def asked (msg : BridgeMsg) : Option (Bytes × Int32 × CachedRequest) :=
  match BridgeMsgType.ofTag (msg.word 0).toNat with
  | some .pubSub =>
    match msg.text PubSubPayload.topicNameAt, msg.text PubSubPayload.messageTypeAt with
    | some topicName, some messageType =>
      some (topicName, (msg.word PubSubPayload.targetIdAt).toInt32,
        ⟨messageType, msg.word PubSubPayload.directionAt⟩)
    | _, _ => none
  | _ => none

/-- The cache with the request. -/
def cachedWith (s : BridgeWorker) (request : Option (Bytes × Int32 × CachedRequest))
    (topicName : Bytes) (id : Int32) : Option CachedRequest :=
  match request with
  | none => cached s.requestCache topicName id
  | some (t, i, r) => if topicName = t ∧ id = i then some r else cached s.requestCache topicName id

/-- A step that only passes messages and requests on: the bridges grow, and the requests whose
bridges could not be created are dropped. -/
structure Asked (s : BridgeWorker) (request : Option (Bytes × Int32 × CachedRequest))
    (thrown : Thrown) (s' : BridgeWorker) : Prop where
  kept : s'.Kept
  grows : s.pubsub.Grows s'.pubsub
  requests : ∀ topicName id, cached s'.requestCache topicName id =
    if (topicName, id) ∈ thrown then none else cachedWith s request topicName id

theorem Asked.of_same (h : s'.Kept) (hpubsub : s'.pubsub = s.pubsub)
    (hcache : s'.requestCache = s.requestCache) : Asked s none [] s' where
  kept := h
  grows := by
    rw [hpubsub]
    exact .refl _
  requests topicName id := by
    rw [hcache]
    exact (if_neg List.not_mem_nil).symm

theorem Kept.dispatchPubsub {targetId : Int32} {request : CachedRequest} {a : PassAnswers}
    {thrown : Thrown} (h : s.Kept)
    (hd : s.dispatchPubsub topicName targetId request a = some (thrown, s')) :
    Asked s (some (topicName, targetId, request)) thrown s' := by
  obtain ⟨⟨outcome, requests, b⟩, hcreate, heq⟩ := Option.map_eq_some_iff.mp hd
  obtain ⟨rfl, rfl⟩ := Prod.mk.inj heq
  obtain ⟨hplaced, hgrows, -⟩ := createPubsubBridgeIfNeeded_spec h.pubsub hcreate
  refine ⟨⟨hplaced, h.services, h.settled, h.owned, Dict.nodup_keys_set h.topics⟩, hgrows,
    fun topic id => ?_⟩
  show (Dict.get (Dict.set s.requestCache topicName requests) topic).bind _ = _
  rw [Dict.get_set]
  by_cases htopic : topic = topicName
  · subst htopic
    rw [if_pos rfl, Option.bind_some, get_createPubsubBridgeIfNeeded h.pubsub hcreate,
      Dict.get_set]
    unfold cachedWith cached
    by_cases hid : id = targetId
    · simp [hid]
    · simp only [hid, and_false, if_false]
      cases Dict.get s.requestCache topic <;> rfl
  · rw [if_neg htopic]
    have hnot : (topic, id) ∉ outcome.thrown topicName := fun hmem =>
      htopic (fst_of_mem_thrown hmem)
    simp [cachedWith, cached, htopic, hnot]

theorem Kept.dispatchService (h : s.Kept) (serviceName : Bytes) (msg : BridgeMsg) :
    Asked s none [] (s.dispatchService serviceName msg) := by
  unfold BridgeWorker.dispatchService
  dsimp only
  split
  · exact .of_same h rfl rfl
  next item hitem =>
    obtain ⟨hsettled, hentity, hnode⟩ := (h.settled_getD serviceName).handleRequest hitem
    exact .of_same (h.setService hsettled hentity hnode) rfl rfl

theorem Kept.registerDaemonServiceRequest (h : s.Kept) (serviceName : Bytes) (now : ℕ) :
    Asked s none [] (s.registerDaemonServiceRequest serviceName now) := by
  unfold BridgeWorker.registerDaemonServiceRequest
  split
  · exact .of_same h rfl rfl
  next item hget =>
    have hsettled := h.settled _ (Dict.mem_of_get hget)
    refine .of_same (h.setService
      ⟨hsettled.entity, hsettled.null, hsettled.shadow, hsettled.identity⟩ ?_ ?_) rfl rfl
    · rw [hget]
      rfl
    · rw [hget]
      rfl

theorem Kept.setDaemonForced (h : s.Kept) (isR2a : Bool)
    (forced : List (Bytes × DaemonForcedRequest)) :
    Asked s none [] (s.setDaemonForced isR2a forced) := by
  cases isR2a with
  | true => exact .of_same ⟨h.pubsub, h.services, h.settled, h.owned, h.topics⟩ rfl rfl
  | false => exact .of_same ⟨h.pubsub, h.services, h.settled, h.owned, h.topics⟩ rfl rfl

/-- **A message** asks for a bridge, or changes a lease or a service bridge. -/
theorem Kept.dispatchBridgeMessage {msg : BridgeMsg} {now : ℕ} {a : PassAnswers}
    {thrown : Thrown} (h : s.Kept)
    (hd : s.dispatchBridgeMessage msg now a = some (thrown, s')) :
    Asked s (asked msg) thrown s' := by
  unfold BridgeWorker.dispatchBridgeMessage at hd
  unfold asked
  cases htype : BridgeMsgType.ofTag (msg.word 0).toNat with
  -- a tag that no message has
  | none =>
    rw [htype] at hd
    obtain ⟨rfl, rfl⟩ := Prod.mk.inj (Option.some.inj hd)
    exact .of_same h rfl rfl
  | some type =>
    rw [htype] at hd
    cases type with
    | service =>
      obtain ⟨rfl, rfl⟩ := Prod.mk.inj (Option.some.inj hd)
      cases msg.text ServicePayload.serviceNameAt with
      | none => exact .of_same h rfl rfl
      | some serviceName => exact h.dispatchService serviceName msg
    | pubSub =>
      dsimp only at hd ⊢
      -- a text that does not end in its field is ignored
      cases htopic : msg.text PubSubPayload.topicNameAt with
      | none =>
        rw [htopic] at hd
        obtain ⟨rfl, rfl⟩ := Prod.mk.inj (Option.some.inj hd)
        exact .of_same h rfl rfl
      | some topicName =>
        rw [htopic] at hd
        cases hmessage : msg.text PubSubPayload.messageTypeAt with
        | none =>
          rw [hmessage] at hd
          obtain ⟨rfl, rfl⟩ := Prod.mk.inj (Option.some.inj hd)
          exact .of_same h rfl rfl
        | some messageType =>
          rw [hmessage] at hd
          exact h.dispatchPubsub hd
    | daemonPubSub =>
      dsimp only at hd ⊢
      split at hd
      · obtain ⟨rfl, rfl⟩ := Prod.mk.inj (Option.some.inj hd)
        exact h.setDaemonForced _ _
      · obtain ⟨rfl, rfl⟩ := Prod.mk.inj (Option.some.inj hd)
        exact .of_same h rfl rfl
    | daemonService =>
      obtain ⟨rfl, rfl⟩ := Prod.mk.inj (Option.some.inj hd)
      cases msg.text DaemonServicePayload.serviceNameAt with
      | none => exact .of_same h rfl rfl
      | some serviceName => exact h.registerDaemonServiceRequest serviceName now

/-- **The pass that removes bridges.** -/
structure Removed (s : BridgeWorker) (a : PassAnswers) (s' : BridgeWorker) : Prop where
  kept : s'.Kept
  /-- The bridges that go are removed and stopped, once each. -/
  gone : ∃ r2a a2r, s.pubsub.r2a.Perm (r2a ++ s'.pubsub.r2a) ∧
    s.pubsub.a2r.Perm (a2r ++ s'.pubsub.a2r) ∧
      s'.pubsub.executor.calls = removalCalls a2r ++ removalCalls r2a ++ s.pubsub.executor.calls
  /-- If no count fails, the bridges that stay were wanted. -/
  demanded : (∀ isR2a, ∀ e ∈ s.pubsub.active isR2a, (a isR2a e.1).agnocastCount isR2a ≠ -1) →
    ∀ isR2a, ∀ e ∈ s'.pubsub.active isR2a,
      Demanded s.self isR2a (s.isDaemonForced isR2a) (a isR2a) e.1

theorem Kept.checkAndRemovePubsubBridges {a : PassAnswers} (h : s.Kept)
    (hd : s.checkAndRemovePubsubBridges a = some s') : Removed s a s' := by
  obtain ⟨⟨r2a, executor₁, failed₁⟩, hr2a, hd⟩ := Option.bind_eq_some_iff.mp hd
  have hheld := h.pubsub.held
  unfold PubsubBridges.groups at hheld
  rw [List.append_assoc] at hheld
  obtain ⟨hheld₁, hsub₁, ⟨gone₁, hperm₁, hcalls₁⟩, hdemanded₁, hfailed₁⟩ :=
    removeLoop_spec hheld hr2a
  have honce₁ : (r2a.map Prod.fst).Nodup := (hsub₁.map _).nodup (h.pubsub.once true)
  have hpresent₁ : ∀ e ∈ r2a, e.2.entityHandle.isSome = true :=
    fun e he => h.pubsub.present true e (hsub₁.subset he)
  dsimp only at hd
  split at hd
  next hfailed =>
    -- a count of the first loop has failed
    obtain rfl := Option.some.inj hd
    refine ⟨⟨⟨fun isR2a => ?_, fun isR2a e he => ?_, ?_⟩, h.services, h.settled, h.owned, h.topics⟩,
      ⟨gone₁, [], hperm₁, .refl _, hcalls₁⟩, fun hcounts => ?_⟩
    · cases isR2a with
      | true => exact honce₁
      | false => exact h.pubsub.once false
    · cases isR2a with
      | true => exact hpresent₁ e he
      | false => exact h.pubsub.present false e he
    · show executor₁.Holds (bridgeGroups r2a ++ bridgeGroups s.pubsub.a2r ++ _)
      rw [List.append_assoc]
      exact hheld₁
    · obtain ⟨e, he, hcount⟩ := hfailed₁ hfailed
      exact absurd hcount (hcounts true e he)
  next hok =>
    obtain ⟨⟨a2r, executor₂, failed₂⟩, ha2r, heq⟩ := Option.map_eq_some_iff.mp hd
    obtain rfl := heq
    obtain ⟨hheld₂, hsub₂, ⟨gone₂, hperm₂, hcalls₂⟩, hdemanded₂, hfailed₂⟩ :=
      removeLoop_spec (hheld₁.of_perm (List.perm_append_comm_assoc ..)) ha2r
    refine ⟨⟨⟨fun isR2a => ?_, fun isR2a e he => ?_, ?_⟩, h.services, h.settled, h.owned, h.topics⟩,
      ⟨gone₁, gone₂, hperm₁, hperm₂, ?_⟩, fun hcounts isR2a e he => ?_⟩
    · cases isR2a with
      | true => exact honce₁
      | false => exact (hsub₂.map _).nodup (h.pubsub.once false)
    · cases isR2a with
      | true => exact hpresent₁ e he
      | false => exact h.pubsub.present false e (hsub₂.subset he)
    · show executor₂.Holds (bridgeGroups r2a ++ bridgeGroups a2r ++ _)
      rw [List.append_assoc]
      exact hheld₂.of_perm (List.perm_append_comm_assoc ..)
    · show executor₂.calls = _
      rw [hcalls₂, hcalls₁, List.append_assoc]
    · cases isR2a with
      | true => exact hdemanded₁ (by simpa using hok) e he
      | false =>
        refine hdemanded₂ ?_ e he
        cases failed₂ with
        | false => rfl
        | true =>
          obtain ⟨e, he, hcount⟩ := hfailed₂ rfl
          exact absurd hcount (hcounts false e he)

theorem Kept.checkAndRemovePubsubBridges_eq_none {a : PassAnswers} (h : s.Kept)
    (hd : s.checkAndRemovePubsubBridges a = none) :
    ∃ isR2a, ∃ e ∈ s.pubsub.active isR2a, Uncaught s.self isR2a (a isR2a e.1) := by
  have hheld := h.pubsub.held
  unfold PubsubBridges.groups at hheld
  rw [List.append_assoc] at hheld
  unfold BridgeWorker.checkAndRemovePubsubBridges at hd
  cases hr2a : PubsubBridges.removeLoop s.self true (s.isDaemonForced true) (a true) s.pubsub.r2a
      s.pubsub.executor with
  | none => exact ⟨true, removeLoop_eq_none hheld hr2a⟩
  | some r2a =>
    rw [hr2a, Option.bind_some] at hd
    split at hd
    · cases hd
    obtain ⟨hheld₁, -⟩ := removeLoop_spec hheld hr2a
    exact ⟨false, removeLoop_eq_none (hheld₁.of_perm (List.perm_append_comm_assoc ..))
      (Option.map_eq_none_iff.mp hd)⟩

/-- The maps in another order have the same items. -/
theorem Kept.rehash (h : s.Kept) (r : Rehash) :
    (s.rehash r).Kept ∧ s.pubsub.Grows (s.rehash r).pubsub := by
  cases r with
  | requestCache items =>
    dsimp only [BridgeWorker.rehash]
    split
    next hp =>
      exact ⟨⟨h.pubsub, h.services, h.settled, h.owned, (hp.map _).nodup_iff.mpr h.topics⟩, .refl _⟩
    · exact ⟨h, .refl _⟩
  | requests topicName items =>
    dsimp only [BridgeWorker.rehash]
    split
    · exact ⟨h, .refl _⟩
    split
    · exact ⟨⟨h.pubsub, h.services, h.settled, h.owned, Dict.nodup_keys_set h.topics⟩, .refl _⟩
    · exact ⟨h, .refl _⟩
  | daemonForced isR2a items =>
    dsimp only [BridgeWorker.rehash]
    split
    · have hasked := h.setDaemonForced isR2a items
      exact ⟨hasked.kept, hasked.grows⟩
    · exact ⟨h, .refl _⟩
  | active isR2a items =>
    dsimp only [BridgeWorker.rehash]
    split
    next hp =>
      -- only the map of this direction has another order
      refine ⟨⟨⟨fun d => ?_, fun d e he => ?_, ?_⟩, h.services, h.settled, h.owned, h.topics⟩,
        fun d e he => ?_⟩
      · show (((s.pubsub.setActive isR2a items).active d).map Prod.fst).Nodup
        rw [active_setActive]
        split
        · exact (hp.map _).nodup_iff.mpr (h.pubsub.once isR2a)
        · exact h.pubsub.once d
      · have he : e ∈ (s.pubsub.setActive isR2a items).active d := he
        rw [active_setActive] at he
        split at he
        · exact h.pubsub.present isR2a e (hp.mem_iff.mp he)
        · exact h.pubsub.present d e he
      · show (s.pubsub.setActive isR2a items).executor.Holds _
        rw [executor_setActive]
        refine h.pubsub.held.of_perm (List.Perm.append_right _ ?_)
        cases isR2a with
        | true => exact (hp.symm.flatMap_right _).append_right _
        | false => exact (hp.symm.flatMap_right _).append_left _
      · show e ∈ (s.pubsub.setActive isR2a items).active d
        rw [active_setActive]
        split
        next hd =>
          subst hd
          exact hp.mem_iff.mpr he
        · exact he
    · exact ⟨h, .refl _⟩
  | activeServiceBridges items =>
    dsimp only [BridgeWorker.rehash]
    split
    next hp =>
      refine ⟨⟨⟨h.pubsub.once, h.pubsub.present, h.pubsub.held.of_perm ?_⟩,
        (hp.map _).nodup_iff.mpr h.services, fun e he => h.settled e (hp.mem_iff.mp he),
        h.owned.perm (hp.symm.flatMap_right _), h.topics⟩, .refl _⟩
      exact (hp.symm.flatMap_right _).append_left _
    · exact ⟨h, .refl _⟩

/-- What a step does, unless the process ends. -/
structure WorkerStep (s : BridgeWorker) (input : WorkerInput) (thrown : Thrown)
    (s' : BridgeWorker) : Prop where
  kept : s'.Kept
  /-- Bridges go in one pass only. -/
  grows : (∀ a, input ≠ .checkAndRemovePubsubBridges a) → s.pubsub.Grows s'.pubsub
  removed : ∀ a, input = .checkAndRemovePubsubBridges a → Removed s a s'
  /-- A request whose creation threw is dropped, and no other. -/
  message : ∀ msg now a, input = .message msg now a → Asked s (asked msg) thrown s'
  created : ∀ a, input = .checkAndCreatePubsubBridges a → Asked s none thrown s'

theorem Kept.checkAndCreatePubsubBridges {a : PassAnswers} {thrown : Thrown} (h : s.Kept)
    (hd : s.checkAndCreatePubsubBridges a = some (thrown, s')) : Asked s none thrown s' := by
  obtain ⟨⟨thrown', cache, b⟩, hloop, heq⟩ := Option.map_eq_some_iff.mp hd
  obtain ⟨rfl, rfl⟩ := Prod.mk.inj heq
  obtain ⟨hplaced, hgrows, hsub, -, hget⟩ := createLoop_spec h.pubsub h.topics hloop
  exact ⟨⟨hplaced, h.services, h.settled, h.owned, hsub.nodup h.topics⟩, hgrows, hget⟩

theorem Kept.createDaemonForcedBridges {a : PassAnswers} (h : s.Kept)
    (hd : s.createDaemonForcedBridges a = some s') : s'.Kept ∧ s.pubsub.Grows s'.pubsub := by
  obtain ⟨⟨forced₁, b₁⟩, hr2a, hd⟩ := Option.bind_eq_some_iff.mp hd
  obtain ⟨⟨forced₂, b₂⟩, ha2r, rfl⟩ := Option.map_eq_some_iff.mp hd
  obtain ⟨hplaced₁, hgrows₁⟩ := forceLoop_spec h.pubsub hr2a
  obtain ⟨hplaced₂, hgrows₂⟩ := forceLoop_spec hplaced₁ ha2r
  exact ⟨⟨hplaced₂, h.services, h.settled, h.owned, h.topics⟩, hgrows₁.trans hgrows₂⟩

theorem Kept.checkAndUpdateServiceBridges {a : Bytes → TickAnswers} (h : s.Kept)
    (hd : s.checkAndUpdateServiceBridges a = some s') : s'.Kept ∧ s.pubsub.Grows s'.pubsub := by
  obtain ⟨⟨services, w⟩, hloop, rfl⟩ := Option.map_eq_some_iff.mp hd
  have hheld : s.world.executor.Holds
      (serviceGroups s.activeServiceBridges ++ s.pubsub.groups) :=
    h.pubsub.held.of_perm List.perm_append_comm
  have howned : s.world.shadowNodes.Owned (serviceNodes s.activeServiceBridges ++ []) := by
    rw [List.append_nil]
    exact h.owned
  obtain ⟨hsub, hsettled, hheld', howned'⟩ := serviceLoop_spec h.settled hheld howned hloop
  rw [List.append_nil] at howned'
  exact ⟨⟨⟨h.pubsub.once, h.pubsub.present, hheld'.of_perm List.perm_append_comm⟩,
    hsub.nodup h.services, hsettled, howned', h.topics⟩, fun _ _ he => he⟩

theorem Kept.checkAndRemoveRequestCache (h : s.Kept) (alive : Bytes → Bool → Int32 → Bool) :
    (s.checkAndRemoveRequestCache alive).Kept := by
  refine ⟨h.pubsub, h.services, h.settled, h.owned, ?_⟩
  have hkeys : ((s.requestCache.map fun e => (e.1, removeInvalidRequests (alive e.1) e.2)).map
      Prod.fst) = s.requestCache.map Prod.fst := by
    rw [List.map_map]
    rfl
  refine List.Sublist.nodup (List.filter_sublist.map Prod.fst) ?_
  rw [hkeys]
  exact h.topics

private theorem WorkerStep.of_quiet {input : WorkerInput} (h : s'.Kept)
    (hgrows : s.pubsub.Grows s'.pubsub)
    (hremove : ∀ a, input ≠ .checkAndRemovePubsubBridges a)
    (hmessage : ∀ msg now a, input ≠ .message msg now a)
    (hcreate : ∀ a, input ≠ .checkAndCreatePubsubBridges a) : WorkerStep s input [] s' :=
  ⟨h, fun _ => hgrows, fun a ha => absurd ha (hremove a),
    fun msg now a ha => absurd ha (hmessage msg now a), fun a ha => absurd ha (hcreate a)⟩

/-- **Every step** keeps what a worker keeps. -/
theorem Kept.act {input : WorkerInput} {thrown : Thrown} (h : s.Kept)
    (hact : s.act input = some (thrown, s')) : WorkerStep s input thrown s' := by
  cases input with
  | message msg now a =>
    have hasked := h.dispatchBridgeMessage hact
    refine ⟨hasked.kept, fun _ => hasked.grows, ?_, ?_, ?_⟩
    · rintro a ⟨⟩
    · rintro msg' now' a' ⟨⟩
      exact hasked
    · rintro a ⟨⟩
  | checkAndCreatePubsubBridges a =>
    have hasked := h.checkAndCreatePubsubBridges hact
    refine ⟨hasked.kept, fun _ => hasked.grows, ?_, ?_, fun _ _ => hasked⟩
    · rintro a ⟨⟩
    · rintro msg now a ⟨⟩
  | createDaemonForcedBridges a =>
    obtain ⟨s₁, hpass, heq⟩ := Option.map_eq_some_iff.mp hact
    obtain ⟨rfl, rfl⟩ := Prod.mk.inj heq
    obtain ⟨hkept, hgrows⟩ := h.createDaemonForcedBridges hpass
    exact .of_quiet hkept hgrows (by rintro a ⟨⟩) (by rintro msg now a ⟨⟩) (by rintro a ⟨⟩)
  | checkAndRemovePubsubBridges a =>
    obtain ⟨s₁, hpass, heq⟩ := Option.map_eq_some_iff.mp hact
    obtain ⟨rfl, rfl⟩ := Prod.mk.inj heq
    have hremoved := h.checkAndRemovePubsubBridges hpass
    refine ⟨hremoved.kept, fun hno => absurd rfl (hno a), ?_, ?_, ?_⟩
    · rintro a' ⟨⟩
      exact hremoved
    · rintro msg now a ⟨⟩
    · rintro a ⟨⟩
  | checkAndUpdateServiceBridges a =>
    obtain ⟨s₁, hpass, heq⟩ := Option.map_eq_some_iff.mp hact
    obtain ⟨rfl, rfl⟩ := Prod.mk.inj heq
    obtain ⟨hkept, hgrows⟩ := h.checkAndUpdateServiceBridges hpass
    exact .of_quiet hkept hgrows (by rintro a ⟨⟩) (by rintro msg now a ⟨⟩) (by rintro a ⟨⟩)
  | checkAndRemoveRequestCache alive =>
    obtain ⟨rfl, rfl⟩ := Prod.mk.inj (Option.some.inj hact)
    exact .of_quiet (h.checkAndRemoveRequestCache alive) (.refl _) (by rintro a ⟨⟩)
      (by rintro msg now a ⟨⟩) (by rintro a ⟨⟩)
  -- a request for shutdown changes no table
  | checkAndRequestShutdown r =>
    obtain ⟨rfl, rfl⟩ := Prod.mk.inj (Option.some.inj hact)
    exact .of_quiet ⟨h.pubsub, h.services, h.settled, h.owned, h.topics⟩ (.refl _)
      (by rintro a ⟨⟩) (by rintro msg now a ⟨⟩) (by rintro a ⟨⟩)
  | requestShutdown =>
    obtain ⟨rfl, rfl⟩ := Prod.mk.inj (Option.some.inj hact)
    exact .of_quiet ⟨h.pubsub, h.services, h.settled, h.owned, h.topics⟩ (.refl _)
      (by rintro a ⟨⟩) (by rintro msg now a ⟨⟩) (by rintro a ⟨⟩)
  | rehash r =>
    obtain ⟨rfl, rfl⟩ := Prod.mk.inj (Option.some.inj hact)
    obtain ⟨hkept, hgrows⟩ := h.rehash r
    exact .of_quiet hkept hgrows (by rintro a ⟨⟩) (by rintro msg now a ⟨⟩) (by rintro a ⟨⟩)
  | terminate => cases hact

theorem Kept.step (h : s.Kept) (input : WorkerInput) : (s.step input).2.Kept := by
  unfold BridgeWorker.step
  split
  · exact h
  cases hact : s.act input with
  | none => exact ⟨h.pubsub, h.services, h.settled, h.owned, h.topics⟩
  | some r =>
    obtain ⟨thrown, s'⟩ := r
    exact (h.act hact).kept

theorem kept_of_run {tr : List WorkerEvent}
    (h : Transition.Run bridgeWorker Transition.anyStep tr s) : s.Kept :=
  h.invariant (P := Kept)
    (fun s hinit => by
      obtain ⟨self, addedWithNode, rfl⟩ := hinit
      refine ⟨⟨fun isR2a => ?_, fun isR2a e he => ?_, .empty _⟩, .nil, fun e he => (by cases he),
        .empty, .nil⟩
      · cases isR2a <;> exact .nil
      · cases isR2a <;> cases he)
    fun _ input hs _ => hs.step input

end BridgeWorker

/-! ## A run -/

open PubsubBridges BridgeWorker in
/-- What holds of the pub/sub bridges between the steps, and of the steps. -/
structure PubsubBridgesKept (tr : List WorkerEvent) (s : BridgeWorker) : Prop where
  /-- One bridge for each topic and direction. -/
  once : ∀ isR2a, ((s.pubsub.active isR2a).map Prod.fst).Nodup
  /-- The groups of the active bridges are in the executor, -/
  added : ∀ isR2a, ∀ e ∈ s.pubsub.active isR2a, ∀ g, e.2.callbackGroup = some g →
    g ∈ s.pubsub.executor.groups
  /-- and no others than those of the service bridges that are there. -/
  only : ∀ g ∈ s.pubsub.executor.groups,
    (∃ isR2a, ∃ e ∈ s.pubsub.active isR2a, e.2.callbackGroup = some g) ∨
      ∃ e ∈ s.activeServiceBridges, (e.2.state = .r2a ∨ e.2.state = .a2r) ∧ g ∈ e.2.entity.groups
  /-- No two bridges have a group in common. -/
  apart : (s.pubsub.groups ++ serviceGroups s.activeServiceBridges).Nodup
  /-- Every group was added, removed and stopped in turn. -/
  balanced : s.pubsub.executor.Balanced
  steps : ∀ ev ∈ tr, ev.pre.exited = false →
    (ev.pre.act ev.input = none ∧ (ev.pre.step ev.input).2 = { ev.pre with exited := true }) ∨
      WorkerStep ev.pre ev.input ev.output (ev.pre.step ev.input).2
  /-- A pass that removes bridges ends the process only by an exception. -/
  ends : ∀ ev ∈ tr, ∀ a, ev.input = .checkAndRemovePubsubBridges a →
    ev.pre.act ev.input = none →
      ∃ isR2a, ∃ e ∈ ev.pre.pubsub.active isR2a, Uncaught ev.pre.self isR2a (a isR2a e.1)

/-- **The life of pub/sub bridges**: messages and passes in any order, and any answers of the
probes, the loader and the clock. -/
theorem pubsub_bridge_lifecycle {tr : List WorkerEvent} {s : BridgeWorker}
    (h : Transition.Run bridgeWorker Transition.anyStep tr s) : PubsubBridgesKept tr s := by
  have hkept := BridgeWorker.kept_of_run h
  refine ⟨hkept.pubsub.once, fun isR2a e he g hg => ?_, fun g hg => ?_,
    hkept.pubsub.held.perm.nodup_iff.mp hkept.pubsub.held.nodup, hkept.pubsub.held.balanced,
    fun ev hev hrun => ?_, fun ev hev a hinput hnone => ?_⟩
  · refine hkept.pubsub.held.mem_iff.mpr (List.mem_append_left _ ?_)
    exact PubsubBridges.mem_groups.mpr ⟨isR2a, e, he, hg⟩
  -- a group that is held is that of a pub/sub bridge or of a service bridge
  · rcases List.mem_append.mp (hkept.pubsub.held.mem_iff.mp hg) with hmem | hmem
    · exact .inl (PubsubBridges.mem_groups.mp hmem)
    · obtain ⟨e, he, hmem⟩ := List.mem_flatMap.mp hmem
      have hsettled := hkept.settled e he
      refine .inr ⟨e, he, hsettled.entity.mp ?_, hmem⟩
      refine Option.isSome_iff_ne_none.mpr fun hnone => ?_
      rw [hsettled.null hnone] at hmem
      cases hmem
  · obtain ⟨later, earlier, rfl⟩ := List.append_of_mem hev
    obtain ⟨hpre, -, houtput, -⟩ := h.event
    have houtput : ev.output = (ev.pre.step ev.input).1 := houtput
    have hpre := BridgeWorker.kept_of_run hpre
    rw [houtput]
    unfold BridgeWorker.step
    rw [if_neg (by rw [hrun]; exact Bool.false_ne_true)]
    -- a pass that throws ends the worker
    cases hact : ev.pre.act ev.input with
    | none => exact .inl ⟨rfl, rfl⟩
    | some r => exact .inr (hpre.act hact)
  · obtain ⟨later, earlier, rfl⟩ := List.append_of_mem hev
    obtain ⟨hpre, -⟩ := h.event
    have hpre := BridgeWorker.kept_of_run hpre
    rw [hinput] at hnone
    exact hpre.checkAndRemovePubsubBridges_eq_none (Option.map_eq_none_iff.mp hnone)

/-- One subscriber, no endpoint of ROS 2, and a loader that makes a bridge with a group. -/
private def oneSubscriber (now : ℕ) : TopicAnswers where
  subscriberNum := some ⟨1, 0, false⟩
  publisherNum := none
  publishersInfo := .ok []
  subscriptionsInfo := .ok []
  subscriberQos := none
  publisherQos := none
  createR2aPubsubBridge _ _ _ := .result ⟨some 0, some 1⟩
  createA2rPubsubBridge _ _ _ := .threw none
  updateRos2Num := .updated
  now := now

/-- A bridge that the daemon has leased stays while the lease runs, and is gone after it. -/
theorem pubsub_bridge_lifecycle_leased :
    ∃ tr s, PubsubBridgesKept tr s ∧ s.exited = false ∧ s.pubsub.r2a = [] ∧
      tr.map (fun ev => ev.pre.pubsub.r2a.length) = [1, 1, 0, 0] ∧
      s.pubsub.executor.calls = [.stop 1, .remove 1, .add 1] := by
  let lease : BridgeMsg := (List.replicate 1036 0).set 0 2
  have hrun := (Transition.Run.init (T := bridgeWorker) (G := Transition.anyStep)
    ⟨⟨[], []⟩, fun _ => false, rfl⟩).exec
    (Transition.System.guarded_anyStep _ _ [.message lease 0 fun _ _ => oneSubscriber 0,
      .createDaemonForcedBridges fun _ _ => oneSubscriber 1,
      .checkAndRemovePubsubBridges fun _ _ => oneSubscriber 1,
      .checkAndRemovePubsubBridges fun _ _ => oneSubscriber (daemonForceDeadline 0)])
  exact ⟨_, _, pubsub_bridge_lifecycle hrun, by decide +kernel, by decide +kernel,
    by decide +kernel, by decide +kernel⟩

end Agnocast
