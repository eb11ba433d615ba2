import Agnocast.Bridge.ServiceBridge
import Agnocast.Lib.Transition

/-!
# The bridge manager — the life of a service bridge

An item has a bridge in the states R2A and A2R, and a shadow node in the states pending and R2A
only. The executor is shared by the items, and so are the shadow nodes: what an item does leaves
the groups and the nodes of the others alone.

* `ServiceBridge.Placed`     — state, bridge and shadow node of an item agree, with what the
  others have as a frame.
* `Arrow`                    — the arrows of the diagram, with their conditions.
* `Acted`                    — what a step does to the item it is for.
* `service_bridge_lifecycle` — any number of items, over a run.
-/

namespace Agnocast

namespace ServiceBridge

variable {x x' : ServiceBridge} {w w' : BridgeWorld} {groups : List Nat}
  {nodes : List ((Bytes × Bytes) × Nat)} {a : TickAnswers} {r : TickReply} {code : Int}
  {state : ServiceBridgeState}

/-! ## One item -/

/-- The shadow node that the item holds, under its identity. -/
def ownedNode (x : ServiceBridge) : List ((Bytes × Bytes) × Nat) :=
  match x.shadowNodeIdentity, x.shadowNode with
  | some identity, some node => [(identity, node)]
  | _, _ => []

/-- State, bridge and shadow node of an item agree. -/
structure Settled (x : ServiceBridge) : Prop where
  entity : x.entity.entityHandle.isSome = true ↔ x.state = .r2a ∨ x.state = .a2r
  null : x.entity.entityHandle = none → x.entity = .null
  shadow : x.shadowNode.isSome = true → x.state = .pending ∨ x.state = .r2a
  identity : x.shadowNode.isSome = true → x.shadowNodeIdentity.isSome = true

theorem settled_new : ServiceBridge.new.Settled :=
  ⟨by decide, fun _ => rfl, fun hs => (by cases hs), fun hs => (by cases hs)⟩

/-- **What an item keeps**, while `groups` and `nodes` are those of others. -/
structure Placed (x : ServiceBridge) (w : BridgeWorld) (groups : List Nat)
    (nodes : List ((Bytes × Bytes) × Nat)) : Prop extends Settled x where
  held : w.executor.Holds (x.entity.groups ++ groups)
  owned : w.shadowNodes.Owned (x.ownedNode ++ nodes)

theorem Placed.setErrorString (h : x.Placed w groups nodes) (e : String) :
    (x.setErrorString e).Placed w groups nodes :=
  ⟨⟨h.entity, h.null, h.shadow, h.identity⟩, h.held, h.owned⟩

/-- No bridge in the other states. -/
theorem Placed.entity_eq_null (h : x.Placed w groups nodes) (hr2a : x.state ≠ .r2a)
    (ha2r : x.state ≠ .a2r) : x.entity = .null := by
  refine h.null (Option.not_isSome_iff_eq_none.mp fun hsome => ?_)
  rcases h.entity.mp hsome with hstate | hstate
  · exact hr2a hstate
  · exact ha2r hstate

theorem Placed.ownedNode_eq_nil (hnode : x.shadowNode = none) : x.ownedNode = [] := by
  unfold ownedNode
  rw [hnode]
  split
  · next heq => cases heq
  · rfl

/-! ## Shadow nodes -/

/-- Nothing but the shadow node changes. -/
structure SameButNode (x x' : ServiceBridge) (w w' : BridgeWorld) : Prop where
  item : ∃ e node, x' = { x.setErrorString e with shadowNode := node }
  executor : w'.executor = w.executor

theorem SameButNode.before {e : String} (h : SameButNode (x.setErrorString e) x' w w') :
    SameButNode x x' w w' := ⟨h.item, h.executor⟩

theorem SameButNode.after (h : SameButNode x x' w w') (e : String) :
    SameButNode x (x'.setErrorString e) w w' := by
  obtain ⟨⟨e', node, rfl⟩, hexecutor⟩ := h
  exact ⟨⟨e, node, rfl⟩, hexecutor⟩

theorem SameButNode.state_eq (h : SameButNode x x' w w') : x'.state = x.state := by
  obtain ⟨⟨e, node, rfl⟩, -⟩ := h
  rfl

theorem SameButNode.entity_eq (h : SameButNode x x' w w') : x'.entity = x.entity := by
  obtain ⟨⟨e, node, rfl⟩, -⟩ := h
  rfl

theorem SameButNode.r2aWanted (h : SameButNode x x' w w') : x'.r2aWanted a = x.r2aWanted a := by
  obtain ⟨⟨e, node, rfl⟩, -⟩ := h
  rfl

theorem SameButNode.a2rWanted (h : SameButNode x x' w w') : x'.a2rWanted a = x.a2rWanted a := by
  obtain ⟨⟨e, node, rfl⟩, -⟩ := h
  rfl

theorem findOrCreateShadowNode_spec {identity : Bytes × Bytes} {answer : ShadowNodeReply}
    {c c' : WeakCache (Bytes × Bytes)} {node : Option Nat} (hc : c.Owned nodes)
    (h : x.findOrCreateShadowNode c identity answer = (node, x', c')) :
    (∃ e, x' = x.setErrorString e) ∧
      c'.Owned ((node.map fun n => (identity, n)).toList ++ nodes) := by
  unfold findOrCreateShadowNode at h
  split at h
  · next n c₁ hfind =>
    obtain ⟨rfl, rfl, rfl⟩ : _ ∧ _ ∧ _ := by simpa using h
    exact ⟨⟨_, rfl⟩, hc.find hfind⟩
  next hfind =>
  cases answer with
  | created =>
    obtain ⟨rfl, rfl, rfl⟩ : _ ∧ _ ∧ _ := by simpa using h
    exact ⟨⟨_, rfl⟩, hc.create fun n => hc.not_mem_of_find hfind n⟩
  | parseFailed =>
    obtain ⟨rfl, rfl, rfl⟩ : _ ∧ _ ∧ _ := by simpa using h
    exact ⟨⟨_, rfl⟩, hc⟩
  | initFailed =>
    obtain ⟨rfl, rfl, rfl⟩ : _ ∧ _ ∧ _ := by simpa using h
    exact ⟨⟨_, rfl⟩, hc⟩

/-- A pending item takes its shadow node, or gets none. -/
theorem Placed.acquireShadowNode {answer : ShadowNodeReply} {acquired : Bool}
    (h : x.Placed w groups nodes) (hstate : x.state = .pending)
    (hacquire : x.acquireShadowNode w answer = (acquired, x', w')) :
    x'.Placed w' groups nodes ∧ SameButNode x x' w w' := by
  unfold ServiceBridge.acquireShadowNode at hacquire
  split at hacquire
  · next identity hid hnode =>
    have howned := h.owned
    rw [Placed.ownedNode_eq_nil hnode, List.nil_append] at howned
    generalize hfind : x.findOrCreateShadowNode w.shadowNodes identity answer = found at hacquire
    obtain ⟨node, x₁, c⟩ := found
    obtain ⟨⟨e, rfl⟩, hc⟩ := findOrCreateShadowNode_spec howned hfind
    obtain ⟨rfl, rfl, rfl⟩ : _ ∧ _ ∧ _ := by simpa using hacquire
    refine ⟨⟨⟨h.entity, h.null, fun _ => .inl hstate, fun _ => ?_⟩, h.held, ?_⟩,
      ⟨e, node, rfl⟩, rfl⟩
    · show x.shadowNodeIdentity.isSome = true
      rw [hid]
      rfl
    · have hnew : ({ x.setErrorString e with shadowNode := node } : ServiceBridge).ownedNode =
          (node.map fun n => (identity, n)).toList := by
        show (match x.shadowNodeIdentity, node with
          | some identity, some node => [(identity, node)]
          | _, _ => []) = _
        rw [hid]
        cases node <;> rfl
      rw [hnew]
      exact hc
  · obtain ⟨rfl, rfl, rfl⟩ : _ ∧ _ ∧ _ := by simpa using hacquire
    exact ⟨h, ⟨_, _, rfl⟩, rfl⟩

/-- An item lets its shadow node go. -/
theorem Placed.releaseShadowNode (h : x.Placed w groups nodes)
    (hrelease : x.releaseShadowNode w = (x', w')) :
    x'.Placed w' groups nodes ∧ SameButNode x x' w w' ∧ x'.shadowNode = none := by
  have hfalse : ¬ (none : Option Nat).isSome = true := Bool.false_ne_true
  unfold ServiceBridge.releaseShadowNode at hrelease
  split at hrelease
  · next node identity hnode hid =>
    obtain ⟨rfl, rfl⟩ := Prod.mk.inj hrelease
    have howned := h.owned
    unfold ownedNode at howned
    rw [hid, hnode] at howned
    refine ⟨⟨⟨h.entity, h.null, fun hs => absurd hs hfalse, fun hs => absurd hs hfalse⟩, h.held, ?_⟩,
      ⟨⟨x.errorString, none, rfl⟩, rfl⟩, rfl⟩
    rw [Placed.ownedNode_eq_nil rfl]
    exact howned.release
  · next node hnode hid =>
    -- a shadow node has an identity
    have hidentity := h.identity (by rw [hnode]; rfl)
    rw [hid] at hidentity
    cases hidentity
  · next hnode =>
    obtain ⟨rfl, rfl⟩ := Prod.mk.inj hrelease
    exact ⟨h, ⟨⟨_, _, rfl⟩, rfl⟩, hnode⟩

/-! ## Starting a bridge -/

/-- The calls that add the groups of a bridge, newest first. -/
def additionCalls (entity : ServiceBridgeEntity) : List GroupCall :=
  (entity.clientCbGroup.toList ++ entity.srvCbGroup.toList).map .add

/-- The calls that remove and stop them. -/
def removalCalls (entity : ServiceBridgeEntity) : List GroupCall :=
  (entity.clientCbGroup.toList ++ entity.srvCbGroup.toList).flatMap fun g => [.stop g, .remove g]

/-- **What a start does**: it fails and sets the error string, or there is a bridge. -/
inductive Starts (x : ServiceBridge) (w : BridgeWorld) (state : ServiceBridgeState) :
    Int → ServiceBridge → BridgeWorld → Prop
  | failed (e : String) : Starts x w state (-1) (x.setErrorString e) w
  | started (e : String) (entity : ServiceBridgeEntity) (between executor : GroupRegistry)
      (hsome : entity.entityHandle.isSome = true)
      (hsrv : w.executor.addIfPresent entity.srvCbGroup = some between)
      (hclient : between.addIfPresent entity.clientCbGroup = some executor) :
      Starts x w state 0 { x.setErrorString e with state := state, entity := entity }
        { w with executor := executor }

/-- The executor has a group of the bridge already, or would have it twice. -/
def Refused (executor : GroupRegistry) (entity : ServiceBridgeEntity) : Prop :=
  ∃ g ∈ entity.groups, executor.addedWithNode g = true ∨ g ∈ executor.groups ∨
    entity.srvCbGroup = entity.clientCbGroup

/-- The loader makes this bridge. -/
def Makes (create : Option (Bytes → ServiceBridgeReply)) (entity : ServiceBridgeEntity) : Prop :=
  ∃ f serviceType, create = some f ∧ f serviceType = .entity entity

theorem startBridge_spec {create : Option (Bytes → ServiceBridgeReply)}
    (h : x.startBridge w state create = some (code, x', w')) : x.Starts w state code x' w' := by
  unfold startBridge at h
  split at h
  · split at h
    · obtain ⟨rfl, rfl, rfl⟩ : _ ∧ _ ∧ _ := by simpa using h
      exact .failed _
    next entity _ =>
    split at h
    · obtain ⟨rfl, rfl, rfl⟩ : _ ∧ _ ∧ _ := by simpa using h
      exact .failed _
    next hnone =>
    obtain ⟨between, hsrv, h⟩ := Option.bind_eq_some_iff.mp h
    obtain ⟨executor, hclient, h⟩ := Option.map_eq_some_iff.mp h
    obtain ⟨rfl, rfl, rfl⟩ : _ ∧ _ ∧ _ := by simpa using h
    refine .started x.errorString entity between executor ?_ hsrv hclient
    exact Option.isSome_iff_ne_none.mpr fun heq => hnone (Option.isNone_iff_eq_none.mpr heq)
  · obtain ⟨rfl, rfl, rfl⟩ : _ ∧ _ ∧ _ := by simpa using h
    exact .failed _

/-- The process exits when the executor refuses the bridge that the loader has made. -/
theorem startBridge_eq_none {create : Option (Bytes → ServiceBridgeReply)}
    (h : x.startBridge w state create = none) :
    ∃ entity, Makes create entity ∧ Refused w.executor entity := by
  unfold startBridge at h
  split at h
  · next serviceType f _ =>
    split at h
    · cases h
    next entity hmade =>
    split at h
    · cases h
    refine ⟨entity, ⟨f, serviceType, rfl, hmade⟩, ?_⟩
    cases hsrv : w.executor.addIfPresent entity.srvCbGroup with
    | none =>
      obtain ⟨g, hg, href⟩ := GroupRegistry.addIfPresent_eq_none hsrv
      refine ⟨g, List.mem_append_left _ (Option.mem_toList.mpr hg), ?_⟩
      exact href.imp id .inl
    | some between =>
      rw [hsrv, Option.bind_some, Option.map_eq_none_iff] at h
      obtain ⟨g, hg, href⟩ := GroupRegistry.addIfPresent_eq_none h
      refine ⟨g, List.mem_append_right _ (Option.mem_toList.mpr hg), ?_⟩
      rcases href with href | href
      · rw [GroupRegistry.addIfPresent_addedWithNode hsrv] at href
        exact .inl href
      · -- it was there before, or is the other group of the bridge
        rcases GroupRegistry.mem_of_addIfPresent hsrv href with hmem | hmem
        · exact .inr (.inl hmem)
        · exact .inr (.inr (hmem.trans hg.symm))
  · cases h

theorem Starts.weaken {e : String} (h : (x.setErrorString e).Starts w state code x' w') :
    x.Starts w state code x' w' := by
  cases h with
  | failed e' => exact .failed e'
  | started e' entity between executor hsome hsrv hclient =>
    exact .started e' entity between executor hsome hsrv hclient

/-- A start that succeeds has the state and the bridge, and the groups are in the executor. -/
theorem Placed.starts (h : x.Placed w groups nodes) (hpending : x.state = .pending)
    (hs : x.Starts w state code x' w') (hstate : state = .r2a ∨ state = .a2r)
    (hnode : state = .r2a ∨ x.shadowNode = none) : x'.Placed w' groups nodes := by
  cases hs with
  | failed e => exact h.setErrorString e
  | started e entity between executor hsome hsrv hclient =>
    have hnull : x.entity = .null :=
      h.entity_eq_null (by rw [hpending]; simp) (by rw [hpending]; simp)
    have hheld : w.executor.Holds groups := by
      have := h.held
      rwa [hnull] at this
    refine ⟨⟨⟨fun _ => hstate, fun _ => hsome⟩, fun hnone => ?_, fun hs => ?_, h.identity⟩, ?_,
      h.owned⟩
    · have hnone : entity.entityHandle = none := hnone
      rw [hnone] at hsome
      cases hsome
    · rcases hnode with rfl | hnode
      · exact .inr rfl
      · have hs : x.shadowNode.isSome = true := hs
        rw [hnode] at hs
        cases hs
    · refine ((hheld.addIfPresent hsrv).addIfPresent hclient).of_perm ?_
      show (entity.clientCbGroup.toList ++ (entity.srvCbGroup.toList ++ groups)).Perm
        (entity.srvCbGroup.toList ++ entity.clientCbGroup.toList ++ groups)
      rw [← List.append_assoc]
      exact List.perm_append_comm.append_right _

/-- **A bridge is removed**: the process does not exit, and its groups are removed and stopped. -/
theorem Placed.removeBridge (h : x.Placed w groups nodes)
    (hnode : x.shadowNode.isSome = true → x.shadowNodeIdentity.isSome = true) :
    ∃ w', x.removeBridge w = some ({ x with state := .pending, entity := .null }, w') ∧
      ({ x with state := .pending, entity := .null } : ServiceBridge).Placed w' groups nodes ∧
      w'.executor.calls = removalCalls x.entity ++ w.executor.calls := by
  have hheld := h.held
  unfold ServiceBridgeEntity.groups at hheld
  rw [List.append_assoc] at hheld
  obtain ⟨between, hsrv, hbetween, hcalls⟩ := hheld.removeAndStop
  obtain ⟨executor, hclient, hexecutor, hcalls'⟩ := hbetween.removeAndStop
  refine ⟨{ w with executor := executor }, ?_, ⟨⟨?_, fun _ => rfl, fun _ => .inl rfl, hnode⟩,
    hexecutor, h.owned⟩, ?_⟩
  · unfold ServiceBridge.removeBridge
    rw [hsrv, Option.bind_some, hclient]
    rfl
  · simp [ServiceBridgeEntity.null]
  · show executor.calls = _
    rw [hcalls', hcalls, removalCalls, List.flatMap_append, List.append_assoc]

end ServiceBridge

/-! ## Any number of items -/

/-- The items that there are, and what they share. -/
structure ServiceBridges where
  items : List ServiceBridge
  world : BridgeWorld
  exited : Bool

/-- What happens to the items. -/
inductive ServiceBridgeInput
  | construct
  /-- An item in the state none is destroyed. -/
  | destroy (i : Nat)
  | handleRequest (i : Nat) (msg : BridgeMsg)
  | handleDaemonRequest (i : Nat) (now : ℕ)
  | checkAndUpdate (i : Nat) (a : TickAnswers)

/-- The item that it is for. -/
def ServiceBridgeInput.item : ServiceBridgeInput → Option Nat
  | .construct | .destroy _ => none
  | .handleRequest i _ | .handleDaemonRequest i _ | .checkAndUpdate i _ => some i

namespace ServiceBridge

/-- What a call of an item does. -/
def act (x : ServiceBridge) (w : BridgeWorld) :
    ServiceBridgeInput → Option (TickReply × ServiceBridge × BridgeWorld)
  | .construct | .destroy _ => some (.quiet, x, w)
  -- a text that runs past the message is not looked at
  | .handleRequest _ msg => some (.quiet, (x.handleRequest msg).getD x, w)
  | .handleDaemonRequest _ now => some (.quiet, x.handleDaemonRequest now, w)
  | .checkAndUpdate _ a => x.checkAndUpdate w a

end ServiceBridge

open ServiceBridge (TickReply)

namespace ServiceBridges

variable (s : ServiceBridges)

/-- A call of the item at a place. -/
def call (i : Nat) (input : ServiceBridgeInput) : TickReply × ServiceBridges :=
  match s.items[i]? with
  | none => (.quiet, s)
  | some x =>
    match x.act s.world input with
    | none => (.quiet, { s with exited := true })
    | some (r, x', w') => (r, { s with items := s.items.set i x', world := w' })

def step (input : ServiceBridgeInput) : TickReply × ServiceBridges :=
  if s.exited then (.quiet, s)
  else
    match input with
    | .construct => (.quiet, { s with items := s.items ++ [.new] })
    | .destroy i =>
      (.quiet,
        if (s.items[i]?.map fun x => x.state) = some .none then
          { s with items := s.items.eraseIdx i }
        else s)
    | .handleRequest i _ | .handleDaemonRequest i _ | .checkAndUpdate i _ => s.call i input

end ServiceBridges

/-- No item yet; the nodes of the executor have added any groups. -/
def serviceBridges : Transition.System ServiceBridges ServiceBridgeInput TickReply where
  init s := ∃ addedWithNode, s = ⟨[], ⟨⟨addedWithNode, [], []⟩, .empty⟩, false⟩
  step := ServiceBridges.step

abbrev ServiceBridgeEvent := Transition.Event ServiceBridges ServiceBridgeInput TickReply

/-! ## The arrows -/

namespace ServiceBridge

variable {x x' : ServiceBridge} {w w' : BridgeWorld} {groups : List Nat}
  {nodes : List ((Bytes × Bytes) × Nat)} {a : TickAnswers} {r : TickReply} {i : Nat}
  {input : ServiceBridgeInput}

/-- The arrows of the diagram, with the numbers and the conditions that the header gives them. -/
inductive Arrow (x : ServiceBridge) :
    ServiceBridgeInput → ServiceBridgeState → ServiceBridgeState → Prop
  | one (i : Nat) (msg : BridgeMsg) : Arrow x (.handleRequest i msg) .none .pending
  | two (i : Nat) (a : TickAnswers) (hclient : clientFound a.agnoClientAgain = false)
      (hthree : x.a2rWanted a = false) (hserved : x.served a = false) :
      Arrow x (.checkAndUpdate i a) .pending .none
  | three (i : Nat) (a : TickAnswers) (hwanted : x.a2rWanted a = true) :
      Arrow x (.checkAndUpdate i a) .pending .a2r
  | four (i : Nat) (a : TickAnswers)
      (hgone : (a.ros2Service.found && clientFound a.agnoClient) = false ∨ x.served a = true) :
      Arrow x (.checkAndUpdate i a) .a2r .pending
  | five (i : Nat) (a : TickAnswers) (hserved : x.served a = true)
      (hwanted : x.r2aWanted a = true) : Arrow x (.checkAndUpdate i a) .pending .r2a
  | six (i : Nat) (a : TickAnswers)
      (hgone : a.agnoService.found = false ∨ x.r2aWanted a = false) :
      Arrow x (.checkAndUpdate i a) .r2a .pending

/-- What becomes of the bridge: it stays, it is there now and its groups were added, or it is gone
and its groups were removed and stopped. -/
inductive BridgeChange (x x' : ServiceBridge) (w w' : BridgeWorld) : Prop
  | kept (hentity : x'.entity = x.entity) (hexecutor : w'.executor = w.executor)
  | started (hbefore : x.entity = .null) (hafter : x'.entity.entityHandle.isSome = true)
      (hcalls : w'.executor.calls = additionCalls x'.entity ++ w.executor.calls)
  | removed (hafter : x'.entity = .null)
      (hcalls : w'.executor.calls = removalCalls x.entity ++ w.executor.calls)

/-- **What a step does to the item it is for.** -/
structure Acted (input : ServiceBridgeInput) (r : TickReply) (x x' : ServiceBridge)
    (w w' : BridgeWorld) : Prop where
  /-- The state changes along an arrow only. -/
  arrow : x'.state = x.state ∨ Arrow x input x.state x'.state
  bridge : BridgeChange x x' w w'
  /-- A start that fails leaves state and bridge as they are. -/
  failed : ∀ code, r = .started code → code ≠ 0 →
    x'.state = x.state ∧ x'.entity = x.entity ∧ w'.executor = w.executor

/-! ## A tick -/

theorem Acted.quiet (hstate : x'.state = x.state) (hentity : x'.entity = x.entity)
    (hexecutor : w'.executor = w.executor) : Acted input .quiet x x' w w' :=
  ⟨.inl hstate, .kept hentity hexecutor, fun _ hr => by cases hr⟩

/-- A bridge goes, along arrow (4) or (6). -/
theorem Placed.removed {e : String} (h : x.Placed w groups nodes)
    (harrow : Arrow x input x.state .pending) :
    ∃ x' w', (x.setErrorString e).removeBridge w = some (x', w') ∧ x'.Placed w' groups nodes ∧
      Acted input .quiet x x' w w' := by
  obtain ⟨w', heq, hplaced, hcalls⟩ := (h.setErrorString e).removeBridge h.identity
  exact ⟨_, w', heq, hplaced, .inr harrow, .removed rfl hcalls, fun _ hr => by cases hr⟩

theorem Placed.checkAndUpdateR2a (h : x.Placed w groups nodes) (hstate : x.state = .r2a) :
    ∃ r x' w', x.checkAndUpdateR2a w a = some (r, x', w') ∧ x'.Placed w' groups nodes ∧
      Acted (.checkAndUpdate i a) r x x' w w' := by
  have hprobe := ((only_agnoServiceExists a.agnoService).and (only_r2aWanted a) fun _ _ => rfl) x
  obtain ⟨e, he⟩ := hprobe
  unfold ServiceBridge.checkAndUpdateR2a
  rw [he]
  dsimp only
  cases hstays : a.agnoService.found && x.r2aWanted a with
  | true =>
    rw [if_pos rfl]
    exact ⟨_, _, _, rfl, h.setErrorString e, .quiet rfl rfl rfl⟩
  | false =>
    rw [if_neg Bool.false_ne_true]
    have harrow : Arrow x (.checkAndUpdate i a) x.state .pending := by
      rw [hstate]
      exact .six i a (Bool.and_eq_false_iff.mp hstays)
    obtain ⟨x', w', heq, hplaced, hacted⟩ := h.removed harrow
    rw [heq]
    exact ⟨_, _, _, rfl, hplaced, hacted⟩

theorem Placed.checkAndUpdateA2r (h : x.Placed w groups nodes) (hstate : x.state = .a2r) :
    ∃ r x' w', x.checkAndUpdateA2r w a = some (r, x', w') ∧ x'.Placed w' groups nodes ∧
      Acted (.checkAndUpdate i a) r x x' w w' := by
  obtain ⟨e, he⟩ := only_served a x
  unfold ServiceBridge.checkAndUpdateA2r
  rw [he]
  dsimp only
  cases hserved : x.served a with
  -- the service is here: the bridge goes
  | true =>
    rw [if_pos rfl]
    have harrow : Arrow x (.checkAndUpdate i a) x.state .pending := by
      rw [hstate]
      exact .four i a (.inr hserved)
    obtain ⟨x', w', heq, hplaced, hacted⟩ := h.removed harrow
    show ∃ r x' w', ((x.setErrorString _).removeBridge w).map _ = _ ∧ _
    rw [heq]
    exact ⟨_, _, _, rfl, hplaced, hacted⟩
  | false =>
    rw [if_neg Bool.false_ne_true]
    -- it stays while both ends are there
    have hprobe := (only_graphProbe "No target ROS 2 service found" a.ros2Service).and
      (only_agnoClientExists a.agnoClient) (fun _ _ => rfl) (x.setErrorString e)
    obtain ⟨e', he'⟩ := hprobe
    unfold ros2ServiceExists
    rw [he']
    dsimp only
    cases hstays : a.ros2Service.found && clientFound a.agnoClient with
    | true =>
      rw [if_pos rfl]
      exact ⟨_, _, _, rfl, h.setErrorString e', .quiet rfl rfl rfl⟩
    | false =>
      rw [if_neg Bool.false_ne_true]
      have harrow : Arrow x (.checkAndUpdate i a) x.state .pending := by
        rw [hstate]
        exact .four i a (.inl hstays)
      obtain ⟨x', w', heq, hplaced, hacted⟩ := h.removed harrow
      show ∃ r x' w', ((x.setErrorString _).removeBridge w).map _ = _ ∧ _
      rw [heq]
      exact ⟨_, _, _, rfl, hplaced, hacted⟩

/-- A start along arrow (3) or (5). -/
theorem Placed.started {x₁ : ServiceBridge} {w₁ : BridgeWorld} {state : ServiceBridgeState}
    {code : Int} (h : x₁.Placed w₁ groups nodes) (hsame : SameButNode x x₁ w w₁)
    (hpending : x.state = .pending) (hs : x₁.Starts w₁ state code x' w')
    (hstate : state = .r2a ∨ x₁.shadowNode = none) (hbridge : state = .r2a ∨ state = .a2r)
    (harrow : Arrow x input .pending state) :
    x'.Placed w' groups nodes ∧ Acted input (.started code) x x' w w' := by
  have hpending₁ : x₁.state = .pending := hsame.state_eq.trans hpending
  have hnull : x₁.entity = .null :=
    h.entity_eq_null (by rw [hpending₁]; rintro ⟨⟩) (by rw [hpending₁]; rintro ⟨⟩)
  refine ⟨h.starts hpending₁ hs hbridge hstate, ?_⟩
  cases hs with
  | failed e =>
    exact ⟨.inl hsame.state_eq, .kept hsame.entity_eq hsame.executor,
      fun code _ _ => ⟨hsame.state_eq, hsame.entity_eq, hsame.executor⟩⟩
  | started e entity between executor hsome hsrv hclient =>
    refine ⟨.inr (by rw [hpending]; exact harrow),
      .started (hsame.entity_eq.symm.trans hnull) hsome ?_, ?_⟩
    · show executor.calls = _
      rw [GroupRegistry.addIfPresent_calls hclient, GroupRegistry.addIfPresent_calls hsrv,
        hsame.executor, additionCalls, List.map_append, List.append_assoc]
    · rintro code ⟨⟩ hcode
      exact absurd rfl hcode

theorem startR2aBridge_spec {code : Int} (h : x.startR2aBridge w a = some (code, x', w')) :
    x.Starts w .r2a code x' w' := by
  obtain ⟨e, he⟩ := only_graphProbe "No target ROS 2 service found" a.ros2Service x
  unfold startR2aBridge ros2ServiceExists at h
  rw [he] at h
  obtain ⟨e', hqos, -⟩ := (x.setErrorString e).getAgnoServiceQos_eq a.agnoServiceQos
  dsimp only at h
  split at h
  · next x₁ hget =>
    rw [hget] at hqos
    obtain ⟨rfl, rfl, rfl⟩ : _ ∧ _ ∧ _ := by simpa using h
    have hx₁ : x₁ = x.setErrorString e' := hqos
    subst hx₁
    exact .failed e'
  · next qos x₁ hget =>
    rw [hget] at hqos
    have hx₁ : x₁ = (x.setErrorString e).setErrorString e' := hqos
    subst hx₁
    exact ((startBridge_spec h).weaken : (x.setErrorString e).Starts w .r2a code x' w').weaken

/-- The loader makes this bridge in the tick. -/
def Loads (a : TickAnswers) (entity : ServiceBridgeEntity) : Prop :=
  ∃ loader, a.bridgeLoader = some loader ∧ ∃ serviceName serviceType qos,
    loader.createR2aServiceBridge serviceName serviceType qos = .entity entity ∨
      loader.createA2rServiceBridge serviceName serviceType qos = .entity entity

/-- The process exits in a start when the executor refuses the bridge. -/
theorem startR2aBridge_eq_none (h : x.startR2aBridge w a = none) :
    ∃ entity, Loads a entity ∧ Refused w.executor entity := by
  unfold startR2aBridge at h
  dsimp only at h
  split at h
  · cases h
  · obtain ⟨entity, ⟨f, serviceType, hf, hmade⟩, href⟩ := startBridge_eq_none h
    obtain ⟨loader, hloader, rfl⟩ := Option.map_eq_some_iff.mp hf
    exact ⟨entity, ⟨loader, hloader, _, _, _, .inl hmade⟩, href⟩

theorem startA2rBridge_eq_none (h : x.startA2rBridge w a = none) :
    ∃ entity, Loads a entity ∧ Refused w.executor entity := by
  obtain ⟨entity, ⟨f, serviceType, hf, hmade⟩, href⟩ := startBridge_eq_none h
  obtain ⟨loader, hloader, rfl⟩ := Option.map_eq_some_iff.mp hf
  exact ⟨entity, ⟨loader, hloader, _, _, _, .inr hmade⟩, href⟩

/-- What a tick in pending comes to: it goes along an arrow or stays, or the executor refuses the
bridge and the process exits. -/
def Ticked (i : Nat) (a : TickAnswers) (x : ServiceBridge) (w : BridgeWorld) (groups : List Nat)
    (nodes : List ((Bytes × Bytes) × Nat))
    (result : Option (TickReply × ServiceBridge × BridgeWorld)) : Prop :=
  (result = none ∧ ∃ entity, Loads a entity ∧ Refused w.executor entity) ∨
    ∃ r x' w', result = some (r, x', w') ∧ x'.Placed w' groups nodes ∧
      Acted (.checkAndUpdate i a) r x x' w w'

/-- With an Agnocast service: the shadow node, and then the bridge if it is wanted. -/
theorem Placed.served {e : String} (h : x.Placed w groups nodes) (hstate : x.state = .pending)
    (hserved : x.served a = true) {acquired : Bool} {x₁ : ServiceBridge} {w₁ : BridgeWorld}
    (hacquire : (x.setErrorString e).acquireShadowNode w a.shadowNode = (acquired, x₁, w₁)) :
    Ticked i a x w groups nodes
      (if acquired then
        let (wanted, x) := ((ros2ClientExists a.ros2Client).or (r2aForced a.now)) x₁
        if wanted then (x.startR2aBridge w₁ a).map fun r => (.started r.1, r.2)
        else some (.quiet, x, w₁)
      else some (.quiet, x₁, w₁)) := by
  obtain ⟨hplaced, hsame⟩ := (h.setErrorString e).acquireShadowNode hstate hacquire
  have hsame := hsame.before
  cases acquired with
  | false =>
    exact .inr ⟨_, _, _, rfl, hplaced, .quiet hsame.state_eq hsame.entity_eq hsame.executor⟩
  | true =>
    rw [if_pos rfl]
    obtain ⟨e₂, he₂⟩ := only_r2aWanted a x₁
    rw [he₂]
    dsimp only
    cases hw : x₁.r2aWanted a with
    | false =>
      rw [if_neg Bool.false_ne_true]
      exact .inr ⟨_, _, _, rfl, hplaced.setErrorString e₂,
        .quiet hsame.state_eq hsame.entity_eq hsame.executor⟩
    | true =>
      rw [if_pos rfl]
      cases hstart : (x₁.setErrorString e₂).startR2aBridge w₁ a with
      | none =>
        obtain ⟨entity, hloads, href⟩ := startR2aBridge_eq_none hstart
        rw [hsame.executor] at href
        exact .inl ⟨rfl, entity, hloads, href⟩
      | some started =>
        obtain ⟨code, x', w'⟩ := started
        have harrow : Arrow x (.checkAndUpdate i a) .pending .r2a :=
          .five i a hserved (hsame.r2aWanted.symm.trans hw)
        exact .inr ⟨_, _, _, rfl, (hplaced.setErrorString e₂).started (hsame.after e₂) hstate
          (startR2aBridge_spec hstart) (.inl rfl) (.inl rfl) harrow⟩

/-- Without one: no shadow node, and a bridge if it is wanted, or the end. -/
theorem Placed.unserved {e : String} (h : x.Placed w groups nodes) (hstate : x.state = .pending)
    (hserved : x.served a = false) {x₁ : ServiceBridge} {w₁ : BridgeWorld}
    (hrelease : (x.setErrorString e).releaseShadowNode w = (x₁, w₁)) :
    Ticked i a x w groups nodes
      (let (wanted, x) := ((Probe.test (·.mayStartA2rBridge)).and
        ((ros2ServiceExists a.ros2Service).and (agnoClientExists a.agnoClient))) x₁
      if wanted then (x.startA2rBridge w₁ a).map fun r => (.started r.1, r.2)
      else
        let (client, x) := agnoClientExists a.agnoClientAgain x
        some (.quiet, if client then x else { x with state := .none }, w₁)) := by
  obtain ⟨hplaced, hsame, hnode⟩ := (h.setErrorString e).releaseShadowNode hrelease
  have hsame := hsame.before
  -- the probes change at most the error string
  obtain ⟨e₂, he₂⟩ := only_a2rWanted a x₁
  rw [he₂]
  dsimp only
  cases hw : x₁.a2rWanted a with
  | true =>
    rw [if_pos rfl]
    cases hstart : (x₁.setErrorString e₂).startA2rBridge w₁ a with
    | none =>
      obtain ⟨entity, hloads, href⟩ := startA2rBridge_eq_none hstart
      rw [hsame.executor] at href
      exact .inl ⟨rfl, entity, hloads, href⟩
    | some started =>
      obtain ⟨code, x', w'⟩ := started
      have harrow : Arrow x (.checkAndUpdate i a) .pending .a2r :=
        .three i a (hsame.a2rWanted.symm.trans hw)
      exact .inr ⟨_, _, _, rfl, (hplaced.setErrorString e₂).started (hsame.after e₂) hstate
        (startBridge_spec hstart) (.inr hnode) (.inr rfl) harrow⟩
  | false =>
    rw [if_neg Bool.false_ne_true]
    obtain ⟨e₃, he₃⟩ := only_agnoClientExists a.agnoClientAgain (x₁.setErrorString e₂)
    rw [he₃]
    dsimp only
    have hplaced₃ := (hplaced.setErrorString e₂).setErrorString e₃
    have hsame₃ := (hsame.after e₂).after e₃
    refine .inr ⟨_, _, _, rfl, ?_⟩
    cases hclient : clientFound a.agnoClientAgain with
    | true =>
      rw [if_pos rfl]
      exact ⟨hplaced₃, .quiet hsame₃.state_eq hsame₃.entity_eq hsame₃.executor⟩
    | false =>
      rw [if_neg Bool.false_ne_true]
      have hpending : x₁.state = .pending := hsame.state_eq.trans hstate
      have hnull : x₁.entity = .null :=
        hplaced.entity_eq_null (by rw [hpending]; rintro ⟨⟩) (by rw [hpending]; rintro ⟨⟩)
      refine ⟨⟨⟨?_, hplaced₃.null, fun hs => ?_, hplaced₃.identity⟩, hplaced₃.held, hplaced₃.owned⟩,
        .inr ?_, .kept hsame₃.entity_eq hsame₃.executor, fun _ hr => by cases hr⟩
      · show x₁.entity.entityHandle.isSome = true ↔ _
        simp [hnull, ServiceBridgeEntity.null]
      · have hs : x₁.shadowNode.isSome = true := hs
        rw [hnode] at hs
        cases hs
      · rw [hstate]
        exact .two i a hclient (hsame.a2rWanted.symm.trans hw) hserved

theorem Placed.checkAndUpdatePending (h : x.Placed w groups nodes) (hstate : x.state = .pending) :
    Ticked i a x w groups nodes (x.checkAndUpdatePending w a) := by
  obtain ⟨e, he⟩ := only_served a x
  unfold ServiceBridge.checkAndUpdatePending
  rw [he]
  dsimp only
  cases hserved : x.served a with
  | true =>
    generalize hacquire : (x.setErrorString e).acquireShadowNode w a.shadowNode = acquire
    obtain ⟨acquired, x₁, w₁⟩ := acquire
    exact h.served hstate hserved hacquire
  | false =>
    generalize hrelease : (x.setErrorString e).releaseShadowNode w = release
    obtain ⟨x₁, w₁⟩ := release
    exact h.unserved hstate hserved hrelease

/-- **A tick** goes along an arrow or stays; only a start can make the process exit. -/
theorem Placed.checkAndUpdate (h : x.Placed w groups nodes) :
    Ticked i a x w groups nodes (x.checkAndUpdate w a) := by
  unfold ServiceBridge.checkAndUpdate
  cases hstate : x.state with
  | pending => exact h.checkAndUpdatePending hstate
  | r2a => exact .inr (h.checkAndUpdateR2a hstate)
  | a2r => exact .inr (h.checkAndUpdateA2r hstate)
  | none => exact .inr ⟨_, _, _, rfl, h, .quiet rfl rfl rfl⟩

end ServiceBridge

/-! ## A request -/

namespace ServiceBridgeItem

variable {item item' : ServiceBridgeItem} {msg : BridgeMsg} {read : List ℕ}

private theorem readServiceName_kept (h : item.readServiceName msg = some (item', read)) :
    item'.state = item.state ∧ item'.shadowNodeIdentity = item.shadowNodeIdentity := by
  unfold readServiceName at h
  split at h
  · obtain ⟨rfl, -⟩ := Prod.mk.inj (Option.some.inj h)
    exact ⟨rfl, rfl⟩
  · obtain ⟨name, -, h⟩ := Option.bind_eq_some_iff.mp h
    obtain ⟨rfl, -⟩ := Prod.mk.inj (Option.some.inj h)
    exact ⟨rfl, rfl⟩

private theorem readServiceType_kept (h : item.readServiceType msg = some (item', read)) :
    item'.state = item.state ∧ item'.shadowNodeIdentity = item.shadowNodeIdentity := by
  unfold readServiceType at h
  split at h
  · obtain ⟨rfl, -⟩ := Prod.mk.inj (Option.some.inj h)
    exact ⟨rfl, rfl⟩
  · obtain ⟨type, -, h⟩ := Option.bind_eq_some_iff.mp h
    obtain ⟨rfl, -⟩ := Prod.mk.inj (Option.some.inj h)
    exact ⟨rfl, rfl⟩

private theorem readShadowNodeIdentity_kept
    (h : item.readShadowNodeIdentity msg = some (item', read)) :
    item'.state = item.state ∧ (item.shadowNodeIdentity.isSome = true →
      item'.shadowNodeIdentity = item.shadowNodeIdentity) := by
  unfold readShadowNodeIdentity at h
  split at h
  · obtain ⟨rfl, -⟩ := Prod.mk.inj (Option.some.inj h)
    exact ⟨rfl, fun _ => rfl⟩
  next hset =>
    obtain ⟨ns, -, h⟩ := Option.bind_eq_some_iff.mp h
    obtain ⟨name, -, h⟩ := Option.bind_eq_some_iff.mp h
    obtain ⟨rfl, -⟩ := Prod.mk.inj (Option.some.inj h)
    exact ⟨rfl, fun hsome => absurd (by rw [hsome]; rfl) hset⟩

/-- A request takes an item from none to pending; an identity that is set stays. -/
theorem handleRequest_kept (h : item.handleRequest msg = some (item', read)) :
    (item'.state = item.state ∨ (item.state = .none ∧ item'.state = .pending)) ∧
      (item.shadowNodeIdentity.isSome = true →
        item'.shadowNodeIdentity = item.shadowNodeIdentity) := by
  obtain ⟨⟨item₁, read₁⟩, hupdate, h⟩ := Option.bind_eq_some_iff.mp h
  obtain ⟨rfl, -⟩ := Prod.mk.inj (Option.some.inj h)
  obtain ⟨⟨item₂, nameRead⟩, hname, h⟩ := Option.bind_eq_some_iff.mp hupdate
  obtain ⟨⟨item₃, typeRead⟩, htype, h⟩ := Option.bind_eq_some_iff.mp h
  obtain ⟨⟨item₄, shadowRead⟩, hshadow, h⟩ := Option.bind_eq_some_iff.mp h
  obtain ⟨rfl, -⟩ := Prod.mk.inj (Option.some.inj h)
  obtain ⟨hstate₂, hid₂⟩ := readServiceName_kept hname
  obtain ⟨hstate₃, hid₃⟩ := readServiceType_kept htype
  obtain ⟨hstate₄, hid₄⟩ := readShadowNodeIdentity_kept hshadow
  rw [hstate₃, hstate₂] at hstate₄
  rw [hid₃, hid₂] at hid₄
  -- the flags that are set last are neither
  have hmay : ∀ d, (item₄.mayStart d).state = item₄.state ∧
      (item₄.mayStart d).shadowNodeIdentity = item₄.shadowNodeIdentity := fun d => by
    unfold mayStart
    split <;> exact ⟨rfl, rfl⟩
  obtain ⟨hmayState, hmayId⟩ := hmay (msg.word ServicePayload.directionAt)
  unfold toPending
  split
  next hnone => exact ⟨.inr ⟨by rw [← hstate₄, ← hmayState, hnone], rfl⟩,
      fun hs => hmayId.trans (hid₄ hs)⟩
  · exact ⟨.inl (hmayState.trans hstate₄), fun hs => hmayId.trans (hid₄ hs)⟩

end ServiceBridgeItem

namespace ServiceBridge

variable {x x' : ServiceBridge} {w w' : BridgeWorld} {groups : List Nat}
  {nodes : List ((Bytes × Bytes) × Nat)} {i : Nat} {msg : BridgeMsg}

theorem handleRequest_spec (h : x.handleRequest msg = some x') :
    x'.entity = x.entity ∧ x'.shadowNode = x.shadowNode ∧
      (x'.state = x.state ∨ (x.state = .none ∧ x'.state = .pending)) ∧
      (x.shadowNodeIdentity.isSome = true → x'.shadowNodeIdentity = x.shadowNodeIdentity) := by
  obtain ⟨⟨item, read⟩, hitem, rfl⟩ := Option.map_eq_some_iff.mp h
  obtain ⟨hstate, hidentity⟩ := ServiceBridgeItem.handleRequest_kept hitem
  exact ⟨rfl, rfl, hstate, hidentity⟩

/-- Neither the bridge nor the shadow node changes. -/
theorem Settled.handleRequest (h : x.Settled) (hx' : x.handleRequest msg = some x') :
    x'.Settled ∧ x'.entity = x.entity ∧ x'.ownedNode = x.ownedNode := by
  obtain ⟨hentity, hnode, hstate, hidentity⟩ := handleRequest_spec hx'
  refine ⟨⟨?_, ?_, ?_, ?_⟩, hentity, ?_⟩
  · rw [hentity, h.entity]
    rcases hstate with hstate | ⟨hnone, hpending⟩
    · rw [hstate]
    · simp [hnone, hpending]
  · rw [hentity]
    exact h.null
  · rw [hnode]
    intro hs
    rcases hstate with hstate | ⟨-, hpending⟩
    · rw [hstate]
      exact h.shadow hs
    · exact .inl hpending
  · rw [hnode]
    intro hs
    rw [hidentity (h.identity hs)]
    exact h.identity hs
  · -- a node that is held keeps its identity
    cases hs : x.shadowNode with
    | none => rw [Placed.ownedNode_eq_nil (hnode.trans hs), Placed.ownedNode_eq_nil hs]
    | some node =>
      unfold ownedNode
      rw [hnode, hidentity (h.identity (by rw [hs]; rfl))]

theorem Placed.handleRequest (h : x.Placed w groups nodes) (hx' : x.handleRequest msg = some x') :
    x'.Placed w groups nodes ∧ Acted (.handleRequest i msg) .quiet x x' w w := by
  obtain ⟨hsettled, hentity, hnode⟩ := h.toSettled.handleRequest hx'
  refine ⟨⟨hsettled, ?_, ?_⟩, ?_, .kept hentity rfl, fun _ hr => by cases hr⟩
  · rw [hentity]
    exact h.held
  · rw [hnode]
    exact h.owned
  · obtain ⟨-, -, hstate, -⟩ := handleRequest_spec hx'
    rcases hstate with hstate | ⟨hnone, hpending⟩
    · exact .inl hstate
    · rw [hnone, hpending]
      exact .inr (.one i msg)

/-- **What a call does**: what the item keeps is kept, or the process exits in a start. -/
theorem Placed.act {input : ServiceBridgeInput} (h : x.Placed w groups nodes)
    (hitem : input.item = some i) :
    (x.act w input = none ∧ ∃ a entity, input = .checkAndUpdate i a ∧ Loads a entity ∧
      Refused w.executor entity) ∨
    ∃ r x' w', x.act w input = some (r, x', w') ∧ x'.Placed w' groups nodes ∧
      Acted input r x x' w w' := by
  cases input with
  | construct => cases hitem
  | destroy j => cases hitem
  | handleRequest j msg =>
    refine .inr ⟨_, _, _, rfl, ?_⟩
    cases hx' : x.handleRequest msg with
    | none => exact ⟨h, .quiet rfl rfl rfl⟩
    | some x' => exact h.handleRequest hx'
  | handleDaemonRequest j now =>
    exact .inr ⟨_, _, _, rfl,
      ⟨⟨h.entity, h.null, h.shadow, h.identity⟩, h.held, h.owned⟩, .quiet rfl rfl rfl⟩
  | checkAndUpdate j a =>
    obtain rfl := Option.some.inj hitem
    rcases h.checkAndUpdate (i := j) (a := a) with ⟨hnone, entity, hloads, href⟩ | hdone
    · exact .inl ⟨hnone, a, entity, rfl, hloads, href⟩
    · exact .inr hdone

end ServiceBridge

/-! ## All items -/

namespace ServiceBridges

open ServiceBridge

/-- The groups of the bridges, and the shadow nodes with their identities. -/
def groupsOf (items : List ServiceBridge) : List Nat := items.flatMap fun x => x.entity.groups

def nodesOf (items : List ServiceBridge) : List ((Bytes × Bytes) × Nat) :=
  items.flatMap ownedNode

variable {s : ServiceBridges} {x x' : ServiceBridge} {l₁ l₂ : List ServiceBridge} {i : Nat}
  {input : ServiceBridgeInput} {w : BridgeWorld}

/-- **What all items keep**: each is settled, and the executor and the map of the shadow nodes
have what the items have. -/
structure Shared (items : List ServiceBridge) (w : BridgeWorld) : Prop where
  settled : ∀ x ∈ items, x.Settled
  held : w.executor.Holds (groupsOf items)
  owned : w.shadowNodes.Owned (nodesOf items)

theorem groupsOf_perm (l₁ : List ServiceBridge) (x : ServiceBridge) (l₂ : List ServiceBridge) :
    (groupsOf (l₁ ++ x :: l₂)).Perm (x.entity.groups ++ groupsOf (l₁ ++ l₂)) := by
  unfold groupsOf
  rw [List.flatMap_append, List.flatMap_append, List.flatMap_cons]
  exact List.perm_append_comm_assoc ..

theorem nodesOf_perm (l₁ : List ServiceBridge) (x : ServiceBridge) (l₂ : List ServiceBridge) :
    (nodesOf (l₁ ++ x :: l₂)).Perm (x.ownedNode ++ nodesOf (l₁ ++ l₂)) := by
  unfold nodesOf
  rw [List.flatMap_append, List.flatMap_append, List.flatMap_cons]
  exact List.perm_append_comm_assoc ..

/-- One item with the others as its frame. -/
theorem Shared.placed (h : Shared (l₁ ++ x :: l₂) w) :
    x.Placed w (groupsOf (l₁ ++ l₂)) (nodesOf (l₁ ++ l₂)) where
  toSettled := h.settled x (List.mem_append_right _ List.mem_cons_self)
  held := h.held.of_perm (groupsOf_perm ..)
  owned := h.owned.perm (nodesOf_perm ..)

/-- And back, when it has changed. -/
theorem Shared.replace {w' : BridgeWorld} (h : Shared (l₁ ++ x :: l₂) w)
    (hplaced : x'.Placed w' (groupsOf (l₁ ++ l₂)) (nodesOf (l₁ ++ l₂))) :
    Shared (l₁ ++ x' :: l₂) w' where
  settled y hy := by
    rcases List.mem_append.mp hy with hy | hy
    · exact h.settled y (List.mem_append_left _ hy)
    · rcases List.mem_cons.mp hy with rfl | hy
      · exact hplaced.toSettled
      · exact h.settled y (List.mem_append_right _ (List.mem_cons_of_mem _ hy))
  held := hplaced.held.of_perm (groupsOf_perm ..).symm
  owned := hplaced.owned.perm (nodesOf_perm ..).symm

private theorem split_of_getElem? {items : List ServiceBridge} (hx : items[i]? = some x) :
    ∃ l₁ l₂, items = l₁ ++ x :: l₂ ∧ (∀ x', items.set i x' = l₁ ++ x' :: l₂) ∧
      items.eraseIdx i = l₁ ++ l₂ := by
  obtain ⟨hlt, rfl⟩ := List.getElem?_eq_some_iff.mp hx
  have hlen : (items.take i).length = i := by
    rw [List.length_take]
    exact Nat.min_eq_left (Nat.le_of_lt hlt)
  have hsplit : items = items.take i ++ items[i] :: items.drop (i + 1) := by
    rw [← List.drop_eq_getElem_cons hlt, List.take_append_drop]
  refine ⟨items.take i, items.drop (i + 1), hsplit, fun x' => ?_, ?_⟩
  · conv_lhs => rw [hsplit]
    rw [List.set_append_right _ _ (Nat.le_of_eq hlen), hlen, Nat.sub_self, List.set_cons_zero]
  · conv_lhs => rw [hsplit]
    rw [List.eraseIdx_append_of_length_le (Nat.le_of_eq hlen), hlen, Nat.sub_self,
      List.eraseIdx_cons_zero]

/-- **What a call leaves behind**: one item has changed, or the process has exited. -/
theorem Shared.call (h : Shared s.items s.world) (hitem : input.item = some i)
    (hx : s.items[i]? = some x) :
    (s.call i input = (.quiet, { s with exited := true }) ∧ ∃ a entity,
      input = .checkAndUpdate i a ∧ Loads a entity ∧ Refused s.world.executor entity) ∨
    ∃ r x' w', s.call i input = (r, { s with items := s.items.set i x', world := w' }) ∧
      Shared (s.items.set i x') w' ∧ Acted input r x x' s.world w' := by
  obtain ⟨l₁, l₂, heq, hset, -⟩ := split_of_getElem? hx
  have hshared := h
  rw [heq] at hshared
  unfold ServiceBridges.call
  rw [hx]
  dsimp only
  rcases hshared.placed.act hitem with ⟨hnone, hexit⟩ | ⟨r, x', w', hsome, hplaced, hacted⟩
  · rw [hnone]
    exact .inl ⟨rfl, hexit⟩
  · rw [hsome]
    refine .inr ⟨r, x', w', rfl, ?_, hacted⟩
    rw [hset]
    exact hshared.replace hplaced

/-- An item in the state none goes. -/
theorem Shared.destroy (h : Shared s.items s.world) (hx : s.items[i]? = some x)
    (hnone : x.state = .none) : Shared (s.items.eraseIdx i) s.world := by
  obtain ⟨l₁, l₂, heq, -, herase⟩ := split_of_getElem? hx
  rw [heq] at h
  have hplaced := h.placed
  have hnull : x.entity = .null :=
    hplaced.entity_eq_null (by rw [hnone]; rintro ⟨⟩) (by rw [hnone]; rintro ⟨⟩)
  have hnode : x.shadowNode = none := by
    refine Option.not_isSome_iff_eq_none.mp fun hs => ?_
    rcases hplaced.shadow hs with hstate | hstate <;> rw [hnone] at hstate <;> cases hstate
  have hheld := hplaced.held
  have howned := hplaced.owned
  rw [hnull] at hheld
  rw [Placed.ownedNode_eq_nil hnode] at howned
  rw [herase]
  refine ⟨fun y hy => h.settled y ?_, hheld, howned⟩
  rcases List.mem_append.mp hy with hy | hy
  · exact List.mem_append_left _ hy
  · exact List.mem_append_right _ (List.mem_cons_of_mem _ hy)

/-- A new item has nothing. -/
theorem Shared.construct (h : Shared s.items s.world) : Shared (s.items ++ [.new]) s.world where
  settled x hx := by
    rcases List.mem_append.mp hx with hx | hx
    · exact h.settled x hx
    · obtain rfl := List.mem_singleton.mp hx
      exact settled_new
  held := by
    have hgroups : groupsOf (s.items ++ [.new]) = groupsOf s.items := by
      unfold groupsOf
      rw [List.flatMap_append]
      exact List.append_nil _
    rw [hgroups]
    exact h.held
  owned := by
    have hnodes : nodesOf (s.items ++ [.new]) = nodesOf s.items := by
      unfold nodesOf
      rw [List.flatMap_append]
      exact List.append_nil _
    rw [hnodes]
    exact h.owned

/-- A call for an item that is not there does nothing. -/
private theorem call_eq_self (hx : s.items[i]? = none) : s.call i input = (.quiet, s) := by
  unfold ServiceBridges.call
  rw [hx]

private theorem Shared.call_step (h : Shared s.items s.world) (hitem : input.item = some i) :
    Shared (s.call i input).2.items (s.call i input).2.world := by
  cases hx : s.items[i]? with
  | none =>
    rw [call_eq_self hx]
    exact h
  | some x =>
    rcases h.call hitem hx with ⟨heq, -⟩ | ⟨r, x', w', heq, hshared, -⟩
    · rw [heq]
      exact h
    · rw [heq]
      exact hshared

/-- **Every step** keeps what the items keep. -/
theorem Shared.step (h : Shared s.items s.world) (input : ServiceBridgeInput) :
    Shared (s.step input).2.items (s.step input).2.world := by
  unfold ServiceBridges.step
  split
  · exact h
  cases input with
  | construct => exact h.construct
  | destroy i =>
    dsimp only
    split
    next hnone =>
      obtain ⟨x, hx, hstate⟩ := Option.map_eq_some_iff.mp hnone
      exact h.destroy hx hstate
    · exact h
  | handleRequest i msg => exact h.call_step rfl
  | handleDaemonRequest i now => exact h.call_step rfl
  | checkAndUpdate i a => exact h.call_step rfl

theorem shared_of_run {tr : List ServiceBridgeEvent}
    (h : Transition.Run serviceBridges Transition.anyStep tr s) : Shared s.items s.world :=
  h.invariant (P := fun s => Shared s.items s.world)
    (fun s hinit => by
      obtain ⟨addedWithNode, rfl⟩ := hinit
      exact ⟨fun x hx => (by cases hx), .empty _, .empty⟩)
    fun s input hs _ => hs.step input

/-- The item of a step is told what it does, unless there is no such item. -/
theorem step_of_item (hrun : s.exited = false) (hitem : input.item = some i) :
    s.step input = s.call i input := by
  unfold ServiceBridges.step
  rw [if_neg (by rw [hrun]; exact Bool.false_ne_true)]
  cases input with
  | construct => cases hitem
  | destroy j => cases hitem
  | handleRequest j msg =>
    obtain rfl := Option.some.inj hitem
    rfl
  | handleDaemonRequest j now =>
    obtain rfl := Option.some.inj hitem
    rfl
  | checkAndUpdate j a =>
    obtain rfl := Option.some.inj hitem
    rfl

end ServiceBridges

/-! ## A run -/

open ServiceBridge (Loads Refused Acted) in
/-- What a step does: the item that it is for acts, or the executor refuses the bridge that the
loader has made in a tick, and the process exits. -/
def StepKept (s : ServiceBridges) (input : ServiceBridgeInput) (r : TickReply) : Prop :=
  ∀ i x, input.item = some i → s.items[i]? = some x →
    ((s.step input).2 = { s with exited := true } ∧ ∃ a entity,
      input = .checkAndUpdate i a ∧ Loads a entity ∧ Refused s.world.executor entity) ∨
    ((s.step input).2.exited = false ∧ ∃ x', (s.step input).2.items = s.items.set i x' ∧
      Acted input r x x' s.world (s.step input).2.world)

/-- What holds of the items between the steps, and of the steps. -/
structure ServiceBridgesKept (tr : List ServiceBridgeEvent) (s : ServiceBridges) : Prop where
  /-- A bridge is there in R2A and in A2R. -/
  bridge : ∀ x ∈ s.items, x.entity.entityHandle.isSome = true ↔ x.state = .r2a ∨ x.state = .a2r
  /-- Its groups are in the executor then, -/
  added : ∀ x ∈ s.items, x.state = .r2a ∨ x.state = .a2r →
    ∀ g ∈ x.entity.groups, g ∈ s.world.executor.groups
  /-- and only then. -/
  only : ∀ g ∈ s.world.executor.groups,
    ∃ x ∈ s.items, (x.state = .r2a ∨ x.state = .a2r) ∧ g ∈ x.entity.groups
  null : ∀ x ∈ s.items, ¬ (x.state = .r2a ∨ x.state = .a2r) → x.entity = .null
  /-- Every group was added, removed and stopped in turn. -/
  balanced : s.world.executor.Balanced
  shadow : ∀ x ∈ s.items, x.shadowNode.isSome = true → x.state = .pending ∨ x.state = .r2a
  /-- A shadow node is there while an item holds it. -/
  live : ∀ identity, s.world.shadowNodes.Live identity ↔
    ∃ x ∈ s.items, x.shadowNode.isSome = true ∧ x.shadowNodeIdentity = some identity
  steps : ∀ ev ∈ tr, ev.pre.exited = false → StepKept ev.pre ev.input ev.output

/-- **The life of service bridges**: any number of items, requests and ticks in any order, and any
answers of the probes and the loader. -/
theorem service_bridge_lifecycle {tr : List ServiceBridgeEvent} {s : ServiceBridges}
    (h : Transition.Run serviceBridges Transition.anyStep tr s) : ServiceBridgesKept tr s := by
  have hshared := ServiceBridges.shared_of_run h
  -- without an active bridge there is no entity
  have hnull : ∀ x ∈ s.items, ¬ (x.state = .r2a ∨ x.state = .a2r) → x.entity = .null := by
    intro x hx hstate
    refine (hshared.settled x hx).null (Option.not_isSome_iff_eq_none.mp fun hsome => hstate ?_)
    exact (hshared.settled x hx).entity.mp hsome
  refine ⟨fun x hx => (hshared.settled x hx).entity, fun x hx _ g hg => ?_, fun g hg => ?_, hnull,
    hshared.held.balanced, fun x hx => (hshared.settled x hx).shadow, fun identity => ?_,
    fun ev hev hrun i x hitem hx => ?_⟩
  · exact hshared.held.mem_iff.mpr (List.mem_flatMap.mpr ⟨x, hx, hg⟩)
  · obtain ⟨x, hx, hmem⟩ := List.mem_flatMap.mp (hshared.held.mem_iff.mp hg)
    refine ⟨x, hx, Decidable.byContradiction fun hstate => ?_, hmem⟩
    rw [hnull x hx hstate] at hmem
    cases hmem
  · rw [WeakCache.live_iff hshared.owned]
    constructor
    -- a shadow node is alive as long as an item owns it
    · rintro ⟨node, hnode⟩
      obtain ⟨x, hx, hmem⟩ := List.mem_flatMap.mp hnode
      refine ⟨x, hx, ?_⟩
      unfold ServiceBridge.ownedNode at hmem
      split at hmem
      next identity' node' hid hheld =>
        obtain ⟨rfl, rfl⟩ := Prod.mk.inj (List.mem_singleton.mp hmem)
        exact ⟨by rw [hheld]; rfl, hid⟩
      · cases hmem
    · rintro ⟨x, hx, hsome, hid⟩
      obtain ⟨node, hnode⟩ := Option.isSome_iff_exists.mp hsome
      refine ⟨node, List.mem_flatMap.mpr ⟨x, hx, ?_⟩⟩
      unfold ServiceBridge.ownedNode
      rw [hid, hnode]
      exact List.mem_singleton_self _
  · obtain ⟨later, earlier, rfl⟩ := List.append_of_mem hev
    obtain ⟨hpre, -, houtput, -⟩ := h.event
    have houtput : ev.output = (ev.pre.step ev.input).1 := houtput
    have hstep := ServiceBridges.step_of_item hrun hitem
    rw [houtput, hstep]
    -- what one call does, in the state before it
    rcases (ServiceBridges.shared_of_run hpre).call hitem hx with
      ⟨heq, hexit⟩ | ⟨r, x', w', heq, -, hacted⟩
    · rw [heq]
      exact .inl ⟨rfl, hexit⟩
    · rw [heq]
      exact .inr ⟨hrun, x', rfl, hacted⟩

/-- The answers of a tick: an Agnocast service or not, a ROS 2 client or not, and a loader that
makes a bridge with two groups. -/
private def answersOf (service client : Bool) : TickAnswers where
  agnoService := .infos (if service then some (10, true) else none)
  agnoServiceQos := .infos (some (10, true))
  ros2Service := .error none
  ros2Client := .ok client
  agnoClient := none
  agnoClientAgain := none
  shadowNode := .created
  now := 0
  bridgeLoader := some ⟨fun _ _ _ => .entity ⟨some 0, some 1, some 2⟩, fun _ _ _ => .threw none⟩

/-- Two items of one node; the bridge of the first starts and goes, the second keeps the shadow
node. -/
theorem service_bridge_lifecycle_shared_node :
    ∃ tr s, ServiceBridgesKept tr s ∧ s.items.map (fun x => x.state) = [.none, .pending] ∧
      s.items.map (fun x => x.shadowNode) = [none, some 0] ∧
      s.world.executor.calls = [.stop 2, .remove 2, .stop 1, .remove 1, .add 2, .add 1] := by
  let request : BridgeMsg := (List.replicate 1036 0).set ServicePayload.createShadowNodeAt 1
  have hrun := (Transition.Run.init (T := serviceBridges) (G := Transition.anyStep)
    ⟨fun _ => false, rfl⟩).exec
    (Transition.System.guarded_anyStep _ _ [.construct, .construct, .handleRequest 0 request,
      .handleRequest 1 request, .checkAndUpdate 0 (answersOf true false),
      .checkAndUpdate 1 (answersOf true false), .checkAndUpdate 0 (answersOf true true),
      .checkAndUpdate 0 (answersOf false true), .checkAndUpdate 0 (answersOf false true)])
  exact ⟨_, _, service_bridge_lifecycle hrun, by decide +kernel, by decide +kernel,
    by decide +kernel⟩

end Agnocast
