import Agnocast.Kmod.NodeNames
import Agnocast.Lib.Probing
import Agnocast.Rules.Grouping

/-!
# Rules — the names of the nodes

* `Holds`             — the slots and the buffer hold the same nodes, each once.
* `addUniqueNode_mem`, `addUniqueNode_new`, `addUniqueNode_full` — what one name does.
* `collectNodes_some` — what many names do.
* `get_node_names`    — GET_NODE_NAMES returns the nodes of the caller's namespace and domain.
-/

namespace Agnocast

variable {fullNameHash : Name → Nat}

/-! ## The slots -/

namespace NodeNameCollector

variable {col : NodeNameCollector} {nodes : List (Pid × Name)}

/-- The node in a slot. -/
def nodeIn (col : NodeNameCollector) (i : Nat) : Option (Pid × Name) :=
  if (col.slots i).pid = 0 then none
  else some ((col.slots i).pid, col.nodeNameAt (col.slots i).nameIndex)

/-- Where the search for a node begins. -/
def home (fullNameHash : Name → Nat) (node : Pid × Name) : Nat :=
  fullNameHash node.2 % nodeNameSlotNum

private theorem home_lt (node : Pid × Name) : home fullNameHash node < nodeNameSlotNum :=
  Nat.mod_lt _ (by decide)

/-- The collector holds these nodes, in this order. -/
structure Holds (fullNameHash : Name → Nat) (nodes : List (Pid × Name)) (col : NodeNameCollector) :
    Prop where
  nodup : nodes.Nodup
  buf : col.buf = nodes.map Prod.snd
  room : nodes.length ≤ col.capacity
  capacity : col.capacity ≤ maxNodeNum
  index : ∀ i, (col.slots i).pid ≠ 0 → (col.slots i).nameIndex < nodes.length
  chained : Probing.Chained (home fullNameHash) nodeNameSlotNum col.nodeIn
  mem : ∀ i < nodeNameSlotNum, ∀ node, col.nodeIn i = some node → node ∈ nodes
  slot : ∀ node ∈ nodes, ∃ i < nodeNameSlotNum, col.nodeIn i = some node

/-- The loop is a search in the table of the nodes. -/
private theorem probe_eq (col : NodeNameCollector) (name : Name) (pid : Pid) (fuel i : Nat) :
    col.probe name pid fuel i =
      (Probing.find nodeNameSlotNum col.nodeIn (pid, name) fuel i).map fun j =>
        if (col.slots j).pid = 0 then some j else none := by
  induction fuel generalizing i with
  | zero => rfl
  | succ fuel ih =>
    unfold probe Probing.find
    by_cases hfree : (col.slots i).pid = 0
    · have hstops : Probing.Stops col.nodeIn (pid, name) i := .inl (if_pos hfree)
      rw [if_pos hfree, if_pos hstops, Option.map_some, if_pos hfree]
    have hin : col.nodeIn i =
        some ((col.slots i).pid, col.nodeNameAt (col.slots i).nameIndex) := if_neg hfree
    rw [if_neg hfree]
    by_cases hthere : (col.slots i).pid = pid ∧ col.nodeNameAt (col.slots i).nameIndex = name
    · have hstops : Probing.Stops col.nodeIn (pid, name) i :=
        .inr (by rw [hin, hthere.1, hthere.2])
      rw [if_pos hthere, if_pos hstops, Option.map_some, if_neg hfree]
    · have hgoes : ¬ Probing.Stops col.nodeIn (pid, name) i := by
        rintro (hnone | heq)
        · rw [hin] at hnone
          cases hnone
        · exact hthere (Prod.mk.inj (Option.some.inj (hin.symm.trans heq)))
      rw [if_neg hthere, if_neg hgoes, ih]

namespace Holds

theorem empty {capacity : Nat} (h : capacity ≤ maxNodeNum) :
    Holds fullNameHash [] ⟨fun _ => ⟨0, 0⟩, [], capacity⟩ where
  nodup := List.nodup_nil
  buf := rfl
  room := Nat.zero_le _
  capacity := h
  index _ hpid := absurd rfl hpid
  chained := Probing.Chained.free _ _
  mem _ _ _ hin := nomatch hin
  slot _ hmem := nomatch hmem

variable (h : Holds fullNameHash nodes col)

include h

/-- **The search ends**: the table has more slots than the buffer has places. -/
theorem find_isSome (node : Pid × Name) : ∃ i < nodeNameSlotNum,
    Probing.find nodeNameSlotNum col.nodeIn node nodeNameSlotNum (home fullNameHash node) =
      some i := by
  have hlt : nodes.length < nodeNameSlotNum :=
    Nat.lt_of_le_of_lt (h.room.trans h.capacity) (by decide)
  obtain ⟨j, hj, hfree⟩ := h.chained.exists_free h.mem hlt
  obtain ⟨i, hfind⟩ := Probing.find_isSome (k := node) (home_lt node) hj hfree
  exact ⟨i, Probing.find_lt (home_lt node) hfind, hfind⟩

/-- A node that is there is found. -/
theorem addUniqueNode_mem {pid : Pid} {name : Name} (hmem : (pid, name) ∈ nodes) :
    col.addUniqueNode fullNameHash name pid = some (.ok col) := by
  obtain ⟨i, hi, hin⟩ := h.slot _ hmem
  have hfind := h.chained i hi _ hin
  have hpid : (col.slots i).pid ≠ 0 := by
    intro hfree
    rw [nodeIn, if_pos hfree] at hin
    cases hin
  have hprobe := col.probe_eq name pid nodeNameSlotNum (home fullNameHash (pid, name))
  rw [hfind, Option.map_some, if_neg hpid] at hprobe
  unfold addUniqueNode
  rw [show fullNameHash name % nodeNameSlotNum = home fullNameHash (pid, name) from rfl, hprobe]

/-- A node that is not there leads to a free slot. -/
theorem probe_new {pid : Pid} {name : Name} (hnew : (pid, name) ∉ nodes) :
    ∃ i < nodeNameSlotNum, col.nodeIn i = none ∧
      Probing.find nodeNameSlotNum col.nodeIn (pid, name) nodeNameSlotNum
        (home fullNameHash (pid, name)) = some i ∧
      col.probe name pid nodeNameSlotNum (fullNameHash name % nodeNameSlotNum) =
        some (some i) := by
  obtain ⟨i, hi, hfind⟩ := h.find_isSome (pid, name)
  have hfree : col.nodeIn i = none :=
    (Probing.find_stops hfind).resolve_right fun hin => hnew (h.mem i hi _ hin)
  have hpid : (col.slots i).pid = 0 := by
    by_contra hpid
    rw [nodeIn, if_neg hpid] at hfree
    cases hfree
  have hprobe := col.probe_eq name pid nodeNameSlotNum (home fullNameHash (pid, name))
  rw [hfind, Option.map_some, if_pos hpid] at hprobe
  exact ⟨i, hi, hfree, hfind, hprobe⟩

/-- The buffer is full. -/
theorem addUniqueNode_full {pid : Pid} {name : Name} (hnew : (pid, name) ∉ nodes)
    (hfull : col.capacity ≤ nodes.length) :
    col.addUniqueNode fullNameHash name pid = some (.error .ENOBUFS) := by
  obtain ⟨i, -, -, -, hprobe⟩ := h.probe_new hnew
  have hnum : col.num ≥ col.capacity := by
    unfold num
    rw [h.buf, List.length_map]
    exact hfull
  unfold addUniqueNode
  rw [hprobe]
  exact if_pos hnum

/-- **A new node** is stored. -/
theorem addUniqueNode_new {pid : Pid} {name : Name} (hpid : pid ≠ 0) (hnew : (pid, name) ∉ nodes)
    (hroom : nodes.length < col.capacity) :
    ∃ col', col.addUniqueNode fullNameHash name pid = some (.ok col') ∧
      col'.capacity = col.capacity ∧ Holds fullNameHash (nodes ++ [(pid, name)]) col' := by
  obtain ⟨i, hi, hfree, hfind, hprobe⟩ := h.probe_new hnew
  have hnum : col.num = nodes.length := by
    unfold num
    rw [h.buf, List.length_map]
  let col' : NodeNameCollector :=
    { col with
      slots := Function.update col.slots i ⟨col.num, pid⟩
      buf := col.buf ++ [name] }
  have hself : col'.slots i = ⟨col.num, pid⟩ := Function.update_self ..
  have hother {j : Nat} (hji : j ≠ i) : col'.slots j = col.slots j := Function.update_of_ne hji _ _
  -- the names that were there have kept their places
  have hin : col'.nodeIn = Function.update col.nodeIn i (some (pid, name)) := by
    funext j
    by_cases hji : j = i
    · subst hji
      have hname : col'.nodeNameAt col.num = name := by
        show (col.buf ++ [name]).getD col.buf.length [] = name
        rw [List.getD_eq_getElem?_getD, List.getElem?_concat_length, Option.getD_some]
      rw [Function.update_self, nodeIn, hself, if_neg hpid, hname]
    · rw [Function.update_of_ne hji, nodeIn, nodeIn, hother hji]
      split
      · rfl
      · next hused =>
        have hlt : (col.slots j).nameIndex < col.num := hnum ▸ h.index j hused
        have hname : col'.nodeNameAt (col.slots j).nameIndex =
            col.nodeNameAt (col.slots j).nameIndex := by
          show (col.buf ++ [name]).getD _ [] = col.buf.getD _ []
          rw [List.getD_eq_getElem?_getD, List.getElem?_append_left hlt,
            List.getD_eq_getElem?_getD]
        rw [hname]
  have hadd : col.addUniqueNode fullNameHash name pid = some (.ok col') := by
    unfold addUniqueNode
    rw [hprobe]
    exact if_neg (by omega)
  have hlen : (nodes ++ [(pid, name)]).length = nodes.length + 1 := List.length_append
  refine ⟨col', hadd, rfl, ?_, ?_, ?_, h.capacity, fun j hj => ?_, ?_, fun j hj node hnode => ?_,
    fun node hnode => ?_⟩
  · refine List.nodup_append.mpr ⟨h.nodup, List.nodup_singleton _, fun a ha b hb heq => ?_⟩
    exact hnew (List.mem_singleton.mp hb ▸ heq ▸ ha)
  · show col.buf ++ [name] = _
    rw [h.buf, List.map_append, List.map_singleton]
  · rw [hlen]
    exact hroom
  · rw [hlen]
    by_cases hji : j = i
    · rw [hji, hself]
      show col.num < nodes.length + 1
      omega
    · rw [hother hji] at hj ⊢
      exact Nat.lt_succ_of_lt (h.index j hj)
  · rw [hin]
    exact h.chained.insert hfind hfree
  · rw [hin] at hnode
    by_cases hji : j = i
    · rw [hji, Function.update_self] at hnode
      exact List.mem_append_right _ (Option.some.inj hnode ▸ List.mem_singleton_self _)
    · rw [Function.update_of_ne hji] at hnode
      exact List.mem_append_left _ (h.mem j hj node hnode)
  · rw [hin]
    rcases List.mem_append.mp hnode with hold | hnode
    · obtain ⟨j, hj, hslot⟩ := h.slot node hold
      refine ⟨j, hj, ?_⟩
      rw [Function.update_of_ne, hslot]
      rintro rfl
      rw [hfree] at hslot
      cases hslot
    · exact ⟨i, hi, List.mem_singleton.mp hnode ▸ Function.update_self ..⟩

end Holds

end NodeNameCollector

/-! ## The loops -/

/-- The nodes of a list behind those that are there, each where it comes first. -/
def addNew (nodes : List (Pid × Name)) : List (Pid × Name) → List (Pid × Name)
  | [] => nodes
  | node :: rest => addNew (if node ∈ nodes then nodes else nodes ++ [node]) rest

private theorem addNew_cons_of_mem {nodes : List (Pid × Name)} {node : Pid × Name}
    (h : node ∈ nodes) (rest : List (Pid × Name)) :
    addNew nodes (node :: rest) = addNew nodes rest := by
  rw [addNew, if_pos h]

private theorem addNew_cons_of_not_mem {nodes : List (Pid × Name)} {node : Pid × Name}
    (h : node ∉ nodes) (rest : List (Pid × Name)) :
    addNew nodes (node :: rest) = addNew (nodes ++ [node]) rest := by
  rw [addNew, if_neg h]

theorem mem_addNew {nodes l : List (Pid × Name)} {node : Pid × Name} :
    node ∈ addNew nodes l ↔ node ∈ nodes ∨ node ∈ l := by
  induction l generalizing nodes with
  | nil => simp [addNew]
  | cons first rest ih =>
    by_cases hmem : first ∈ nodes
    · rw [addNew_cons_of_mem hmem, ih, List.mem_cons]
      constructor
      · rintro (h | h)
        · exact .inl h
        · exact .inr (.inr h)
      · rintro (h | rfl | h)
        · exact .inl h
        · exact .inl hmem
        · exact .inr h
    · rw [addNew_cons_of_not_mem hmem, ih, List.mem_append, List.mem_singleton, List.mem_cons,
        or_assoc]

theorem nodup_addNew {nodes : List (Pid × Name)} (h : nodes.Nodup) (l : List (Pid × Name)) :
    (addNew nodes l).Nodup := by
  induction l generalizing nodes with
  | nil => exact h
  | cons first rest ih =>
    by_cases hmem : first ∈ nodes
    · rw [addNew_cons_of_mem hmem]
      exact ih h
    · rw [addNew_cons_of_not_mem hmem]
      refine ih (List.nodup_append.mpr ⟨h, List.nodup_singleton _, fun a ha b hb heq => ?_⟩)
      exact hmem (List.mem_singleton.mp hb ▸ heq ▸ ha)

theorem length_le_addNew (nodes l : List (Pid × Name)) :
    nodes.length ≤ (addNew nodes l).length := by
  induction l generalizing nodes with
  | nil => exact le_rfl
  | cons first rest ih =>
    by_cases hmem : first ∈ nodes
    · rw [addNew_cons_of_mem hmem]
      exact ih nodes
    · rw [addNew_cons_of_not_mem hmem]
      exact le_trans (by simp) (ih (nodes ++ [first]))

private theorem collectNodes_cons (pid : Pid) (name : Name) (rest : List (Pid × Name))
    (col : NodeNameCollector) : collectNodes fullNameHash some ((pid, name) :: rest) col =
      match col.addUniqueNode fullNameHash name pid with
      | some (.ok col) => collectNodes fullNameHash some rest col
      | ret => ret := rfl

/-- **A loop over nodes** adds those that are new, as far as there is room. -/
theorem collectNodes_some {l nodes : List (Pid × Name)} {col : NodeNameCollector}
    (h : col.Holds fullNameHash nodes) (hpid : ∀ node ∈ l, node.1 ≠ 0) :
    ((addNew nodes l).length ≤ col.capacity →
      ∃ col', collectNodes fullNameHash some l col = some (.ok col') ∧
        col'.Holds fullNameHash (addNew nodes l)) ∧
    (col.capacity < (addNew nodes l).length →
      collectNodes fullNameHash some l col = some (.error .ENOBUFS)) := by
  induction l generalizing nodes col with
  | nil => exact ⟨fun _ => ⟨col, rfl, h⟩, fun hfull => absurd h.room (Nat.not_le_of_lt hfull)⟩
  | cons first rest ih =>
    obtain ⟨pid, name⟩ := first
    have hfirst : pid ≠ 0 := hpid _ List.mem_cons_self
    have hrest : ∀ node ∈ rest, node.1 ≠ 0 := fun node hnode =>
      hpid node (List.mem_cons_of_mem _ hnode)
    rw [collectNodes_cons]
    by_cases hmem : (pid, name) ∈ nodes
    · rw [addNew_cons_of_mem hmem, h.addUniqueNode_mem hmem]
      exact ih h hrest
    rw [addNew_cons_of_not_mem hmem]
    by_cases hroom : nodes.length < col.capacity
    · obtain ⟨col', hadd, hcapacity, h'⟩ := h.addUniqueNode_new hfirst hmem hroom
      rw [hadd, ← hcapacity]
      exact ih h' hrest
    · -- nothing more fits, so the loop stops here
      have hfull := Nat.le_of_not_lt hroom
      rw [h.addUniqueNode_full hmem hfull]
      refine ⟨fun hle => ?_, fun _ => rfl⟩
      have hlonger := length_le_addNew (nodes ++ [(pid, name)]) rest
      rw [List.length_append, List.length_singleton] at hlonger
      omega

private theorem collectNodes_filterMap {α : Type} (node : α → Option (Pid × Name)) (l : List α)
    (col : NodeNameCollector) : collectNodes fullNameHash node l col =
      collectNodes fullNameHash some (l.filterMap node) col := by
  induction l generalizing col with
  | nil => rfl
  | cons info rest ih =>
    cases hnode : node info with
    | none =>
      rw [List.filterMap_cons_none hnode, ← ih col, collectNodes, hnode]
    | some found =>
      obtain ⟨pid, name⟩ := found
      rw [List.filterMap_cons_some hnode, collectNodes_cons, collectNodes, hnode]
      dsimp only
      rcases col.addUniqueNode fullNameHash name pid with _ | _ | col'
      · rfl
      · rfl
      · exact ih col'

/-- What follows goes on with what the nodes before it have left. -/
private theorem collectNodes_append_ok {l : List (Pid × Name)} {col col' : NodeNameCollector}
    (h : collectNodes fullNameHash some l col = some (.ok col')) (l' : List (Pid × Name)) :
    collectNodes fullNameHash some (l ++ l') col = collectNodes fullNameHash some l' col' := by
  induction l generalizing col with
  | nil =>
    cases h
    rfl
  | cons node rest ih =>
    rw [List.cons_append, collectNodes_cons]
    rw [collectNodes_cons] at h
    split at h
    · exact ih h
    · next hret => exact absurd h (hret _)

/-- Nothing follows an error. -/
private theorem collectNodes_append_error {l : List (Pid × Name)} {col : NodeNameCollector}
    (h : ∀ col', collectNodes fullNameHash some l col ≠ some (.ok col'))
    (l' : List (Pid × Name)) :
    collectNodes fullNameHash some (l ++ l') col = collectNodes fullNameHash some l col := by
  induction l generalizing col with
  | nil => exact absurd rfl (h col)
  | cons node rest ih =>
    rw [List.cons_append, collectNodes_cons, collectNodes_cons]
    rw [collectNodes_cons] at h
    split
    · next heq =>
      rw [heq] at h
      exact ih h
    · rfl

section

variable (σ : Kmod) (ipcNs : IpcNs) (domainId : Nat)

/-- The nodes of one topic, in the order of the loops. -/
def nodesOfTopic (wrapper : TopicWrapper) : List (Pid × Name) :=
  (σ.topicStructs wrapper.topic).pubInfoHtable.filterMap (publisherNode σ domainId) ++
    (σ.topicStructs wrapper.topic).subInfoHtable.filterMap (subscriberNode σ domainId)

private theorem collectNodeNamesOfTopic_eq (wrapper : TopicWrapper) (col : NodeNameCollector) :
    collectNodeNamesOfTopic fullNameHash σ wrapper domainId col =
      collectNodes fullNameHash some (nodesOfTopic σ domainId wrapper) col := by
  unfold collectNodeNamesOfTopic nodesOfTopic
  dsimp only
  rw [collectNodes_filterMap]
  split
  · next hok => rw [collectNodes_append_ok hok, collectNodes_filterMap]
  · next herr => rw [collectNodes_append_error herr]

/-- The topics of a namespace and domain. -/
def wrappersOf (l : List TopicWrapper) : List TopicWrapper :=
  l.filter fun w => ipcNs = w.ipcNs ∧ w.domainId = domainId

private theorem collectNodeNames_eq (l : List TopicWrapper) (col : NodeNameCollector) :
    collectNodeNames fullNameHash σ ipcNs domainId l col = collectNodes fullNameHash some
      ((wrappersOf ipcNs domainId l).flatMap (nodesOfTopic σ domainId)) col := by
  induction l generalizing col with
  | nil => rfl
  | cons wrapper rest ih =>
    unfold collectNodeNames
    by_cases hskip : ipcNs ≠ wrapper.ipcNs ∨ wrapper.domainId ≠ domainId
    · have hrest : wrappersOf ipcNs domainId (wrapper :: rest) = wrappersOf ipcNs domainId rest :=
        List.filter_cons_of_neg (by simpa [imp_iff_not_or] using hskip)
      rw [if_pos hskip, hrest]
      exact ih col
    · have hhere : wrappersOf ipcNs domainId (wrapper :: rest) =
          wrapper :: wrappersOf ipcNs domainId rest :=
        List.filter_cons_of_pos (by simpa [not_or] using hskip)
      rw [if_neg hskip, hhere, List.flatMap_cons, collectNodeNamesOfTopic_eq]
      split
      · next hok => rw [collectNodes_append_ok hok, ih]
      · next herr => rw [collectNodes_append_error herr]

end

/-! ## The answer -/

/-- The process is registered and has not exited. -/
def RegisteredAlive (σ : Kmod) (pid : Pid) : Prop :=
  ∃ procInfo, findProcessInfo σ pid = some procInfo ∧ procInfo.exited = false

/-- A node of a namespace and domain: a living process and the node name of an endpoint of it that
is no bridge. -/
def IsNode (σ : Kmod) (ipcNs : IpcNs) (domainId : Nat) (node : Pid × Name) : Prop :=
  RegisteredAlive σ node.1 ∧ ∃ w ∈ σ.topicHashtable, w.ipcNs = ipcNs ∧
    ((∃ p ∈ (σ.topicStructs w.topic).pubInfoHtable, p.domainId = domainId ∧ p.isBridge = false ∧
        node = (p.pid, p.nodeName)) ∨
      (∃ s ∈ (σ.topicStructs w.topic).subInfoHtable, s.domainId = domainId ∧ s.isBridge = false ∧
        node = (s.pid, s.nodeName)))

variable {σ : Kmod} {ipcNs : IpcNs} {domainId : Nat}

private theorem ownerIsAlive_iff {pid : Pid} :
    ownerIsAlive σ pid = true ↔ RegisteredAlive σ pid := by
  unfold ownerIsAlive processGone RegisteredAlive
  cases findProcessInfo σ pid <;> simp

private theorem publisherNode_eq_some {p : PublisherInfo} {node : Pid × Name} :
    publisherNode σ domainId p = some node ↔ RegisteredAlive σ node.1 ∧ p.domainId = domainId ∧
      p.isBridge = false ∧ node = (p.pid, p.nodeName) := by
  rw [← ownerIsAlive_iff]
  unfold publisherNode
  split
  · next hskip => grind
  · next hskip =>
    split <;> grind

private theorem subscriberNode_eq_some {s : SubscriberInfo} {node : Pid × Name} :
    subscriberNode σ domainId s = some node ↔ RegisteredAlive σ node.1 ∧ s.domainId = domainId ∧
      s.isBridge = false ∧ node = (s.pid, s.nodeName) := by
  rw [← ownerIsAlive_iff]
  unfold subscriberNode
  split
  · next hskip => grind
  · next hskip =>
    split <;> grind

/-- Wrappers of one topic belong to one namespace. -/
private theorem same_ipcNs (h : Reachable σ) {w w' : TopicWrapper} (hw : w ∈ σ.topicHashtable)
    (hw' : w' ∈ σ.topicHashtable) (htopic : w.topic = w'.topic) : w.ipcNs = w'.ipcNs := by
  rcases (h.grouped.shared w hw w' hw').mp htopic with rfl | ⟨r, -, hpairs⟩
  · rfl
  · have hsymm := hpairs.symm
    exact (DomainBridgeRule.covers_iff.mp hpairs.1).1.trans
      (DomainBridgeRule.covers_iff.mp hsymm.1).1.symm

/-- **What the loops see** are the nodes: every endpoint has a wrapper of its own domain. -/
private theorem mem_nodesOf (h : Reachable σ) {node : Pid × Name} :
    node ∈ (wrappersOf ipcNs domainId σ.topicHashtable).flatMap (nodesOfTopic σ domainId) ↔
      IsNode σ ipcNs domainId node := by
  unfold wrappersOf nodesOfTopic IsNode
  simp only [List.mem_flatMap, List.mem_filter, decide_eq_true_eq, List.mem_append,
    List.mem_filterMap, publisherNode_eq_some, subscriberNode_eq_some]
  constructor
  · rintro ⟨w, ⟨hw, hns, -⟩, ⟨p, hp, halive, hnode⟩ | ⟨s, hs, halive, hnode⟩⟩
    · exact ⟨halive, w, hw, hns.symm, .inl ⟨p, hp, hnode⟩⟩
    · exact ⟨halive, w, hw, hns.symm, .inr ⟨s, hs, hnode⟩⟩
  · rintro ⟨halive, w, hw, hns, ⟨p, hp, hnode⟩ | ⟨s, hs, hnode⟩⟩
    · obtain ⟨w', hw', htopic, hdom⟩ := h.wellFormed.pub_domain w.topic p hp
      refine ⟨w', ⟨hw', ?_, hdom.trans hnode.1⟩, .inl ⟨p, htopic ▸ hp, halive, hnode⟩⟩
      exact hns.symm.trans (same_ipcNs h hw hw' htopic.symm)
    · obtain ⟨w', hw', htopic, hdom⟩ := h.wellFormed.sub_domain w.topic s hs
      refine ⟨w', ⟨hw', ?_, hdom.trans hnode.1⟩, .inr ⟨s, htopic ▸ hs, halive, hnode⟩⟩
      exact hns.symm.trans (same_ipcNs h hw hw' htopic.symm)

/-- **GET_NODE_NAMES** ends, whatever the hash function. It returns the names of the nodes of the
caller's namespace and domain, one for each, or says that they do not fit. -/
theorem get_node_names (h : Reachable σ) (hpid : ∀ procInfo ∈ σ.procInfoHtable,
    procInfo.globalPid ≠ 0) (fullNameHash : Name → Nat) (ipcNs : IpcNs) (pid : Pid)
    {capacity : Nat} (hcapacity : capacity ≤ maxNodeNum) :
    ∃ nodes : List (Pid × Name), nodes.Nodup ∧
      (∀ node, node ∈ nodes ↔ IsNode σ ipcNs (getProcessDomainId σ pid) node) ∧
      getNodeNames fullNameHash σ true ipcNs pid capacity =
        (if nodes.length ≤ capacity then some (.ok (nodes.map Prod.snd))
        else some (.error .ENOBUFS)) ∧
      getNodeNames fullNameHash σ false ipcNs pid capacity = some (.error .ENOMEM) := by
  set seen := (wrappersOf ipcNs (getProcessDomainId σ pid) σ.topicHashtable).flatMap
    (nodesOfTopic σ (getProcessDomainId σ pid)) with hseen
  -- a slot with the pid 0 is free
  have hnonzero : ∀ node ∈ seen, node.1 ≠ 0 := by
    intro node hnode
    obtain ⟨⟨procInfo, hfind, -⟩, -⟩ := (mem_nodesOf h).mp hnode
    obtain ⟨hmem, hsame⟩ := HTable.mem_of_lookup hfind
    exact hsame ▸ hpid procInfo hmem
  have hempty : NodeNameCollector.Holds fullNameHash [] ⟨fun _ => ⟨0, 0⟩, [], capacity⟩ :=
    .empty hcapacity
  -- all names are collected when they fit into the buffer, and else the call says so
  obtain ⟨hfits, hfull⟩ := collectNodes_some hempty hnonzero
  have hcap : ¬ capacity > maxNodeNum := Nat.not_lt_of_le hcapacity
  have hcall : getNodeNames fullNameHash σ true ipcNs pid capacity =
      (collectNodes fullNameHash some seen ⟨fun _ => ⟨0, 0⟩, [], capacity⟩).map
        (Except.map NodeNameCollector.buf) := by
    unfold getNodeNames
    rw [if_neg hcap, collectNodeNames_eq]
    rcases collectNodes fullNameHash some seen ⟨fun _ => ⟨0, 0⟩, [], capacity⟩ with _ | _ | col <;>
      rfl
  refine ⟨addNew [] seen, nodup_addNew List.nodup_nil seen, fun node => ?_, ?_, if_neg hcap⟩
  · rw [mem_addNew, ← mem_nodesOf h]
    simp [hseen]
  · rw [hcall]
    rcases Nat.lt_or_ge capacity (addNew [] seen).length with hlt | hle
    · rw [hfull hlt, if_neg (Nat.not_le_of_lt hlt)]
      rfl
    · obtain ⟨col, hok, hcol⟩ := hfits hle
      rw [hok, if_pos hle, ← hcol.buf]
      rfl

/-- A node with endpoints of two topics and a node with one, all names of one hash value. -/
theorem get_node_names_of_two :
    let σ := (runOf 2 [.addProcess 1 0 0 0, .addPublisher ['/', 't'] 0 ⟨['a'], 1, 1, false, false⟩,
      .addPublisher ['/', 'u'] 0 ⟨['a'], 1, 1, false, false⟩,
      .addSubscriber ['/', 't'] 0 ⟨['b'], 1, 1, false, false, false, false, false⟩ 5]).2
    ∃ nodes : List (Pid × Name), nodes.Nodup ∧
      (∀ node, node ∈ nodes ↔ IsNode σ 0 (getProcessDomainId σ 1) node) ∧
      getNodeNames (fun _ => 0) σ true 0 1 8 =
        (if nodes.length ≤ 8 then some (.ok (nodes.map Prod.snd)) else some (.error .ENOBUFS)) ∧
      getNodeNames (fun _ => 0) σ false 0 1 8 = some (.error .ENOMEM) :=
  get_node_names (reachable_runOf (by decide) (by decide) _) (by decide) _ _ _ (by decide)

example : getNodeNames (fun _ => 0) (runOf 2 [.addProcess 1 0 0 0,
      .addPublisher ['/', 't'] 0 ⟨['a'], 1, 1, false, false⟩,
      .addPublisher ['/', 'u'] 0 ⟨['a'], 1, 1, false, false⟩,
      .addSubscriber ['/', 't'] 0 ⟨['b'], 1, 1, false, false, false, false, false⟩ 5]).2 true 0 1 8 =
    some (.ok [['a'], ['b']]) := by
  decide +kernel

end Agnocast
