import Agnocast.Lib.Window
import Agnocast.Store.Message

/-!
# The store — what receive and take hand out

On a consistent topic the loops of RECEIVE_MSG and TAKE_MSG cannot fail, and both
are windows over the entry tree: the newest `qos_depth` entries that the
subscriber accepts and that its watermark has not passed.

* `receiveMsgCore_eq` — RECEIVE_MSG hands out the oldest ten of the window.
* `takeMsgCore_eq`    — TAKE_MSG hands out the oldest one of the window.

Either way what is handed out is granted (`TopicStruct.handOut`): the bits are set
and the watermark moves to the last entry.
-/

namespace Agnocast

variable {σ : Kmod} {t : TopicStruct} {s : SubscriberInfo}

/-! ## The window -/

/-- `is_entry_deliverable` says yes. -/
def accepts (σ : Kmod) (t : TopicStruct) (s : SubscriberInfo) (en : EntryNode) : Bool :=
  match isEntryDeliverable σ t s en with
  | .ok b => b
  | .error _ => false

/-- The newest `qos_depth` entries from `oldestWanted` on that the subscriber
accepts, oldest first. -/
def deliveryWindow (σ : Kmod) (t : TopicStruct) (s : SubscriberInfo) (oldestWanted : Int) :
    List EntryNode :=
  Window.window (accepts σ t s) (fun en => en.entryId < oldestWanted) s.qosDepth t.entries

/-- Every entry has its publisher in the topic, so the delivery test never fails. -/
theorem TopicStruct.Consistent.isEntryDeliverable_eq {leaving : List Int}
    (h : t.Consistent leaving) {en : EntryNode} (hen : en ∈ t.entries) :
    isEntryDeliverable σ t s en = .ok (accepts σ t s en) := by
  obtain ⟨p, _, hp⟩ := h.findPublisherInfo_entry hen
  unfold accepts isEntryDeliverable
  rw [hp]
  simp only
  split <;> [rfl; split <;> rfl]

theorem mem_deliveryWindow {oldestWanted : Int} {en : EntryNode}
    (h : en ∈ deliveryWindow σ t s oldestWanted) :
    en ∈ t.entries ∧ oldestWanted ≤ en.entryId ∧ accepts σ t s en = true := by
  obtain ⟨hmem, hstop, hacc⟩ := Window.mem_window h
  exact ⟨hmem, by simpa using hstop, hacc⟩

theorem deliveryWindow_sublist (oldestWanted : Int) :
    (deliveryWindow σ t s oldestWanted).Sublist t.entries := Window.window_sublist _

/-- In key order, everything before an entry that is too old is too old. -/
private theorem old_mono {leaving : List Int} (h : t.Consistent leaving) (oldestWanted : Int) :
    (t.entries.reverse.reverse ++ []).Pairwise fun a b : EntryNode =>
      decide (b.entryId < oldestWanted) = true → decide (a.entryId < oldestWanted) = true := by
  rw [List.reverse_reverse, List.append_nil]
  refine h.sorted.imp fun {a b} hlt hb => ?_
  rw [decide_eq_true_eq] at hb ⊢
  omega

/-! ## Receive -/

/-- Without failing delivery tests the backward pass is the generic scan. -/
private theorem receiveWindow_eq {leaving : List Int} (h : t.Consistent leaving)
    (oldestWanted : Int) (back after node : List EntryNode) (k : Nat)
    (hback : ∀ en ∈ back, en ∈ t.entries) :
    receiveWindow σ t s oldestWanted back after node k =
      .ok (Window.scanBack (accepts σ t s) (fun en => en.entryId < oldestWanted) s.qosDepth back
        after node k) := by
  induction back generalizing after node k with
  | nil => rfl
  | cons en back ih =>
    have hback' : ∀ en ∈ back, en ∈ t.entries := fun x hx => hback x (List.mem_cons_of_mem _ hx)
    rw [receiveWindow, Window.scanBack, h.isEntryDeliverable_eq (hback en List.mem_cons_self)]
    simp only [decide_eq_true_eq]
    split
    · rfl
    · cases hacc : accepts σ t s en with
      | false =>
        simp only [Bool.false_eq_true, ↓reduceIte]
        exact ih _ _ _ hback'
      | true =>
        simp only [↓reduceIte]
        split
        · rfl
        · exact ih _ _ _ hback'

private theorem addSubscriberReference_eq {en : EntryNode} {b : Int} (hb : inBitmapRange b) :
    addSubscriberReference en b =
      if b ∈ en.referencingSubscribers.bits then .error .EALREADY else .ok (en.setBit b) := by
  rw [addSubscriberReference, dif_pos hb, EntryNode.setBit, dif_pos hb]

/-- Granting bits changes nothing that the delivery test looks at. -/
private theorem isEntryDeliverable_grant (b : Int) (ids : List Int) (en : EntryNode) :
    isEntryDeliverable σ (t.grant b ids) s en = isEntryDeliverable σ t s en := rfl

/-- The forward pass from a cursor, with the entries `done` granted before it: the
next accepted ones up to the batch size, and `callAgain` iff the window is larger
than a batch. -/
private theorem receiveLoop_eq {leaving : List Int} (h : t.Consistent leaving) {b : Int}
    (hb : inBitmapRange b) (k : Nat) (node : List EntryNode) (hnode : ∀ en ∈ node, en ∈ t.entries)
    (hfresh : ∀ en ∈ node, accepts σ t s en = true → b ∉ en.referencingSubscribers.bits)
    (reply : ReceivedEntries) (done : List Int) (hagain : reply.callAgain = false)
    (hlen : reply.entries.length ≤ maxReceiveNum)
    (hk : k = reply.entries.length + (node.filter (accepts σ t s)).length) :
    receiveLoop σ s b k node reply (t.grant b done) =
      let batch := (node.filter (accepts σ t s)).take (maxReceiveNum - reply.entries.length)
      (.ok (),
        ⟨reply.entries ++ batch.map fun en => (en.entryId, en.msgVirtualAddress),
          decide (maxReceiveNum < k)⟩,
        t.grant b (done ++ batch.map EntryNode.entryId)) := by
  induction node generalizing reply done with
  | nil =>
    have hk : ¬ maxReceiveNum < k := by
      rw [hk, List.filter_nil, List.length_nil]
      omega
    simp [receiveLoop, hk, ← hagain]
  | cons en next ih =>
    rw [receiveLoop]
    split
    · next hfull => simp [hfull]
    · next hfull =>
      have hen := hnode en List.mem_cons_self
      have hnode' : ∀ x ∈ next, x ∈ t.entries := fun x hx => hnode x (List.mem_cons_of_mem _ hx)
      have hfresh' : ∀ x ∈ next, accepts σ t s x = true → b ∉ x.referencingSubscribers.bits :=
        fun x hx => hfresh x (List.mem_cons_of_mem _ hx)
      rw [isEntryDeliverable_grant, h.isEntryDeliverable_eq hen]
      cases hacc : accepts σ t s en with
      | false =>
        -- it is passed over, and the batch stays as it was
        have hfilter : (en :: next).filter (accepts σ t s) = next.filter (accepts σ t s) :=
          List.filter_cons_of_neg (by simp [hacc])
        simp only [hfilter] at hk ⊢
        exact ih hnode' hfresh' reply done hagain hlen hk
      | true =>
        -- it has no bit yet, and takes one place of the batch
        have hfilter : (en :: next).filter (accepts σ t s) = en :: next.filter (accepts σ t s) :=
          List.filter_cons_of_pos hacc
        rw [hfilter, List.length_cons] at hk
        have hroom : maxReceiveNum - reply.entries.length =
            maxReceiveNum - (reply.entries.length + 1) + 1 := by omega
        simp only [addSubscriberReference_eq hb, if_neg (hfresh en List.mem_cons_self hacc),
          h.grant_setEntry hen, hfilter, hroom, List.take_succ_cons, List.map_cons]
        have := ih hnode' hfresh'
          ⟨reply.entries ++ [(en.entryId, en.msgVirtualAddress)], reply.callAgain⟩
          (done ++ [en.entryId]) hagain (by simp only [List.length_append, List.length_singleton]; omega)
          (by simp only [List.length_append, List.length_singleton]; omega)
        simp only [List.length_append, List.length_singleton, List.append_assoc,
          List.singleton_append] at this
        exact this

/-- **RECEIVE_MSG on a consistent topic** never fails: it hands out the oldest ten
of the window past the watermark, and asks to be called again iff the window is
larger. -/
theorem receiveMsgCore_eq (h : t.Consistent []) (hs : s ∈ t.subInfoHtable) :
    receiveMsgCore σ t s s.id =
      let window := deliveryWindow σ t s (s.latestReceivedEntryId + 1)
      let batch := window.take maxReceiveNum
      (.ok ⟨batch.map fun en => (en.entryId, en.msgVirtualAddress),
          decide (maxReceiveNum < window.length)⟩,
        t.handOut s.id (batch.map EntryNode.entryId)) := by
  rw [receiveMsgCore]
  by_cases hempty : t.entries = []
  · rw [if_pos hempty]
    simp [deliveryWindow, hempty, TopicStruct.handOut]
  rw [if_neg hempty]
  by_cases hdepth : s.qosDepth = 0
  · rw [if_pos hdepth]
    simp [deliveryWindow, hdepth, TopicStruct.handOut]
  rw [if_neg hdepth, receiveWindow_eq h _ _ _ _ _ (fun en hen => List.mem_reverse.mp hen)]
  obtain ⟨hsuffix, hfilter, hcount⟩ := Window.scanBack_spec (n := s.qosDepth)
    (p := accepts σ t s) t.entries.reverse [] [] 0
    (old_mono h (s.latestReceivedEntryId + 1)) (by simp) (List.suffix_refl _) rfl rfl
    (Nat.pos_of_ne_zero hdepth)
  rw [List.reverse_reverse, List.append_nil] at hsuffix hfilter hcount
  set r := Window.scanBack (accepts σ t s) (fun en => decide (en.entryId <
    s.latestReceivedEntryId + 1)) s.qosDepth t.entries.reverse [] [] 0 with hr
  rw [show (r : List EntryNode × Nat) = (r.1, r.2) from rfl]
  have hfilter : r.1.filter (accepts σ t s) =
      deliveryWindow σ t s (s.latestReceivedEntryId + 1) := hfilter
  have hcount : r.2 = (deliveryWindow σ t s (s.latestReceivedEntryId + 1)).length := hcount
  -- an entry past the watermark does not carry the subscriber's bit yet
  have hfresh : ∀ en ∈ r.1, accepts σ t s en = true → s.id ∉ en.referencingSubscribers.bits := by
    intro en hen hacc hbit
    have hw : en ∈ deliveryWindow σ t s (s.latestReceivedEntryId + 1) := by
      rw [← hfilter]
      exact List.mem_filter.mpr ⟨hen, hacc⟩
    obtain ⟨hmem, hle, _⟩ := mem_deliveryWindow hw
    have := h.bit_le hmem hs hbit
    omega
  have hloop := receiveLoop_eq (σ := σ) (s := s) h (h.sub_inRange hs) r.2 r.1
    (fun en hen => hsuffix.subset hen) hfresh ⟨[], false⟩ [] rfl (Nat.zero_le _)
    (by rw [hfilter, hcount, List.length_nil, Nat.zero_add])
  rw [TopicStruct.grant_nil, hfilter, hcount] at hloop
  rw [hcount]
  simp only [hloop, List.length_nil, Nat.sub_zero, List.nil_append, List.getLast?_map]
  unfold TopicStruct.handOut
  rw [List.getLast?_map]
  cases hlast : ((deliveryWindow σ t s (s.latestReceivedEntryId + 1)).take
    maxReceiveNum).getLast? with
  | none =>
    rw [List.getLast?_eq_none_iff.mp hlast]
    simp
  | some last => rfl

/-! ## Take -/

/-- The oldest entry id TAKE_MSG looks at. -/
def takeFrom (s : SubscriberInfo) (allowSameMessage : Bool) : Int :=
  if allowSameMessage then s.latestReceivedEntryId else s.latestReceivedEntryId + 1

private theorem takeCandidate_eq {leaving : List Int} (h : t.Consistent leaving) (allow : Bool)
    (back : List EntryNode) (k : Nat) (candidate : Option EntryNode)
    (hback : ∀ en ∈ back, en ∈ t.entries) :
    takeCandidate σ t s allow back k candidate =
      .ok (Window.scanOldest (accepts σ t s) (fun en => en.entryId < takeFrom s allow) s.qosDepth
        back k candidate) := by
  induction back generalizing k candidate with
  | nil => rfl
  | cons en back ih =>
    have hback' : ∀ en ∈ back, en ∈ t.entries := fun x hx => hback x (List.mem_cons_of_mem _ hx)
    rw [takeCandidate, Window.scanOldest, h.isEntryDeliverable_eq (hback en List.mem_cons_self)]
    have hstop : (en.entryId < takeFrom s allow) ↔
        (!allow ∧ en.entryId = s.latestReceivedEntryId) ∨ en.entryId < s.latestReceivedEntryId := by
      unfold takeFrom
      cases allow with
      | false =>
        simp only [Bool.false_eq_true, ↓reduceIte, Bool.not_false, true_and]
        omega
      | true => simp
    split
    · rfl
    · by_cases hold : en.entryId < takeFrom s allow
      · rw [if_pos (decide_eq_true hold)]
        rcases hstop.mp hold with hsame | hless
        · rw [if_pos hsame]
        · rw [if_pos hless, ite_self]
      · obtain ⟨hsame, hless⟩ := not_or.mp (mt hstop.mpr hold)
        rw [if_neg hsame, if_neg hless, if_neg (by simpa using hold)]
        cases hacc : accepts σ t s en with
        | false => exact ih _ _ hback'
        | true => exact ih _ _ hback'

/-- A bit that is set already stays as it is. -/
theorem setBit_of_mem {en : EntryNode} {b : Int}
    (hb : b ∈ en.referencingSubscribers.bits) : en.setBit b = en := by
  have hrange := en.referencingSubscribers.inRange b hb
  rw [EntryNode.setBit, dif_pos hrange]
  have : en.referencingSubscribers.set b hrange = en.referencingSubscribers :=
    ReferenceBitmap.ext (Finset.insert_eq_of_mem hb)
  rw [this]

theorem grant_of_mem {leaving : List Int} (h : t.Consistent leaving) {en : EntryNode}
    (hen : en ∈ t.entries) {b : Int} (hb : b ∈ en.referencingSubscribers.bits) :
    t.grant b [en.entryId] = t := by
  have hmap : (t.entries.map fun x => if x.entryId ∈ [en.entryId] then x.setBit b else x) =
      t.entries := by
    refine (List.map_congr_left fun x hx => ?_).trans (List.map_id _)
    split
    · next hid =>
      have := HTable.eq_of_key_eq h.entries_nodup hx hen (List.mem_singleton.mp hid)
      rw [this, setBit_of_mem hb]
      rfl
    · rfl
  rw [TopicStruct.grant, hmap]

/-- **TAKE_MSG on a consistent topic** never fails before the mapping: it hands out
the oldest entry of the window, a second time if the same message is allowed. -/
theorem takeMsgCore_eq (h : t.Consistent []) (hs : s ∈ t.subInfoHtable) (allow : Bool) :
    takeMsgCore σ t s s.id allow =
      match (deliveryWindow σ t s (takeFrom s allow)).head? with
      | none => (.ok none, t)
      | some en =>
        (.ok (some (en.entryId, en.msgVirtualAddress)), t.handOut s.id [en.entryId]) := by
  -- the loop from the newest entry is the scan of the window
  have hscan := Window.scanOldest_spec (n := s.qosDepth) (p := accepts σ t s) t.entries.reverse []
    0 (old_mono h (takeFrom s allow)) (by simp) rfl (Nat.zero_le _)
  rw [List.reverse_reverse, List.append_nil, List.filter_nil, List.head?_nil] at hscan
  rw [takeMsgCore, takeCandidate_eq h _ _ _ _ (fun en hen => List.mem_reverse.mp hen), hscan]
  cases hw : (deliveryWindow σ t s (takeFrom s allow)).head? with
  | none =>
    have hw : (Window.window (accepts σ t s) (fun en => en.entryId < takeFrom s allow) s.qosDepth
        t.entries).head? = none := hw
    rw [hw]
  | some en =>
    have hmem := mem_deliveryWindow (List.mem_of_mem_head? hw)
    have hw : (Window.window (accepts σ t s) (fun en => en.entryId < takeFrom s allow) s.qosDepth
        t.entries).head? = some en := hw
    rw [hw]
    simp only [addSubscriberReference_eq (h.sub_inRange hs)]
    have hhand : t.handOut s.id [en.entryId] =
        (t.grant s.id [en.entryId]).modifySubscriber s.id fun s =>
          { s with latestReceivedEntryId := en.entryId } := rfl
    by_cases hbit : s.id ∈ en.referencingSubscribers.bits
    · -- only reachable with `allow`: the bit bounds the entry by the watermark
      have hallow : allow = true := by
        have := h.bit_le hmem.1 hs hbit
        have hle := hmem.2.1
        unfold takeFrom at hle
        split at hle
        · assumption
        · omega
      simp only [if_pos hbit, hallow, and_self, ↓reduceIte]
      rw [hhand, grant_of_mem h hmem.1 hbit]
    · simp only [if_neg hbit]
      have := h.grant_setEntry hmem.1 s.id []
      rw [TopicStruct.grant_nil, List.nil_append] at this
      rw [hhand, this]

/-! ## Both keep the store consistent -/

theorem TopicStruct.Consistent.receiveMsgCore (h : t.Consistent []) (hs : s ∈ t.subInfoHtable) :
    (receiveMsgCore σ t s s.id).2.Consistent [] := by
  rw [receiveMsgCore_eq h hs]
  refine h.handOut hs ((List.take_sublist _ _).trans (deliveryWindow_sublist _)) fun en hen => ?_
  have := (mem_deliveryWindow (List.mem_of_mem_take hen)).2.1
  omega

theorem takeFrom_ge (s : SubscriberInfo) (allow : Bool) :
    s.latestReceivedEntryId ≤ takeFrom s allow := by
  unfold takeFrom
  split <;> omega

theorem TopicStruct.Consistent.takeMsgCore (h : t.Consistent []) (hs : s ∈ t.subInfoHtable)
    (allow : Bool) : (takeMsgCore σ t s s.id allow).2.Consistent [] := by
  rw [takeMsgCore_eq h hs]
  cases hw : (deliveryWindow σ t s (takeFrom s allow)).head? with
  | none => exact h
  | some en =>
    obtain ⟨hmem, hle, _⟩ := mem_deliveryWindow (List.mem_of_mem_head? hw)
    have hsub : [en].Sublist t.entries := List.singleton_sublist.mpr hmem
    refine h.handOut hs hsub fun en' hen' => ?_
    rw [List.mem_singleton.mp hen']
    exact (takeFrom_ge s allow).trans hle

end Agnocast
