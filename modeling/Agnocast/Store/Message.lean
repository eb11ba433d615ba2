import Agnocast.Store.Consistent

/-!
# The store — publishing an entry, changing its bits

* `publishMsgCore_eq`, `publishMsgCore_cases` — a publication fails without a trace, or appends the
  new entry and trims the publisher's old ones (`ReleaseSpec`).
* `Consistent.published`, `Consistent.setEntry`, `Consistent.grant` — appending,
  changing one entry's bits and setting one subscriber's bit on several entries
  keep the store consistent.
-/

namespace Agnocast

variable {σ : Kmod} {t : TopicStruct} {leaving : List Int}

/-! ## Publish -/

/-- The node a publication links. -/
def newEntryNode (t : TopicStruct) (p : PublisherInfo) (addr : Nat) : EntryNode where
  entryId := t.currentEntryId
  publisherId := p.id
  msgVirtualAddress := addr
  referencingSubscribers := .zero

/-- The topic after a publication that left `entries`. -/
def TopicStruct.published (t : TopicStruct) (p : PublisherInfo) (entries : List EntryNode) :
    TopicStruct :=
  { t with
    entries := entries
    currentEntryId := t.currentEntryId + 1
    pubInfoHtable := HTable.modify PublisherInfo.id p.id
      (fun q => { q with entriesNum := entriesOf p.id entries }) t.pubInfoHtable }

/-- Entry ids in the tree are smaller than the next one, so an insertion fails on
the allocation only. -/
private theorem insertMessageEntry_eq (h : t.Consistent leaving) (env : Env) (p : PublisherInfo)
    (addr : Nat) :
    insertMessageEntry env t p addr =
      if !env.kmalloc .entryNode then (.error .ENOMEM, t)
      else (.ok t.currentEntryId,
        { t with
          entries := t.entries ++ [newEntryNode t p addr]
          currentEntryId := t.currentEntryId + 1
          pubInfoHtable := HTable.modify PublisherInfo.id p.id
            (fun q => { q with entriesNum := q.entriesNum + 1 }) t.pubInfoHtable }) := by
  have hlast : (t.entries.getLast?.all fun last => last.entryId < t.currentEntryId) = true := by
    cases hl : t.entries.getLast? with
    | none => rfl
    | some last => simpa using h.entry_lt last (List.mem_of_getLast? hl)
  rw [insertMessageEntry]
  split
  · rfl
  · simp only
    rw [if_pos hlast]
    rfl

/-- **What a publication comes to**: without memory nothing, else the new entry is appended and the
loop is run, for no entries if the publisher is within its depth. -/
theorem publishMsgCore_eq (h : t.Consistent leaving) {p : PublisherInfo} (hp : p ∈ t.pubInfoHtable)
    (env : Env) (addr : Nat) {r : ReleaseLoop}
    (hr : r = releaseLoop p.id (t.entries ++ [newEntryNode t p addr])
      (p.entriesNum + 1 - p.qosDepth) (p.entriesNum + 1) []) :
    publishMsgCore env t p addr =
      if !env.kmalloc .entryNode then (.error .ENOMEM, t)
      else (r.ret.map fun _ => ⟨t.currentEntryId, r.releasedAddrs, p.notifyCtxs⟩,
        t.published p r.entries) := by
  rw [publishMsgCore, insertMessageEntry_eq h]
  by_cases hmalloc : env.kmalloc .entryNode = true
  swap
  · simp [hmalloc]
  set l := t.entries ++ [newEntryNode t p addr] with hl
  -- the count of the publisher is that of its entries, the new one included
  have hcount : p.entriesNum + 1 = entriesOf p.id l := by
    rw [hl, entriesOf_append, ← h.counted p hp]
    exact congrArg _ (entriesOf_cons_self (newEntryNode t p addr) []).symm
  simp only [hmalloc, Bool.not_true, Bool.false_eq_true, ↓reduceIte]
  rw [releaseMsgsToMeetDepth]
  by_cases hdepth : p.entriesNum + 1 ≤ p.qosDepth
  · -- nothing to trim, and the loop would stop at once
    have hloop : r = ⟨.ok (), l, p.entriesNum + 1, []⟩ := by
      rw [hr, Nat.sub_eq_zero_of_le hdepth]
      cases l <;> simp [releaseLoop]
    rw [if_pos hdepth, hloop]
    simp only [TopicStruct.published, Except.map]
    congr 2
    refine HTable.modify_congr fun q hq hid => ?_
    rw [HTable.eq_of_key_eq h.pubs_nodup hq hp hid, hcount]
  · rw [if_neg hdepth, if_neg (by simp [hl])]
    have hspec := releaseLoop_spec p.id l (p.entriesNum + 1 - p.qosDepth) 0 []
    rw [Nat.zero_add, ← hcount, ← hr] at hspec
    simp only
    rw [← hr]
    have htopic : ({ t with
          entries := r.entries
          currentEntryId := t.currentEntryId + 1
          pubInfoHtable := HTable.modify PublisherInfo.id p.id
            (fun q => { q with entriesNum := q.entriesNum + 1 }) t.pubInfoHtable } :
          TopicStruct).modifyPublisher p.id (fun q => { q with entriesNum := r.entriesNum }) =
        t.published p r.entries := by
      simp only [TopicStruct.modifyPublisher, TopicStruct.published]
      congr 1
      rw [HTable.modify_modify (fun _ => by rfl), hspec.counted, Nat.zero_add]
      rfl
    cases hret : r.ret with
    | error e =>
      simp only [Except.map]
      exact congrArg _ htopic
    | ok _ =>
      simp only [Except.map]
      exact congrArg _ htopic

/-- **How a publication ends**: without a trace, or with the new entry appended
and the publisher's old entries trimmed, even when the trimming reports an error. -/
theorem publishMsgCore_cases (h : t.Consistent leaving) {p : PublisherInfo}
    (hp : p ∈ t.pubInfoHtable) (env : Env) (addr : Nat) :
    (∃ e, publishMsgCore env t p addr = (.error e, t)) ∨
    (∃ r, ReleaseSpec p.id (t.entries ++ [newEntryNode t p addr]) 0 [] r ∧
      ((∃ e, publishMsgCore env t p addr = (.error e, t.published p r.entries)) ∨
        publishMsgCore env t p addr =
          (.ok ⟨t.currentEntryId, r.releasedAddrs, p.notifyCtxs⟩, t.published p r.entries))) := by
  obtain ⟨r, hr⟩ : ∃ r, r = releaseLoop p.id (t.entries ++ [newEntryNode t p addr])
      (p.entriesNum + 1 - p.qosDepth) (p.entriesNum + 1) [] := ⟨_, rfl⟩
  rw [publishMsgCore_eq h hp env addr hr]
  by_cases hmalloc : env.kmalloc .entryNode = true
  swap
  · exact .inl ⟨.ENOMEM, by simp [hmalloc]⟩
  rw [if_neg (by simp [hmalloc])]
  refine .inr ⟨r, ?_, ?_⟩
  · have hspec := releaseLoop_spec p.id (t.entries ++ [newEntryNode t p addr])
      (p.entriesNum + 1 - p.qosDepth) 0 []
    have hcount : 0 + entriesOf p.id (t.entries ++ [newEntryNode t p addr]) = p.entriesNum + 1 := by
      rw [Nat.zero_add, entriesOf_append, ← h.counted p hp]
      exact congrArg _ (entriesOf_cons_self (newEntryNode t p addr) [])
    rw [hcount, ← hr] at hspec
    exact hspec
  · cases r.ret with
    | error e => exact .inl ⟨e, rfl⟩
    | ok _ => exact .inr rfl

theorem TopicStruct.Consistent.published (h : t.Consistent leaving) {p : PublisherInfo}
    {addr : Nat} {r : ReleaseLoop}
    (hr : ReleaseSpec p.id (t.entries ++ [newEntryNode t p addr]) 0 [] r) (hp : p ∈ t.pubInfoHtable) :
    (t.published p r.entries).Consistent leaving := by
  have hmem : ∀ en ∈ r.entries, en ∈ t.entries ∨ en = newEntryNode t p addr := by
    intro en hen
    simpa using hr.sublist.subset hen
  have hids : (t.published p r.entries).pubInfoHtable.map PublisherInfo.id =
      t.pubInfoHtable.map PublisherInfo.id := HTable.map_modify (fun _ => by rfl) _
  have hpub : ∀ q' ∈ (t.published p r.entries).pubInfoHtable, ∃ q ∈ t.pubInfoHtable, q.id = q'.id :=
    fun q' hq' => HTable.exists_of_map_eq hids hq'
  constructor
  · refine List.Pairwise.sublist hr.sublist (List.pairwise_append.mpr ⟨h.sorted, by simp, ?_⟩)
    intro en hen en' hen'
    rw [List.mem_singleton.mp hen']
    exact h.entry_lt en hen
  · intro en hen
    rcases hmem en hen with hen | rfl
    · exact Int.lt_add_one_of_le (h.entry_lt en hen).le
    · exact Int.lt_succ _
  · intro en hen
    obtain ⟨q, hq, hid⟩ : ∃ q ∈ t.pubInfoHtable, q.id = en.publisherId := by
      rcases hmem en hen with hen | rfl
      · exact h.publisher en hen
      · exact ⟨p, hp, rfl⟩
    -- a publication keeps all publishers, by their ids
    obtain ⟨q', hq', hid'⟩ := HTable.exists_of_map_eq hids.symm hq
    exact ⟨q', hq', hid'.trans hid⟩
  · intro q' hq'
    obtain ⟨q, hq, rfl⟩ := HTable.mem_modify.mp hq'
    split
    · next hid => exact congrArg (fun i => entriesOf i r.entries) hid.symm
    · next hid =>
      show q.entriesNum = entriesOf q.id r.entries
      -- the loop leaves the entries of the others alone
      rw [hr.others q.id hid, entriesOf_append, h.counted q hq,
        entriesOf_cons_of_ne (fun h => hid h.symm)]
      rfl
  · intro en hen b hb
    rcases hmem en hen with hen | rfl
    · exact h.holder en hen b hb
    · simp [newEntryNode] at hb
  · rw [hids]
    exact h.ids_nodup
  · intro q' hq'
    obtain ⟨q, hq, hid⟩ := hpub q' hq'
    rw [← hid]
    exact h.pub_id q hq
  · exact h.sub_id
  · exact h.pubsubId_le
  · exact Int.le_add_one h.entryId_nonneg
  · intro s hs
    exact ⟨(h.watermark s hs).1, Int.lt_add_one_of_le (h.watermark s hs).2.le⟩

theorem TopicStruct.Consistent.publishMsgCore (h : t.Consistent leaving) {p : PublisherInfo}
    (hp : p ∈ t.pubInfoHtable) (env : Env) (addr : Nat) :
    (publishMsgCore env t p addr).2.Consistent leaving := by
  rcases publishMsgCore_cases h hp env addr with ⟨e, heq⟩ | ⟨r, hr, ⟨e, heq⟩ | heq⟩
  · rw [heq]
    exact h
  · rw [heq]
    exact h.published hr hp
  · rw [heq]
    exact h.published hr hp

/-! ## Bits -/

/-- Changing entries in nothing but their bits keeps the store consistent as long
as the new bits are accounted for, possibly by raised watermarks. -/
theorem TopicStruct.Consistent.mapEntries (h : t.Consistent leaving) {f : EntryNode → EntryNode}
    (hid : ∀ en ∈ t.entries, (f en).entryId = en.entryId)
    (hpub : ∀ en ∈ t.entries, (f en).publisherId = en.publisherId)
    (hbits : ∀ en ∈ t.entries, ∀ b ∈ (f en).referencingSubscribers.bits,
      b ∈ en.referencingSubscribers.bits ∨
        ∃ s ∈ t.subInfoHtable, s.id = b ∧ en.entryId ≤ s.latestReceivedEntryId) :
    ({ t with entries := t.entries.map f } : TopicStruct).Consistent leaving := by
  refine { h with sorted := ?_, entry_lt := ?_, publisher := ?_, counted := ?_, holder := ?_ }
  · refine List.pairwise_map.mpr (h.sorted.imp_of_mem fun {a b} ha hb hlt => ?_)
    rw [hid a ha, hid b hb]
    exact hlt
  · intro en hen
    obtain ⟨en₀, hen₀, rfl⟩ := List.mem_map.mp hen
    rw [hid en₀ hen₀]
    exact h.entry_lt en₀ hen₀
  · intro en hen
    obtain ⟨en₀, hen₀, rfl⟩ := List.mem_map.mp hen
    rw [hpub en₀ hen₀]
    exact h.publisher en₀ hen₀
  · intro p hp
    rw [h.counted p hp]
    refine (entriesOf_congr ?_ p.id).symm
    rw [List.map_map]
    exact List.map_congr_left hpub
  · intro en hen b hb
    obtain ⟨en₀, hen₀, rfl⟩ := List.mem_map.mp hen
    rcases hbits en₀ hen₀ b hb with hb | ⟨s, hs, hsid, hle⟩
    · rcases h.holder en₀ hen₀ b hb with hb | ⟨s, hs, hsid, hle⟩
      · exact .inl hb
      · exact .inr ⟨s, hs, hsid, by rwa [hid en₀ hen₀]⟩
    · exact .inr ⟨s, hs, hsid, by rwa [hid en₀ hen₀]⟩

/-- RELEASE_SUB_REF on the topic. -/
theorem TopicStruct.Consistent.clearBit (h : t.Consistent leaving) {en : EntryNode}
    (hen : en ∈ t.entries) (b : Int) : (t.setEntry (en.clearBit b)).Consistent leaving := by
  have heq : ∀ en' ∈ t.entries, en'.entryId = en.entryId → en' = en := fun en' hen' =>
    HTable.eq_of_key_eq h.entries_nodup hen' hen
  refine h.mapEntries ?_ ?_ ?_
  · intro en' hen'
    split
    · next hid => exact hid.symm
    · rfl
  · intro en' hen'
    split
    · next hid => rw [heq en' hen' hid]; rfl
    · rfl
  · intro en' hen' c hc
    left
    split at hc
    · next hid =>
      rw [heq en' hen' hid]
      exact Finset.mem_of_mem_erase hc
    · exact hc

/-- `set_bit` on one entry, for an id inside the bitmap. -/
def EntryNode.setBit (en : EntryNode) (b : Int) : EntryNode :=
  if h : inBitmapRange b then
    { en with referencingSubscribers := en.referencingSubscribers.set b h }
  else en

section

variable (en : EntryNode) (b : Int)

@[simp] theorem EntryNode.setBit_entryId : (en.setBit b).entryId = en.entryId := by
  unfold setBit; split <;> rfl

@[simp] theorem EntryNode.setBit_publisherId : (en.setBit b).publisherId = en.publisherId := by
  unfold setBit; split <;> rfl

@[simp] theorem EntryNode.setBit_msgVirtualAddress :
    (en.setBit b).msgVirtualAddress = en.msgVirtualAddress := by
  unfold setBit; split <;> rfl

end

theorem EntryNode.setBit_bits (en : EntryNode) {b : Int} (hb : inBitmapRange b) :
    (en.setBit b).referencingSubscribers.bits = insert b en.referencingSubscribers.bits := by
  rw [setBit, dif_pos hb]
  rfl

/-- Bits after `set_bit`: at most one more. -/
theorem EntryNode.mem_setBit {en : EntryNode} {b c : Int}
    (h : c ∈ (en.setBit b).referencingSubscribers.bits) :
    c = b ∨ c ∈ en.referencingSubscribers.bits := by
  unfold setBit at h
  split at h
  · exact Finset.mem_insert.mp h
  · exact .inr h

/-- Set subscriber `b`'s bit on the entries with these ids. -/
def TopicStruct.grant (t : TopicStruct) (b : Int) (ids : List Int) : TopicStruct :=
  { t with entries := t.entries.map fun en => if en.entryId ∈ ids then en.setBit b else en }

@[simp] theorem TopicStruct.grant_nil (t : TopicStruct) (b : Int) : t.grant b [] = t := by
  simp [TopicStruct.grant]

/-- Setting the bit on one more entry. -/
theorem TopicStruct.Consistent.grant_setEntry (h : t.Consistent leaving) {en : EntryNode}
    (hen : en ∈ t.entries) (b : Int) (ids : List Int) :
    (t.grant b ids).setEntry (en.setBit b) = t.grant b (ids ++ [en.entryId]) := by
  simp only [TopicStruct.grant, TopicStruct.setEntry, HTable.modify, List.map_map]
  congr 1
  refine List.map_congr_left fun en' hen' => ?_
  simp only [Function.comp_apply, EntryNode.setBit_entryId, List.mem_append, List.mem_singleton]
  have hid : (if en'.entryId ∈ ids then en'.setBit b else en').entryId = en'.entryId := by
    split
    · exact en'.setBit_entryId b
    · rfl
  rw [hid]
  by_cases heq : en'.entryId = en.entryId
  · rw [if_pos heq, if_pos (.inr heq), HTable.eq_of_key_eq h.entries_nodup hen' hen heq]
  · rw [if_neg heq]
    simp only [heq, or_false]

/-- Granting entries and raising the subscriber's watermark over them. -/
def TopicStruct.handOut (t : TopicStruct) (b : Int) (ids : List Int) : TopicStruct :=
  match ids.getLast? with
  | none => t
  | some last =>
    (t.grant b ids).modifySubscriber b fun s => { s with latestReceivedEntryId := last }

/-- Raising a watermark to a published entry id. -/
theorem TopicStruct.Consistent.raise (h : t.Consistent leaving) (b last : Int)
    (hlast : -1 ≤ last ∧ last < t.currentEntryId)
    (hle : ∀ s ∈ t.subInfoHtable, s.id = b → s.latestReceivedEntryId ≤ last) :
    (t.modifySubscriber b fun s => { s with latestReceivedEntryId := last }).Consistent
      leaving := by
  have hids : (t.modifySubscriber b fun s => { s with latestReceivedEntryId := last }).subInfoHtable.map
      SubscriberInfo.id = t.subInfoHtable.map SubscriberInfo.id :=
    HTable.map_modify (fun _ => by rfl) _
  have hmem := @HTable.mem_modify SubscriberInfo Int _ SubscriberInfo.id b
    (fun s => { s with latestReceivedEntryId := last }) t.subInfoHtable
  refine { h with holder := ?_, ids_nodup := ?_, sub_id := ?_, watermark := ?_ }
  · intro en hen c hc
    rcases h.holder en hen c hc with hc | ⟨s, hs, hid, hlatest⟩
    · exact .inl hc
    · refine .inr ⟨_, hmem.mpr ⟨s, hs, rfl⟩, ?_⟩
      split
      · next hb => exact ⟨hid, hlatest.trans (hle s hs hb)⟩
      · exact ⟨hid, hlatest⟩
  · rw [hids]
    exact h.ids_nodup
  · intro s' hs'
    obtain ⟨s, hs, rfl⟩ := hmem.mp hs'
    split <;> exact h.sub_id s hs
  · intro s' hs'
    obtain ⟨s, hs, rfl⟩ := hmem.mp hs'
    split
    · exact hlast
    · exact h.watermark s hs

/-- Handing out entries past the watermark, newest last, keeps the store
consistent. -/
theorem TopicStruct.Consistent.handOut (h : t.Consistent leaving) {s : SubscriberInfo}
    (hs : s ∈ t.subInfoHtable) {batch : List EntryNode} (hbatch : batch.Sublist t.entries)
    (hnew : ∀ en ∈ batch, s.latestReceivedEntryId ≤ en.entryId) :
    (t.handOut s.id (batch.map EntryNode.entryId)).Consistent leaving := by
  unfold TopicStruct.handOut
  cases hlast : (batch.map EntryNode.entryId).getLast? with
  | none => exact h
  | some last =>
    rw [List.getLast?_map] at hlast
    obtain ⟨en, hen, rfl⟩ := Option.map_eq_some_iff.mp hlast
    have henb := List.mem_of_getLast? hen
    have hent := hbatch.subset henb
    -- the watermark is raised first, so that it covers the bits that are set
    have hraise := h.raise s.id en.entryId
      ⟨(h.watermark s hs).1.trans (hnew en henb), h.entry_lt en hent⟩
      (fun s' hs' hid => by
        rw [HTable.eq_of_key_eq h.subs_nodup hs' hs hid]
        exact hnew en henb)
    refine hraise.mapEntries (fun en' _ => ?_) (fun en' _ => ?_) (fun en' hen' c hc => ?_)
    · split
      · exact en'.setBit_entryId s.id
      · rfl
    · split
      · exact en'.setBit_publisherId s.id
      · rfl
    · split at hc
      · next hid =>
        rcases EntryNode.mem_setBit hc with rfl | hc
        · refine .inr ⟨_, HTable.mem_modify_of_eq hs rfl, rfl, ?_⟩
          -- the batch is sorted, so its last entry is its greatest
          obtain ⟨en'', hen'', hid''⟩ := List.mem_map.mp hid
          rw [← hid'']
          have hsorted := h.sorted.sublist hbatch
          obtain ⟨init, hinit⟩ := List.getLast?_eq_some_iff.mp hen
          rw [hinit] at hsorted hen''
          rcases List.mem_append.mp hen'' with hen'' | hen''
          · exact ((List.pairwise_append.mp hsorted).2.2 en'' hen'' en (by simp)).le
          · rw [List.mem_singleton.mp hen'']
        · exact .inl hc
      · exact .inl hc

end Agnocast
