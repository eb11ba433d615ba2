import Agnocast.Kmod.Entries

/-!
# The store — what the deleting loops do

Three loops walk an entry tree and delete nodes on the way: depth trimming
(`releaseLoop`), the departure of a publisher (`dropUnreferenced`) and the
departure of a subscriber (`clearReferences`). Each is described once, for a walk
that starts anywhere in the tree: what it leaves of the entries, and that the
counters it keeps still count what is left.

* `releaseLoop_spec`      — only unreferenced entries of the publisher go.
* `dropUnreferenced_eq`   — exactly the unreferenced entries of the publisher go.
* `clearReferences_spec`  — exactly what is unreferenced without the leaving
  subscriber and belongs to an exited publisher goes, and the publishers that
  lose their last entry with it.
-/

namespace Agnocast

/-! ## Counting a publisher's entries -/

/-- How many entries carry the publisher's id. -/
def entriesOf (publisherId : Int) (l : List EntryNode) : Nat :=
  l.countP fun en => en.publisherId = publisherId

@[simp] theorem entriesOf_nil (q : Int) : entriesOf q [] = 0 := rfl

theorem entriesOf_cons (q : Int) (en : EntryNode) (l : List EntryNode) :
    entriesOf q (en :: l) = entriesOf q l + if en.publisherId = q then 1 else 0 := by
  simp [entriesOf, List.countP_cons]

theorem entriesOf_cons_self (en : EntryNode) (l : List EntryNode) :
    entriesOf en.publisherId (en :: l) = entriesOf en.publisherId l + 1 := by
  rw [entriesOf_cons, if_pos rfl]

theorem entriesOf_cons_of_ne {q : Int} {en : EntryNode} (h : en.publisherId ≠ q)
    (l : List EntryNode) : entriesOf q (en :: l) = entriesOf q l := by
  rw [entriesOf_cons, if_neg h, Nat.add_zero]

theorem entriesOf_append (q : Int) (l l' : List EntryNode) :
    entriesOf q (l ++ l') = entriesOf q l + entriesOf q l' := by
  simp [entriesOf]

theorem entriesOf_pos {q : Int} {l : List EntryNode} :
    0 < entriesOf q l ↔ ∃ en ∈ l, en.publisherId = q := by
  simp [entriesOf, List.countP_pos_iff]

theorem entriesOf_eq_zero {q : Int} {l : List EntryNode} :
    entriesOf q l = 0 ↔ ∀ en ∈ l, en.publisherId ≠ q := by
  simp [entriesOf, List.countP_eq_zero]

theorem entriesOf_le_of_sublist {l l' : List EntryNode} (h : l.Sublist l') (q : Int) :
    entriesOf q l ≤ entriesOf q l' := h.countP_le

theorem entriesOf_congr {l l' : List EntryNode}
    (h : l.map EntryNode.publisherId = l'.map EntryNode.publisherId) (q : Int) :
    entriesOf q l = entriesOf q l' := by
  have hmap : ∀ l : List EntryNode,
      entriesOf q l = (l.map EntryNode.publisherId).countP (fun x => x = q) := by
    intro l
    rw [List.countP_map]
    rfl
  rw [hmap, hmap, h]

/-! ## Depth trimming -/

/-- What `releaseLoop` does from a cursor whose predecessors hold `c` entries of
the publisher. -/
structure ReleaseSpec (q : Int) (l : List EntryNode) (c : Nat) (released : List Nat)
    (r : ReleaseLoop) : Prop where
  sublist : r.entries.Sublist l
  counted : r.entriesNum = c + entriesOf q r.entries
  others : ∀ q', q' ≠ q → entriesOf q' r.entries = entriesOf q' l
  kept : ∀ en ∈ l, isReferenced en = true ∨ en.publisherId ≠ q → en ∈ r.entries
  newest : r.entries.getLast? = l.getLast?
  addrs : ∀ a ∈ r.releasedAddrs, a ∈ released ∨
    ∃ en ∈ l, en.publisherId = q ∧ isReferenced en = false ∧ en.msgVirtualAddress = a

private theorem ReleaseSpec.stop (q : Int) (l : List EntryNode) (c : Nat) (released : List Nat)
    (ret : Except Errno Unit) :
    ReleaseSpec q l c released ⟨ret, l, c + entriesOf q l, released⟩ :=
  ⟨.refl l, rfl, fun _ _ => rfl, fun _ h _ => h, rfl, fun _ h => .inl h⟩

private theorem ReleaseSpec.keep {q : Int} {en : EntryNode} {l : List EntryNode} {c c' : Nat}
    {released : List Nat} {r : ReleaseLoop} (h : ReleaseSpec q l c' released r)
    (hc : c' = c + if en.publisherId = q then 1 else 0) :
    ReleaseSpec q (en :: l) c released { r with entries := en :: r.entries } where
  sublist := h.sublist.cons_cons en
  counted := by
    show r.entriesNum = c + entriesOf q (en :: r.entries)
    rw [h.counted, hc, entriesOf_cons]
    omega
  others q' hq' := by
    show entriesOf q' (en :: r.entries) = _
    rw [entriesOf_cons, entriesOf_cons, h.others q' hq']
  kept en' hen' hkeep := by
    rcases List.mem_cons.mp hen' with rfl | hen'
    · exact List.mem_cons_self
    · exact List.mem_cons_of_mem _ (h.kept en' hen' hkeep)
  newest := by rw [List.getLast?_cons, List.getLast?_cons, h.newest]
  addrs a ha := by
    rcases h.addrs a ha with ha | ⟨en', hen', hrest⟩
    · exact .inl ha
    · exact .inr ⟨en', List.mem_cons_of_mem _ hen', hrest⟩

private theorem ReleaseSpec.release {q : Int} {en : EntryNode} {l : List EntryNode} {c : Nat}
    {released : List Nat} {r : ReleaseLoop}
    (h : ReleaseSpec q l c (released ++ [en.msgVirtualAddress]) r) (hl : l ≠ [])
    (hq : en.publisherId = q) (hfree : isReferenced en = false) :
    ReleaseSpec q (en :: l) c released r where
  sublist := h.sublist.cons en
  counted := h.counted
  others q' hq' := by
    rw [h.others q' hq', entriesOf_cons_of_ne (fun h => hq' (h.symm.trans hq))]
  kept en' hen' hkeep := by
    rcases List.mem_cons.mp hen' with rfl | hen'
    · rcases hkeep with hkeep | hkeep
      · rw [hfree] at hkeep
        cases hkeep
      · exact absurd hq hkeep
    · exact h.kept en' hen' hkeep
  newest := by
    rw [h.newest, List.getLast?_cons]
    cases hlast : l.getLast? with
    | none => exact absurd (List.getLast?_eq_none_iff.mp hlast) hl
    | some last => rfl
  addrs a ha := by
    rcases h.addrs a ha with ha | ⟨en', hen', hrest⟩
    · rcases List.mem_append.mp ha with ha | ha
      · exact .inl ha
      · exact .inr ⟨en, List.mem_cons_self, hq, hfree, (List.mem_singleton.mp ha).symm⟩
    · exact .inr ⟨en', List.mem_cons_of_mem _ hen', hrest⟩

/-- **Depth trimming** deletes only unreferenced entries of the publisher, never
the newest entry, and reports only addresses of deleted ones. -/
theorem releaseLoop_spec (q : Int) (l : List EntryNode) (n c : Nat) (released : List Nat) :
    ReleaseSpec q l c released (releaseLoop q l n (c + entriesOf q l) released) := by
  induction l generalizing n c released with
  | nil => exact .stop q [] c released _
  | cons en next ih =>
    rw [releaseLoop]
    split
    · exact .stop q (en :: next) c released _
    · split
      · exact .stop q (en :: next) c released _
      · next hnext =>
        split
        · next hq =>
          rw [entriesOf_cons_of_ne hq]
          exact (ih n c released).keep (by rw [if_neg hq, Nat.add_zero])
        · next hq =>
          rw [not_not] at hq
          have hcount : c + entriesOf q (en :: next) = c + 1 + entriesOf q next := by
            rw [entriesOf_cons, if_pos hq]
            omega
          split
          · rw [hcount]
            exact (ih (n - 1) (c + 1) released).keep (by rw [if_pos hq])
          · next hfree =>
            rw [hcount, show c + 1 + entriesOf q next = (c + entriesOf q next) + 1 by omega,
              u32Dec_succ]
            exact (ih (n - 1) c _).release hnext hq (by simpa using hfree)

/-! ## A publisher leaves -/

/-- **The departure of a publisher** deletes exactly its unreferenced entries. -/
theorem dropUnreferenced_eq (q : Int) (l : List EntryNode) (c : Nat) :
    dropUnreferenced q l (c + entriesOf q l) =
      (l.filter fun en => en.publisherId ≠ q ∨ isReferenced en,
        c + entriesOf q (l.filter fun en => en.publisherId ≠ q ∨ isReferenced en)) := by
  induction l generalizing c with
  | nil => rfl
  | cons en next ih =>
    rw [dropUnreferenced]
    split
    · next hq =>
      rw [entriesOf_cons_of_ne hq, ih c, List.filter_cons_of_pos (by simp [hq]),
        entriesOf_cons_of_ne hq]
    · next hq =>
      rw [not_not] at hq
      have hcount : c + entriesOf q (en :: next) = (c + entriesOf q next) + 1 := by
        rw [entriesOf_cons, if_pos hq]
        omega
      split
      · next hfree =>
        rw [hcount, u32Dec_succ, ih c, List.filter_cons_of_neg (by simpa [hq] using hfree)]
      · next href =>
        rw [hcount, show c + entriesOf q next + 1 = (c + 1) + entriesOf q next by omega, ih (c + 1),
          List.filter_cons_of_pos (by simpa [hq] using href), entriesOf_cons, if_pos hq]
        simp only [Prod.mk.injEq, true_and]
        omega

/-! ## A subscriber leaves -/

variable {σ : Kmod}

theorem publisherExited_eq_true {pubs : List PublisherInfo} {q : Int} :
    publisherExited σ pubs q = true ↔
      ∃ p, HTable.lookup PublisherInfo.id q pubs = some p ∧ processGone σ p.pid = true := by
  unfold publisherExited
  cases HTable.lookup PublisherInfo.id q pubs <;> simp

/-- The entries that stay when subscriber `b` leaves. -/
def entriesWithout (σ : Kmod) (pubs : List PublisherInfo) (b : Int) (l : List EntryNode) :
    List EntryNode :=
  (l.map fun en => en.clearBit b).filter fun en =>
    isReferenced en || !publisherExited σ pubs en.publisherId

theorem entriesOf_entriesWithout_le (pubs : List PublisherInfo) (b q : Int) (l : List EntryNode) :
    entriesOf q (entriesWithout σ pubs b l) ≤ entriesOf q l := by
  refine (entriesOf_le_of_sublist List.filter_sublist q).trans (le_of_eq (entriesOf_congr ?_ q))
  rw [List.map_map]
  rfl

/-- What `clearReferences` does from a cursor whose predecessors hold `done q`
entries of publisher `q`. -/
structure ClearSpec (σ : Kmod) (b : Int) (l : List EntryNode) (pubs : List PublisherInfo)
    (done : Int → Nat) (l' : List EntryNode) (pubs' : List PublisherInfo) : Prop where
  entries : l' = entriesWithout σ pubs b l
  ids : (pubs'.map PublisherInfo.id).Sublist (pubs.map PublisherInfo.id)
  fromPub : ∀ p' ∈ pubs', ∃ p ∈ pubs, p' = { p with entriesNum := p'.entriesNum }
  counted : ∀ p' ∈ pubs', p'.entriesNum = done p'.id + entriesOf p'.id l'
  kept : ∀ p ∈ pubs, 0 < done p.id + entriesOf p.id l' → ∃ p' ∈ pubs', p'.id = p.id
  untouched : ∀ p ∈ pubs, entriesOf p.id l' = entriesOf p.id l → p ∈ pubs'
  emptied : ∀ p' ∈ pubs', p'.entriesNum = 0 → p' ∈ pubs

/-- `entries_num--` on a publisher that has entries left takes one off its count;
otherwise the publisher goes. -/
private theorem dropPublisherEntry_eq {pubs : List PublisherInfo} {q : Int} {p : PublisherInfo}
    (hp : HTable.lookup PublisherInfo.id q pubs = some p) {n : Nat} (hn : p.entriesNum = n + 1) :
    dropPublisherEntry q pubs =
      if n = 0 then HTable.hashDel PublisherInfo.id q pubs
      else
        HTable.modify PublisherInfo.id q (fun p => { p with entriesNum := u32Dec p.entriesNum })
          pubs := by
  rw [dropPublisherEntry, hp]
  simp only [hn, u32Dec_succ]

/-- The publisher table after `entries_num--`, with the count `n` left over. -/
private theorem mem_dropPublisherEntry {pubs : List PublisherInfo} {q : Int} {p : PublisherInfo}
    (hnd : (pubs.map PublisherInfo.id).Nodup)
    (hp : HTable.lookup PublisherInfo.id q pubs = some p) {n : Nat} (hn : p.entriesNum = n + 1)
    {p' : PublisherInfo} :
    p' ∈ dropPublisherEntry q pubs ↔
      (p' ∈ pubs ∧ p'.id ≠ q) ∨ (n ≠ 0 ∧ p' = { p with entriesNum := n }) := by
  obtain ⟨hmem, hid⟩ := HTable.mem_of_lookup hp
  rw [dropPublisherEntry_eq hp hn]
  split
  · next h0 => simp [HTable.mem_hashDel, h0]
  · next h0 =>
    rw [HTable.mem_modify]
    constructor
    · rintro ⟨p₀, hp₀, rfl⟩
      by_cases hq : p₀.id = q
      · have : p₀ = p := HTable.eq_of_key_eq hnd hp₀ hmem (hq.trans hid.symm)
        subst this
        rw [if_pos hq, hn, u32Dec_succ]
        exact .inr ⟨h0, rfl⟩
      · rw [if_neg hq]
        exact .inl ⟨hp₀, hq⟩
    · rintro (⟨hp', hq⟩ | ⟨_, rfl⟩)
      · exact ⟨p', hp', (if_neg hq).symm⟩
      · exact ⟨p, hmem, by rw [if_pos hid, hn, u32Dec_succ]⟩

private theorem ids_dropPublisherEntry {pubs : List PublisherInfo} {q : Int} {p : PublisherInfo}
    (hp : HTable.lookup PublisherInfo.id q pubs = some p) {n : Nat} (hn : p.entriesNum = n + 1) :
    ((dropPublisherEntry q pubs).map PublisherInfo.id).Sublist (pubs.map PublisherInfo.id) := by
  rw [dropPublisherEntry_eq hp hn]
  split
  · exact (HTable.hashDel_sublist q pubs).map _
  · rw [HTable.map_modify (fun _ => by rfl)]

/-- Dropping an entry changes no other publisher's liveness. -/
private theorem publisherExited_dropPublisherEntry {pubs : List PublisherInfo} {q q' : Int}
    {p : PublisherInfo} (hnd : (pubs.map PublisherInfo.id).Nodup)
    (hp : HTable.lookup PublisherInfo.id q pubs = some p) {n : Nat} (hn : p.entriesNum = n + 1)
    (h : q' = q → n ≠ 0) :
    publisherExited σ (dropPublisherEntry q pubs) q' = publisherExited σ pubs q' := by
  have hnd' := hnd.sublist (ids_dropPublisherEntry hp hn)
  rw [Bool.eq_iff_iff, publisherExited_eq_true, publisherExited_eq_true]
  simp only [HTable.lookup_eq_some_iff hnd', HTable.lookup_eq_some_iff hnd,
    mem_dropPublisherEntry hnd hp hn]
  obtain ⟨hmem, hid⟩ := HTable.mem_of_lookup hp
  constructor
  · rintro ⟨p', ⟨⟨hp', _⟩ | ⟨_, rfl⟩, hid'⟩, hgone⟩
    · exact ⟨p', ⟨hp', hid'⟩, hgone⟩
    · exact ⟨p, ⟨hmem, hid'⟩, hgone⟩
  · rintro ⟨p', ⟨hp', hid'⟩, hgone⟩
    by_cases hq : q' = q
    · have : p' = p := HTable.eq_of_key_eq hnd hp' hmem (by rw [hid', hid, hq])
      subst this
      exact ⟨_, ⟨.inr ⟨h hq, rfl⟩, hid'⟩, hgone⟩
    · exact ⟨p', ⟨.inl ⟨hp', fun h => hq (hid'.symm.trans h)⟩, hid'⟩, hgone⟩

/-- An entry stays that is still referenced, or whose publisher is alive. -/
private theorem clearReferences_keeps {b : Int} {en : EntryNode} {next : List EntryNode}
    {pubs : List PublisherInfo}
    (hkeep : (isReferenced (en.clearBit b) || !publisherExited σ pubs en.publisherId) = true) :
    clearReferences σ b (en :: next) pubs =
      (en.clearBit b :: (clearReferences σ b next pubs).1, (clearReferences σ b next pubs).2) := by
  rw [clearReferences]
  split
  · rfl
  · next href =>
    have hlive : (!publisherExited σ pubs (en.clearBit b).publisherId) = true := by
      simpa [href] using hkeep
    simp only [if_pos hlive]

/-- Any other entry goes, and counts for its publisher no more. -/
private theorem clearReferences_frees {b : Int} {en : EntryNode} {next : List EntryNode}
    {pubs : List PublisherInfo} (hfree : isReferenced (en.clearBit b) = false)
    (hexited : publisherExited σ pubs en.publisherId = true) :
    clearReferences σ b (en :: next) pubs =
      clearReferences σ b next (dropPublisherEntry en.publisherId pubs) := by
  rw [clearReferences]
  simp only
  rw [if_neg (by simp [hfree]), if_neg (by simp [EntryNode.clearBit, hexited])]
  rfl

section

variable {b : Int} {en : EntryNode} {next : List EntryNode} {pubs : List PublisherInfo}
  {done : Int → Nat}

/-- The entry stays: from the next one on it counts as done. -/
private theorem ClearSpec.keeps
    (hkeep : (isReferenced (en.clearBit b) || !publisherExited σ pubs en.publisherId) = true)
    (hspec : ClearSpec σ b next pubs (fun q => done q + if en.publisherId = q then 1 else 0)
      (clearReferences σ b next pubs).1 (clearReferences σ b next pubs).2) :
    ClearSpec σ b (en :: next) pubs done (clearReferences σ b (en :: next) pubs).1
      (clearReferences σ b (en :: next) pubs).2 := by
  rw [clearReferences_keeps hkeep]
  have hcons : ∀ q, entriesOf q (en.clearBit b :: (clearReferences σ b next pubs).1) =
      entriesOf q (clearReferences σ b next pubs).1 + if en.publisherId = q then 1 else 0 :=
    fun q => entriesOf_cons q _ _
  refine ⟨?_, hspec.ids, hspec.fromPub, ?_, ?_, ?_, hspec.emptied⟩
  · rw [hspec.entries, entriesWithout, entriesWithout, List.map_cons,
      List.filter_cons_of_pos (by simpa using hkeep)]
  · intro p' hp'
    rw [hspec.counted p' hp', hcons]
    omega
  · intro p hp hpos
    rw [hcons] at hpos
    exact hspec.kept p hp (by omega)
  · intro p hp heq
    rw [hcons, entriesOf_cons] at heq
    exact hspec.untouched p hp (by omega)

/-- The entry goes, and takes its publisher with it if it was the last one. -/
private theorem ClearSpec.frees (hnd : (pubs.map PublisherInfo.id).Nodup)
    (hfree : isReferenced (en.clearBit b) = false)
    (hexited : publisherExited σ pubs en.publisherId = true) {p : PublisherInfo}
    (hp : HTable.lookup PublisherInfo.id en.publisherId pubs = some p)
    (hn : p.entriesNum = (done en.publisherId + entriesOf en.publisherId next) + 1)
    (hspec : ClearSpec σ b next (dropPublisherEntry en.publisherId pubs) done
      (clearReferences σ b next (dropPublisherEntry en.publisherId pubs)).1
      (clearReferences σ b next (dropPublisherEntry en.publisherId pubs)).2) :
    ClearSpec σ b (en :: next) pubs done (clearReferences σ b (en :: next) pubs).1
      (clearReferences σ b (en :: next) pubs).2 := by
  obtain ⟨hmem, hid⟩ := HTable.mem_of_lookup hp
  rw [clearReferences_frees hfree hexited]
  have hmem' := @mem_dropPublisherEntry pubs en.publisherId p hnd hp _ hn
  have hle : entriesOf en.publisherId
      (clearReferences σ b next (dropPublisherEntry en.publisherId pubs)).1 ≤
        entriesOf en.publisherId next := by
    rw [hspec.entries]
    exact entriesOf_entriesWithout_le _ b _ next
  refine ⟨?_, hspec.ids.trans (ids_dropPublisherEntry hp hn), ?_, hspec.counted, ?_, ?_, ?_⟩
  · rw [hspec.entries, entriesWithout, entriesWithout, List.map_cons,
      List.filter_cons_of_neg (by simpa using ⟨hfree, hexited⟩)]
    refine List.filter_congr fun en' hen' => ?_
    obtain ⟨en₀, hen₀, rfl⟩ := List.mem_map.mp hen'
    -- a later entry of the publisher keeps it in the table, so that it is judged as before
    have hlive : en₀.publisherId = en.publisherId →
        done en.publisherId + entriesOf en.publisherId next ≠ 0 := by
      intro h
      have : 0 < entriesOf en.publisherId next := entriesOf_pos.mpr ⟨en₀, hen₀, h⟩
      omega
    rw [show (en₀.clearBit b).publisherId = en₀.publisherId from rfl,
      publisherExited_dropPublisherEntry hnd hp hn hlive]
  · intro p' hp'
    obtain ⟨p₁, hp₁, heq⟩ := hspec.fromPub p' hp'
    rcases hmem'.mp hp₁ with ⟨hp₁, _⟩ | ⟨_, rfl⟩
    · exact ⟨p₁, hp₁, heq⟩
    · exact ⟨p, hmem, heq⟩
  · intro p₁ hp₁ hpos
    -- the publisher of the entry has one less from here on
    by_cases hq : p₁.id = en.publisherId
    · rw [hq] at hpos ⊢
      have := hspec.kept { p with entriesNum := done en.publisherId + entriesOf en.publisherId next }
        (hmem'.mpr (.inr ⟨by omega, rfl⟩)) (by rw [hid]; exact hpos)
      rwa [hid] at this
    · exact hspec.kept p₁ (hmem'.mpr (.inl ⟨hp₁, hq⟩)) hpos
  · intro p₁ hp₁ heq
    by_cases hq : p₁.id = en.publisherId
    · rw [hq, entriesOf_cons_self] at heq
      omega
    · rw [entriesOf_cons_of_ne (Ne.symm hq)] at heq
      exact hspec.untouched p₁ (hmem'.mpr (.inl ⟨hp₁, hq⟩)) heq
  · intro p' hp' hzero
    rcases hmem'.mp (hspec.emptied p' hp' hzero) with ⟨hp', _⟩ | ⟨hn', rfl⟩
    · exact hp'
    · exact absurd hzero hn'

end

/-- **The departure of a subscriber**: its bit goes everywhere, and what is then
unreferenced goes if its publisher has exited. -/
theorem clearReferences_spec (b : Int) (l : List EntryNode) (pubs : List PublisherInfo)
    (done : Int → Nat) (hnd : (pubs.map PublisherInfo.id).Nodup)
    (hcount : ∀ p ∈ pubs, p.entriesNum = done p.id + entriesOf p.id l)
    (hpub : ∀ en ∈ l, ∃ p ∈ pubs, p.id = en.publisherId) :
    ClearSpec σ b l pubs done (clearReferences σ b l pubs).1 (clearReferences σ b l pubs).2 := by
  induction l generalizing pubs done with
  | nil =>
    exact ⟨rfl, .refl _, fun p' h => ⟨p', h, rfl⟩, hcount, fun p h _ => ⟨p, h, rfl⟩,
      fun _ h _ => h, fun _ h _ => h⟩
  | cons en next ih =>
    have hnext : ∀ en' ∈ next, ∃ p ∈ pubs, p.id = en'.publisherId :=
      fun en' h => hpub en' (List.mem_cons_of_mem _ h)
    by_cases hkeep : (isReferenced (en.clearBit b) || !publisherExited σ pubs en.publisherId) = true
    -- the entry is counted as done
    · refine ClearSpec.keeps hkeep (ih pubs _ hnd (fun p hp => ?_) hnext)
      rw [hcount p hp, entriesOf_cons]
      omega
    · simp only [Bool.or_eq_true, Bool.not_eq_true', not_or, Bool.not_eq_true,
        Bool.not_eq_false] at hkeep
      obtain ⟨hfree, hexited⟩ := hkeep
      obtain ⟨p, hp, hgone⟩ := publisherExited_eq_true.mp hexited
      obtain ⟨hmem, hid⟩ := HTable.mem_of_lookup hp
      -- the publisher loses this entry and keeps those that follow
      have hn : p.entriesNum = (done en.publisherId + entriesOf en.publisherId next) + 1 := by
        rw [hcount p hmem, hid, entriesOf_cons_self]
        omega
      have hmem' := @mem_dropPublisherEntry pubs en.publisherId p hnd hp _ hn
      refine ClearSpec.frees hnd hfree hexited hp hn (ih _ done
        (hnd.sublist (ids_dropPublisherEntry hp hn)) (fun p' hp' => ?_) fun en' hen' => ?_)
      · rcases hmem'.mp hp' with ⟨hp', hne⟩ | ⟨_, rfl⟩
        · rw [hcount p' hp', entriesOf_cons_of_ne (Ne.symm hne)]
        · rw [hid]
      · -- the publisher stays if another of its entries follows
        obtain ⟨p', hp', hid'⟩ := hnext en' hen'
        by_cases hq : p'.id = en.publisherId
        · have hpos : 0 < entriesOf en.publisherId next :=
            entriesOf_pos.mpr ⟨en', hen', hid'.symm.trans hq⟩
          exact ⟨_, hmem'.mpr (.inr ⟨by omega, rfl⟩), hid.trans (hq.symm.trans hid')⟩
        · exact ⟨p', hmem'.mpr (.inl ⟨hp', hq⟩), hid'⟩

end Agnocast
