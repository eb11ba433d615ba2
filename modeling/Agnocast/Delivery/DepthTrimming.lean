import Agnocast.Store.History

/-!
# Delivery — what a publication releases

* `releaseLoop_eq`          — the loop of `release_msgs_to_meet_depth`: what it takes out, what it
  reports, and when it runs past the newest entry.
* `publishMsgCore_trims`    — on a topic: the oldest unreferenced entries outside the newest
  `qos_depth` ones go, at most `MAX_RELEASE_NUM`, unless the loop runs out.
* `publish_trims`           — PUBLISH_MSG for a publisher of positive depth.
* `failed_publish_undone_iff` — a failing PUBLISH_MSG leaves everything as it was, except for a
  publisher of depth zero.
-/

namespace Agnocast

variable {σ σ' : Kmod} {t t' : TopicStruct}

/-! ## The loop -/

/-- The entries of a publisher. -/
def entriesBy (q : Int) (l : List EntryNode) : List EntryNode :=
  l.filter fun en => en.publisherId = q

/-- Of the first `n` entries of the publisher the unreferenced ones, at most `k`. -/
def releasable (q : Int) (n k : Nat) (l : List EntryNode) : List EntryNode :=
  (((entriesBy q l).take n).filter fun en => !isReferenced en).take k

/-- How many entries of the publisher are unreferenced. -/
def freeEntriesOf (q : Int) (l : List EntryNode) : Nat :=
  (entriesBy q l).countP fun en => !isReferenced en

section

variable {q : Int} {en : EntryNode} {l : List EntryNode} {n k : Nat}

theorem length_entriesBy (q : Int) (l : List EntryNode) : (entriesBy q l).length = entriesOf q l :=
  List.countP_eq_length_filter.symm

theorem entriesBy_append (q : Int) (l l' : List EntryNode) :
    entriesBy q (l ++ l') = entriesBy q l ++ entriesBy q l' := List.filter_append ..

theorem entriesBy_cons_self (h : en.publisherId = q) : entriesBy q (en :: l) = en :: entriesBy q l :=
  List.filter_cons_of_pos (by simpa using h)

theorem entriesBy_cons_of_ne (h : en.publisherId ≠ q) : entriesBy q (en :: l) = entriesBy q l :=
  List.filter_cons_of_neg (by simpa using h)

theorem releasable_sublist : (releasable q n k l).Sublist l :=
  (List.take_sublist _ _).trans
    (List.filter_sublist.trans ((List.take_sublist _ _).trans List.filter_sublist))

theorem releasable_zero_left : releasable q 0 k l = [] := by
  rw [releasable, List.take_zero, List.filter_nil, List.take_nil]

theorem releasable_zero_right : releasable q n 0 l = [] := List.take_zero

theorem releasable_cons_of_ne (h : en.publisherId ≠ q) :
    releasable q n k (en :: l) = releasable q n k l := by
  rw [releasable, entriesBy_cons_of_ne h, releasable]

theorem releasable_cons_referenced (h : en.publisherId = q) (href : isReferenced en = true) :
    releasable q (n + 1) k (en :: l) = releasable q n k l := by
  rw [releasable, entriesBy_cons_self h, List.take_succ_cons,
    List.filter_cons_of_neg (by simpa using href), releasable]

theorem releasable_cons_free (h : en.publisherId = q) (hfree : isReferenced en = false) :
    releasable q (n + 1) (k + 1) (en :: l) = en :: releasable q n k l := by
  rw [releasable, entriesBy_cons_self h, List.take_succ_cons,
    List.filter_cons_of_pos (by simpa using hfree), List.take_succ_cons, releasable]

theorem freeEntriesOf_cons_of_ne (h : en.publisherId ≠ q) :
    freeEntriesOf q (en :: l) = freeEntriesOf q l := by
  rw [freeEntriesOf, entriesBy_cons_of_ne h, freeEntriesOf]

theorem freeEntriesOf_cons_self (h : en.publisherId = q) :
    freeEntriesOf q (en :: l) = freeEntriesOf q l + if isReferenced en then 0 else 1 := by
  rw [freeEntriesOf, entriesBy_cons_self h, List.countP_cons, freeEntriesOf]
  cases isReferenced en <;> rfl

/-- An entry that comes first is not among the rest, so taking others out keeps it. -/
private theorem filter_cons_kept {removed : List EntryNode} (hnd : (en :: l).Nodup)
    (hsub : removed.Sublist l) : (en :: l).filter (fun x => x ∉ removed) =
      en :: l.filter (fun x => x ∉ removed) := by
  have hnot : en ∉ removed := fun h => (List.nodup_cons.mp hnd).1 (hsub.subset h)
  exact List.filter_cons_of_pos (by simpa using hnot)

private theorem filter_cons_removed {removed : List EntryNode} (hnd : (en :: l).Nodup) :
    (en :: l).filter (fun x => x ∉ en :: removed) = l.filter (fun x => x ∉ removed) := by
  rw [List.filter_cons_of_neg (by simp)]
  refine List.filter_congr fun x hx => ?_
  have hne : x ≠ en := fun heq => (List.nodup_cons.mp hnd).1 (heq ▸ hx)
  simp [hne]

end

/-- **The loop** looks at all entries but the newest of the tree. It runs past that one iff it has
neither met `n` entries of the publisher by then nor reported as many as it may. -/
theorem releaseLoop_eq (q : Int) (l : List EntryNode) (hl : l ≠ []) (hnd : l.Nodup) (n c k : Nat)
    (released : List Nat) (hk : released.length + k = maxReleaseNum) :
    (releaseLoop q l n c released).entries =
      l.filter (fun en => en ∉ releasable q n k l.dropLast) ∧
    (releaseLoop q l n c released).releasedAddrs =
      released ++ (releasable q n k l.dropLast).map EntryNode.msgVirtualAddress ∧
    (releaseLoop q l n c released).ret =
      if n ≤ entriesOf q l.dropLast ∨ k ≤ freeEntriesOf q l.dropLast then .ok ()
      else .error .ENODATA := by
  have hall (l : List EntryNode) : l.filter (fun en => en ∉ ([] : List EntryNode)) = l :=
    List.filter_eq_self.mpr fun _ _ => by simp
  induction l generalizing n c k released with
  | nil => exact absurd rfl hl
  | cons en next ih =>
    rw [releaseLoop]
    by_cases hstop : n = 0 ∨ maxReleaseNum ≤ released.length
    · -- nothing is left to look for
      rw [if_pos hstop]
      have hnone : releasable q n k (en :: next).dropLast = [] := by
        rcases hstop with rfl | hfull
        · exact releasable_zero_left
        · obtain rfl : k = 0 := by omega
          exact releasable_zero_right
      rw [hnone, hall, List.map_nil, List.append_nil, if_pos (by omega)]
      exact ⟨rfl, rfl, rfl⟩
    rw [if_neg hstop]
    obtain ⟨n, rfl⟩ : ∃ m, n = m + 1 := Nat.exists_eq_succ_of_ne_zero fun h => hstop (.inl h)
    obtain ⟨k, rfl⟩ : ∃ m, k = m + 1 := Nat.exists_eq_succ_of_ne_zero fun h => hstop (.inr (by omega))
    by_cases hnext : next = []
    · -- the newest entry is never looked at
      subst hnext
      rw [if_pos rfl]
      have hnone : releasable q (n + 1) (k + 1) [en].dropLast = [] := rfl
      rw [hnone, hall, List.map_nil, List.append_nil]
      exact ⟨rfl, rfl, rfl⟩
    rw [if_neg hnext, List.dropLast_cons_of_ne_nil hnext]
    have hsub {n k : Nat} : (releasable q n k next.dropLast).Sublist next :=
      releasable_sublist.trans (List.dropLast_sublist next)
    have hnd' := (List.nodup_cons.mp hnd).2
    by_cases hq : en.publisherId = q
    · rw [if_neg (by simpa using hq), entriesOf_cons, if_pos hq, freeEntriesOf_cons_self hq]
      cases hfree : isReferenced en with
      | true =>
        -- an entry that is referenced counts, and stays
        obtain ⟨hentries, haddrs, hret⟩ := ih hnext hnd' n c (k + 1) released hk
        rw [releasable_cons_referenced hq hfree, filter_cons_kept hnd hsub]
        refine ⟨congrArg (en :: ·) hentries, haddrs, hret.trans ?_⟩
        simp
      | false =>
        -- any other is reported and goes
        obtain ⟨hentries, haddrs, hret⟩ := ih hnext hnd' n (u32Dec c) k
          (released ++ [en.msgVirtualAddress]) (by simp; omega)
        rw [releasable_cons_free hq hfree, filter_cons_removed hnd]
        refine ⟨hentries, haddrs.trans (by simp), hret.trans ?_⟩
        simp
    -- an entry of another publisher is passed over
    · rw [if_pos hq, releasable_cons_of_ne hq, filter_cons_kept hnd hsub, entriesOf_cons_of_ne hq,
        freeEntriesOf_cons_of_ne hq]
      obtain ⟨hentries, haddrs, hret⟩ := ih hnext hnd' (n + 1) c (k + 1) released hk
      exact ⟨congrArg (en :: ·) hentries, haddrs, hret⟩

/-! ## One publication -/

/-- What a publication takes out of the tree `l`, which has the new entry: the oldest unreferenced
entries of the publisher outside its newest `depth`, at most `MAX_RELEASE_NUM`. -/
def trimmed (q : Int) (depth : Nat) (l : List EntryNode) : List EntryNode :=
  (((entriesBy q l).rdrop depth).filter fun en => !isReferenced en).take maxReleaseNum

/-- The loop runs out of entries: the publisher has no depth, and fewer unreferenced entries than
the loop may release. -/
def RunsOut (t : TopicStruct) (p : PublisherInfo) : Prop :=
  p.qosDepth = 0 ∧ freeEntriesOf p.id t.entries < maxReleaseNum

theorem trimmed_sublist {q : Int} {depth : Nat} {l : List EntryNode} :
    (trimmed q depth l).Sublist l :=
  (List.take_sublist _ _).trans
    (List.filter_sublist.trans ((List.take_sublist _ _).trans List.filter_sublist))

/-- What is trimmed is unreferenced, of the publisher, and outside its newest entries. -/
theorem mem_trimmed {q : Int} {depth : Nat} {l : List EntryNode} {en : EntryNode}
    (h : en ∈ trimmed q depth l) : en ∈ (entriesBy q l).rdrop depth ∧ isReferenced en = false := by
  have hfree := List.mem_filter.mp (List.mem_of_mem_take h)
  exact ⟨hfree.1, by simpa using hfree.2⟩

/-- Unless it runs out, the loop does not need the newest entry. -/
private theorem trimmed_append {p : PublisherInfo} (hout : ¬ RunsOut t p) (new : EntryNode)
    (hnew : new.publisherId = p.id) :
    trimmed p.id p.qosDepth (t.entries ++ [new]) =
      releasable p.id (entriesOf p.id t.entries + 1 - p.qosDepth) maxReleaseNum t.entries := by
  have hby : entriesBy p.id (t.entries ++ [new]) = entriesBy p.id t.entries ++ [new] := by
    rw [entriesBy_append, entriesBy_cons_self hnew]
    rfl
  have hlen : (entriesBy p.id t.entries ++ [new]).length = entriesOf p.id t.entries + 1 := by
    rw [List.length_append, length_entriesBy]
    rfl
  rw [trimmed, releasable, hby, List.rdrop, hlen]
  by_cases hdepth : p.qosDepth = 0
  · have hfree : maxReleaseNum ≤
        ((entriesBy p.id t.entries).filter fun en => !isReferenced en).length := by
      rw [← List.countP_eq_length_filter]
      exact not_lt.mp fun hlt => hout ⟨hdepth, hlt⟩
    have hall : (entriesBy p.id t.entries).take (entriesOf p.id t.entries + 1) =
        entriesBy p.id t.entries :=
      List.take_of_length_le ((length_entriesBy p.id t.entries).le.trans (Nat.le_succ _))
    rw [hdepth, Nat.sub_zero, hall, List.take_of_length_le hlen.le, List.filter_append,
      List.take_append_of_le_length hfree]
  · have hle : entriesOf p.id t.entries + 1 - p.qosDepth ≤ (entriesBy p.id t.entries).length := by
      rw [length_entriesBy]
      omega
    rw [List.take_append_of_le_length hle]

/-- The new entry is none of those that are there. -/
theorem nodup_append_new {leaving : List Int} (h : t.Consistent leaving) (p : PublisherInfo)
    (addr : Nat) : (t.entries ++ [newEntryNode t p addr]).Nodup := by
  refine List.nodup_append.mpr ⟨h.entries_nodup.of_map, List.nodup_singleton _, ?_⟩
  rintro a ha b hb rfl
  rw [List.mem_singleton.mp hb] at ha
  exact (h.entry_lt _ ha).ne rfl

/-- **A publication with memory on a consistent topic** trims, or runs out with the new entry left
behind. -/
theorem publishMsgCore_trims {leaving : List Int} (h : t.Consistent leaving) {p : PublisherInfo}
    (hp : p ∈ t.pubInfoHtable) {env : Env} (hmalloc : env.kmalloc .entryNode = true) (addr : Nat) :
    (¬ RunsOut t p → publishMsgCore env t p addr =
      (.ok ⟨t.currentEntryId, (trimmed p.id p.qosDepth
          (t.entries ++ [newEntryNode t p addr])).map EntryNode.msgVirtualAddress, p.notifyCtxs⟩,
        t.published p ((t.entries ++ [newEntryNode t p addr]).filter fun en =>
          en ∉ trimmed p.id p.qosDepth (t.entries ++ [newEntryNode t p addr])))) ∧
    (RunsOut t p → ∃ entries, newEntryNode t p addr ∈ entries ∧
      publishMsgCore env t p addr = (.error .ENODATA, t.published p entries)) := by
  obtain ⟨r, hr⟩ : ∃ r, r = releaseLoop p.id (t.entries ++ [newEntryNode t p addr])
      (p.entriesNum + 1 - p.qosDepth) (p.entriesNum + 1) [] := ⟨_, rfl⟩
  have hnew : newEntryNode t p addr ∉ t.entries := fun hmem =>
    (h.entry_lt _ hmem).ne rfl
  have hnd := nodup_append_new h p addr
  obtain ⟨hentries, haddrs, hret⟩ := releaseLoop_eq p.id (t.entries ++ [newEntryNode t p addr])
    (List.append_ne_nil_of_right_ne_nil _ (List.cons_ne_nil _ _)) hnd
    (p.entriesNum + 1 - p.qosDepth) (p.entriesNum + 1) maxReleaseNum [] (Nat.zero_add _)
  rw [List.dropLast_concat, ← hr, h.counted p hp] at hentries haddrs hret
  rw [publishMsgCore_eq h hp env addr hr, if_neg (by simp [hmalloc])]
  constructor
  · intro hout
    have htrim := trimmed_append hout (newEntryNode t p addr) rfl
    have hok : entriesOf p.id t.entries + 1 - p.qosDepth ≤ entriesOf p.id t.entries ∨
        maxReleaseNum ≤ freeEntriesOf p.id t.entries := by
      by_cases hdepth : p.qosDepth = 0
      · exact .inr (not_lt.mp fun hlt => hout ⟨hdepth, hlt⟩)
      · exact .inl (by omega)
    rw [if_pos hok] at hret
    rw [hret, hentries, haddrs, htrim]
    rfl
  · rintro ⟨hdepth, hfew⟩
    rw [if_neg (by omega)] at hret
    refine ⟨r.entries, ?_, by rw [hret]; rfl⟩
    rw [hentries]
    refine List.mem_filter.mpr ⟨List.mem_append_right _ (List.mem_singleton_self _), ?_⟩
    simpa using fun hmem => hnew (releasable_sublist.subset hmem)

/-! ## What is left -/

/-- The new entry stays. -/
theorem new_not_trimmed {depth : Nat} {l : List EntryNode} (new : EntryNode) (q : Int)
    (hdepth : 1 ≤ depth) (hnew : new ∉ l) (hq : new.publisherId = q) :
    new ∉ trimmed q depth (l ++ [new]) := by
  intro hmem
  have hold := (mem_trimmed hmem).1
  rw [entriesBy_append, entriesBy_cons_self hq, List.rdrop] at hold
  have hone : (entriesBy q l ++ new :: entriesBy q []).length - depth ≤ (entriesBy q l).length := by
    rw [List.length_append]
    show (entriesBy q l).length + 1 - depth ≤ _
    omega
  rw [List.take_append_of_le_length hone] at hold
  exact hnew (List.filter_sublist.subset (List.mem_of_mem_take hold))

/-- The newest entries of the publisher stay. -/
theorem newest_not_trimmed {q : Int} {depth : Nat} {l : List EntryNode} (hnd : l.Nodup)
    {en : EntryNode} (hen : en ∈ (entriesBy q l).rtake depth) : en ∉ trimmed q depth l := by
  intro hmem
  have hsplit : (entriesBy q l).Nodup := hnd.filter _
  rw [← List.take_append_drop ((entriesBy q l).length - depth) (entriesBy q l)] at hsplit
  exact (List.nodup_append.mp hsplit).2.2 en (mem_trimmed hmem).1 en hen rfl

/-- If fewer than the cap went, what is left outside the newest entries is referenced. -/
theorem referenced_of_few_trimmed {q : Int} {depth : Nat} {l : List EntryNode} (hnd : l.Nodup)
    (hfew : (trimmed q depth l).length < maxReleaseNum) :
    ∀ en ∈ (entriesBy q (l.filter fun en => en ∉ trimmed q depth l)).rdrop depth,
      isReferenced en = true := by
  have hall : trimmed q depth l = ((entriesBy q l).rdrop depth).filter fun en => !isReferenced en := by
    rw [trimmed, List.length_take] at hfew
    exact List.take_of_length_le (by omega)
  intro en hen
  have hkept : entriesBy q (l.filter fun en => en ∉ trimmed q depth l) =
      ((entriesBy q l).rdrop depth).filter (fun en => en ∉ trimmed q depth l) ++
        (entriesBy q l).rtake depth := by
    have hnewest : ((entriesBy q l).rtake depth).filter (fun en => en ∉ trimmed q depth l) =
        (entriesBy q l).rtake depth :=
      List.filter_eq_self.mpr fun en hen => by simpa using newest_not_trimmed hnd hen
    have hsplit : entriesBy q l = (entriesBy q l).rdrop depth ++ (entriesBy q l).rtake depth :=
      (List.take_append_drop _ _).symm
    have hcomm : entriesBy q (l.filter fun en => en ∉ trimmed q depth l) =
        (entriesBy q l).filter fun en => en ∉ trimmed q depth l := List.filter_comm ..
    rw [hcomm]
    conv_lhs => rw [hsplit]
    rw [List.filter_append, hnewest]
  have hold : en ∈ (entriesBy q l).rdrop depth ∧ en ∉ trimmed q depth l := by
    rw [hkept, List.rdrop] at hen
    have hlen : (((entriesBy q l).rdrop depth).filter (fun en => en ∉ trimmed q depth l) ++
        (entriesBy q l).rtake depth).length - depth ≤
          (((entriesBy q l).rdrop depth).filter fun en => en ∉ trimmed q depth l).length := by
      rw [List.length_append]
      have : ((entriesBy q l).rtake depth).length ≤ depth := by
        rw [List.rtake, List.length_drop]
        omega
      omega
    rw [List.take_append_of_le_length hlen] at hen
    simpa using List.mem_filter.mp (List.mem_of_mem_take hen)
  by_contra hfree
  refine hold.2 ?_
  rw [hall]
  exact List.mem_filter.mpr ⟨hold.1, by simpa using hfree⟩

/-! ## The call -/

/-- The checks of `agnocast_ioctl_publish_msg`: the topic and the publisher are there, its process
is registered, and the address lies in the pool of that process. -/
structure PublishChecks (σ : Kmod) (current : Pid) (topicName : Name) (ipcNs : IpcNs)
    (publisherId : Int) (addr : Nat) (w : TopicWrapper) (p : PublisherInfo) : Prop where
  topic : findTopicForCurrent σ current topicName ipcNs = some w
  publisher : findPublisherInfo (σ.topicStructs w.topic) publisherId = some p
  inPool : ∃ procInfo, findProcessInfo σ p.pid = some procInfo ∧
    (σ.mem.mempoolEntries procInfo.mempoolEntry).addr ≤ addr ∧
    addr < (σ.mem.mempoolEntries procInfo.mempoolEntry).addr + σ.mem.mempoolSizeBytes

section

variable {current : Pid} {topicName : Name} {ipcNs : IpcNs} {publisherId : Int}
  {addr : Nat} {w : TopicWrapper} {p : PublisherInfo}

theorem PublishChecks.publishMsg_eq
    (hc : PublishChecks σ current topicName ipcNs publisherId addr w p) (env : Env) :
    publishMsg σ env current topicName ipcNs publisherId addr =
      ((publishMsgCore env (σ.topicStructs w.topic) p addr).1,
        σ.setTopic w.topic (publishMsgCore env (σ.topicStructs w.topic) p addr).2) := by
  obtain ⟨procInfo, hproc, hlo, hhi⟩ := hc.inPool
  unfold publishMsg
  rw [hc.topic]
  simp only [hc.publisher, hproc]
  rw [if_neg (by omega)]

/-- A publication that is refused by a check changes nothing. -/
theorem publishMsg_refused
    (hno : ∀ w p, ¬ PublishChecks σ current topicName ipcNs publisherId addr w p) (env : Env) :
    publishMsg σ env current topicName ipcNs publisherId addr = (.error .EINVAL, σ) := by
  unfold publishMsg
  cases hw : findTopicForCurrent σ current topicName ipcNs with
  | none => rfl
  | some w =>
    dsimp only
    cases hp : findPublisherInfo (σ.topicStructs w.topic) publisherId with
    | none => rfl
    | some p =>
      dsimp only
      cases hproc : findProcessInfo σ p.pid with
      | none => rfl
      | some procInfo =>
        dsimp only
        refine if_pos ?_
        by_contra hin
        exact hno w p ⟨hw, hp, procInfo, hproc, by omega, by omega⟩

/-- **PUBLISH_MSG of a publisher with a depth**, once the checks pass: without memory nothing
happens; else the call succeeds and trims. -/
theorem publish_trims (h : σ.WellFormed) (hdepth : 1 ≤ p.qosDepth)
    (hc : PublishChecks σ current topicName ipcNs publisherId addr w p) (env : Env) :
    publishMsg σ env current topicName ipcNs publisherId addr =
      if env.kmalloc .entryNode then
        (.ok ⟨(σ.topicStructs w.topic).currentEntryId, (trimmed p.id p.qosDepth
            ((σ.topicStructs w.topic).entries ++
              [newEntryNode (σ.topicStructs w.topic) p addr])).map EntryNode.msgVirtualAddress,
            p.notifyCtxs⟩,
          σ.setTopic w.topic ((σ.topicStructs w.topic).published p
            (((σ.topicStructs w.topic).entries ++ [newEntryNode (σ.topicStructs w.topic) p addr]).filter
              fun en => en ∉ trimmed p.id p.qosDepth ((σ.topicStructs w.topic).entries ++
                [newEntryNode (σ.topicStructs w.topic) p addr]))))
      else (.error .ENOMEM, σ) := by
  obtain ⟨hmem, rfl⟩ := HTable.mem_of_lookup hc.publisher
  have hout : ¬ RunsOut (σ.topicStructs w.topic) p := fun hout => by
    have := hout.1
    omega
  rw [hc.publishMsg_eq]
  by_cases hmalloc : env.kmalloc .entryNode = true
  · rw [if_pos hmalloc, (publishMsgCore_trims (h.store w.topic) hmem hmalloc addr).1 hout]
  · rw [if_neg hmalloc, publishMsgCore_eq (h.store w.topic) hmem env addr rfl,
      if_pos (by simpa using hmalloc)]
    rw [Kmod.setTopic, Function.update_eq_self]

end

/-! ## A failing publication -/

/-- The addresses that the module still owes to a publisher. -/
def owedAddrs (q : Int) (t : TopicStruct) : List Nat :=
  (entriesBy q t.entries).map EntryNode.msgVirtualAddress

/-- If the call fails, the entry tree, the publisher's count and the addresses it is owed are as
they were. -/
def FailedPublishUndone (σ : Kmod) (env : Env) (current : Pid) (topicName : Name) (ipcNs : IpcNs)
    (publisherId : Int) (addr : Nat) : Prop :=
  ∀ e σ', publishMsg σ env current topicName ipcNs publisherId addr = (.error e, σ') →
    ∀ w p, findTopicForCurrent σ current topicName ipcNs = some w →
      findPublisherInfo (σ.topicStructs w.topic) publisherId = some p →
      (σ'.topicStructs w.topic).entries = (σ.topicStructs w.topic).entries ∧
      (∃ p', findPublisherInfo (σ'.topicStructs w.topic) publisherId = some p' ∧
        p'.entriesNum = p.entriesNum) ∧
      owedAddrs publisherId (σ'.topicStructs w.topic) = owedAddrs publisherId (σ.topicStructs w.topic)

/-- **A failing publication has no effect**, unless it gets past the checks and the allocation and
the publisher's loop runs out. -/
theorem failed_publish_undone_iff (h : Reachable σ) (env : Env) (current : Pid) (topicName : Name)
    (ipcNs : IpcNs) (publisherId : Int) (addr : Nat) :
    FailedPublishUndone σ env current topicName ipcNs publisherId addr ↔
      ¬ ∃ w p, PublishChecks σ current topicName ipcNs publisherId addr w p ∧
        env.kmalloc .entryNode = true ∧ RunsOut (σ.topicStructs w.topic) p := by
  constructor
  · rintro hundone ⟨w, p, hc, hmalloc, hout⟩
    obtain ⟨hmem, rfl⟩ := HTable.mem_of_lookup hc.publisher
    obtain ⟨entries, hnew, hcore⟩ :=
      (publishMsgCore_trims (h.wellFormed.store w.topic) hmem hmalloc addr).2 hout
    have heq := hc.publishMsg_eq env
    rw [hcore] at heq
    -- the new entry has been left in the tree
    obtain ⟨hsame, -⟩ := hundone _ _ heq w p hc.topic hc.publisher
    rw [Kmod.setTopic_self] at hsame
    have hsame : entries = (σ.topicStructs w.topic).entries := hsame
    rw [hsame] at hnew
    exact ((h.wellFormed.store w.topic).entry_lt _ hnew).ne rfl
  · intro hno e σ' hfail w p hw hp
    suffices hσ : σ' = σ by
      subst hσ
      exact ⟨rfl, ⟨p, hp, rfl⟩, rfl⟩
    by_cases hchecks : ∃ p, PublishChecks σ current topicName ipcNs publisherId addr w p
    · obtain ⟨p, hc⟩ := hchecks
      obtain ⟨hmem, rfl⟩ := HTable.mem_of_lookup hc.publisher
      rw [hc.publishMsg_eq] at hfail
      by_cases hmalloc : env.kmalloc .entryNode = true
      · have hout : ¬ RunsOut (σ.topicStructs w.topic) p := fun hout =>
          hno ⟨w, p, hc, hmalloc, hout⟩
        rw [(publishMsgCore_trims (h.wellFormed.store w.topic) hmem hmalloc addr).1 hout] at hfail
        cases (Prod.mk.inj hfail).1
      · rw [publishMsgCore_eq (h.wellFormed.store w.topic) hmem env addr rfl,
          if_pos (by simpa using hmalloc)] at hfail
        rw [← (Prod.mk.inj hfail).2, Kmod.setTopic, Function.update_eq_self]
    · rw [publishMsg_refused (fun w' p' hc => hchecks ⟨p', ?_⟩) env] at hfail
      · exact (Prod.mk.inj hfail).2.symm
      · obtain rfl := Option.some.inj (hw.symm.trans hc.topic)
        exact hc

/-- A publisher of depth one and its third publication: the second address is released, and a
fourth publication without memory changes nothing. -/
theorem failed_publish_without_memory :
    let σ := (runOf 2 [.addProcess 1 0 0 0, .addPublisher ['/', 't'] 0 ⟨[], 1, 1, false, false⟩,
      .publishMsg 1 ['/', 't'] 0 0 16, .publishMsg 1 ['/', 't'] 0 0 17]).2
    let env : Env := { Env.smooth with kmalloc := fun _ => false }
    (publishMsg σ env 1 ['/', 't'] 0 0 18).1.isOk = false ∧
      FailedPublishUndone σ env 1 ['/', 't'] 0 0 18 :=
  ⟨by decide, (failed_publish_undone_iff (reachable_runOf (by decide) (by decide) _) _ _ _ _ _ _).mpr
    fun ⟨_, _, _, hmalloc, _⟩ => Bool.noConfusion hmalloc⟩

/-- **A publisher of depth zero**: its first publication fails and is left in the tree; the second
one fails and drops the first, whose address nobody reports. -/
theorem failed_publish_of_no_depth :
    ¬ ∀ σ, Reachable σ → ∀ env current topicName ipcNs publisherId addr,
      FailedPublishUndone σ env current topicName ipcNs publisherId addr := by
  intro h
  have hundone := h _ (reachable_runOf (n := 2) (by decide) (by decide)
    [.addProcess 1 0 0 0, .addPublisher ['/', 't'] 0 ⟨[], 1, 0, false, false⟩,
      .publishMsg 1 ['/', 't'] 0 0 16]) .smooth 1 ['/', 't'] 0 0 17
  obtain ⟨_, _, howed⟩ := hundone .ENODATA _ rfl _ _ rfl rfl
  revert howed
  decide

end Agnocast
