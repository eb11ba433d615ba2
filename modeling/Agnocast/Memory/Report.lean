import Agnocast.Store.History

/-!
# The memory pools — what a report does

`set_publisher_shm_info` goes through the publishers of a topic and records the
subscriber's process in the mapped list of every pool that it does not map yet.
It can fail at each publisher, and then what it has recorded stays recorded.

* `reportPool`               — the pool that a publisher makes the subscriber map.
* `setPublisherShmInfo_spec` — exactly the new pools are recorded, and a successful
  report names exactly these.
* `setPublisherShmInfo_error_iff` — a failed report leaves the lists alone exactly
  when the first pool it would record has no memory for the record.
-/

namespace Agnocast

variable {σ : Kmod} {t : TopicStruct} {m : MemoryAllocator} {pid : Pid}

/-! ## Mapping pools -/

/-- `pid` maps each of `pools`, which it did not map before. -/
def MemoryAllocator.mapPools (m : MemoryAllocator) (pid : Pid) (pools : List Nat) :
    MemoryAllocator :=
  { m with mempoolEntries := fun i =>
      if i ∈ pools then
        { m.mempoolEntries i with
          mappedNum := (m.mempoolEntries i).mappedNum + 1
          mappedPids := pid :: (m.mempoolEntries i).mappedPids }
      else m.mempoolEntries i }

/-- The processes that map a pool. -/
def MemoryAllocator.mapped (m : MemoryAllocator) (i : Nat) : List Pid :=
  (m.mempoolEntries i).mappedPids

@[simp] theorem MemoryAllocator.mapPools_nil : m.mapPools pid [] = m := by
  simp [mapPools]

@[simp] theorem MemoryAllocator.mapPools_addr (pools : List Nat) (i : Nat) :
    ((m.mapPools pid pools).mempoolEntries i).addr = (m.mempoolEntries i).addr := by
  unfold mapPools
  simp only
  split <;> rfl

@[simp] theorem MemoryAllocator.mapPools_sizeBytes (pools : List Nat) :
    (m.mapPools pid pools).mempoolSizeBytes = m.mempoolSizeBytes := rfl

theorem MemoryAllocator.mem_mapped_mapPools {pools : List Nat} {i : Nat} {q : Pid} :
    q ∈ (m.mapPools pid pools).mapped i ↔ q ∈ m.mapped i ∨ (i ∈ pools ∧ q = pid) := by
  unfold mapPools mapped
  simp only
  split
  · next hi => simp [hi, or_comm]
  · next hi => simp [hi]

/-- Mapping one pool and then others. -/
theorem MemoryAllocator.mapPools_cons {i : Nat} {pools : List Nat} (hi : i ∉ pools) :
    (m.mapPools pid [i]).mapPools pid pools = m.mapPools pid (i :: pools) := by
  unfold mapPools
  congr 1
  funext j
  by_cases hj : j = i
  · subst hj
    simp [hi]
  · simp [hj]

/-- Recording a process in one pool's list maps that pool. -/
theorem MemoryAllocator.setEntry_eq_mapPools (m : MemoryAllocator) (pid : Pid) (i : Nat) :
    m.setEntry i { m.mempoolEntries i with
      mappedNum := (m.mempoolEntries i).mappedNum + 1
      mappedPids := pid :: (m.mempoolEntries i).mappedPids } = m.mapPools pid [i] := by
  unfold setEntry mapPools
  congr 1
  funext j
  by_cases hj : j = i
  · subst hj
    simp
  · simp [hj]

/-- `reference_memory` maps one pool. -/
theorem referenceMemory_eq (kmalloc : Bool) (i : Nat) :
    referenceMemory kmalloc m i pid =
      if kmalloc = false then .error .ENOMEM
      else if pid ∈ m.mapped i then .error .EEXIST
      else .ok (m.mapPools pid [i]) := by
  cases kmalloc with
  | false => rfl
  | true =>
    unfold referenceMemory MemoryAllocator.mapped
    simp only [Bool.not_true, Bool.false_eq_true, ↓reduceIte, Bool.true_eq_false]
    rw [MemoryAllocator.setEntry_eq_mapPools]

/-! ## The publishers that matter -/

/-- The pool that publisher `p` makes the subscriber map: none for the subscriber's
own process, for a publisher that the domains keep apart, and for a dead one. -/
def reportPool (σ : Kmod) (t : TopicStruct) (wrapperDomain : Nat) (subscriberPid : Pid)
    (subIsBridge : Bool) (p : PublisherInfo) : Option Nat :=
  if subscriberPid = p.pid then none
  else if !domainDeliveryAllowed σ t p.domainId p.isBridge wrapperDomain subIsBridge then none
  else
    match findProcessInfo σ p.pid with
    | none => none
    | some procInfo => if procInfo.exited then none else some procInfo.mempoolEntry

theorem reportPool_eq_some {wrapperDomain : Nat} {subIsBridge : Bool} {p : PublisherInfo} {i : Nat} :
    reportPool σ t wrapperDomain pid subIsBridge p = some i ↔
      pid ≠ p.pid ∧ domainDeliveryAllowed σ t p.domainId p.isBridge wrapperDomain subIsBridge = true ∧
      ∃ procInfo, findProcessInfo σ p.pid = some procInfo ∧ procInfo.exited = false ∧
        procInfo.mempoolEntry = i := by
  unfold reportPool
  cases hproc : findProcessInfo σ p.pid with
  | none => simp
  | some procInfo => cases hexited : procInfo.exited <;> simp [hexited]

variable {wrapperDomain size : Nat} {subIsBridge : Bool} {env : Env}

/-- One round of the loop. -/
theorem setPublisherShmInfo_cons (p : PublisherInfo) (rest : List PublisherInfo)
    (infos : List PublisherShmInfo) :
    setPublisherShmInfo σ env t wrapperDomain pid subIsBridge size (p :: rest) infos m =
      match reportPool σ t wrapperDomain pid subIsBridge p with
      | none => setPublisherShmInfo σ env t wrapperDomain pid subIsBridge size rest infos m
      | some i =>
        if env.kmalloc (.mappedPidOf p.id) = false then (.error .ENOMEM, m)
        else if pid ∈ m.mapped i then
          setPublisherShmInfo σ env t wrapperDomain pid subIsBridge size rest infos m
        else if infos.length = size then (.error .ENOBUFS, m.mapPools pid [i])
        else
          match env.convertPidToLocal p.pid with
          | none => (.error .ESRCH, m.mapPools pid [i])
          | some localPid =>
            setPublisherShmInfo σ env t wrapperDomain pid subIsBridge size rest
              (infos ++ [⟨localPid, (m.mempoolEntries i).addr, m.mempoolSizeBytes⟩])
              (m.mapPools pid [i]) := by
  rw [setPublisherShmInfo]
  unfold reportPool
  split
  · rfl
  split
  · rfl
  cases hproc : findProcessInfo σ p.pid with
  | none => rfl
  | some procInfo =>
    simp only
    split
    · rfl
    simp only [referenceMemory_eq]
    -- the exits of the loop, in the order of the source
    by_cases hmem : env.kmalloc (.mappedPidOf p.id) = false
    · simp [hmem]
    by_cases hin : pid ∈ m.mapped procInfo.mempoolEntry
    · simp [hmem, hin]
    by_cases hfull : infos.length = size
    · simp [hmem, hin, hfull]
    · cases hconv : env.convertPidToLocal p.pid with
      | none => simp [hmem, hin, hfull]
      | some localPid => simp [hmem, hin, hfull]

/-! ## What it records -/

/-- What a report from `m` and `infos` on comes to: the pools it records are new,
each belongs to a publisher that matters, and a success has recorded them all and
named exactly the new ones. -/
structure Reported (σ : Kmod) (t : TopicStruct) (wrapperDomain : Nat) (pid : Pid)
    (subIsBridge : Bool) (l : List PublisherInfo) (infos : List PublisherShmInfo)
    (m : MemoryAllocator) (r : Except Errno (List PublisherShmInfo) × MemoryAllocator)
    (pools : List Nat) : Prop where
  nodup : pools.Nodup
  fresh : ∀ i ∈ pools, pid ∉ m.mapped i
  owned : ∀ i ∈ pools, ∃ p ∈ l, reportPool σ t wrapperDomain pid subIsBridge p = some i
  mem : r.2 = m.mapPools pid pools
  named : ∀ infos', r.1 = .ok infos' → infos'.map PublisherShmInfo.shmAddr =
    infos.map PublisherShmInfo.shmAddr ++ pools.map fun i => (m.mempoolEntries i).addr
  complete : ∀ infos', r.1 = .ok infos' → ∀ p ∈ l, ∀ i,
    reportPool σ t wrapperDomain pid subIsBridge p = some i → pid ∈ r.2.mapped i

/-- **The report** records pools one publisher after the other, whether it succeeds
or not. -/
theorem setPublisherShmInfo_spec (l : List PublisherInfo) (infos : List PublisherShmInfo)
    (m : MemoryAllocator) : ∃ pools, Reported σ t wrapperDomain pid subIsBridge l infos m
      (setPublisherShmInfo σ env t wrapperDomain pid subIsBridge size l infos m) pools := by
  -- the induction is on the publishers that are left, from any allocator
  induction l generalizing infos m with
  | nil =>
    refine ⟨[], List.nodup_nil, by simp, by simp, by simp [setPublisherShmInfo], ?_, by simp⟩
    intro infos' h
    simp only [setPublisherShmInfo, Except.ok.injEq] at h
    simp [h]
  | cons p rest ih =>
    rw [setPublisherShmInfo_cons]
    cases hpool : reportPool σ t wrapperDomain pid subIsBridge p with
    | none =>
      obtain ⟨pools, h⟩ := ih infos m
      refine ⟨pools, h.nodup, h.fresh, fun i hi => ?_, h.mem, h.named, fun infos' hok q hq i hi => ?_⟩
      · obtain ⟨q, hq, hqi⟩ := h.owned i hi
        exact ⟨q, List.mem_cons_of_mem _ hq, hqi⟩
      · rcases List.mem_cons.mp hq with rfl | hq
        · rw [hpool] at hi
          cases hi
        · exact h.complete infos' hok q hq i hi
    | some i =>
      have hself : ∃ q ∈ p :: rest, reportPool σ t wrapperDomain pid subIsBridge q = some i :=
        ⟨p, List.mem_cons_self, hpool⟩
      simp only
      split
      · refine ⟨[], List.nodup_nil, by simp, by simp, by simp, ?_, ?_⟩ <;> intro _ h <;> cases h
      split
      · -- the process maps the pool already
        next hin =>
        obtain ⟨pools, h⟩ := ih infos m
        refine ⟨pools, h.nodup, h.fresh, fun j hj => ?_, h.mem, h.named,
          fun infos' hok q hq j hj => ?_⟩
        · obtain ⟨q, hq, hqj⟩ := h.owned j hj
          exact ⟨q, List.mem_cons_of_mem _ hq, hqj⟩
        · rcases List.mem_cons.mp hq with rfl | hq
          · obtain rfl := Option.some.inj (hpool.symm.trans hj)
            rw [h.mem]
            exact MemoryAllocator.mem_mapped_mapPools.mpr (.inl hin)
          · exact h.complete infos' hok q hq j hj
      next hout =>
      -- from here on the pool is recorded, and may be the last one
      have hone : ∀ e, Reported σ t wrapperDomain pid subIsBridge (p :: rest) infos m
          (.error e, m.mapPools pid [i]) [i] := by
        intro e
        refine ⟨List.nodup_singleton i, ?_, ?_, rfl, ?_, ?_⟩
        · intro j hj
          rw [List.mem_singleton.mp hj]
          exact hout
        · intro j hj
          rw [List.mem_singleton.mp hj]
          exact hself
        · intro infos' h
          cases h
        · intro infos' h
          cases h
      split
      · exact ⟨[i], hone .ENOBUFS⟩
      split
      · exact ⟨[i], hone .ESRCH⟩
      next localPid _ =>
      obtain ⟨pools, h⟩ := ih (infos ++ [⟨localPid, (m.mempoolEntries i).addr, m.mempoolSizeBytes⟩])
        (m.mapPools pid [i])
      have hnot : i ∉ pools := fun hi =>
        h.fresh i hi (MemoryAllocator.mem_mapped_mapPools.mpr (.inr ⟨List.mem_singleton_self i, rfl⟩))
      refine ⟨i :: pools, List.nodup_cons.mpr ⟨hnot, h.nodup⟩, fun j hj => ?_, fun j hj => ?_,
        h.mem.trans (MemoryAllocator.mapPools_cons hnot), fun infos' hok => ?_,
        fun infos' hok q hq j hj => ?_⟩
      · rcases List.mem_cons.mp hj with rfl | hj
        · exact hout
        · exact fun hin => h.fresh j hj (MemoryAllocator.mem_mapped_mapPools.mpr (.inl hin))
      · rcases List.mem_cons.mp hj with rfl | hj
        · exact hself
        · obtain ⟨q, hq, hqj⟩ := h.owned j hj
          exact ⟨q, List.mem_cons_of_mem _ hq, hqj⟩
      · rw [h.named infos' hok]
        simp
      · rcases List.mem_cons.mp hq with rfl | hq
        · obtain rfl := Option.some.inj (hpool.symm.trans hj)
          rw [h.mem]
          exact MemoryAllocator.mem_mapped_mapPools.mpr
            (.inl (MemoryAllocator.mem_mapped_mapPools.mpr (.inr ⟨List.mem_singleton_self i, rfl⟩)))
        · exact h.complete infos' hok q hq j hj

/-- Every name of a report is that of a live process with a publisher. -/
theorem setPublisherShmInfo_live {l : List PublisherInfo} {infos infos' : List PublisherShmInfo}
    {m : MemoryAllocator}
    (hok : (setPublisherShmInfo σ env t wrapperDomain pid subIsBridge size l infos m).1 = .ok infos')
    {info : PublisherShmInfo} (hinfo : info ∈ infos') :
    info ∈ infos ∨ ∃ q ∈ l, ∃ p, findProcessInfo σ q.pid = some p ∧ p.exited = false ∧
      env.convertPidToLocal q.pid = some info.pid := by
  -- the induction is on the publishers that are left, from any allocator
  induction l generalizing infos m with
  | nil =>
    obtain rfl : infos = infos' := Except.ok.inj hok
    exact .inl hinfo
  | cons q rest ih =>
    have hlater : (info ∈ infos ∨ ∃ q ∈ rest, ∃ p, findProcessInfo σ q.pid = some p ∧
        p.exited = false ∧ env.convertPidToLocal q.pid = some info.pid) →
        info ∈ infos ∨ ∃ q' ∈ q :: rest, ∃ p, findProcessInfo σ q'.pid = some p ∧
          p.exited = false ∧ env.convertPidToLocal q'.pid = some info.pid :=
      Or.imp_right fun ⟨q', hq', hp⟩ => ⟨q', List.mem_cons_of_mem _ hq', hp⟩
    rw [setPublisherShmInfo_cons] at hok
    cases hpool : reportPool σ t wrapperDomain pid subIsBridge q with
    | none =>
      rw [hpool] at hok
      exact hlater (ih hok)
    | some i =>
      rw [hpool] at hok
      simp only at hok
      split at hok
      · cases hok
      split at hok
      · exact hlater (ih hok)
      split at hok
      · cases hok
      split at hok
      · cases hok
      next localPid hlocal =>
      rcases ih hok with hinfo | hlate
      · rcases List.mem_append.mp hinfo with hinfo | hinfo
        · exact .inl hinfo
        · obtain rfl := List.mem_singleton.mp hinfo
          obtain ⟨_, _, p, hp, hlive, _⟩ := reportPool_eq_some.mp hpool
          exact .inr ⟨q, List.mem_cons_self, p, hp, hlive, hlocal⟩
      · exact hlater (.inr hlate)

/-- **What a receive or a take tells the subscriber to map**: live processes with a publisher
on the topic. -/
theorem shmInfos_live (hwf : σ.WellFormed) {i : Input} {w : TopicWrapper} {s : SubscriberInfo}
    (htarget : fetchTarget σ i.call = some (w, s)) {info : PublisherShmInfo}
    (hinfo : info ∈ shmInfos (step σ i).1) :
    ∃ q ∈ (σ.topicStructs w.topic).pubInfoHtable, ∃ p, findProcessInfo σ q.pid = some p ∧
      p.exited = false ∧ i.env.convertPidToLocal q.pid = some info.pid := by
  obtain ⟨batch, ret, t', m, hf⟩ := fetch_cases hwf i htarget
  obtain ⟨size, hreport⟩ := hf.reported
  rw [hf.infos] at hinfo
  have hpubs : ((σ.topicStructs w.topic).handOut s.id (batch.map EntryNode.entryId)).pubInfoHtable =
      (σ.topicStructs w.topic).pubInfoHtable := by
    unfold TopicStruct.handOut
    split <;> rfl
  unfold reportPublisherShm at hreport
  split at hreport
  · obtain ⟨rfl, _⟩ := Prod.mk.inj hreport
    cases hinfo
  · split at hreport
    · obtain ⟨rfl, _⟩ := Prod.mk.inj hreport
      cases hinfo
    next infos m' hset =>
      obtain ⟨rfl, _⟩ := Prod.mk.inj hreport
      have hlive := setPublisherShmInfo_live (congrArg Prod.fst hset) hinfo
      rw [hpubs] at hlive
      exact hlive.resolve_left List.not_mem_nil

/-! ## When it fails -/

/-- The first publisher whose pool would have to be recorded has no memory for the
record: all that matter before it are mapped already. -/
def NoMemoryFirst (σ : Kmod) (env : Env) (t : TopicStruct) (wrapperDomain : Nat) (pid : Pid)
    (subIsBridge : Bool) (m : MemoryAllocator) : List PublisherInfo → Prop
  | [] => False
  | p :: rest =>
    match reportPool σ t wrapperDomain pid subIsBridge p with
    | none => NoMemoryFirst σ env t wrapperDomain pid subIsBridge m rest
    | some i =>
      env.kmalloc (.mappedPidOf p.id) = false ∨
        (pid ∈ m.mapped i ∧ NoMemoryFirst σ env t wrapperDomain pid subIsBridge m rest)

/-- **A failed report** leaves every mapped list alone exactly when it fails at the
first pool that it would record. -/
theorem setPublisherShmInfo_error_iff {l : List PublisherInfo} {infos : List PublisherShmInfo}
    {e : Errno} (hfail : (setPublisherShmInfo σ env t wrapperDomain pid subIsBridge size l infos
      m).1 = .error e) :
    (∀ i, (setPublisherShmInfo σ env t wrapperDomain pid subIsBridge size l infos m).2.mapped i =
        m.mapped i) ↔ NoMemoryFirst σ env t wrapperDomain pid subIsBridge m l := by
  induction l generalizing infos with
  | nil => cases hfail
  | cons p rest ih =>
    rw [setPublisherShmInfo_cons] at hfail ⊢
    rw [NoMemoryFirst]
    cases hpool : reportPool σ t wrapperDomain pid subIsBridge p with
    | none =>
      rw [hpool] at hfail
      exact ih hfail
    | some i =>
      rw [hpool] at hfail
      simp only at hfail ⊢
      by_cases hmem : env.kmalloc (.mappedPidOf p.id) = false
      · rw [if_pos hmem]
        exact iff_of_true (fun _ => rfl) (.inl hmem)
      rw [if_neg hmem] at hfail ⊢
      rw [or_iff_right hmem]
      by_cases hin : pid ∈ m.mapped i
      · rw [if_pos hin] at hfail ⊢
        rw [and_iff_right hin]
        exact ih hfail
      -- the pool is recorded before anything else can fail, and stays so
      rw [if_neg hin] at hfail ⊢
      refine iff_of_false (fun hall => hin ?_) fun h => hin h.1
      rw [← hall i]
      have hone : pid ∈ (m.mapPools pid [i]).mapped i :=
        MemoryAllocator.mem_mapped_mapPools.mpr (.inr ⟨List.mem_singleton_self i, rfl⟩)
      split
      · exact hone
      split
      · exact hone
      next localPid _ =>
      obtain ⟨pools, h⟩ : ∃ pools, Reported σ t wrapperDomain pid subIsBridge rest _ _
          (setPublisherShmInfo σ env t wrapperDomain pid subIsBridge size rest
            (infos ++ [⟨localPid, (m.mempoolEntries i).addr, m.mempoolSizeBytes⟩])
            (m.mapPools pid [i])) pools := setPublisherShmInfo_spec ..
      rw [h.mem]
      exact MemoryAllocator.mem_mapped_mapPools.mpr (.inl hone)

/-- Only the rule of the topic enters. -/
theorem reportPool_congr {t' : TopicStruct} (hrule : t'.rule = t.rule) :
    reportPool σ t' wrapperDomain pid subIsBridge =
      reportPool σ t wrapperDomain pid subIsBridge := by
  funext p
  unfold reportPool domainDeliveryAllowed
  rw [hrule]

theorem noMemoryFirst_congr {t' : TopicStruct} (hrule : t'.rule = t.rule)
    (l : List PublisherInfo) :
    NoMemoryFirst σ env t' wrapperDomain pid subIsBridge m l ↔
      NoMemoryFirst σ env t wrapperDomain pid subIsBridge m l := by
  induction l with
  | nil => exact Iff.rfl
  | cons p rest ih =>
    rw [NoMemoryFirst, NoMemoryFirst, reportPool_congr hrule]
    cases reportPool σ t wrapperDomain pid subIsBridge p with
    | none => exact ih
    | some i => exact or_congr_right (and_congr_right fun _ => ih)

/-- A report that fails keeps the topic, and the allocator as a whole as soon as it
keeps the mapped lists. -/
theorem reportPublisherShm_error {w : TopicWrapper} {t' : TopicStruct} {s : SubscriberInfo}
    {e : Errno} {m' : MemoryAllocator}
    (h : reportPublisherShm σ env w t s size = (.error e, t', m')) :
    t' = t ∧ ((∀ i, m'.mapped i = σ.mem.mapped i) ↔
      NoMemoryFirst σ env t w.domainId s.pid s.isBridge σ.mem t.pubInfoHtable) ∧
      ((∀ i, m'.mapped i = σ.mem.mapped i) → m' = σ.mem) := by
  unfold reportPublisherShm at h
  split at h
  · cases (Prod.mk.inj h).1
  have hiff := @setPublisherShmInfo_error_iff σ t σ.mem s.pid w.domainId size s.isBridge env
    t.pubInfoHtable []
  obtain ⟨pools, hspec⟩ := @setPublisherShmInfo_spec σ t s.pid w.domainId size s.isBridge env
    t.pubInfoHtable [] σ.mem
  generalize setPublisherShmInfo σ env t w.domainId s.pid s.isBridge size t.pubInfoHtable []
    σ.mem = r at h hiff hspec
  obtain ⟨ret, m₁⟩ := r
  cases ret with
  | ok infos => cases (Prod.mk.inj h).1
  | error e' =>
    obtain ⟨_, hrest⟩ := Prod.mk.inj h
    obtain ⟨rfl, rfl⟩ := Prod.mk.inj hrest
    have hmem : m₁ = σ.mem.mapPools s.pid pools := hspec.mem
    refine ⟨rfl, hiff rfl, fun hall => ?_⟩
    have hnone : pools = [] := by
      refine List.eq_nil_iff_forall_not_mem.mpr fun i hi => hspec.fresh i hi ?_
      rw [← hall i, hmem]
      exact MemoryAllocator.mem_mapped_mapPools.mpr (.inr ⟨hi, rfl⟩)
    rw [hmem, hnone, MemoryAllocator.mapPools_nil]

end Agnocast
