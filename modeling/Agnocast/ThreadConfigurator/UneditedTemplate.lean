import Agnocast.ThreadConfigurator.Apply

/-!
# The thread configurator — an unedited template

* `parseKernelThread_entry`, `parseIrq_entry` — the parser reads what the prerun node writes of a
  thread and of an interrupt.
* `kernelThreads_untouched_iff`, `irqs_untouched` — what is in sync is left alone.
* `unedited_template` — the template changes nothing just in case the threads of one comm agree.
-/

namespace Agnocast

open SortUnique

/-! ## Assumptions -/

/-- What the kernel reports: a directory for each thread and interrupt, nice values and real-time
priorities within their scales. -/
structure KernelReports (m : Machine) : Prop where
  tids : (m.procs.map ProcFiles.tid).Nodup
  irqs : (m.irqs.map IrqFiles.irq).Nodup
  nice : ∀ p ∈ m.procs, -20 ≤ p.nice ∧ p.nice ≤ 19
  rtPriority : ∀ p ∈ m.procs, p.policy = SchedPolicy.fifo.toKernelPolicy ∨
    p.policy = SchedPolicy.rr.toKernelPolicy → 1 ≤ p.rtPriority ∧ p.rtPriority ≤ 99

/-- Numbers that have been written are read again. -/
def ReadsNumbers (asInt : Name → Option Int) : Prop :=
  ∀ n, intMin ≤ n → n ≤ intMax → asInt (toStdString n) = some n

/-! ## What is scanned -/

section Scan

variable {m : Machine}

/-- What a scanned thread is like. -/
structure ScannedOk (info : KernelThreadInfo) : Prop where
  comm_ne : info.comm.isEmpty = false
  not_kworker : isKworkerComm info.comm = false
  nice : -20 ≤ info.nice ∧ info.nice ≤ 19
  rtPriority : ∀ policy, representablePolicy info = some policy → policy.isCfs = false →
    1 ≤ info.rtPriority ∧ info.rtPriority ≤ 99

private theorem readKernelThread_eq {p : ProcFiles} {info : KernelThreadInfo}
    (h : readKernelThread p = some info) : p.comm.isEmpty = false ∧ isKworkerComm p.comm = false ∧
      info.tid = p.tid ∧ info.comm = p.comm ∧ info.policy = policyConstToString p.policy ∧
      info.nice = p.nice ∧ info.rtPriority = p.rtPriority := by
  unfold readKernelThread at h
  split at h
  · cases h
  split at h
  · cases h
  next hne =>
  split at h
  · cases h
  next hkworker =>
  obtain ⟨affinity, _, rfl⟩ := Option.map_eq_some_iff.mp h
  exact ⟨by simpa using hne, by simpa using hkworker, rfl, rfl, rfl, rfl, rfl⟩

/-- The name that a scan gives a policy is that of the policy. -/
private theorem eq_of_policyConstToString {k : Int} {policy : SchedPolicy}
    (h : parseSchedPolicy (policyConstToString k) = some policy) : k = policy.toKernelPolicy := by
  have hname := toString_of_parseSchedPolicy h
  unfold policyConstToString at hname h
  split at hname
  · next parsed hparsed =>
    obtain ⟨e, he, rfl⟩ := Option.map_eq_some_iff.mp hparsed
    have hk : e.kernelPolicy = k := by simpa using List.find?_some he
    have hpolicy : e.policy = policy := by
      have := parseSchedPolicy_toString e.policy
      rw [hname, parseSchedPolicy_toString] at this
      exact (Option.some.inj this).symm
    have hrow := mem_kPolicies.mp (List.mem_of_find?_eq_some he)
    rw [← hk, ← hpolicy]
    exact congrArg PolicyEntry.kernelPolicy hrow
  · -- no policy has a name that begins so
    exfalso
    have hhead := congrArg List.head? hname
    have hU : ("UNKNOWN(".toList ++ toStdString k ++ ")".toList).head? = some 'U' := rfl
    rw [hU] at hhead
    cases policy <;> exact absurd hhead (by decide)

theorem mem_scanKernelThreads {info : KernelThreadInfo} :
    info ∈ scanKernelThreads m ↔ ∃ p ∈ m.procs, readKernelThread p = some info := by
  unfold scanKernelThreads
  rw [List.mem_insertionSort, List.mem_filterMap]

theorem scannedOk (hm : KernelReports m) {info : KernelThreadInfo}
    (h : info ∈ scanKernelThreads m) : ScannedOk info := by
  obtain ⟨p, hp, hread⟩ := mem_scanKernelThreads.mp h
  obtain ⟨hne, hkworker, _, hcomm, hpolicy, hnice, hrt⟩ := readKernelThread_eq hread
  refine ⟨hcomm ▸ hne, hcomm ▸ hkworker, hnice ▸ hm.nice p hp, fun policy hrep hcfs => ?_⟩
  obtain ⟨hparsed, hdeadline⟩ := Option.filter_eq_some_iff.mp hrep
  rw [hpolicy] at hparsed
  have hk := eq_of_policyConstToString hparsed
  rw [hrt]
  apply hm.rtPriority p hp
  cases policy with
  | other => cases hcfs
  | batch => cases hcfs
  | idle => cases hcfs
  | fifo => exact .inl hk
  | rr => exact .inr hk
  | deadline => simp at hdeadline

/-- A thread is scanned once. -/
theorem eq_of_tid_eq (hm : KernelReports m) {a b : KernelThreadInfo} (ha : a ∈ scanKernelThreads m)
    (hb : b ∈ scanKernelThreads m) (htid : a.tid = b.tid) : a = b := by
  obtain ⟨p, hp, hreada⟩ := mem_scanKernelThreads.mp ha
  obtain ⟨q, hq, hreadb⟩ := mem_scanKernelThreads.mp hb
  obtain ⟨_, _, htida, _⟩ := readKernelThread_eq hreada
  obtain ⟨_, _, htidb, _⟩ := readKernelThread_eq hreadb
  obtain rfl := List.inj_on_of_nodup_map hm.tids hp hq (by rw [← htida, ← htidb, htid])
  exact Option.some.inj (hreada.symm.trans hreadb)

theorem KernelThreadInfo.le_refl (a : KernelThreadInfo) : a.le a := le_rfl

instance : Std.Total KernelThreadInfo.le := ⟨fun a b => le_total (toLex (a.comm, a.tid)) (toLex (b.comm, b.tid))⟩

instance : IsTrans KernelThreadInfo KernelThreadInfo.le :=
  ⟨fun a _ c hab hbc => show toLex (a.comm, a.tid) ≤ toLex (c.comm, c.tid) from hab.trans hbc⟩

theorem KernelThreadInfo.le_iff {a b : KernelThreadInfo} :
    a.le b ↔ a.comm < b.comm ∨ a.comm = b.comm ∧ a.tid ≤ b.tid := Prod.Lex.toLex_le_toLex

/-- Threads between two of one comm have that comm. -/
private theorem comm_eq_of_le (a b c : KernelThreadInfo) (hab : a.le b) (hbc : b.le c)
    (hac : a.comm = c.comm) : a.comm = b.comm := by
  rcases KernelThreadInfo.le_iff.mp hab with hab | hab
  · rcases KernelThreadInfo.le_iff.mp hbc with hbc | hbc
    · exact absurd hac (hab.trans hbc).ne
    · exact hac.trans hbc.1.symm
  · exact hab.1

/-- **One entry per comm.** -/
theorem dedupByComm_nodup (m : Machine) :
    ((dedupByComm (scanKernelThreads m)).map KernelThreadInfo.comm).Nodup := by
  rw [List.nodup_iff_pairwise_ne, List.pairwise_map]
  exact pairwise_unique comm_eq_of_le (List.pairwise_insertionSort ..)

theorem mem_scan_of_mem_dedupByComm {info : KernelThreadInfo}
    (h : info ∈ dedupByComm (scanKernelThreads m)) : info ∈ scanKernelThreads m :=
  mem_of_mem_unique h

/-- The thread that gives its values is the one of the lowest id. -/
theorem tid_le_of_mem_dedupByComm {first info : KernelThreadInfo}
    (hfirst : first ∈ dedupByComm (scanKernelThreads m)) (hinfo : info ∈ scanKernelThreads m)
    (hcomm : info.comm = first.comm) : first.tid ≤ info.tid := by
  have hle : first.le info := le_of_mem_unique comm_eq_of_le KernelThreadInfo.le_refl
    (List.pairwise_insertionSort ..) hfirst hinfo hcomm
  rcases KernelThreadInfo.le_iff.mp hle with hlt | heq
  · exact absurd hcomm.symm hlt.ne
  · exact heq.2

end Scan

/-! ## What is parsed -/

/-- What the template says of a thread. -/
def templateConfig (cpus : Nat) (info : KernelThreadInfo) : KernelThreadConfig where
  comm := info.comm
  attrs :=
    { policy := representablePolicy info
      nice := if (representablePolicy info).any SchedPolicy.isCfs then info.nice else 0
      rtPriority :=
        if (representablePolicy info).any fun policy => !policy.isCfs then info.rtPriority else 0
      deadline := ⟨0, 0, 0⟩
      affinity := (settableCpus cpus info).getD [] }

/-- What the template says of an interrupt. -/
def templateIrq (cpus : Nat) (info : IrqInfo) : IrqConfig where
  irq := info.irq
  name := info.name
  affinity := (parseManageableCpuList cpus info.affinity).getD []

section Parse

variable {asInt : Name → Option Int} {cpus : Nat}

private theorem ok_bind {α β : Type} (a : α) (f : α → Except Name β) : Except.ok a >>= f = f a := rfl

private theorem manageableCpuBound_le : manageableCpuBound cpus ≤ 1023 := by
  unfold manageableCpuBound
  omega

private theorem parseCpus_numbers (hreads : ReadsNumbers asInt) {list : List Int}
    (h : ∀ cpu ∈ list, 0 ≤ cpu ∧ cpu ≤ manageableCpuBound cpus) (desc : Name) :
    parseCpus asInt cpus desc (list.map Yaml.number) = .ok list := by
  induction list with
  | nil => rfl
  | cons cpu list ih =>
    obtain ⟨hcpu, hrest⟩ := List.forall_mem_cons.mp h
    have hbound : manageableCpuBound cpus ≤ 1023 := manageableCpuBound_le
    have hnumber : (Yaml.number cpu).asNumber asInt = some cpu :=
      hreads cpu (by unfold intMin; omega) (by unfold intMax; omega)
    have hin : ¬(cpu < 0 ∨ cpu > manageableCpuBound cpus) := by omega
    unfold parseCpus
    rw [List.map_cons]
    dsimp only
    rw [hnumber]
    dsimp only
    rw [if_neg hin, ih hrest]
    rfl

/-- **The affinity** is read as it was written. -/
private theorem parseAffinity_entry (hreads : ReadsNumbers asInt) {entry : Yaml} {desc : Name}
    {list : Option (List Int)} (hentry : entry.find "affinity" = some (affinityEntry list).2)
    (hlist : ∀ l, list = some l →
      l.Pairwise (· < ·) ∧ ∀ cpu ∈ l, 0 ≤ cpu ∧ cpu ≤ manageableCpuBound cpus) :
    parseAffinity asInt cpus entry desc true = .ok (list.getD []) := by
  unfold parseAffinity
  rw [hentry]
  cases list with
  | none => rfl
  | some l =>
    obtain ⟨hsorted, hbounds⟩ := hlist l rfl
    show (parseCpus asInt cpus desc (l.map Yaml.number)).map sortUnique = .ok l
    rw [parseCpus_numbers hreads hbounds]
    exact congrArg Except.ok (sortUnique_eq_self hsorted)

private theorem settableCpus_spec {info : KernelThreadInfo} {list : List Int}
    (h : settableCpus cpus info = some list) :
    list.Pairwise (· < ·) ∧ ∀ cpu ∈ list, 0 ≤ cpu ∧ cpu ≤ manageableCpuBound cpus := by
  unfold settableCpus at h
  split at h
  · cases h
  · exact (parseManageableCpuList_spec h).2

private theorem parseTunable_number (hreads : ReadsNumbers asInt) {key bounds : String}
    {min max value : Int} {entry : Yaml} (hentry : entry.find key = some (.number value))
    (hmin : min ≤ value) (hmax : value ≤ max) (hint : intMin ≤ min ∧ max ≤ intMax)
    (hset : isUnset (some (.number value)) true = false) (policy : SchedPolicy) (desc : Name) :
    parseTunable asInt key min max bounds entry policy desc true = .ok value := by
  have hnumber : (Yaml.number value).asNumber asInt = some value :=
    hreads value (by omega) (by omega)
  have hin : ¬(value < min ∨ value > max) := by omega
  unfold parseTunable
  dsimp only
  rw [hentry, hset, if_neg Bool.false_ne_true, Option.bind_some, hnumber]
  exact if_neg hin

/-- A number is no `UNMANAGEABLE`. -/
private theorem isUnset_number (n : Int) (allow : Bool) : isUnset (some (.number n)) allow = false := by
  have hne : toStdString n ≠ kUnmanageable := by
    intro h
    have hmem : 'U' ∈ toStdString n := h ▸ List.mem_cons_self
    exact (sign_or_isDigit_of_mem_toStdString hmem).elim (by decide) (by decide)
  unfold isUnset Yaml.number
  simp [hne]

/-- **An entry of `kernel_threads`** is accepted, and says what it was made of. -/
theorem parseKernelThread_entry (hreads : ReadsNumbers asInt) {info : KernelThreadInfo}
    (hinfo : ScannedOk info) (i : Nat) :
    parseKernelThread asInt cpus i (kernelThreadEntry cpus info) = .ok (templateConfig cpus info) := by
  have haffinity {desc : Name} {entry : Yaml}
      (hentry : entry.find "affinity" = some (affinityEntry (settableCpus cpus info)).2) :
      parseAffinity asInt cpus entry desc true = .ok ((settableCpus cpus info).getD []) :=
    parseAffinity_entry hreads hentry fun _ => settableCpus_spec
  -- what all entries have in common
  have hcommon {fields : List (Name × Yaml)} {attrs : SchedAttrs}
      (hfind : (Yaml.map (("comm".toList, .scalar info.comm) :: fields)).find "affinity" =
        some (affinityEntry (settableCpus cpus info)).2)
      (hattrs : parseKernelThreadAttrs asInt (.map (("comm".toList, .scalar info.comm) :: fields))
        info.comm ((settableCpus cpus info).getD []) = .ok attrs) :
      parseKernelThread asInt cpus i (.map (("comm".toList, .scalar info.comm) :: fields)) =
        .ok ⟨info.comm, attrs⟩ := by
    have hcomm : (Yaml.map (("comm".toList, .scalar info.comm) :: fields)).find "comm" =
        some (.scalar info.comm) := rfl
    unfold parseKernelThread
    dsimp only
    rw [hcomm]
    show (if info.comm.isEmpty then _ else _) = _
    rw [hinfo.comm_ne, hinfo.not_kworker, if_neg Bool.false_ne_true, if_neg Bool.false_ne_true,
      haffinity hfind, ok_bind, hattrs, ok_bind]
    rfl
  unfold kernelThreadEntry policyEntries
  cases hrep : representablePolicy info with
  | none =>
    refine (hcommon rfl rfl).trans ?_
    unfold templateConfig
    rw [hrep]
    rfl
  | some policy =>
    obtain ⟨hparsed, hdeadline⟩ := Option.filter_eq_some_iff.mp hrep
    have hdeadline : policy ≠ .deadline := by simpa using hdeadline
    -- the name of a policy is not `UNMANAGEABLE`
    have hset : isUnset (some (.scalar info.policy)) true = false := by
      rw [toString_of_parseSchedPolicy hparsed]
      cases policy <;> decide
    have hthrow (desc : Name) : parsePolicyOrThrow info.policy desc = .ok policy := by
      unfold parsePolicyOrThrow
      rw [hparsed]
    -- the field that goes with the policy
    have hattrs {kt : Yaml}
        (hpolicy : kt.find "policy" = some (.scalar info.policy)) :
        parseKernelThreadAttrs asInt kt info.comm ((settableCpus cpus info).getD []) =
          if policy.isCfs then
            (parseNice asInt kt policy ("comm=".toList ++ info.comm) true).map fun nice =>
              ⟨some policy, nice, 0, ⟨0, 0, 0⟩, (settableCpus cpus info).getD []⟩
          else
            (parseRtPriority asInt kt policy ("comm=".toList ++ info.comm) true).map fun priority =>
              ⟨some policy, 0, priority, ⟨0, 0, 0⟩, (settableCpus cpus info).getD []⟩ := by
      unfold parseKernelThreadAttrs
      rw [hpolicy]
      dsimp only
      rw [hset, if_neg Bool.false_ne_true]
      show (parsePolicyOrThrow info.policy _ >>= _) = _
      rw [hthrow, ok_bind, if_neg hdeadline]
      rfl
    dsimp only
    by_cases hcfs : policy.isCfs = true
    · rw [if_pos hcfs]
      refine hcommon rfl ((hattrs rfl).trans ?_)
      rw [if_pos hcfs, hrep]
      show _ = Except.ok (⟨some policy, if policy.isCfs then info.nice else 0,
        if !policy.isCfs then info.rtPriority else 0, ⟨0, 0, 0⟩, _⟩ : SchedAttrs)
      rw [hcfs]
      unfold parseNice
      rw [parseTunable_number hreads rfl hinfo.nice.1 hinfo.nice.2 (by decide) (isUnset_number ..)]
      rfl
    · have hrt := hinfo.rtPriority policy hrep (by simpa using hcfs)
      rw [if_neg hcfs]
      refine hcommon rfl ((hattrs rfl).trans ?_)
      rw [if_neg hcfs, hrep]
      show _ = Except.ok (⟨some policy, if policy.isCfs then info.nice else 0,
        if !policy.isCfs then info.rtPriority else 0, ⟨0, 0, 0⟩, _⟩ : SchedAttrs)
      rw [Bool.eq_false_iff.mpr hcfs]
      unfold parseRtPriority
      rw [parseTunable_number hreads rfl hrt.1 hrt.2 (by decide) (isUnset_number ..)]
      rfl

/-- **An entry of `irqs`** is accepted, and says what it was made of. -/
theorem parseIrq_entry (hreads : ReadsNumbers asInt) {info : IrqInfo} (hmin : 0 ≤ info.irq)
    (hmax : info.irq ≤ intMax) (i : Nat) :
    parseIrq asInt cpus i (irqEntry cpus info) = .ok (templateIrq cpus info) := by
  have hfind : (irqEntry cpus info).find "irq" = some (.number info.irq) := rfl
  have hset : isUnset (some (.number info.irq)) false = false := isUnset_number ..
  have hirq : asBase10 intMax (some (.number info.irq)) = some info.irq := by
    obtain ⟨n, hn⟩ := Int.eq_ofNat_of_zero_le hmin
    unfold asBase10 Yaml.number
    dsimp only
    rw [hn, digitsValue_toStdString]
    exact (Option.filter_eq_some_iff.mpr ⟨rfl, by simpa [hn] using hmax⟩)
  unfold parseIrq
  dsimp only
  rw [hfind, hset, hirq]
  show (Except.ok info.name >>= _) = _
  rw [ok_bind, parseAffinity_entry hreads rfl fun _ h => (parseManageableCpuList_spec h).2]
  rfl

/-! ## Sections -/

private theorem parseEntries_map {α β : Type} {parse : Nat → Yaml → Except Name α} {entry : β → Yaml}
    {config : β → α} {list : List β}
    (h : ∀ info ∈ list, ∀ i, parse i (entry info) = .ok (config info)) (i : Nat) :
    parseEntries parse i (list.map entry) = .ok (list.map config) := by
  induction list generalizing i with
  | nil => rfl
  | cons info list ih =>
    obtain ⟨hinfo, hrest⟩ := List.forall_mem_cons.mp h
    rw [List.map_cons]
    unfold parseEntries
    rw [hinfo, ok_bind, ih hrest]
    rfl

private theorem firstDuplicate_eq_none {κ : Type} [DecidableEq κ] {seen keys : List κ}
    (hnodup : keys.Nodup) (hnew : ∀ key ∈ keys, key ∉ seen) : firstDuplicate seen keys = none := by
  induction keys generalizing seen with
  | nil => rfl
  | cons key keys ih =>
    obtain ⟨hkey, hkeys⟩ := List.nodup_cons.mp hnodup
    unfold firstDuplicate
    rw [if_neg (hnew key List.mem_cons_self)]
    refine ih hkeys fun key' hmem => ?_
    rw [List.mem_cons, not_or]
    exact ⟨fun heq => hkey (heq ▸ hmem), hnew key' (List.mem_cons_of_mem _ hmem)⟩

variable {m : Machine} {node : PrerunNode}

/-- **The section `kernel_threads`** is accepted. -/
theorem parseKernelThreads_template (hreads : ReadsNumbers asInt) (hm : KernelReports m) :
    parseKernelThreads asInt m.cpus (dumpYamlConfig node m) =
      .ok ((dedupByComm (scanKernelThreads m)).map (templateConfig m.cpus)) := by
  have hsection : sectionEntries (dumpYamlConfig node m) "kernel_threads" =
      .ok ((dedupByComm (scanKernelThreads m)).map (kernelThreadEntry m.cpus)) := rfl
  have hentries : parseEntries (parseKernelThread asInt m.cpus) 0
      ((dedupByComm (scanKernelThreads m)).map (kernelThreadEntry m.cpus)) =
      .ok ((dedupByComm (scanKernelThreads m)).map (templateConfig m.cpus)) :=
    parseEntries_map (fun info hinfo i =>
      parseKernelThread_entry hreads (scannedOk hm (mem_scan_of_mem_dedupByComm hinfo)) i) 0
  have hnodup : firstDuplicate []
      ((dedupByComm (scanKernelThreads m)).map KernelThreadInfo.comm) = none :=
    firstDuplicate_eq_none (dedupByComm_nodup m) fun _ _ => List.not_mem_nil
  unfold parseKernelThreads
  rw [hsection, ok_bind, hentries, ok_bind, List.map_map]
  have hcomms : KernelThreadConfig.comm ∘ templateConfig m.cpus = KernelThreadInfo.comm := rfl
  rw [hcomms, hnodup]

theorem mem_scanIrqs {info : IrqInfo} :
    info ∈ scanIrqs m ↔ ∃ f ∈ m.irqs, readIrq f = some info := by
  unfold scanIrqs
  rw [List.mem_insertionSort, List.mem_filterMap]

private theorem readIrq_eq {f : IrqFiles} {info : IrqInfo} (h : readIrq f = some info) :
    info.irq = f.irq ∧ info.irq ≤ intMax ∧ f.actions = some info.name ∧
      info.name.isEmpty = false ∧ info.affinity = f.smpAffinityList.getD [] := by
  unfold readIrq at h
  split at h
  · cases h
  next hmax =>
  split at h
  · cases h
  next actions hactions =>
  split at h
  · cases h
  next hne =>
  cases h
  exact ⟨rfl, by simpa using hmax, hactions, by simpa using hne, rfl⟩

/-- An interrupt is scanned once. -/
private theorem scanIrqs_nodup (hm : KernelReports m) : ((scanIrqs m).map IrqInfo.irq).Nodup := by
  have hperm : ((scanIrqs m).map IrqInfo.irq).Perm ((m.irqs.filterMap readIrq).map IrqInfo.irq) :=
    (List.perm_insertionSort ..).map _
  rw [hperm.nodup_iff]
  -- what is scanned of the interrupts is a part of their numbers
  have hsub : ((m.irqs.filterMap readIrq).map IrqInfo.irq).Sublist
      (m.irqs.map fun f => (f.irq : Int)) := by
    induction m.irqs with
    | nil => exact .slnil
    | cons f irqs ih =>
      rw [List.filterMap_cons, List.map_cons]
      split
      · exact ih.cons _
      · next info hinfo =>
        rw [List.map_cons, (readIrq_eq hinfo).1]
        exact ih.cons_cons _
  refine hsub.nodup ?_
  have hnodup := hm.irqs.map (f := ((↑) : Nat → Int)) fun _ _ => Int.ofNat.inj
  rwa [List.map_map] at hnodup

/-- **The section `irqs`** is accepted. -/
theorem parseIrqs_template (hreads : ReadsNumbers asInt) (hm : KernelReports m) :
    parseIrqs asInt m.cpus (dumpYamlConfig node m) =
      .ok ((scanIrqs m).map (templateIrq m.cpus)) := by
  have hsection : sectionEntries (dumpYamlConfig node m) "irqs" =
      .ok ((scanIrqs m).map (irqEntry m.cpus)) := rfl
  have hentries : parseEntries (parseIrq asInt m.cpus) 0 ((scanIrqs m).map (irqEntry m.cpus)) =
      .ok ((scanIrqs m).map (templateIrq m.cpus)) := by
    refine parseEntries_map (fun info hinfo i => ?_) 0
    obtain ⟨f, _, hf⟩ := mem_scanIrqs.mp hinfo
    obtain ⟨hirq, hmax, _⟩ := readIrq_eq hf
    exact parseIrq_entry hreads (by omega) hmax i
  have hnodup : firstDuplicate [] ((scanIrqs m).map IrqInfo.irq) = none :=
    firstDuplicate_eq_none (scanIrqs_nodup hm) fun _ _ => List.not_mem_nil
  unfold parseIrqs
  rw [hsection, ok_bind, hentries, ok_bind, List.map_map]
  have hirqs : IrqConfig.irq ∘ templateIrq m.cpus = IrqInfo.irq := rfl
  rw [hirqs, hnodup]

end Parse

/-! ## What is applied -/

/-- No call has been issued, and no entry is reported as failed. -/
structure SectionApplyOutcome.Untouched (o : SectionApplyOutcome) : Prop where
  issued : o.issued = []
  failed : o.failed = []

section Apply

variable {succeeds : Syscall → Bool} {cpus : Nat} {m : Machine}

private theorem untouched_empty : SectionApplyOutcome.empty.Untouched := ⟨rfl, rfl⟩

private theorem untouched_add_iff {o : SectionApplyOutcome} {key : Name} {done : List Syscall × Bool} :
    (o.add key done).Untouched ↔ o.Untouched ∧ done = ([], true) := by
  obtain ⟨calls, ok⟩ := done
  cases ok with
  | true =>
    constructor
    · rintro ⟨hissued, hfailed⟩
      obtain ⟨hbefore, rfl⟩ : o.issued = [] ∧ calls = [] := List.append_eq_nil_iff.mp hissued
      exact ⟨⟨hbefore, hfailed⟩, rfl⟩
    · rintro ⟨⟨hissued, hfailed⟩, hdone⟩
      cases hdone
      exact ⟨by simp [SectionApplyOutcome.add, hissued], hfailed⟩
  | false =>
    constructor
    · rintro ⟨_, hfailed⟩
      exact absurd hfailed (by simp [SectionApplyOutcome.add])
    · rintro ⟨_, hdone⟩
      cases hdone

/-- A loop leaves an outcome untouched if every step does. -/
private theorem untouched_foldl_iff {α : Type} {step : SectionApplyOutcome → α → SectionApplyOutcome}
    {quiet : α → Prop} (hstep : ∀ o a, (step o a).Untouched ↔ o.Untouched ∧ quiet a)
    {list : List α} {o : SectionApplyOutcome} :
    (list.foldl step o).Untouched ↔ o.Untouched ∧ ∀ a ∈ list, quiet a := by
  induction list generalizing o with
  | nil => simp
  | cons a list ih => rw [List.foldl_cons, ih, hstep, List.forall_mem_cons, and_assoc]

private theorem untouched_foldl_add_iff {α : Type} {key : α → Name}
    {done : α → List Syscall × Bool} {list : List α} {o : SectionApplyOutcome} :
    (list.foldl (fun o a => o.add (key a) (done a)) o).Untouched ↔
      o.Untouched ∧ ∀ a ∈ list, done a = ([], true) := by
  have hstep (o : SectionApplyOutcome) (a : α) :
      (o.add (key a) (done a)).Untouched ↔ o.Untouched ∧ done a = ([], true) := untouched_add_iff
  exact untouched_foldl_iff hstep

private theorem issueThen_ne {call : Syscall} {next : List Syscall × Bool} :
    issueThen succeeds call next ≠ ([], true) := by
  unfold issueThen
  split <;> simp

private theorem issueSyscalls_ne {attrs : SchedAttrs} {tid : Int} :
    issueSyscalls succeeds attrs tid ≠ ([], true) := by
  unfold issueSyscalls
  split
  · simp
  dsimp only
  split
  · exact issueThen_ne
  split
  · exact issueThen_ne
  · exact issueThen_ne

private theorem issueAffinitySyscalls_ne {policy : Option SchedPolicy} {affinity : List Int}
    {tid : Int} (h : affinity.isEmpty = false) :
    issueAffinitySyscalls succeeds policy affinity tid ≠ ([], true) := by
  unfold issueAffinitySyscalls issue
  rw [h, if_neg Bool.false_ne_true]
  split <;> simp

/-- What an entry has nothing to do with is in sync. -/
private theorem inSync_of_unset {config : KernelThreadConfig} (hpolicy : config.attrs.policy = none)
    (haffinity : config.attrs.affinity.isEmpty = true) (info : KernelThreadInfo) :
    kernelThreadInSync cpus config info = true := by
  unfold kernelThreadInSync
  dsimp only
  rw [hpolicy, haffinity]
  rfl

/-- **A thread is left alone** just in case it is in sync. -/
private theorem applyToKernelThread_eq_iff {config : KernelThreadConfig} {info : KernelThreadInfo} :
    applyToKernelThread succeeds cpus config info = ([], true) ↔
      kernelThreadInSync cpus config info = true := by
  unfold applyToKernelThread
  dsimp only
  split
  · next hsync => simp [hsync]
  next hsync =>
  refine iff_of_false ?_ hsync
  split
  · simp
  split
  · split <;> exact issueSyscalls_ne
  next hpolicy =>
  -- without a policy it is the affinity that is out of sync
  have hnone : config.attrs.policy = none := by simpa using hpolicy
  exact issueAffinitySyscalls_ne (Bool.eq_false_iff.mpr fun hempty =>
    hsync (inSync_of_unset hnone hempty info))

private theorem inSync_of_not_managed {config : KernelThreadConfig}
    (h : config.isManaged = false) (info : KernelThreadInfo) :
    kernelThreadInSync cpus config info = true := by
  obtain ⟨hpolicy, haffinity⟩ : config.attrs.policy = none ∧ config.attrs.affinity.isEmpty = true := by
    simpa [KernelThreadConfig.isManaged] using h
  exact inSync_of_unset hpolicy haffinity info

/-- Every thread that an entry stands for is in sync. -/
def InSync (cpus : Nat) (scanned : List KernelThreadInfo) (config : KernelThreadConfig) : Prop :=
  ∀ info ∈ findKernelThreadsByComm scanned config.comm, kernelThreadInSync cpus config info = true

private theorem applyKernelThreadConfig_untouched_iff {scanned : List KernelThreadInfo}
    (o : SectionApplyOutcome) (config : KernelThreadConfig) :
    (applyKernelThreadConfig succeeds cpus scanned o config).Untouched ↔
      o.Untouched ∧ InSync cpus scanned config := by
  unfold applyKernelThreadConfig
  split
  · next hmanaged =>
    have hsync : InSync cpus scanned config :=
      fun info _ => inSync_of_not_managed (by simpa using hmanaged) info
    exact (and_iff_left hsync).symm
  dsimp only
  split
  · next hempty =>
    have hsync : InSync cpus scanned config := by
      unfold InSync
      rw [List.isEmpty_iff.mp hempty]
      exact fun info hinfo => nomatch hinfo
    rw [and_iff_left hsync]
    exact ⟨fun h => ⟨h.issued, h.failed⟩, fun h => ⟨h.issued, h.failed⟩⟩
  · unfold InSync
    rw [untouched_foldl_add_iff]
    exact and_congr_right fun _ => forall₂_congr fun info _ => applyToKernelThread_eq_iff

/-- **Kernel threads are left alone** just in case all of them are in sync. -/
theorem kernelThreads_untouched_iff {configs : List KernelThreadConfig} :
    (applyKernelThreadConfigs succeeds m configs).Untouched ↔
      ∀ config ∈ configs, InSync m.cpus (scanKernelThreads m) config := by
  unfold applyKernelThreadConfigs
  split
  · next hnone =>
    refine iff_of_true untouched_empty fun config hconfig info _ => inSync_of_not_managed ?_ info
    have hall : ∀ config ∈ configs, config.isManaged = false := by simpa using hnone
    exact hall config hconfig
  · rw [untouched_foldl_iff applyKernelThreadConfig_untouched_iff]
    exact and_iff_right untouched_empty

/-- The files of an interrupt that has been scanned. -/
private theorem irqFiles_eq (hm : KernelReports m) {f : IrqFiles} (hf : f ∈ m.irqs) {info : IrqInfo}
    (hinfo : readIrq f = some info) : m.irqFiles info.irq = some f := by
  unfold Machine.irqFiles
  cases hfind : m.irqs.find? fun f => (f.irq : Int) = info.irq with
  | none =>
    have hnone := List.find?_eq_none.mp hfind f hf
    exact absurd (by simpa using (readIrq_eq hinfo).1.symm) hnone
  | some f' =>
    have hirq : (f'.irq : Int) = info.irq := by simpa using List.find?_some hfind
    have hsame : f'.irq = f.irq := Int.ofNat.inj (hirq.trans (readIrq_eq hinfo).1)
    rw [List.inj_on_of_nodup_map hm.irqs (List.mem_of_find?_eq_some hfind) hf hsame]

/-- **An interrupt is in sync** with what the template says of it. -/
private theorem irq_inSync (hm : KernelReports m) {info : IrqInfo} (hinfo : info ∈ scanIrqs m)
    (hmanaged : (templateIrq m.cpus info).isManaged = true) :
    readIrqActions m info.irq = some info.name ∧ sameCpuSet (templateIrq m.cpus info).affinity
      (parseManageableCpuList m.cpus (readSmpAffinity m info.irq)) = true := by
  obtain ⟨f, hf, hread⟩ := mem_scanIrqs.mp hinfo
  obtain ⟨_, _, hactions, hne, haffinity⟩ := readIrq_eq hread
  have hfiles := irqFiles_eq hm hf hread
  constructor
  · unfold readIrqActions
    rw [hfiles, Option.bind_some, hactions]
    dsimp only
    rw [hne]
    rfl
  · have hline : readSmpAffinity m info.irq = info.affinity := by
      unfold readSmpAffinity
      rw [hfiles, Option.bind_some, haffinity]
    rw [hline]
    unfold templateIrq at hmanaged ⊢
    cases hlist : parseManageableCpuList m.cpus info.affinity with
    | none =>
      rw [hlist] at hmanaged
      cases hmanaged
    | some list => exact decide_eq_true rfl

/-- **Interrupts are left alone.** -/
theorem irqs_untouched (hm : KernelReports m) :
    (applyIrqConfigs succeeds m ((scanIrqs m).map (templateIrq m.cpus))).Untouched := by
  unfold applyIrqConfigs
  split
  · exact untouched_empty
  have hstep (o : SectionApplyOutcome) (config : IrqConfig) :
      (if !config.isManaged then o
        else o.add (toStdString config.irq)
          (applyToIrq succeeds m (processWithCommExists m "irqbalance".toList) config)).Untouched ↔
      o.Untouched ∧ (config.isManaged = true →
        applyToIrq succeeds m (processWithCommExists m "irqbalance".toList) config = ([], true)) := by
    cases config.isManaged with
    | false => simp
    | true =>
      rw [Bool.not_true, if_neg Bool.false_ne_true, untouched_add_iff]
      exact and_congr_right fun _ => by simp
  dsimp only
  refine (untouched_foldl_iff hstep).mpr ⟨untouched_empty, fun config hconfig hmanaged => ?_⟩
  obtain ⟨info, hinfo, rfl⟩ := List.mem_map.mp hconfig
  obtain ⟨hactions, hsync⟩ := irq_inSync hm hinfo hmanaged
  have hname : ¬(!(templateIrq m.cpus info).name.isEmpty &&
      decide (info.name ≠ (templateIrq m.cpus info).name)) = true := by simp [templateIrq]
  unfold applyToIrq
  rw [show (templateIrq m.cpus info).irq = info.irq from rfl, hactions]
  dsimp only
  rw [if_neg hname, if_pos hsync]

end Apply

/-! ## The template -/

/-- What the template says of the one thread is so of the other. -/
structure Agrees (cpus : Nat) (first info : KernelThreadInfo) : Prop where
  policy : ∀ policy, representablePolicy first = some policy →
    parseSchedPolicy info.policy = some policy ∧
      if policy.isCfs then info.nice = first.nice else info.rtPriority = first.rtPriority
  affinity : ∀ list, settableCpus cpus first = some list →
    parseManageableCpuList cpus info.affinity = some list

/-- Threads of one comm agree with the one of the lowest id. -/
def CommsAgree (m : Machine) : Prop :=
  ∀ first ∈ scanKernelThreads m,
    (∀ info ∈ scanKernelThreads m, info.comm = first.comm → first.tid ≤ info.tid) →
    ∀ info ∈ scanKernelThreads m, info.comm = first.comm → Agrees m.cpus first info

/-- An unedited template changes nothing: it is accepted, everything is in sync with it, no call is
issued and no entry is reported as failed. -/
structure NothingChanges (asInt : Name → Option Int) (succeeds : Syscall → Bool) (node : PrerunNode)
    (m : Machine) : Prop where
  kernelThreads : ∃ configs, parseKernelThreads asInt m.cpus (dumpYamlConfig node m) = .ok configs ∧
    (∀ config ∈ configs, InSync m.cpus (scanKernelThreads m) config) ∧
    (applyKernelThreadConfigs succeeds m configs).Untouched
  irqs : ∃ configs, parseIrqs asInt m.cpus (dumpYamlConfig node m) = .ok configs ∧
    (∀ config ∈ configs, config.isManaged = true → sameCpuSet config.affinity
      (parseManageableCpuList m.cpus (readSmpAffinity m config.irq)) = true) ∧
    (applyIrqConfigs succeeds m configs).Untouched

private theorem policyInSync_iff {cpus : Nat} {first info : KernelThreadInfo} :
    kernelThreadInSync cpus
        ⟨first.comm, { (templateConfig cpus first).attrs with affinity := [] }⟩ info = true ↔
      ∀ policy, representablePolicy first = some policy → parseSchedPolicy info.policy = some policy ∧
        if policy.isCfs then info.nice = first.nice else info.rtPriority = first.rtPriority := by
  unfold kernelThreadInSync templateConfig
  dsimp only
  cases hrep : representablePolicy first with
  | none => simp
  | some policy =>
    obtain ⟨_, hdeadline⟩ := Option.filter_eq_some_iff.mp hrep
    have hdeadline : policy ≠ .deadline := by simpa using hdeadline
    by_cases hparsed : parseSchedPolicy info.policy = some policy
    · cases hcfs : policy.isCfs with
      | true => simp [hdeadline, hcfs, hparsed, @eq_comm _ info.nice]
      | false => simp [hdeadline, hcfs, hparsed, @eq_comm _ info.rtPriority]
    · simp [hparsed]

private theorem sameCpuSet_iff {list : List Int} {current : Option (List Int)} :
    sameCpuSet list current = true ↔ current = some list := by
  cases current with
  | none => simp [sameCpuSet]
  | some list' => simp [sameCpuSet, eq_comm]

/-- **A thread is in sync** with the template just in case it agrees with the thread it was made
of. -/
theorem inSync_template_iff {cpus : Nat} {first info : KernelThreadInfo} :
    kernelThreadInSync cpus (templateConfig cpus first) info = true ↔ Agrees cpus first info := by
  -- the policy and the affinity are compared one after the other
  have hsplit : kernelThreadInSync cpus (templateConfig cpus first) info = true ↔
      kernelThreadInSync cpus
          ⟨first.comm, { (templateConfig cpus first).attrs with affinity := [] }⟩ info = true ∧
        ((templateConfig cpus first).attrs.affinity.isEmpty = true ∨
          sameCpuSet (templateConfig cpus first).attrs.affinity
            (parseManageableCpuList cpus info.affinity) = true) := by
    unfold kernelThreadInSync
    simp
  have haffinity : ((templateConfig cpus first).attrs.affinity.isEmpty = true ∨
      sameCpuSet (templateConfig cpus first).attrs.affinity
        (parseManageableCpuList cpus info.affinity) = true) ↔
      ∀ list, settableCpus cpus first = some list →
        parseManageableCpuList cpus info.affinity = some list := by
    show (((settableCpus cpus first).getD []).isEmpty = true ∨
      sameCpuSet ((settableCpus cpus first).getD []) _ = true) ↔ _
    cases hlist : settableCpus cpus first with
    | none => simp
    | some list =>
      have hne : list ≠ [] := by
        unfold settableCpus at hlist
        split at hlist
        · cases hlist
        · exact (parseManageableCpuList_spec hlist).1
      rw [Option.getD_some, sameCpuSet_iff]
      simp [hne]
  rw [hsplit, policyInSync_iff, haffinity]
  exact ⟨fun h => ⟨h.1, h.2⟩, fun h => ⟨h.policy, h.affinity⟩⟩

/-- **An unedited template** is accepted whatever has been scanned, and leaves the interrupts alone;
it changes nothing just in case the threads that share a comm agree. -/
theorem unedited_template (asInt : Name → Option Int) (succeeds : Syscall → Bool)
    (node : PrerunNode) (m : Machine) (hreads : ReadsNumbers asInt) (hm : KernelReports m) :
    NothingChanges asInt succeeds node m ↔ CommsAgree m := by
  have hconfigs : parseKernelThreads asInt m.cpus (dumpYamlConfig node m) =
      .ok ((dedupByComm (scanKernelThreads m)).map (templateConfig m.cpus)) :=
    parseKernelThreads_template hreads hm
  have hsync : (∀ config ∈ (dedupByComm (scanKernelThreads m)).map (templateConfig m.cpus),
      InSync m.cpus (scanKernelThreads m) config) ↔ CommsAgree m := by
    rw [List.forall_mem_map]
    constructor
    · intro hall first hfirst hleast info hinfo hcomm
      -- the least thread of a comm is the one that the template was made of
      have hentry : ∃ c ∈ dedupByComm (scanKernelThreads m), c.comm = first.comm :=
        exists_mem_unique hfirst
      obtain ⟨first', hfirst', hcomm'⟩ := hentry
      have hmem := mem_scan_of_mem_dedupByComm hfirst'
      have htid : first'.tid = first.tid := le_antisymm
        (tid_le_of_mem_dedupByComm hfirst' hfirst hcomm'.symm) (hleast first' hmem hcomm')
      obtain rfl := eq_of_tid_eq hm hmem hfirst htid
      exact inSync_template_iff.mp (hall first' hfirst' info
        (List.mem_filter.mpr ⟨hinfo, decide_eq_true hcomm⟩))
    · intro hagree first hfirst info hinfo
      obtain ⟨hmem, hcomm⟩ := List.mem_filter.mp hinfo
      exact inSync_template_iff.mpr (hagree first (mem_scan_of_mem_dedupByComm hfirst)
        (fun _ => tid_le_of_mem_dedupByComm hfirst) info hmem (of_decide_eq_true hcomm))
  constructor
  · rintro ⟨⟨configs, hparse, hall, _⟩, _⟩
    obtain rfl := Except.ok.inj (hparse.symm.trans hconfigs)
    exact hsync.mp hall
  · intro hagree
    refine ⟨⟨_, hconfigs, hsync.mpr hagree, kernelThreads_untouched_iff.mpr (hsync.mpr hagree)⟩,
      ⟨_, parseIrqs_template hreads hm, fun config hconfig hmanaged => ?_, irqs_untouched hm⟩⟩
    obtain ⟨info, hinfo, rfl⟩ := List.mem_map.mp hconfig
    exact (irq_inSync hm hinfo hmanaged).2

/-! ## Two threads of one comm -/

/-- Two threads of one comm, the second one with this nice value, and an interrupt. -/
def nfsdMachine (nice : Int) : Machine where
  procs :=
    [⟨101, "nfsd".toList, kPfKthread, nice, 0, 0, some "0-3".toList⟩,
      ⟨100, "nfsd".toList, kPfKthread, 0, 0, 0, some "0-3".toList⟩]
  irqs := [⟨24, some "eth0".toList, some "0-1,3".toList⟩]
  cpus := 4

private theorem kernelReports_nfsdMachine {nice : Int} (h : -20 ≤ nice ∧ nice ≤ 19) :
    KernelReports (nfsdMachine nice) := by
  have htids : ([101, 100] : List Int).Nodup := by decide
  have hother : (0 : Int) ≠ SchedPolicy.fifo.toKernelPolicy ∧
      (0 : Int) ≠ SchedPolicy.rr.toKernelPolicy := by decide
  refine ⟨htids, List.nodup_singleton 24, fun p hp => ?_, fun p hp hpolicy => ?_⟩ <;>
    simp only [nfsdMachine, List.mem_cons, List.not_mem_nil, or_false] at hp
  · rcases hp with rfl | rfl
    · exact h
    · decide
  · rcases hp with rfl | rfl <;> exact absurd hpolicy (not_or.mpr hother)

/-- **The template changes the second thread**: its entry has the nice value of the first. -/
theorem template_changes_nfsd :
    ReadsNumbers toNumber ∧ KernelReports (nfsdMachine (-5)) ∧
      ¬NothingChanges toNumber (fun _ => true) ⟨[], [], []⟩ (nfsdMachine (-5)) ∧
      (applyKernelThreadConfigs (fun _ => true) (nfsdMachine (-5))
        ((dedupByComm (scanKernelThreads (nfsdMachine (-5)))).map (templateConfig 4))).issued =
        [.schedSetscheduler 101 0 0, .setpriority 101 0, .schedSetaffinity 101 [0, 1, 2, 3]] := by
  have hreads : ReadsNumbers toNumber := fun n => toNumber_toStdString
  have hm : KernelReports (nfsdMachine (-5)) := kernelReports_nfsdMachine (by decide)
  have hissued : (applyKernelThreadConfigs (fun _ => true) (nfsdMachine (-5))
      ((dedupByComm (scanKernelThreads (nfsdMachine (-5)))).map (templateConfig 4))).issued =
      [.schedSetscheduler 101 0 0, .setpriority 101 0, .schedSetaffinity 101 [0, 1, 2, 3]] := by
    decide +kernel
  refine ⟨hreads, hm, fun h => ?_, hissued⟩
  obtain ⟨configs, hparse, _, huntouched⟩ := h.kernelThreads
  obtain rfl := Except.ok.inj (hparse.symm.trans (parseKernelThreads_template hreads hm))
  cases huntouched.issued.symm.trans hissued

/-- Threads that agree are left alone. -/
theorem unedited_template_nfsd :
    NothingChanges toNumber (fun _ => true) ⟨[], [], []⟩ (nfsdMachine 0) := by
  refine (unedited_template toNumber (fun _ => true) ⟨[], [], []⟩ (nfsdMachine 0)
    (fun n => toNumber_toStdString) (kernelReports_nfsdMachine (by decide))).mpr ?_
  have hscan : scanKernelThreads (nfsdMachine 0) =
      [⟨100, "nfsd".toList, "SCHED_OTHER".toList, 0, 0, "0-3".toList, false⟩,
        ⟨101, "nfsd".toList, "SCHED_OTHER".toList, 0, 0, "0-3".toList, false⟩] := by
    decide +kernel
  intro first hfirst _ info hinfo _
  rw [hscan] at hfirst hinfo
  simp only [List.mem_cons, List.not_mem_nil, or_false] at hfirst hinfo
  rcases hfirst with rfl | rfl <;> rcases hinfo with rfl | rfl <;>
    exact inSync_template_iff.mp (by decide +kernel)

end Agnocast
