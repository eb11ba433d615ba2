import Agnocast.Lib.SortUnique
import Agnocast.Service.ResponseTopic
import Mathlib.Data.Char
import Mathlib.Data.List.Lex
import Mathlib.Data.Prod.Lex

/-!
# The thread configurator — scheduling policies and scans

`sched_policy.cpp` and `system_scan.cpp`: the names of the scheduling policies, the scans of the
kernel threads and of the interrupts, and CPU lists.

Representation:

* **Files.** Of `/proc/<pid>/stat` and `status`, and of the files of an interrupt, there is what they
  say: their fields have been split, and their first line has been read. A file that cannot be read
  is none.
* **Numbers** of C++ are integers; where text is read into one, the bounds of its type are checked.
-/

namespace Agnocast

open SortUnique

/-! ## Policies -/

/-- `SchedPolicy`. -/
inductive SchedPolicy
  | other | batch | idle | fifo | rr | deadline
  deriving DecidableEq, Repr

/-- `PolicyEntry`. -/
structure PolicyEntry where
  policy : SchedPolicy
  name : Name
  kernelPolicy : Int
  cfs : Bool

/-- `k_policies`. -/
def kPolicies : List PolicyEntry :=
  [⟨.other, "SCHED_OTHER".toList, 0, true⟩,
    ⟨.batch, "SCHED_BATCH".toList, 3, true⟩,
    ⟨.idle, "SCHED_IDLE".toList, 5, true⟩,
    ⟨.fifo, "SCHED_FIFO".toList, 1, false⟩,
    ⟨.rr, "SCHED_RR".toList, 2, false⟩,
    ⟨.deadline, "SCHED_DEADLINE".toList, 6, false⟩]

/-- `entry`: the row of an enumerator. -/
def SchedPolicy.entry : SchedPolicy → PolicyEntry
  | .other => ⟨.other, "SCHED_OTHER".toList, 0, true⟩
  | .batch => ⟨.batch, "SCHED_BATCH".toList, 3, true⟩
  | .idle => ⟨.idle, "SCHED_IDLE".toList, 5, true⟩
  | .fifo => ⟨.fifo, "SCHED_FIFO".toList, 1, false⟩
  | .rr => ⟨.rr, "SCHED_RR".toList, 2, false⟩
  | .deadline => ⟨.deadline, "SCHED_DEADLINE".toList, 6, false⟩

/-- There is one row per enumerator. -/
theorem mem_kPolicies {e : PolicyEntry} : e ∈ kPolicies ↔ e = e.policy.entry := by
  constructor
  · intro he
    simp only [kPolicies, List.mem_cons, List.not_mem_nil, or_false] at he
    rcases he with rfl | rfl | rfl | rfl | rfl | rfl <;> rfl
  · intro he
    rw [he]
    cases e.policy <;> simp [kPolicies, SchedPolicy.entry]

/-- `to_string`. -/
def SchedPolicy.toString (policy : SchedPolicy) : Name := policy.entry.name

/-- `to_kernel_policy`. -/
def SchedPolicy.toKernelPolicy (policy : SchedPolicy) : Int := policy.entry.kernelPolicy

/-- `is_cfs`. -/
def SchedPolicy.isCfs (policy : SchedPolicy) : Bool := policy.entry.cfs

/-- `parse_sched_policy`. -/
def parseSchedPolicy (name : Name) : Option SchedPolicy :=
  (kPolicies.find? fun e => e.name = name).map PolicyEntry.policy

/-- `from_kernel_policy`. -/
def fromKernelPolicy (kernelPolicy : Int) : Option SchedPolicy :=
  (kPolicies.find? fun e => e.kernelPolicy = kernelPolicy).map PolicyEntry.policy

/-- `sched_policy_names`. -/
def schedPolicyNames : Name := List.intercalate ", ".toList (kPolicies.map PolicyEntry.name)

theorem parseSchedPolicy_toString (policy : SchedPolicy) :
    parseSchedPolicy policy.toString = some policy := by
  cases policy <;> decide

/-- A name that is parsed is the name of its policy. -/
theorem toString_of_parseSchedPolicy {name : Name} {policy : SchedPolicy}
    (h : parseSchedPolicy name = some policy) : name = policy.toString := by
  obtain ⟨e, he, rfl⟩ := Option.map_eq_some_iff.mp h
  have hname : e.name = name := by simpa using List.find?_some he
  have hrow := mem_kPolicies.mp (List.mem_of_find?_eq_some he)
  exact hname.symm.trans (congrArg PolicyEntry.name hrow)

/-! ## Text -/

/-- The bounds of `int`. -/
def intMin : Int := -2147483648
def intMax : Int := 2147483647

/-- The number that digits stand for. -/
def digitsValue (s : Name) : Option Nat :=
  if s.isEmpty || !s.all Char.isDigit then none else some (Nat.ofDigitChars 10 s 0)

/-- `to_number<int>`: all of the text is a number. -/
def toNumber (s : Name) : Option Int :=
  let value : Option Int :=
    if s.head? = some '-' then (digitsValue s.tail).map fun n : Nat => -(n : Int)
    else (digitsValue s).map Int.ofNat
  value.filter fun n => intMin ≤ n ∧ n ≤ intMax

theorem toStdString_natCast (n : Nat) : toStdString n = Nat.toDigits 10 n := by
  show n.repr.toList = _
  exact Nat.toList_repr

theorem isDigit_of_mem_toStdString {n : Nat} {c : Char} (h : c ∈ toStdString n) :
    c.isDigit = true := by
  rw [toStdString_natCast] at h
  exact Nat.isDigit_of_mem_toDigits (by decide) (by decide) h

private theorem toStdString_negSucc (m : Nat) :
    toStdString (Int.negSucc m) = '-' :: toStdString ((m + 1 : Nat) : Int) := by
  show ("-" ++ (m + 1).repr).toList = _
  rw [String.toList_append]
  rfl

/-- A number is written with digits, behind a sign if it is negative. -/
theorem sign_or_isDigit_of_mem_toStdString {n : Int} {c : Char} (h : c ∈ toStdString n) :
    c = '-' ∨ c.isDigit = true := by
  cases n with
  | ofNat m => exact .inr (isDigit_of_mem_toStdString h)
  | negSucc m =>
    rw [toStdString_negSucc] at h
    exact (List.mem_cons.mp h).imp_right isDigit_of_mem_toStdString

theorem digitsValue_toStdString (n : Nat) : digitsValue (toStdString n) = some n := by
  have hall : (toStdString n).all Char.isDigit = true :=
    List.all_eq_true.mpr fun c hc => isDigit_of_mem_toStdString hc
  have hne : (toStdString n).isEmpty = false := by
    rw [toStdString_natCast]
    simp
  unfold digitsValue
  rw [hne, hall, toStdString_natCast, Nat.ofDigitChars_ten_toDigits]
  rfl

/-- **What `std::to_string` writes is read again.** -/
theorem toNumber_toStdString {n : Int} (hmin : intMin ≤ n) (hmax : n ≤ intMax) :
    toNumber (toStdString n) = some n := by
  unfold toNumber
  rw [Option.filter_eq_some_iff]
  refine ⟨?_, by simpa using ⟨hmin, hmax⟩⟩
  cases n with
  | ofNat m =>
    have hhead : (toStdString (m : Int)).head? ≠ some '-' := fun hhead =>
      absurd (isDigit_of_mem_toStdString (List.mem_of_mem_head? hhead)) (by decide)
    have hvalue : (digitsValue (toStdString (m : Int))).map Int.ofNat = some (m : Int) := by
      rw [digitsValue_toStdString]
      rfl
    exact (if_neg hhead).trans hvalue
  | negSucc m =>
    rw [toStdString_negSucc, if_pos List.head?_cons, List.tail_cons, digitsValue_toStdString]
    rfl

/-! ## CPU lists -/

/-- `k_max_cpu_number`. -/
def kMaxCpuNumber : Int := 8191

/-- The numbers of one token of a CPU list: a number, or a range. -/
def parseCpuToken (token : Name) : Option (List Int) :=
  if '-' ∈ token then
    match toNumber (token.takeWhile (· ≠ '-')), toNumber (token.dropWhile (· ≠ '-')).tail with
    | some first, some last =>
      if first < 0 ∨ last < first ∨ last > kMaxCpuNumber then none
      else some ((List.range (last - first + 1).toNat).map fun (k : Nat) => first + k)
    | _, _ => none
  else
    match toNumber token with
    | some cpu => if cpu < 0 ∨ cpu > kMaxCpuNumber then none else some [cpu]
    | none => none

/-- The loop of `parse_cpu_list` over the tokens. -/
def parseCpuTokens : List Name → Option (List Int)
  | [] => some []
  | token :: rest =>
    match parseCpuToken token, parseCpuTokens rest with
    | some cpus, some more => some (cpus ++ more)
    | _, _ => none

/-- The trailing characters that raw kernel files may carry are dropped. -/
def stripLineEnd (s : Name) : Name :=
  (s.reverse.dropWhile fun c => c = '\n' || c = '\r' || c = ' ').reverse

/-- `parse_cpu_list`. -/
def parseCpuList (s : Name) : Option (List Int) :=
  let rest := stripLineEnd s
  if rest.isEmpty then none
  else (parseCpuTokens (rest.splitOn ',')).map sortUnique

/-- `manageable_cpu_bound`, on a machine that is configured with so many CPUs. -/
def manageableCpuBound (cpus : Nat) : Int := min 1024 (cpus : Int) - 1

/-- `parse_manageable_cpu_list`. -/
def parseManageableCpuList (cpus : Nat) (s : Name) : Option (List Int) :=
  match parseCpuList s with
  | none => none
  | some list =>
    let list := list.filter fun cpu => cpu ≤ manageableCpuBound cpus
    if list.isEmpty then none else some list

/-- `format_cpu_list`. -/
def formatCpuList (cpus : List Int) : Name := List.intercalate ",".toList (cpus.map toStdString)

private theorem parseCpuToken_nonneg {token : Name} {list : List Int}
    (h : parseCpuToken token = some list) : ∀ cpu ∈ list, 0 ≤ cpu := by
  unfold parseCpuToken at h
  split at h
  · split at h
    · next first last _ _ =>
      split at h
      · cases h
      · next hrange =>
        cases h
        intro cpu hcpu
        obtain ⟨k, _, rfl⟩ := List.mem_map.mp hcpu
        omega
    · cases h
  · split at h
    · next cpu _ =>
      split at h
      · cases h
      · next hrange =>
        cases h
        intro cpu' hcpu'
        rw [List.mem_singleton.mp hcpu']
        omega
    · cases h

private theorem parseCpuTokens_nonneg {tokens : List Name} {list : List Int}
    (h : parseCpuTokens tokens = some list) : ∀ cpu ∈ list, 0 ≤ cpu := by
  induction tokens generalizing list with
  | nil =>
    cases h
    exact fun cpu hcpu => nomatch hcpu
  | cons token rest ih =>
    unfold parseCpuTokens at h
    split at h
    · next cpus more hcpus hmore =>
      cases h
      intro cpu hcpu
      rcases List.mem_append.mp hcpu with hcpu | hcpu
      · exact parseCpuToken_nonneg hcpus cpu hcpu
      · exact ih hmore cpu hcpu
    · cases h

private theorem parseCpuList_spec {s : Name} {list : List Int} (h : parseCpuList s = some list) :
    list.Pairwise (· < ·) ∧ ∀ cpu ∈ list, 0 ≤ cpu := by
  unfold parseCpuList at h
  dsimp only at h
  split at h
  · cases h
  obtain ⟨tokens, htokens, rfl⟩ := Option.map_eq_some_iff.mp h
  exact ⟨pairwise_sortUnique, fun cpu hcpu => parseCpuTokens_nonneg htokens cpu (mem_sortUnique.mp hcpu)⟩

/-- **A list that can be managed** is strictly sorted, has an element, and is within the bound. -/
theorem parseManageableCpuList_spec {cpus : Nat} {s : Name} {list : List Int}
    (h : parseManageableCpuList cpus s = some list) :
    list ≠ [] ∧ list.Pairwise (· < ·) ∧ ∀ cpu ∈ list, 0 ≤ cpu ∧ cpu ≤ manageableCpuBound cpus := by
  unfold parseManageableCpuList at h
  split at h
  · cases h
  next all hall =>
  obtain ⟨hsorted, hnonneg⟩ := parseCpuList_spec hall
  dsimp only at h
  split at h
  · cases h
  next hne =>
  cases h
  refine ⟨by simpa using hne, hsorted.filter _, fun cpu hcpu => ?_⟩
  obtain ⟨hmem, hle⟩ := List.mem_filter.mp hcpu
  exact ⟨hnonneg cpu hmem, by simpa using hle⟩

/-! ## Scans -/

/-- What the files of one process say. -/
structure ProcFiles where
  tid : Int
  comm : Name
  flags : Nat
  nice : Int
  rtPriority : Int
  policy : Int
  cpusAllowedList : Option Name

/-- What the files of one interrupt say: `/sys/kernel/irq/<irq>/actions` and
`/proc/irq/<irq>/smp_affinity_list`. -/
structure IrqFiles where
  irq : Nat
  actions : Option Name
  smpAffinityList : Option Name

/-- The machine. -/
structure Machine where
  procs : List ProcFiles
  irqs : List IrqFiles
  cpus : Nat

/-- `KernelThreadInfo`. -/
structure KernelThreadInfo where
  tid : Int
  comm : Name
  policy : Name
  nice : Int
  rtPriority : Int
  affinity : Name
  noSetaffinity : Bool
  deriving DecidableEq, Repr

/-- `IrqInfo`. -/
structure IrqInfo where
  irq : Int
  name : Name
  affinity : Name
  deriving DecidableEq, Repr

/-- `k_pf_kthread`. -/
def kPfKthread : Nat := 0x00200000

/-- `k_pf_no_setaffinity`. -/
def kPfNoSetaffinity : Nat := 0x04000000

/-- `is_kworker_comm`. -/
def isKworkerComm (comm : Name) : Bool := "kworker/".toList.isPrefixOf comm

/-- `policy_const_to_string`. -/
def policyConstToString (policy : Int) : Name :=
  match fromKernelPolicy policy with
  | some parsed => parsed.toString
  | none => "UNKNOWN(".toList ++ toStdString policy ++ ")".toList

/-- `read_kernel_thread`. -/
def readKernelThread (p : ProcFiles) : Option KernelThreadInfo :=
  if p.flags &&& kPfKthread = 0 then none
  else if p.comm.isEmpty then none
  else if isKworkerComm p.comm then none
  else
    p.cpusAllowedList.map fun affinity =>
      { tid := p.tid, comm := p.comm, policy := policyConstToString p.policy, nice := p.nice,
        rtPriority := p.rtPriority, affinity := affinity,
        noSetaffinity := p.flags &&& kPfNoSetaffinity ≠ 0 }

/-- The order of a scan. -/
def KernelThreadInfo.le (a b : KernelThreadInfo) : Prop :=
  toLex (a.comm, a.tid) ≤ toLex (b.comm, b.tid)

instance : DecidableRel KernelThreadInfo.le := fun _ _ => inferInstanceAs (Decidable (_ ≤ _))

/-- `scan_kernel_threads`. -/
def scanKernelThreads (m : Machine) : List KernelThreadInfo :=
  (m.procs.filterMap readKernelThread).insertionSort KernelThreadInfo.le

/-- The first part of the loop of `scan_irqs`: an interrupt that has a device. -/
def readIrq (f : IrqFiles) : Option IrqInfo :=
  if (f.irq : Int) > intMax then none
  else
    match f.actions with
    | none => none
    | some actions =>
      if actions.isEmpty then none
      else some { irq := f.irq, name := actions, affinity := f.smpAffinityList.getD [] }

/-- `scan_irqs`. -/
def scanIrqs (m : Machine) : List IrqInfo :=
  (m.irqs.filterMap readIrq).insertionSort fun a b => a.irq ≤ b.irq

/-- The files of an interrupt. -/
def Machine.irqFiles (m : Machine) (irq : Int) : Option IrqFiles :=
  m.irqs.find? fun f => (f.irq : Int) = irq

/-- `read_irq_actions`. -/
def readIrqActions (m : Machine) (irq : Int) : Option Name :=
  match (m.irqFiles irq).bind IrqFiles.actions with
  | none => none
  | some actions => if actions.isEmpty then none else some actions

/-- The line that `apply_irq_configs` reads. -/
def readSmpAffinity (m : Machine) (irq : Int) : Name :=
  ((m.irqFiles irq).bind IrqFiles.smpAffinityList).getD []

/-- `find_kernel_threads_by_comm`. -/
def findKernelThreadsByComm (scanned : List KernelThreadInfo) (comm : Name) :
    List KernelThreadInfo :=
  scanned.filter fun info => info.comm = comm

/-- `process_with_comm_exists`. -/
def processWithCommExists (m : Machine) (comm : Name) : Bool := m.procs.any fun p => p.comm = comm

end Agnocast
