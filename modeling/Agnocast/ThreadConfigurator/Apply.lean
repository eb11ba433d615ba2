import Agnocast.ThreadConfigurator.ThreadConfig

/-!
# The thread configurator — applying a configuration

`thread_configurator_node.cpp`: the comparison before a setting, the system calls, and
`apply_kernel_thread_configs` and `apply_irq_configs`.

Representation: what is issued is a list of calls (`Syscall`), the steps that put a thread into a
cgroup and a write to a file of an interrupt among them. Which of them succeed is a parameter.
-/

namespace Agnocast

/-! ## In sync -/

/-- `same_cpu_set`. -/
def sameCpuSet (desired : List Int) (current : Option (List Int)) : Bool :=
  match current with
  | none => false
  | some current => desired = current

/-- `kernel_thread_in_sync`. -/
def kernelThreadInSync (cpus : Nat) (config : KernelThreadConfig) (info : KernelThreadInfo) : Bool :=
  let attrs := config.attrs
  let policyInSync :=
    match attrs.policy with
    | none => true
    | some policy =>
      if policy = .deadline || parseSchedPolicy info.policy ≠ some policy then false
      else if policy.isCfs then attrs.nice = info.nice
      else attrs.rtPriority = info.rtPriority
  policyInSync &&
    (attrs.affinity.isEmpty || sameCpuSet attrs.affinity (parseManageableCpuList cpus info.affinity))

/-! ## System calls -/

/-- A call that changes something. -/
inductive Syscall
  | schedSetscheduler (tid kernelPolicy priority : Int)
  | setpriority (tid nice : Int)
  | schedSetattr (tid : Int) (params : DeadlineParams)
  | schedSetaffinity (tid : Int) (affinity : List Int)
  | setAffinityByCgroup (tid : Int) (affinity : List Int)
  | writeSmpAffinityList (irq : Int) (value : Name)
  deriving DecidableEq, Repr

section

variable (succeeds : Syscall → Bool)

/-- One call: what has been issued, and whether it succeeded. -/
def issue (call : Syscall) : List Syscall × Bool := ([call], succeeds call)

/-- A call, and another step if it succeeded. -/
def issueThen (call : Syscall) (next : List Syscall × Bool) : List Syscall × Bool :=
  if succeeds call then (call :: next.1, next.2) else ([call], false)

/-- `issue_affinity_syscalls`. -/
def issueAffinitySyscalls (policy : Option SchedPolicy) (affinity : List Int) (tid : Int) :
    List Syscall × Bool :=
  if affinity.isEmpty then ([], true)
  else if policy = some .deadline then issue succeeds (.setAffinityByCgroup tid affinity)
  else issue succeeds (.schedSetaffinity tid affinity)

/-- `issue_syscalls`. -/
def issueSyscalls (attrs : SchedAttrs) (tid : Int) : List Syscall × Bool :=
  match attrs.policy with
  | none => ([], false)
  | some policy =>
    let affinity := issueAffinitySyscalls succeeds (some policy) attrs.affinity tid
    if policy = .deadline then issueThen succeeds (.schedSetattr tid attrs.deadline) affinity
    else if policy.isCfs then
      issueThen succeeds (.schedSetscheduler tid policy.toKernelPolicy 0)
        (issueThen succeeds (.setpriority tid attrs.nice) affinity)
    else
      issueThen succeeds (.schedSetscheduler tid policy.toKernelPolicy attrs.rtPriority) affinity

/-- `write_irq_affinity_file`. -/
def writeIrqAffinityFile (config : IrqConfig) : List Syscall × Bool :=
  issue succeeds (.writeSmpAffinityList config.irq (formatCpuList config.affinity))

/-! ## Sections -/

/-- `SectionApplyOutcome`, with the calls that have been issued. -/
structure SectionApplyOutcome where
  applied : List Name
  failed : List Name
  skipped : List Name
  issued : List Syscall

/-- The outcome at first. -/
def SectionApplyOutcome.empty : SectionApplyOutcome := ⟨[], [], [], []⟩

/-- What has become of the entry of this key. -/
def SectionApplyOutcome.add (o : SectionApplyOutcome) (key : Name) (done : List Syscall × Bool) :
    SectionApplyOutcome :=
  if done.2 then { o with applied := o.applied ++ [key], issued := o.issued ++ done.1 }
  else { o with failed := o.failed ++ [key], issued := o.issued ++ done.1 }

/-- The body of the loop over the matches of an entry. -/
def applyToKernelThread (cpus : Nat) (config : KernelThreadConfig) (info : KernelThreadInfo) :
    List Syscall × Bool :=
  let attrs := config.attrs
  if kernelThreadInSync cpus config info then ([], true)
  else
    -- `PF_NO_SETAFFINITY`: the kernel refuses any affinity
    let affinityOnFixed := !attrs.affinity.isEmpty && info.noSetaffinity
    if affinityOnFixed &&
        !sameCpuSet attrs.affinity (parseManageableCpuList cpus info.affinity) then ([], false)
    else if attrs.policy.isSome then
      if affinityOnFixed then issueSyscalls succeeds { attrs with affinity := [] } info.tid
      else issueSyscalls succeeds attrs info.tid
    else issueAffinitySyscalls succeeds (parseSchedPolicy info.policy) attrs.affinity info.tid

/-- The body of the loop over the entries of `kernel_threads`. -/
def applyKernelThreadConfig (cpus : Nat) (scanned : List KernelThreadInfo)
    (o : SectionApplyOutcome) (config : KernelThreadConfig) : SectionApplyOutcome :=
  if !config.isManaged then o
  else
    let found := findKernelThreadsByComm scanned config.comm
    if found.isEmpty then { o with skipped := o.skipped ++ [config.comm] }
    else
      found.foldl (fun o info => o.add (config.comm ++ ":".toList ++ toStdString info.tid)
        (applyToKernelThread succeeds cpus config info)) o

/-- `apply_kernel_thread_configs`. -/
def applyKernelThreadConfigs (m : Machine) (configs : List KernelThreadConfig) :
    SectionApplyOutcome :=
  if !configs.any KernelThreadConfig.isManaged then .empty
  else configs.foldl (applyKernelThreadConfig succeeds m.cpus (scanKernelThreads m)) .empty

/-- The body of the loop over the entries of `irqs`. -/
def applyToIrq (m : Machine) (irqbalanceDetected : Bool) (config : IrqConfig) :
    List Syscall × Bool :=
  match readIrqActions m config.irq with
  | none => ([], false)
  | some actions =>
    if !config.name.isEmpty && actions ≠ config.name then ([], false)
    else if sameCpuSet config.affinity
        (parseManageableCpuList m.cpus (readSmpAffinity m config.irq)) then ([], true)
    else if irqbalanceDetected then ([], false)
    else writeIrqAffinityFile succeeds config

/-- `apply_irq_configs`. -/
def applyIrqConfigs (m : Machine) (configs : List IrqConfig) : SectionApplyOutcome :=
  if !configs.any IrqConfig.isManaged then .empty
  else
    let irqbalanceDetected := processWithCommExists m "irqbalance".toList
    configs.foldl (fun o config =>
      if !config.isManaged then o
      else o.add (toStdString config.irq) (applyToIrq succeeds m irqbalanceDetected config)) .empty

end

end Agnocast
