import Agnocast.Lib.Dict
import Agnocast.ThreadConfigurator.SystemScan

/-!
# The thread configurator — the template and its parser

`dump_yaml_config` of `prerun_node.cpp`, and `parse_kernel_threads` and `parse_irqs` of
`thread_config.cpp`.

Representation:

* **Documents.** What is emitted is the tree of nodes that loading it gives: scalars come back as the
  text they were, and none of them as null.
* **Numbers.** How `as<int>` reads the text of a scalar is a parameter.
* An exception is its text.
-/

namespace Agnocast

open SortUnique

/-! ## Documents -/

/-- A node of a YAML document. -/
inductive Yaml
  | null
  | scalar (text : Name)
  | seq (items : List Yaml)
  | map (entries : List (Name × Yaml))

/-- `node[key]` of a map. -/
def Yaml.find (node : Yaml) (key : String) : Option Yaml :=
  match node with
  | .map entries => Dict.get entries key.toList
  | _ => none

/-- `IsMap`. -/
def Yaml.isMap : Yaml → Bool
  | .map _ => true
  | _ => false

/-- `as<std::string>`. -/
def Yaml.asString : Yaml → Option Name
  | .scalar text => some text
  | _ => none

/-- `k_unmanageable`. -/
def kUnmanageable : Name := "UNMANAGEABLE".toList

/-- `is_unset`. -/
def isUnset (node : Option Yaml) (allowUnmanageable : Bool) : Bool :=
  match node with
  | none => true
  | some .null => true
  | some (.scalar text) => allowUnmanageable && text = kUnmanageable
  | some _ => false

/-- `is_unmanageable_sentinel`. -/
def isUnmanageableSentinel (node : Option Yaml) : Bool :=
  match node with
  | some (.scalar text) => text = kUnmanageable
  | _ => false

/-! ## Configurations -/

/-- `DeadlineParams`. -/
structure DeadlineParams where
  runtime : Int
  period : Int
  deadline : Int
  deriving DecidableEq, Repr

/-- `SchedAttrs`. -/
structure SchedAttrs where
  policy : Option SchedPolicy
  nice : Int
  rtPriority : Int
  deadline : DeadlineParams
  affinity : List Int
  deriving DecidableEq, Repr

/-- `SchedAttrs()`. -/
def SchedAttrs.blank : SchedAttrs := ⟨none, 0, 0, ⟨0, 0, 0⟩, []⟩

/-- `KernelThreadConfig`. -/
structure KernelThreadConfig where
  comm : Name
  attrs : SchedAttrs
  deriving DecidableEq, Repr

/-- `KernelThreadConfig::is_managed`. -/
def KernelThreadConfig.isManaged (config : KernelThreadConfig) : Bool :=
  config.attrs.policy.isSome || !config.attrs.affinity.isEmpty

/-- `IrqConfig`. -/
structure IrqConfig where
  irq : Int
  name : Name
  affinity : List Int
  deriving DecidableEq, Repr

/-- `IrqConfig::is_managed`. -/
def IrqConfig.isManaged (config : IrqConfig) : Bool := !config.affinity.isEmpty

/-! ## Fields -/

section

variable (asInt : Name → Option Int) (cpus : Nat)

/-- `as<int>` of a node. -/
def Yaml.asNumber : Yaml → Option Int
  | .scalar text => asInt text
  | _ => none

/-- What `parse_nice` and `parse_rt_priority` do, for a field and its bounds. -/
def parseTunable (key : String) (min max : Int) (bounds : String) (entry : Yaml)
    (policy : SchedPolicy) (entryDesc : Name) (allowUnmanageable : Bool) : Except Name Int :=
  let node := entry.find key
  if isUnset node allowUnmanageable then
    .error ("Policy '".toList ++ policy.toString ++ "' requires '".toList ++ key.toList ++
      "' for ".toList ++ entryDesc ++
      (if isUnmanageableSentinel node then " (UNMANAGEABLE counts as unset)".toList else []))
  else
    match node.bind (Yaml.asNumber asInt) with
    | none => .error ("'".toList ++ key.toList ++ "' must be an integer for ".toList ++ entryDesc)
    | some value =>
      if value < min ∨ value > max then
        .error ("'".toList ++ key.toList ++ "' must be in ".toList ++ bounds.toList ++
          " for ".toList ++ entryDesc ++ ", got ".toList ++ toStdString value)
      else .ok value

/-- `parse_nice`. -/
def parseNice : Yaml → SchedPolicy → Name → Bool → Except Name Int :=
  parseTunable asInt "nice" (-20) 19 "[-20, 19]"

/-- `parse_rt_priority`. -/
def parseRtPriority : Yaml → SchedPolicy → Name → Bool → Except Name Int :=
  parseTunable asInt "priority" 1 99 "[1, 99]"

/-- `as_base10`, for a type with this maximum. -/
def asBase10 (max : Int) (node : Option Yaml) : Option Int :=
  match node with
  | some (.scalar text) => ((digitsValue text).map Int.ofNat).filter fun n => n ≤ max
  | _ => none

/-- `parse_deadline_field`. -/
def parseDeadlineField (entry : Yaml) (key : String) (entryDesc : Name) : Except Name Int :=
  match asBase10 18446744073709551615 (entry.find key) with
  | none =>
    .error ("'".toList ++ key.toList ++ "' must be a non-negative decimal integer for ".toList ++
      entryDesc)
  | some value => .ok value

/-- The loop of `parse_affinity`. -/
def parseCpus (entryDesc : Name) : List Yaml → Except Name (List Int)
  | [] => .ok []
  | node :: rest =>
    match node.asNumber asInt with
    | none =>
      .error ("'affinity' must contain only integers for ".toList ++ entryDesc ++ ", got '".toList ++
        node.asString.getD "<non-scalar>".toList ++ "'".toList)
    | some cpu =>
      if cpu < 0 ∨ cpu > manageableCpuBound cpus then
        .error ("'affinity' CPU ".toList ++ toStdString cpu ++ " must be in [0, ".toList ++
          toStdString (manageableCpuBound cpus) ++ "] (this machine has ".toList ++
          toStdString cpus ++ " CPUs) for ".toList ++ entryDesc)
      else (parseCpus entryDesc rest).map (cpu :: ·)

/-- `parse_affinity`. -/
def parseAffinity (entry : Yaml) (entryDesc : Name) (allowUnmanageable : Bool) :
    Except Name (List Int) :=
  let affinity := entry.find "affinity"
  if isUnset affinity allowUnmanageable then .ok []
  else
    match affinity with
    | some (.seq items) => (parseCpus asInt cpus entryDesc items).map sortUnique
    | _ =>
      .error ("'affinity' must be a list of CPU numbers (e.g. [2, 3]) for ".toList ++ entryDesc)

/-- `parse_policy_or_throw`. -/
def parsePolicyOrThrow (policy entryDesc : Name) : Except Name SchedPolicy :=
  match parseSchedPolicy policy with
  | none =>
    .error ("Unknown scheduling policy '".toList ++ policy ++ "' for ".toList ++ entryDesc ++
      ". Valid policies: ".toList ++ schedPolicyNames)
  | some parsed => .ok parsed

/-! ## Entries -/

/-- The fields that have no meaning without `policy`. -/
def policyFields : List String := ["nice", "priority", "runtime", "period", "deadline"]

/-- `attrs` of an entry of `kernel_threads`, once there are its name and its affinity. -/
def parseKernelThreadAttrs (kt : Yaml) (comm : Name) (affinity : List Int) :
    Except Name SchedAttrs :=
  let attrs := { SchedAttrs.blank with affinity := affinity }
  let desc := "comm=".toList ++ comm
  if isUnset (kt.find "policy") true then
    -- a field of a policy without the policy
    match policyFields.find? fun key => !isUnset (kt.find key) true with
    | some key =>
      .error ("'".toList ++ key.toList ++ "' requires 'policy' for ".toList ++ desc ++
        ": set both or leave both unset".toList)
    | none => .ok attrs
  else
    match (kt.find "policy").bind Yaml.asString with
    | none => .error ("'policy' must be a string for ".toList ++ desc)
    | some policyStr => do
      let policy ← parsePolicyOrThrow policyStr desc
      let attrs := { attrs with policy := some policy }
      if policy = .deadline then
        if isUnset (kt.find "runtime") true || isUnset (kt.find "period") true ||
            isUnset (kt.find "deadline") true then
          .error ("SCHED_DEADLINE requires 'runtime', 'period' and 'deadline' for ".toList ++ desc)
        else do
          let runtime ← parseDeadlineField kt "runtime" desc
          let period ← parseDeadlineField kt "period" desc
          let deadline ← parseDeadlineField kt "deadline" desc
          return { attrs with deadline := ⟨runtime, period, deadline⟩ }
      else if policy.isCfs then
        return { attrs with nice := ← parseNice asInt kt policy desc true }
      else
        return { attrs with rtPriority := ← parseRtPriority asInt kt policy desc true }

/-- One entry of `kernel_threads`. -/
def parseKernelThread (i : Nat) (kt : Yaml) : Except Name KernelThreadConfig :=
  let entryPos := "kernel_threads entry #".toList ++ toStdString i
  if !kt.isMap then .error (entryPos ++ " must be a mapping (e.g. '- comm: ...')".toList)
  else if isUnset (kt.find "comm") false then
    .error (entryPos ++ " is missing a non-empty 'comm'".toList)
  else
    match (kt.find "comm").bind Yaml.asString with
    | none => .error (entryPos ++ ": 'comm' must be a string".toList)
    | some comm =>
      if comm.isEmpty then .error (entryPos ++ " is missing a non-empty 'comm'".toList)
      else if isKworkerComm comm then
        .error ("kernel_threads entry '".toList ++ comm ++ ("' is not manageable: kworker comms are " ++
          "ephemeral and mutate at runtime, so they cannot be matched reliably").toList)
      else do
        let affinity ← parseAffinity asInt cpus kt ("comm=".toList ++ comm) true
        return ⟨comm, ← parseKernelThreadAttrs asInt kt comm affinity⟩

/-- One entry of `irqs`. -/
def parseIrq (i : Nat) (iq : Yaml) : Except Name IrqConfig :=
  let entryPos := "irqs entry #".toList ++ toStdString i
  if !iq.isMap then .error (entryPos ++ " must be a mapping (e.g. '- irq: ...')".toList)
  else if isUnset (iq.find "irq") false then
    .error (entryPos ++ " is missing a non-negative integer 'irq'".toList)
  else
    match asBase10 intMax (iq.find "irq") with
    | none =>
      .error (entryPos ++ ": 'irq' must be a non-negative decimal integer, got '".toList ++
        ((iq.find "irq").bind Yaml.asString).getD "<non-scalar>".toList ++ "'".toList)
    | some irq => do
      let desc := "irq=".toList ++ toStdString irq
      let name ←
        if isUnset (iq.find "name") false then .ok []
        else
          match (iq.find "name").bind Yaml.asString with
          | none => .error ("'name' must be a string for ".toList ++ desc)
          | some name => .ok name
      return ⟨irq, name, ← parseAffinity asInt cpus iq desc true⟩

/-! ## Sections -/

/-- A loop over the entries of a section. -/
def parseEntries {α : Type} (parse : Nat → Yaml → Except Name α) :
    Nat → List Yaml → Except Name (List α)
  | _, [] => .ok []
  | i, entry :: rest => do
    let config ← parse i entry
    return config :: (← parseEntries parse (i + 1) rest)

/-- The loop with `seen`: the first key that has been there before. -/
def firstDuplicate {κ : Type} [DecidableEq κ] : List κ → List κ → Option κ
  | _, [] => none
  | seen, key :: rest => if key ∈ seen then some key else firstDuplicate (key :: seen) rest

/-- A section of the document: its entries, or what is wrong with it. -/
def sectionEntries (yaml : List (Name × Yaml)) (key : String) : Except Name (List Yaml) :=
  match Dict.get yaml key.toList with
  | none => .ok []
  | some .null => .ok []
  | some (.seq items) => .ok items
  | some _ => .error ("'".toList ++ key.toList ++ "' must be a list".toList)

/-- `parse_kernel_threads`. -/
def parseKernelThreads (yaml : List (Name × Yaml)) : Except Name (List KernelThreadConfig) := do
  let items ← sectionEntries yaml "kernel_threads"
  let result ← parseEntries (parseKernelThread asInt cpus) 0 items
  match firstDuplicate [] (result.map KernelThreadConfig.comm) with
  | some comm => .error ("Duplicate kernel_thread entry: comm=".toList ++ comm)
  | none => .ok result

/-- `parse_irqs`. -/
def parseIrqs (yaml : List (Name × Yaml)) : Except Name (List IrqConfig) := do
  let items ← sectionEntries yaml "irqs"
  let result ← parseEntries (parseIrq asInt cpus) 0 items
  match firstDuplicate [] (result.map IrqConfig.irq) with
  | some irq => .error ("Duplicate irq entry: irq=".toList ++ toStdString irq)
  | none => .ok result

end

/-! ## The template -/

/-- What the prerun node has heard of, and what `lscpu` says. -/
structure PrerunNode where
  hardwareInfo : List (Name × Name)
  domainAndCbgIds : List (Nat × Name)
  nonRosThreadNames : List Name

/-- A number in a document. -/
def Yaml.number (n : Int) : Yaml := .scalar (toStdString n)

/-- A list of CPUs in a document. -/
def Yaml.cpuSeq (list : List Int) : Yaml := .seq (list.map Yaml.number)

/-- The entry of a thread that only announces itself. -/
def announcedEntry (fields : List (Name × Yaml)) : Yaml :=
  .map (fields ++ [("affinity".toList, .seq []), ("policy".toList, .scalar "SCHED_OTHER".toList),
    ("nice".toList, .number 0)])

/-- `dedup_by_comm`. -/
def dedupByComm (scanned : List KernelThreadInfo) : List KernelThreadInfo :=
  unique KernelThreadInfo.comm scanned

/-- A policy that the template can name. -/
def representablePolicy (info : KernelThreadInfo) : Option SchedPolicy :=
  (parseSchedPolicy info.policy).filter (· ≠ .deadline)

/-- The fields `policy` and `nice` or `priority`. -/
def policyEntries (info : KernelThreadInfo) : List (Name × Yaml) :=
  match representablePolicy info with
  | some policy =>
    [("policy".toList, .scalar info.policy),
      if policy.isCfs then ("nice".toList, .number info.nice)
      else ("priority".toList, .number info.rtPriority)]
  | none => [("policy".toList, .scalar kUnmanageable), ("priority".toList, .scalar kUnmanageable)]

/-- The field `affinity`. -/
def affinityEntry (list : Option (List Int)) : Name × Yaml :=
  ("affinity".toList, match list with
    | some list => .cpuSeq list
    | none => .scalar kUnmanageable)

/-- The CPUs that may be set. -/
def settableCpus (cpus : Nat) (info : KernelThreadInfo) : Option (List Int) :=
  if info.noSetaffinity then none else parseManageableCpuList cpus info.affinity

/-- An entry of `kernel_threads`. -/
def kernelThreadEntry (cpus : Nat) (info : KernelThreadInfo) : Yaml :=
  .map (("comm".toList, .scalar info.comm) :: policyEntries info ++
    [affinityEntry (settableCpus cpus info)])

/-- An entry of `irqs`. -/
def irqEntry (cpus : Nat) (info : IrqInfo) : Yaml :=
  .map [("irq".toList, .number info.irq), ("name".toList, .scalar info.name),
    affinityEntry (parseManageableCpuList cpus info.affinity)]

/-- `dump_yaml_config`. -/
def dumpYamlConfig (node : PrerunNode) (m : Machine) : List (Name × Yaml) :=
  [("hardware_info".toList, .map (node.hardwareInfo.map fun e => (e.1, .scalar e.2))),
    ("rt_throttling".toList, .map [("runtime_us".toList, .number 950000),
      ("period_us".toList, .number 1000000)]),
    ("callback_groups".toList, .seq (node.domainAndCbgIds.map fun e =>
      announcedEntry [("id".toList, .scalar e.2), ("domain_id".toList, .number e.1)])),
    ("non_ros_threads".toList, .seq (node.nonRosThreadNames.map fun name =>
      announcedEntry [("name".toList, .scalar name)])),
    ("kernel_threads".toList,
      .seq ((dedupByComm (scanKernelThreads m)).map (kernelThreadEntry m.cpus))),
    ("irqs".toList, .seq ((scanIrqs m).map (irqEntry m.cpus)))]

end Agnocast
