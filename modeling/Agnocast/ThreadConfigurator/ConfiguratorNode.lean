import Agnocast.Lib.Index
import Agnocast.Lib.Transition
import Agnocast.ThreadConfigurator.ParseYaml
import Mathlib.Data.List.Sort

/-!
# The thread configurator — announcements and reapply requests

`thread_configurator_node.cpp`: `callback_group_callback` and `on_reapply_config_request`, which
run on the executor, and `non_ros_thread_callback`, which runs on the thread of the listener.

Representation:

* **Threads.** What holds `non_ros_state_mutex_` is one step. The executor takes a step wherever
  something follows that the other thread sees; what its callback has come to is a
  `ConfiguratorPlace`.
* **Pointers** into a vector are places in it; they are taken anew when the vector is replaced.
* **Maps** are dictionaries; where the order of one is seen it is sorted (`inKeyOrder`).
* **Counters** are unbounded: no vector has `2^31` entries of this size.
* System calls, files and the announcements themselves are inputs. Logging is left out.
-/

namespace Agnocast

/-! ## The node -/

/-- The key of an exact entry. -/
def ThreadConfig.exactKey (config : ThreadConfig) : Option (Nat × Name) :=
  if config.isWildcard then none else some (config.domainId, config.threadStr)

/-- The key of a wildcard entry. -/
def ThreadConfig.wildcardKey (config : ThreadConfig) : Option (Nat × Name) :=
  if config.isWildcard then some (config.domainId, config.wildcardPrefix) else none

/-- The key of a non-ROS entry. -/
def ThreadConfig.nameKey (config : ThreadConfig) : Option Name := some config.threadStr

/-- The members of `ThreadConfiguratorNode` that announcements and requests work on. -/
structure ThreadConfiguratorNode where
  callbackGroupConfigs : List ThreadConfig
  idToCallbackGroupConfig : List ((Nat × Name) × Nat)
  nodeToWildcardConfig : List ((Nat × Name) × Nat)
  nonRosThreadConfigs : List ThreadConfig
  idToNonRosThreadConfig : List (Name × Nat)
  kernelThreadConfigs : List KernelThreadConfig
  irqConfigs : List IrqConfig
  unappliedNum : Int
  configuredAtLeastOnce : Bool

namespace ThreadConfiguratorNode

/-- A new `callback_group_configs_`, with the maps of it. -/
def setCallbackGroups (n : ThreadConfiguratorNode) (configs : List ThreadConfig) :
    ThreadConfiguratorNode :=
  { n with
    callbackGroupConfigs := configs
    idToCallbackGroupConfig := Index.places (configs.map ThreadConfig.exactKey)
    nodeToWildcardConfig := Index.places (configs.map ThreadConfig.wildcardKey) }

/-- A new `non_ros_thread_configs_`, with the map of it. -/
def setNonRosThreads (n : ThreadConfiguratorNode) (configs : List ThreadConfig) :
    ThreadConfiguratorNode :=
  { n with
    nonRosThreadConfigs := configs
    idToNonRosThreadConfig := Index.places (configs.map ThreadConfig.nameKey) }

/-- `*id_to_callback_group_config_[key]`. -/
def exactConfig (n : ThreadConfiguratorNode) (key : Nat × Name) : Option ThreadConfig :=
  Index.lookup n.idToCallbackGroupConfig n.callbackGroupConfigs key

/-- `*node_to_wildcard_config_[key]`. -/
def wildcardConfig (n : ThreadConfiguratorNode) (key : Nat × Name) : Option ThreadConfig :=
  Index.lookup n.nodeToWildcardConfig n.callbackGroupConfigs key

/-- `*id_to_non_ros_thread_config_[name]`. -/
def nonRosConfig (n : ThreadConfiguratorNode) (name : Name) : Option ThreadConfig :=
  Index.lookup n.idToNonRosThreadConfig n.nonRosThreadConfigs name

/-- A change of one entry. -/
def changeCallbackGroup (n : ThreadConfiguratorNode) (i : Nat) (f : ThreadConfig → ThreadConfig) :
    ThreadConfiguratorNode :=
  { n with callbackGroupConfigs := n.callbackGroupConfigs.modify i f }

/-- A change of one entry. -/
def changeNonRosThread (n : ThreadConfiguratorNode) (i : Nat) (f : ThreadConfig → ThreadConfig) :
    ThreadConfiguratorNode :=
  { n with nonRosThreadConfigs := n.nonRosThreadConfigs.modify i f }

/-- `fetch_sub` of the counter. -/
def fetchSub (n : ThreadConfiguratorNode) : ThreadConfiguratorNode :=
  { n with unappliedNum := n.unappliedNum - 1 }

/-- `fetch_sub` of the counter, and what follows when it was 1. -/
def countDown (n : ThreadConfiguratorNode) : ThreadConfiguratorNode :=
  { n.fetchSub with
    configuredAtLeastOnce := n.configuredAtLeastOnce || decide (n.unappliedNum = 1) }

end ThreadConfiguratorNode

/-- `applied = true`. -/
def ThreadConfig.markApplied (config : ThreadConfig) : ThreadConfig := { config with applied := true }

/-! ## Announcements -/

/-- `thread_id = tid`. -/
def ThreadConfig.setThreadId (tid : Int) (config : ThreadConfig) : ThreadConfig :=
  { config with threadId := tid }

/-- What is recorded of an announcement in the entry that it goes to. -/
def ThreadConfig.record (id : Name) (tid : Int) (config : ThreadConfig) : ThreadConfig :=
  if config.isWildcard then { config with matchedTids := Dict.set config.matchedTids id tid }
  else config.setThreadId tid

/-- What an exact entry drops from a wildcard entry. -/
def ThreadConfig.forget (id : Name) (config : ThreadConfig) : ThreadConfig :=
  { config with matchedTids := Dict.erase config.matchedTids id }

/-- `callback_group_callback` up to the system calls, with the place of the entry. -/
def ThreadConfiguratorNode.callbackGroupCallback (n : ThreadConfiguratorNode) (domainId : Nat)
    (id : Name) (tid : Int) : Option Nat × ThreadConfiguratorNode :=
  match Dict.get n.idToCallbackGroupConfig (domainId, id) with
  | some i =>
    -- the wildcard entry that may have had it gives it up
    let n :=
      match Dict.get n.nodeToWildcardConfig (domainId, extractNodePart id) with
      | some w => n.changeCallbackGroup w (·.forget id)
      | none => n
    (some i, n.changeCallbackGroup i (·.record id tid))
  | none =>
    match Dict.get n.nodeToWildcardConfig (domainId, extractNodePart id) with
    | none => (none, n)
    | some w => (some w, n.changeCallbackGroup w (·.record id tid))

/-- `non_ros_thread_callback`. -/
def ThreadConfiguratorNode.nonRosThreadCallback (n : ThreadConfiguratorNode) (name : Name)
    (tid : Int) (succeeds : Syscall → Bool) : ThreadConfiguratorNode :=
  match Dict.get n.idToNonRosThreadConfig name with
  | none => n
  | some i =>
    let n := n.changeNonRosThread i (·.setThreadId tid)
    match n.nonRosThreadConfigs[i]? with
    | none => n
    | some config =>
      if !(issueSyscalls succeeds config.attrs tid).2 then n
      else if !config.applied then (n.changeNonRosThread i ThreadConfig.markApplied).countDown
      else n

/-! ## Reapply requests -/

/-- `ReapplyConfig::Response`. -/
structure ReapplyResponse where
  success : Bool
  errorMessage : Name
  appliedCallbackGroups : List Name
  appliedNonRosThreads : List Name
  failedCallbackGroups : List Name
  failedNonRosThreads : List Name
  skippedCallbackGroups : List Name
  skippedNonRosThreads : List Name
  appliedKernelThreads : List Name
  failedKernelThreads : List Name
  skippedKernelThreads : List Name
  appliedIrqs : List Name
  failedIrqs : List Name

/-- The response at first. -/
def ReapplyResponse.empty : ReapplyResponse :=
  ⟨false, [], [], [], [], [], [], [], [], [], [], [], []⟩

/-- A rejection. -/
def ReapplyResponse.rejected (errorMessage : Name) : ReapplyResponse :=
  { ReapplyResponse.empty with errorMessage := errorMessage }

/-- A callback group in the response. -/
def callbackGroupKey (domainId : Nat) (id : Name) : Name :=
  toStdString domainId ++ ":".toList ++ id

/-- The members of a map in the order of their keys. -/
def inKeyOrder (d : List (Name × Int)) : List (Name × Int) :=
  d.insertionSort fun e e' => e.1 ≤ e'.1

/-- The known tids that `new_cb` carries over. -/
def ThreadConfiguratorNode.carryOver (n : ThreadConfiguratorNode) (config : ThreadConfig) :
    ThreadConfig :=
  if config.isWildcard then
    match n.wildcardConfig (config.domainId, config.wildcardPrefix) with
    | some old => { config with matchedTids := old.matchedTids }
    | none => config
  else
    match n.exactConfig (config.domainId, config.threadStr) with
    | some old => { config with threadId := old.threadId }
    | none => config

/-- The known tid that an entry of `new_nrt` carries over. -/
def ThreadConfiguratorNode.carryOverNonRos (n : ThreadConfiguratorNode) (config : ThreadConfig) :
    ThreadConfig :=
  match n.nonRosConfig config.threadStr with
  | some old => { config with threadId := old.threadId }
  | none => config

section

-- the outcome of the system calls for the thread of each number in a loop
variable (succeeds : Nat → Syscall → Bool)

/-- The loop over the instances of a wildcard entry, with `any_applied`. -/
def applyInstances (config : ThreadConfig) :
    Nat → List (Name × Int) → Bool → ReapplyResponse → Bool × ReapplyResponse
  | _, [], anyApplied, response => (anyApplied, response)
  | i, (fullId, tid) :: rest, anyApplied, response =>
    let key := callbackGroupKey config.domainId fullId
    if (issueSyscalls (succeeds i) config.attrs tid).2 then
      applyInstances config (i + 1) rest true
        { response with appliedCallbackGroups := response.appliedCallbackGroups ++ [key] }
    else
      applyInstances config (i + 1) rest anyApplied
        { response with failedCallbackGroups := response.failedCallbackGroups ++ [key] }

/-- The body of the loop over `callback_group_configs_` up to `applied = true`: whether it comes to
that, and the response. -/
def applyCallbackGroup (config : ThreadConfig) (response : ReapplyResponse) :
    Bool × ReapplyResponse :=
  let key := callbackGroupKey config.domainId config.threadStr
  let skipped :=
    (false, { response with skippedCallbackGroups := response.skippedCallbackGroups ++ [key] })
  if config.isWildcard then
    if config.matchedTids.isEmpty then skipped
    else applyInstances succeeds config 0 (inKeyOrder config.matchedTids) false response
  else if config.threadId = -1 then skipped
  else if (issueSyscalls (succeeds 0) config.attrs config.threadId).2 then
    (true, { response with appliedCallbackGroups := response.appliedCallbackGroups ++ [key] })
  else (false, { response with failedCallbackGroups := response.failedCallbackGroups ++ [key] })

/-- The loop over `non_ros_thread_configs_`, from a number on: the entries, how often it counts
down, and the response. -/
def applyNonRosThreads : Nat → List ThreadConfig → ReapplyResponse →
    List ThreadConfig × Nat × ReapplyResponse
  | _, [], response => ([], 0, response)
  | i, config :: rest, response =>
    let name := config.threadStr
    -- not announced yet
    if config.threadId = -1 then
      let (rest, count, response) := applyNonRosThreads (i + 1) rest
        { response with skippedNonRosThreads := response.skippedNonRosThreads ++ [name] }
      (config :: rest, count, response)
    else if (issueSyscalls (succeeds i) config.attrs config.threadId).2 then
      let (rest, count, response) := applyNonRosThreads (i + 1) rest
        { response with appliedNonRosThreads := response.appliedNonRosThreads ++ [name] }
      if !config.applied then (config.markApplied :: rest, count + 1, response)
      else (config :: rest, count, response)
    else
      let (rest, count, response) := applyNonRosThreads (i + 1) rest
        { response with failedNonRosThreads := response.failedNonRosThreads ++ [name] }
      (config :: rest, count, response)

end

/-! ## The system -/

/-- What the executor has come to. -/
inductive ConfiguratorPlace
  /-- no callback runs -/
  | spinning
  /-- `callback_group_callback`, the tid is recorded in the entry at this place -/
  | recorded (index : Nat) (tid : Int)
  /-- `callback_group_callback`, before the counter goes down -/
  | marked
  /-- `on_reapply_config_request`, the list of callback groups is swapped -/
  | swapped (newNrt : List ThreadConfig) (newKernelThreads : List KernelThreadConfig)
      (newIrqs : List IrqConfig)
  /-- `on_reapply_config_request`, before the entry at this place -/
  | applying (index : Nat) (response : ReapplyResponse)
  /-- `on_reapply_config_request`, before the counter goes down for this entry -/
  | applyingMarked (index : Nat) (response : ReapplyResponse)
  /-- `on_reapply_config_request`, after the non-ROS threads -/
  | appliedNonRos (response : ReapplyResponse)

/-- The node and its executor. -/
structure Configurator where
  node : ThreadConfiguratorNode
  place : ConfiguratorPlace

/-- What the threads do next. -/
inductive ConfiguratorInput
  /-- the listener hears of a non-ROS thread -/
  | nonRosThread (name : Name) (tid : Int) (succeeds : Syscall → Bool)
  /-- the executor takes an announcement of a callback group -/
  | callbackGroup (domainId : Nat) (id : Name) (tid : Int)
  /-- the executor takes a request; the file loads, or it does not -/
  | reapplyConfig (file : Except Name Yaml)
  /-- the executor goes on with its callback -/
  | proceed (succeeds : Nat → Syscall → Bool) (m : Machine)

section

variable (asInt : Name → Option Int) (asUnsigned : Name → Option Nat) (cpus : Nat)
  (defaultDomainId : Nat) (configFile : Name)

/-- The members of the root of a document. -/
def Yaml.entries : Yaml → List (Name × Yaml)
  | .map entries => entries
  | _ => []

/-- The three parsers of `on_reapply_config_request`. -/
def parseAll (yaml : Yaml) : Except Name (List ThreadConfig × List ThreadConfig ×
    List KernelThreadConfig × List IrqConfig) := do
  let (newCb, newNrt) ← parseYaml asInt asUnsigned cpus defaultDomainId yaml
  let newKernelThreads ← parseKernelThreads asInt cpus yaml.entries
  let newIrqs ← parseIrqs asInt cpus yaml.entries
  return (newCb, newNrt, newKernelThreads, newIrqs)

/-- `on_reapply_config_request` up to the swap of the callback groups. -/
def Configurator.onReapplyConfigRequest (s : Configurator) (file : Except Name Yaml) :
    Option ReapplyResponse × Configurator :=
  match file with
  | .error what =>
    (some (.rejected ("YAML parse error for '".toList ++ configFile ++ "': ".toList ++ what)), s)
  | .ok yaml =>
    match parseAll asInt asUnsigned cpus defaultDomainId yaml with
    | .error what =>
      (some (.rejected ("YAML validation error for '".toList ++ configFile ++ "': ".toList ++ what)),
        s)
    | .ok (newCb, newNrt, newKernelThreads, newIrqs) =>
      (none, ⟨s.node.setCallbackGroups (newCb.map s.node.carryOver),
        .swapped newNrt newKernelThreads newIrqs⟩)

/-- The step of the executor. -/
def Configurator.proceed (s : Configurator) (succeeds : Nat → Syscall → Bool) (m : Machine) :
    Option ReapplyResponse × Configurator :=
  match s.place with
  | .spinning => (none, s)
  | .recorded index tid =>
    match s.node.callbackGroupConfigs[index]? with
    | none => (none, { s with place := .spinning })
    | some config =>
      if !(issueSyscalls (succeeds 0) config.attrs tid).2 then (none, { s with place := .spinning })
      -- `applied` is set and the counter follows, in two writes
      else if !config.applied then
        (none, ⟨s.node.changeCallbackGroup index ThreadConfig.markApplied, .marked⟩)
      else (none, { s with place := .spinning })
  | .marked => (none, ⟨s.node.countDown, .spinning⟩)
  | .swapped newNrt newKernelThreads newIrqs =>
    -- what the other threads carry over, and the counter afresh
    let node := s.node.setNonRosThreads (newNrt.map s.node.carryOverNonRos)
    (none, ⟨{ node with
        unappliedNum := node.callbackGroupConfigs.length + node.nonRosThreadConfigs.length
        kernelThreadConfigs := newKernelThreads
        irqConfigs := newIrqs }, .applying 0 .empty⟩)
  | .applying index response =>
    match s.node.callbackGroupConfigs[index]? with
    | some config =>
      let (applied, response) := applyCallbackGroup succeeds config response
      if applied then
        (none, ⟨s.node.changeCallbackGroup index ThreadConfig.markApplied,
          .applyingMarked index response⟩)
      else (none, { s with place := .applying (index + 1) response })
    | none =>
      let (configs, count, response) :=
        applyNonRosThreads succeeds 0 s.node.nonRosThreadConfigs response
      (none, ⟨{ s.node with
          nonRosThreadConfigs := configs
          unappliedNum := s.node.unappliedNum - count }, .appliedNonRos response⟩)
  | .applyingMarked index response => (none, ⟨s.node.fetchSub, .applying (index + 1) response⟩)
  | .appliedNonRos response =>
    let kernelThreads := applyKernelThreadConfigs (succeeds 0) m s.node.kernelThreadConfigs
    let irqs := applyIrqConfigs (succeeds 1) m s.node.irqConfigs
    (some { response with
        success := true
        appliedKernelThreads := kernelThreads.applied
        failedKernelThreads := kernelThreads.failed
        skippedKernelThreads := kernelThreads.skipped
        appliedIrqs := irqs.applied
        failedIrqs := irqs.failed }, { s with place := .spinning })

/-- The executor takes a callback when none runs. -/
def Configurator.take (s : Configurator)
    (callback : Configurator → Option ReapplyResponse × Configurator) :
    Option ReapplyResponse × Configurator :=
  match s.place with
  | .spinning => callback s
  | _ => (none, s)

/-- One step, with what it answers to a request. -/
def Configurator.step (s : Configurator) : ConfiguratorInput → Option ReapplyResponse × Configurator
  | .nonRosThread name tid succeeds =>
    (none, { s with node := s.node.nonRosThreadCallback name tid succeeds })
  | .callbackGroup domainId id tid =>
    s.take fun s =>
      match s.node.callbackGroupCallback domainId id tid with
      | (none, node) => (none, ⟨node, .spinning⟩)
      | (some index, node) => (none, ⟨node, .recorded index tid⟩)
  | .reapplyConfig file =>
    s.take fun s =>
      s.onReapplyConfigRequest asInt asUnsigned cpus defaultDomainId configFile file
  | .proceed succeeds m => s.proceed succeeds m

/-- What the constructor makes of a document that it accepts. -/
def ThreadConfiguratorNode.construct (cb nrt : List ThreadConfig)
    (kernelThreads : List KernelThreadConfig) (irqs : List IrqConfig) : ThreadConfiguratorNode :=
  ThreadConfiguratorNode.setNonRosThreads
    (ThreadConfiguratorNode.setCallbackGroups
      ⟨[], [], [], [], [], kernelThreads, irqs, cb.length + nrt.length, false⟩ cb) nrt

/-- The node from its construction on. -/
def threadConfigurator :
    Transition.System Configurator ConfiguratorInput (Option ReapplyResponse) where
  init s := ∃ yaml cb nrt kernelThreads irqs,
    parseAll asInt asUnsigned cpus defaultDomainId yaml = .ok (cb, nrt, kernelThreads, irqs) ∧
    s = ⟨.construct cb nrt kernelThreads irqs, .spinning⟩
  step s i := s.step asInt asUnsigned cpus defaultDomainId configFile i

end

end Agnocast
