import Agnocast.ThreadConfigurator.Apply

/-!
# The thread configurator — threads that announce themselves

`parse_yaml` of `thread_config.cpp`: the sections `callback_groups` and `non_ros_threads`.

* `parseYaml` — the two lists of entries, or what is wrong with the document.
* `parseYaml_fresh` — what the parser lets through: entries that nobody has announced, no two of
  them of one key.

Representation: the text of an exception of the YAML library is left out (`yamlException`), and how
`as<size_t>` reads the text of a scalar is a parameter like `as<int>`. Fields of an entry that are
not set keep their defaults.
-/

namespace Agnocast

/-! ## Entries -/

/-- `ThreadConfig`. -/
structure ThreadConfig where
  threadStr : Name
  domainId : Nat
  threadId : Int
  attrs : SchedAttrs
  matchedTids : List (Name × Int)
  applied : Bool

/-- `is_wildcard`. -/
def ThreadConfig.isWildcard (config : ThreadConfig) : Bool := "/*".toList.isSuffixOf config.threadStr

/-- `wildcard_prefix`. -/
def ThreadConfig.wildcardPrefix (config : ThreadConfig) : Name :=
  config.threadStr.take (config.threadStr.length - 2)

/-- What makes two entries of `callback_groups` duplicates. -/
def ThreadConfig.key (config : ThreadConfig) : Nat × Name := (config.domainId, config.threadStr)

/-- `extract_node_part`. -/
def extractNodePart (callbackGroupId : Name) : Name := callbackGroupId.takeWhile (· ≠ '@')

/-- The prefix and the ending make up the id. -/
theorem ThreadConfig.threadStr_eq {config : ThreadConfig} (h : config.isWildcard = true) :
    config.threadStr = config.wildcardPrefix ++ "/*".toList := by
  obtain ⟨before, hbefore⟩ := List.isSuffixOf_iff_suffix.mp h
  unfold ThreadConfig.wildcardPrefix
  rw [← hbefore, List.length_append]
  simp

/-! ## The parser -/

/-- What the YAML library throws says where in the document. -/
def yamlException : Name := []

/-- A bad conversion, or a member that is not there. -/
def orYamlException {α : Type} (value : Option α) : Except Name α :=
  match value with
  | none => .error yamlException
  | some value => .ok value

/-- The nodes `node[0]`, `node[1]` and so on up to `size()`. An undefined node has no size, and the
members of a map are found by their keys. -/
def yamlItems (node : Option Yaml) : Except Name (List Yaml) :=
  match node with
  | none => .error yamlException
  | some (.seq items) => .ok items
  | some (.map entries) =>
    .ok ((List.range entries.length).map fun i =>
      (Dict.get entries (toStdString i)).getD .null)
  | some _ => .ok []

section

variable (asInt : Name → Option Int) (asUnsigned : Name → Option Nat) (cpus : Nat)

/-- `as<size_t>` and `as<uint64_t>` of a node. -/
def Yaml.asUnsignedNumber : Yaml → Option Nat
  | .scalar text => asUnsigned text
  | _ => none

/-- The checks of an id with an asterisk. -/
def checkWildcardId (threadStr : Name) : Except Name Unit :=
  let config : ThreadConfig := ⟨threadStr, 0, -1, .blank, [], false⟩
  if '*' ∉ threadStr then .ok ()
  else if !config.isWildcard then
    .error ("Invalid id '".toList ++ threadStr ++
      "': '*' is only allowed as a trailing \"/*\" wildcard (e.g. /my_node/*)".toList)
  else if config.wildcardPrefix = [] ∨ '*' ∈ config.wildcardPrefix then
    .error ("Invalid wildcard id '".toList ++ threadStr ++
      "': the part before \"/*\" must be a non-empty node name without '*'".toList)
  else if '@' ∈ config.wildcardPrefix then
    .error ("Invalid wildcard id '".toList ++ threadStr ++ ("': the part before \"/*\" must be a " ++
      "plain node name, not a full callback-group id containing '@'").toList)
  else .ok ()

/-- The scheduling attributes of an entry of either section. -/
def parseThreadAttrs (entry : Yaml) (entryDesc : Name) : Except Name SchedAttrs := do
  let affinity ← parseAffinity asInt cpus entry entryDesc false
  let attrs := { SchedAttrs.blank with affinity := affinity }
  let policyStr ← orYamlException ((entry.find "policy").bind Yaml.asString)
  let policy ← parsePolicyOrThrow policyStr entryDesc
  let attrs := { attrs with policy := some policy }
  if policy = .deadline then
    let field (key : String) : Except Name Nat :=
      orYamlException ((entry.find key).bind (Yaml.asUnsignedNumber asUnsigned))
    let runtime ← field "runtime"
    let period ← field "period"
    let deadline ← field "deadline"
    return { attrs with deadline := ⟨runtime, period, deadline⟩ }
  else if policy.isCfs then
    return { attrs with nice := ← parseNice asInt entry policy entryDesc false }
  else
    return { attrs with rtPriority := ← parseRtPriority asInt entry policy entryDesc false }

/-- The domain of an entry of `callback_groups`. -/
def parseDomainId (defaultDomainId : Nat) (cg : Yaml) : Except Name Nat :=
  match cg.find "domain_id" with
  | none => .ok defaultDomainId
  | some node => orYamlException (node.asUnsignedNumber asUnsigned)

/-- One entry of `callback_groups`. -/
def parseCallbackGroup (defaultDomainId : Nat) (cg : Yaml) : Except Name ThreadConfig := do
  let threadStr ← orYamlException ((cg.find "id").bind Yaml.asString)
  checkWildcardId threadStr
  let domainId ← parseDomainId asUnsigned defaultDomainId cg
  let attrs ← parseThreadAttrs asInt asUnsigned cpus cg ("id=".toList ++ threadStr)
  return ⟨threadStr, domainId, -1, attrs, [], false⟩

/-- One entry of `non_ros_threads`. -/
def parseNonRosThread (nrt : Yaml) : Except Name ThreadConfig := do
  let threadStr ← orYamlException ((nrt.find "name").bind Yaml.asString)
  let attrs ← parseThreadAttrs asInt asUnsigned cpus nrt ("name=".toList ++ threadStr)
  return ⟨threadStr, 0, -1, attrs, [], false⟩

/-- `parse_yaml`: the callback groups and the non-ROS threads. -/
def parseYaml (defaultDomainId : Nat) (yaml : Yaml) :
    Except Name (List ThreadConfig × List ThreadConfig) := do
  let callbackGroups ← yamlItems (yaml.find "callback_groups")
  let nonRosThreads ← yamlItems (yaml.find "non_ros_threads")
  let callbackGroupsOut ←
    callbackGroups.mapM (parseCallbackGroup asInt asUnsigned cpus defaultDomainId)
  let nonRosThreadsOut ← nonRosThreads.mapM (parseNonRosThread asInt asUnsigned cpus)
  match firstDuplicate [] (callbackGroupsOut.map ThreadConfig.key) with
  | some (domainId, threadStr) =>
    .error ("Duplicate callback_group entry: domain_id=".toList ++ toStdString domainId ++
      ", id=".toList ++ threadStr)
  | none =>
    match firstDuplicate [] (nonRosThreadsOut.map ThreadConfig.threadStr) with
    | some name => .error ("Duplicate non_ros_thread entry: name=".toList ++ name)
    | none => .ok (callbackGroupsOut, nonRosThreadsOut)

end

/-! ## What is let through -/

/-- An entry that nobody has announced. -/
structure ThreadConfig.Fresh (config : ThreadConfig) : Prop where
  threadId : config.threadId = -1
  matchedTids : config.matchedTids = []
  applied : config.applied = false

private theorem nodup_of_firstDuplicate {κ : Type} [DecidableEq κ] {seen keys : List κ}
    (h : firstDuplicate seen keys = none) : keys.Nodup ∧ ∀ key ∈ keys, key ∉ seen := by
  induction keys generalizing seen with
  | nil => exact ⟨List.nodup_nil, fun key hkey => absurd hkey List.not_mem_nil⟩
  | cons key rest ih =>
    unfold firstDuplicate at h
    split at h
    · cases h
    · next hnot =>
      obtain ⟨hnodup, hnew⟩ := ih h
      refine ⟨List.nodup_cons.mpr ⟨fun hmem => hnew key hmem List.mem_cons_self, hnodup⟩, ?_⟩
      intro key' hkey'
      rcases List.mem_cons.mp hkey' with rfl | hkey'
      · exact hnot
      · exact fun hseen => hnew key' hkey' (List.mem_cons_of_mem _ hseen)

private theorem of_bind_eq_ok {α β : Type} {x : Except Name α} {f : α → Except Name β} {b : β}
    (h : x >>= f = .ok b) : ∃ a, x = .ok a ∧ f a = .ok b := by
  cases x with
  | error what => cases h
  | ok a => exact ⟨a, rfl, h⟩

private theorem mapM_fresh {parse : Yaml → Except Name ThreadConfig}
    (hparse : ∀ entry config, parse entry = .ok config → config.Fresh) {items : List Yaml}
    {configs : List ThreadConfig} (h : items.mapM parse = .ok configs) : ∀ c ∈ configs, c.Fresh := by
  induction items generalizing configs with
  | nil =>
    cases h
    exact fun c hc => absurd hc List.not_mem_nil
  | cons item rest ih =>
    rw [List.mapM_cons] at h
    obtain ⟨config, hitem, h⟩ := of_bind_eq_ok h
    obtain ⟨configs', hrest, h⟩ := of_bind_eq_ok h
    cases h
    intro c hc
    rcases List.mem_cons.mp hc with rfl | hc
    · exact hparse item c hitem
    · exact ih hrest c hc

/-- What the parser promises of its lists. -/
structure FreshConfigs (cb nrt : List ThreadConfig) : Prop where
  callbackGroups : ∀ c ∈ cb, c.Fresh
  keys : (cb.map ThreadConfig.key).Nodup
  nonRosThreads : ∀ c ∈ nrt, c.Fresh
  names : (nrt.map ThreadConfig.threadStr).Nodup

/-- **The parser** lets no two entries of one key through, and nothing that has been announced. -/
theorem parseYaml_fresh {asInt : Name → Option Int} {asUnsigned : Name → Option Nat}
    {cpus defaultDomainId : Nat} {yaml : Yaml} {cb nrt : List ThreadConfig}
    (h : parseYaml asInt asUnsigned cpus defaultDomainId yaml = .ok (cb, nrt)) :
    FreshConfigs cb nrt := by
  have hcallbackGroup (entry : Yaml) (config : ThreadConfig)
      (hok : parseCallbackGroup asInt asUnsigned cpus defaultDomainId entry = .ok config) :
      config.Fresh := by
    unfold parseCallbackGroup at hok
    obtain ⟨threadStr, -, hok⟩ := of_bind_eq_ok hok
    obtain ⟨_, -, hok⟩ := of_bind_eq_ok hok
    obtain ⟨domainId, -, hok⟩ := of_bind_eq_ok hok
    obtain ⟨attrs, -, hok⟩ := of_bind_eq_ok hok
    cases hok
    exact ⟨rfl, rfl, rfl⟩
  have hnonRosThread (entry : Yaml) (config : ThreadConfig)
      (hok : parseNonRosThread asInt asUnsigned cpus entry = .ok config) : config.Fresh := by
    unfold parseNonRosThread at hok
    obtain ⟨threadStr, -, hok⟩ := of_bind_eq_ok hok
    obtain ⟨attrs, -, hok⟩ := of_bind_eq_ok hok
    cases hok
    exact ⟨rfl, rfl, rfl⟩
  unfold parseYaml at h
  obtain ⟨callbackGroups, -, h⟩ := of_bind_eq_ok h
  obtain ⟨nonRosThreads, -, h⟩ := of_bind_eq_ok h
  obtain ⟨cb', hcb, h⟩ := of_bind_eq_ok h
  obtain ⟨nrt', hnrt, h⟩ := of_bind_eq_ok h
  split at h
  · cases h
  next hkeys =>
  split at h
  · cases h
  next hnames =>
  cases h
  exact ⟨mapM_fresh hcallbackGroup hcb, (nodup_of_firstDuplicate hkeys).1,
    mapM_fresh hnonRosThread hnrt, (nodup_of_firstDuplicate hnames).1⟩

end Agnocast
