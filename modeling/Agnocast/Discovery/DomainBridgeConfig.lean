import Agnocast.Kmod.Basic
import Agnocast.Lib.Dict
import Agnocast.Lib.PyText

/-!
# Discovery — the config of the domain bridges

`domain_bridge_config.py` turns the config of the external `domain_bridge` into rules. It
takes a document as `yaml.safe_load` returns it; floats, timestamps and binary values are left
out, and so are the texts of the errors.

* `parseDomainBridgeConfig` — the rules and the topics without a pair of domains, or an error.
* `loadDomainBridgeRules`   — a config that cannot be used does not take the others with it.
* `specRules_ok`            — what a topic of a config yields.
* `parse_ok`                — what a config yields.
-/

namespace Agnocast

/-- `(from_topic, to_topic, from_domain, to_domain)`. -/
structure RuleTuple where
  fromTopic : Name
  toTopic : Name
  fromDomain : Nat
  toDomain : Nat
  deriving DecidableEq, Repr

/-! ## Documents -/

/-- What a key can be. -/
inductive PyScalar
  | none
  | bool (b : Bool)
  | int (n : Int)
  | str (s : Name)
  deriving DecidableEq, Repr

/-- What `yaml.safe_load` returns. -/
inductive PyYaml
  | scalar (s : PyScalar)
  | list (items : List PyYaml)
  | dict (items : List (PyScalar × PyYaml))

abbrev PyDict := List (PyScalar × PyYaml)

/-- `str(value)`. -/
def PyScalar.toStr : PyScalar → Name
  | .none => "None".toList
  | .bool b => (if b then "True" else "False").toList
  | .int n => (toString n).toList
  | .str s => s

/-- The values that `or` passes over. -/
def PyYaml.falsy : PyYaml → Bool
  | .scalar .none => true
  | .scalar (.bool b) => !b
  | .scalar (.int n) => n = 0
  | .scalar (.str s) => s = []
  | .list items => items.isEmpty
  | .dict items => items.isEmpty

/-- `d.get(key)`. -/
def dictGet (d : PyDict) (key : String) : Option PyYaml := Dict.get d (.str key.toList)

/-- The value is there and is not `None`. -/
def notNone : Option PyYaml → Option PyYaml
  | none => none
  | some (.scalar .none) => none
  | some value => some value

/-! ## The fields -/

/-- What is wrong with a config. -/
inductive ConfigError
  | rootNotMapping
  | topicsNotMapping
  | specNotMapping (topicName : PyScalar)
  | remapNotString (topicName : PyScalar)
  | notBoolean (field : String) (topicName : PyScalar)
  /-- `int(value)` raises `TypeError`. -/
  | notNumber
  /-- `int(value)` raises `ValueError`. -/
  | notNumeral
  | domainOutOfRange (domain : Int)
  deriving DecidableEq, Repr

/-- `_UINT32_MAX`. -/
def pyUint32Max : Nat := 0xFFFFFFFF

/-- `int(value)`. -/
def PyYaml.toInt : PyYaml → Except ConfigError Int
  | .scalar .none => .error .notNumber
  | .scalar (.bool b) => .ok (if b then 1 else 0)
  | .scalar (.int n) => .ok n
  | .scalar (.str s) =>
    match PyText.pyInt s with
    | none => .error .notNumeral
    | some n => .ok n
  | .list _ => .error .notNumber
  | .dict _ => .error .notNumber

/-- `_as_domain_id`. -/
def asDomainId (value : PyYaml) : Except ConfigError Nat :=
  match value.toInt with
  | .error e => .error e
  | .ok domain =>
    if 0 ≤ domain ∧ domain ≤ pyUint32Max then .ok domain.toNat
    else .error (.domainOutOfRange domain)

/-- `_YAML11_TRUE`. -/
def yaml11True : List Name := ["y".toList, "yes".toList, "true".toList, "on".toList]

/-- `_YAML11_FALSE`. -/
def yaml11False : List Name := ["n".toList, "no".toList, "false".toList, "off".toList]

/-- `_as_bool`. -/
def asBool (value : PyYaml) (field : String) (topicName : PyScalar) : Except ConfigError Bool :=
  match value with
  | .scalar (.bool b) => .ok b
  | .scalar (.str s) =>
    let text := PyText.lower (PyText.strip s)
    if text ∈ yaml11True then .ok true
    else if text ∈ yaml11False then .ok false
    else .error (.notBoolean field topicName)
  | _ => .error (.notBoolean field topicName)

/-- `_as_topic_name`. -/
def asTopicName (name : Name) : Name := if name.head? = some '/' then name else '/' :: name

/-! ## The parser -/

/-- What the body of the loop yields for a topic: the rules, or the name of a topic that is
skipped. -/
inductive TopicOutcome
  | rules (rules : List RuleTuple)
  | skipped (name : Name)
  deriving DecidableEq, Repr

/-- `remap`: a string, the name of the topic if there is none. -/
def remapOf (topicName : PyScalar) (spec : PyDict) : Except ConfigError Name :=
  match dictGet spec "remap" with
  | none => .ok topicName.toStr
  | some (.scalar (.str s)) => .ok s
  | some _ => .error (.remapNotString topicName)

/-- The body of the loop of `parse_domain_bridge_config`, for a spec that is a mapping. -/
def specRules (defaultFrom defaultTo : Option PyYaml) (topicName : PyScalar) (spec : PyDict) :
    Except ConfigError TopicOutcome :=
  -- a field of the topic counts even when it is `None`
  match notNone ((dictGet spec "from_domain").or defaultFrom),
      notNone ((dictGet spec "to_domain").or defaultTo) with
  | some fromDomain, some toDomain => do
    let remap ← remapOf topicName spec
    let fromTopic := asTopicName topicName.toStr
    let toTopic := asTopicName remap
    let bidirectional ← asBool ((dictGet spec "bidirectional").getD (.scalar (.bool false)))
      "bidirectional" topicName
    let reversed ← asBool ((dictGet spec "reversed").getD (.scalar (.bool false))) "reversed"
      topicName
    let fromId ← asDomainId fromDomain
    let toId ← asDomainId toDomain
    let (fromId, toId) := if reversed then (toId, fromId) else (fromId, toId)
    .ok (.rules (⟨fromTopic, toTopic, fromId, toId⟩ ::
      if bidirectional then [⟨fromTopic, toTopic, toId, fromId⟩] else []))
  | _, _ => .ok (.skipped (asTopicName topicName.toStr))

/-- The body of the loop of `parse_domain_bridge_config`. -/
def topicRules (defaultFrom defaultTo : Option PyYaml) (topicName : PyScalar) (spec : PyYaml) :
    Except ConfigError TopicOutcome :=
  match spec with
  | .scalar .none => specRules defaultFrom defaultTo topicName []
  | .dict spec => specRules defaultFrom defaultTo topicName spec
  | _ => .error (.specNotMapping topicName)

/-- The loop: `rules` and `skipped`. -/
def parseTopics (defaultFrom defaultTo : Option PyYaml) :
    PyDict → List RuleTuple → List Name → Except ConfigError (List RuleTuple × List Name)
  | [], rules, skipped => .ok (rules, skipped)
  | (topicName, spec) :: topics, rules, skipped =>
    match topicRules defaultFrom defaultTo topicName spec with
    | .error e => .error e
    | .ok (.rules new) => parseTopics defaultFrom defaultTo topics (rules ++ new) skipped
    | .ok (.skipped name) => parseTopics defaultFrom defaultTo topics rules (skipped ++ [name])

/-- `parse_domain_bridge_config`. -/
def parseDomainBridgeConfig (doc : PyYaml) : Except ConfigError (List RuleTuple × List Name) :=
  match if doc.falsy then .dict [] else doc with
  | .dict doc =>
    match notNone (dictGet doc "topics") with
    | none => parseTopics (dictGet doc "from_domain") (dictGet doc "to_domain") [] [] []
    | some (.dict topics) =>
      parseTopics (dictGet doc "from_domain") (dictGet doc "to_domain") topics [] []
    | some _ => .error .topicsNotMapping
  | _ => .error .rootNotMapping

/-- A file of a config: it cannot be read or is no YAML, or it is a document. -/
abbrev ConfigFile := Option PyYaml

/-- `ConfigResult`; `error` tells whether there is one. -/
structure ConfigResult where
  rules : List RuleTuple
  skipped : List Name
  error : Bool
  deriving DecidableEq, Repr

/-- The body of the loop of `load_domain_bridge_rules`. -/
def loadConfig (file : ConfigFile) : ConfigResult :=
  match file with
  | none => ⟨[], [], true⟩
  | some doc =>
    match parseDomainBridgeConfig doc with
    | .error _ => ⟨[], [], true⟩
    | .ok (rules, skipped) => ⟨rules, skipped, false⟩

/-- `load_domain_bridge_rules`. -/
def loadDomainBridgeRules (files : List ConfigFile) : List ConfigResult := files.map loadConfig

/-! ## What a config yields -/

/-- Absolute names, and domains that the ioctl can pass. -/
structure RuleOk (rule : RuleTuple) : Prop where
  fromTopic : rule.fromTopic.head? = some '/'
  toTopic : rule.toTopic.head? = some '/'
  fromDomain : rule.fromDomain ≤ pyUint32Max
  toDomain : rule.toDomain ≤ pyUint32Max

theorem head?_asTopicName (name : Name) : (asTopicName name).head? = some '/' := by
  unfold asTopicName
  split
  · assumption
  · rfl

theorem asDomainId_le {value : PyYaml} {domain : Nat} (h : asDomainId value = .ok domain) :
    domain ≤ pyUint32Max := by
  unfold asDomainId at h
  split at h
  · cases h
  split at h
  · next hrange =>
    cases h
    exact Int.toNat_le.mpr hrange.2
  · cases h

/-- **What one topic yields**: a rule, and the rule back if the topic is bidirectional, which
keeps both names and swaps the domains. -/
theorem specRules_ok {defaultFrom defaultTo : Option PyYaml} {topicName : PyScalar} {spec : PyDict}
    {rules : List RuleTuple}
    (h : specRules defaultFrom defaultTo topicName spec = .ok (.rules rules)) :
    ∃ rule, RuleOk rule ∧ rule.fromTopic = asTopicName topicName.toStr ∧ (rules = [rule] ∨
      rules = [rule, ⟨rule.fromTopic, rule.toTopic, rule.toDomain, rule.fromDomain⟩]) := by
  unfold specRules at h
  split at h
  · simp only [bind, Except.bind] at h
    split at h
    · cases h
    next remap _ =>
    split at h
    · cases h
    next bidirectional _ =>
    split at h
    · cases h
    next reversed _ =>
    split at h
    · cases h
    next fromId hfrom =>
    split at h
    · cases h
    next toId hto =>
    have hfrom := asDomainId_le hfrom
    have hto := asDomainId_le hto
    have hname := head?_asTopicName topicName.toStr
    have hremap := head?_asTopicName remap
    cases reversed <;> cases bidirectional <;> cases h
    · exact ⟨_, ⟨hname, hremap, hfrom, hto⟩, rfl, .inl rfl⟩
    · exact ⟨_, ⟨hname, hremap, hfrom, hto⟩, rfl, .inr rfl⟩
    · exact ⟨_, ⟨hname, hremap, hto, hfrom⟩, rfl, .inl rfl⟩
    · exact ⟨_, ⟨hname, hremap, hto, hfrom⟩, rfl, .inr rfl⟩
  · cases h

theorem parseTopics_ok {defaultFrom defaultTo : Option PyYaml} {topics : PyDict}
    {rules rules' : List RuleTuple} {skipped skipped' : List Name}
    (h : parseTopics defaultFrom defaultTo topics rules skipped = .ok (rules', skipped'))
    (hrules : ∀ rule ∈ rules, RuleOk rule) : ∀ rule ∈ rules', RuleOk rule := by
  induction topics generalizing rules skipped with
  | nil =>
    cases h
    exact hrules
  | cons topic topics ih =>
    unfold parseTopics at h
    split at h
    · cases h
    · next new hnew =>
      refine ih h fun rule hrule => ?_
      rcases List.mem_append.mp hrule with hrule | hrule
      · exact hrules rule hrule
      · have hspec : ∃ spec, specRules defaultFrom defaultTo topic.1 spec = .ok (.rules new) := by
          unfold topicRules at hnew
          split at hnew
          · exact ⟨_, hnew⟩
          · exact ⟨_, hnew⟩
          · cases hnew
        obtain ⟨spec, hspec⟩ := hspec
        obtain ⟨first, hok, -, rfl | rfl⟩ := specRules_ok hspec
        · exact List.mem_singleton.mp hrule ▸ hok
        · rcases List.mem_cons.mp hrule with rfl | hrule
          · exact hok
          · rw [List.mem_singleton.mp hrule]
            exact ⟨hok.fromTopic, hok.toTopic, hok.toDomain, hok.fromDomain⟩
    · exact ih h hrules

/-- **What a config yields**: rules with absolute names and domains in range. -/
theorem parse_ok {doc : PyYaml} {rules : List RuleTuple} {skipped : List Name}
    (h : parseDomainBridgeConfig doc = .ok (rules, skipped)) : ∀ rule ∈ rules, RuleOk rule := by
  unfold parseDomainBridgeConfig at h
  split at h
  · split at h
    · exact parseTopics_ok h nofun
    · exact parseTopics_ok h nofun
    · cases h
  · cases h

end Agnocast
