import Agnocast.Kmod.Topic

/-!
# The kernel module — domain bridge rules

`find_domain_rule`, `find_grouped_topic_struct`, `insert_domain_rule`,
`add_domain_rule` and `add_prefix_domain_rule` of `agnocast_ioctl.c`.

A rule is keyed by *cells*: one topic name in one domain of one ipc namespace. An
exact rule pairs two cells, whose names differ on a rename; a prefix rule pairs
every name under the prefix with the same name in the partner domain.
-/

namespace Agnocast

/-- What a topic wrapper and a rule are keyed by. -/
structure Cell where
  key : Name
  ipcNs : IpcNs
  domainId : Nat
  deriving DecidableEq, Repr

/-- The cell a wrapper stands for. -/
def TopicWrapper.cell (w : TopicWrapper) : Cell := ⟨w.key, w.ipcNs, w.domainId⟩

namespace DomainBridgeRule

/-- The test of `find_domain_rule`. `strncmp` over the length of the stored name
asks for a prefix. -/
def covers (rule : DomainBridgeRule) (c : Cell) : Bool :=
  if c.ipcNs ≠ rule.ipcNs then false
  else if c.domainId ≠ rule.domainA ∧ c.domainId ≠ rule.domainB then false
  else if rule.isPrefix then rule.topicNameA <+: c.key
  else
    (c.domainId = rule.domainA ∧ rule.topicNameA = c.key) ∨
      (c.domainId = rule.domainB ∧ rule.topicNameB = c.key)

/-- The cell `find_grouped_topic_struct` looks up for a covered cell. -/
def partnerCell (rule : DomainBridgeRule) (c : Cell) : Option Cell :=
  if c.domainId = rule.domainA then
    some ⟨if rule.isPrefix then c.key else rule.topicNameB, c.ipcNs, rule.domainB⟩
  else if c.domainId = rule.domainB then
    some ⟨if rule.isPrefix then c.key else rule.topicNameA, c.ipcNs, rule.domainA⟩
  else none

/-- Whether the direction is already on; `fromIsA` is `from_domain < to_domain`. -/
def enabled (rule : DomainBridgeRule) (fromIsA : Bool) : Bool :=
  (fromIsA && rule.aToB) || (!fromIsA && rule.bToA)

/-- Turn one direction on. -/
def enable (rule : DomainBridgeRule) (fromIsA : Bool) : DomainBridgeRule :=
  if fromIsA then { rule with aToB := true } else { rule with bToA := true }

end DomainBridgeRule

variable (σ : Kmod)

/-- `find_topic`. -/
def findTopic (c : Cell) : Option TopicWrapper := HTable.lookup TopicWrapper.cell c σ.topicHashtable

/-- `find_domain_rule`. -/
def findDomainRule (c : Cell) : Option Nat :=
  σ.domainRuleHtable.find? fun r => (σ.domainRules r).covers c

/-- `find_grouped_topic_struct`. -/
def findGroupedTopicStruct (c : Cell) : Option Nat :=
  match findDomainRule σ c with
  | none => none
  | some r =>
    match (σ.domainRules r).partnerCell c with
    | none => none
    | some partner => (findTopic σ partner).map TopicWrapper.topic

/-- The record `insert_domain_rule` stores: the pair in canonical order, each
domain with its own name, and one direction on. -/
def newDomainRule (topicNameFrom topicNameTo : Name) (fromDomain toDomain : Nat)
    (hne : fromDomain ≠ toDomain) (isPrefix : Bool) (ipcNs : IpcNs) : DomainBridgeRule :=
  if hlt : fromDomain < toDomain then
    { topicNameA := topicNameFrom, topicNameB := topicNameTo, ipcNs := ipcNs
      domainA := fromDomain, domainB := toDomain, aToB := true, bToA := false
      isPrefix := isPrefix, canonical := hlt }
  else
    { topicNameA := topicNameTo, topicNameB := topicNameFrom, ipcNs := ipcNs
      domainA := toDomain, domainB := fromDomain, aToB := false, bToA := true
      isPrefix := isPrefix, canonical := by omega }

/-- Overwrite one rule. -/
def Kmod.setRule (r : Nat) (rule : DomainBridgeRule) : Kmod :=
  { σ with domainRules := Function.update σ.domainRules r rule }

/-- `insert_domain_rule`. -/
def insertDomainRule (env : Env) (rule : DomainBridgeRule) : Except Errno Unit × Kmod :=
  if !env.kmalloc .domainBridgeRule then (.error .ENOMEM, σ)
  else if !env.kmalloc .ruleNameA || !env.kmalloc .ruleNameB then (.error .ENOMEM, σ)
  else
    (.ok (),
      { σ.setRule σ.nextRulePtr rule with
        nextRulePtr := σ.nextRulePtr + 1
        domainRuleHtable :=
          HTable.hashAdd (env.place .domainRule) σ.domainRuleHtable σ.nextRulePtr })

/-- `add_domain_rule`. `r_from` and `r_to` are compared as pointers. -/
def addDomainRule (env : Env) (topicNameFrom topicNameTo : Name) (fromDomain toDomain : Nat)
    (hne : fromDomain ≠ toDomain) (ipcNs : IpcNs) : Except Errno Unit × Kmod :=
  let cellFrom : Cell := ⟨topicNameFrom, ipcNs, fromDomain⟩
  let cellTo : Cell := ⟨topicNameTo, ipcNs, toDomain⟩
  let joined := (findTopic σ cellFrom).isSome || (findTopic σ cellTo).isSome
  match findDomainRule σ cellFrom, findDomainRule σ cellTo with
  | none, none =>
    if joined then (.error .EBUSY, σ)
    else
      insertDomainRule σ env
        (newDomainRule topicNameFrom topicNameTo fromDomain toDomain hne false ipcNs)
  | some rFrom, some rTo =>
    if rFrom ≠ rTo then (.error .EBUSY, σ)
    else
      let rule := σ.domainRules rFrom
      let fromIsA : Bool := fromDomain < toDomain
      if rule.isPrefix then (.error .EBUSY, σ)
      -- declared before
      else if rule.enabled fromIsA then (.ok (), σ)
      -- the other direction of the rule, which a topic that is there already may not get
      else if joined then (.error .EBUSY, σ)
      else (.ok (), σ.setRule rFrom (rule.enable fromIsA))
  | some _, none => (.error .EBUSY, σ)
  | none, some _ => (.error .EBUSY, σ)

/-- `any_topic_under_prefix`. -/
def anyTopicUnderPrefix (topicNamePrefix : Name) (ipcNs : IpcNs) (fromDomain toDomain : Nat) :
    Bool :=
  σ.topicHashtable.any fun w =>
    w.ipcNs = ipcNs ∧ (w.domainId = fromDomain ∨ w.domainId = toDomain) ∧ topicNamePrefix <+: w.key

/-- `nests` in `add_prefix_domain_rule`: one of the two prefixes is a prefix of the
other. -/
def DomainBridgeRule.nests (rule : DomainBridgeRule) (topicNamePrefix : Name) : Bool :=
  if rule.topicNameA.length ≤ topicNamePrefix.length then rule.topicNameA <+: topicNamePrefix
  else topicNamePrefix <+: rule.topicNameA

/-- `shares_domain` in `add_prefix_domain_rule`. -/
def DomainBridgeRule.sharesDomain (rule : DomainBridgeRule) (domainA domainB : Nat) : Bool :=
  rule.domainA = domainA ∨ rule.domainA = domainB ∨ rule.domainB = domainA ∨ rule.domainB = domainB

/-- The loop of `add_prefix_domain_rule` over the registered rules: refuse every
overlap but an identical prefix rule, which is remembered in `same`. -/
def prefixOverlapLoop (topicNamePrefix : Name) (domainA domainB : Nat) (ipcNs : IpcNs) :
    List Nat → Option Nat → Except Errno (Option Nat)
  | [], same => .ok same
  | r :: rest, same =>
    let rule := σ.domainRules r
    if ipcNs ≠ rule.ipcNs then prefixOverlapLoop topicNamePrefix domainA domainB ipcNs rest same
    else if rule.isPrefix then
      if !rule.nests topicNamePrefix || !rule.sharesDomain domainA domainB then
        prefixOverlapLoop topicNamePrefix domainA domainB ipcNs rest same
      -- nested prefixes of one length are equal
      else if rule.topicNameA.length = topicNamePrefix.length then
        if rule.domainA = domainA ∧ rule.domainB = domainB then
          prefixOverlapLoop topicNamePrefix domainA domainB ipcNs rest (some r)
        else .error .EBUSY
      else .error .EBUSY
    else if
      -- an exact rule under the prefix
      ((rule.domainA = domainA ∨ rule.domainA = domainB) ∧ topicNamePrefix <+: rule.topicNameA) ∨
        ((rule.domainB = domainA ∨ rule.domainB = domainB) ∧ topicNamePrefix <+: rule.topicNameB)
      then .error .EBUSY
    else prefixOverlapLoop topicNamePrefix domainA domainB ipcNs rest same

/-- `add_prefix_domain_rule`. -/
def addPrefixDomainRule (env : Env) (topicNamePrefix : Name) (fromDomain toDomain : Nat)
    (hne : fromDomain ≠ toDomain) (ipcNs : IpcNs) : Except Errno Unit × Kmod :=
  let joined := anyTopicUnderPrefix σ topicNamePrefix ipcNs fromDomain toDomain
  match prefixOverlapLoop σ topicNamePrefix (min fromDomain toDomain) (max fromDomain toDomain)
      ipcNs σ.domainRuleHtable none with
  | .error e => (.error e, σ)
  | .ok (some same) =>
    -- a re-declaration, in this direction or the other
    let rule := σ.domainRules same
    let fromIsA : Bool := fromDomain < toDomain
    if rule.enabled fromIsA then (.ok (), σ)
    else if joined then (.error .EBUSY, σ)
    else (.ok (), σ.setRule same (rule.enable fromIsA))
  | .ok none =>
    if joined then (.error .EBUSY, σ)
    else
      insertDomainRule σ env
        (newDomainRule topicNamePrefix topicNamePrefix fromDomain toDomain hne true ipcNs)

/-- `agnocast_ioctl_add_domain_bridge`. -/
def addDomainBridge (env : Env) (topicNameFrom topicNameTo : Name) (fromDomain toDomain : Nat)
    (ipcNs : IpcNs) : Except Errno Unit × Kmod :=
  if hne : fromDomain = toDomain then (.error .EINVAL, σ)
  else addDomainRule σ env topicNameFrom topicNameTo fromDomain toDomain hne ipcNs

/-- `agnocast_ioctl_add_domain_bridge_prefix`. -/
def addDomainBridgePrefix (env : Env) (topicNamePrefix : Name) (fromDomain toDomain : Nat)
    (ipcNs : IpcNs) : Except Errno Unit × Kmod :=
  if hne : fromDomain = toDomain then (.error .EINVAL, σ)
  else if topicNamePrefix.head? ≠ some '/' ∨ topicNamePrefix.length = 1 then (.error .EINVAL, σ)
  else addPrefixDomainRule σ env topicNamePrefix fromDomain toDomain hne ipcNs

end Agnocast
