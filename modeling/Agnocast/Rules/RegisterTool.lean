import Agnocast.Discovery.DomainBridgeConfig
import Agnocast.Lib.Replay
import Agnocast.Rules.Grouping

/-!
# Domain rules — the registration tool

`register_domain_bridge` hands the rules of the configs to the module, in order, from the ipc
namespace it runs in. Its header promises that it may be run again.

* `addRule_settled`, `SettledRule.ruleChange` — the module's answers are settled, and stay.
* `registered_pairs`       — what an accepted rule means for ever after.
* `register_domain_bridge` — the tool: twice is once, and success pairs the cells.

That the wrapper can open the device is taken for granted.
-/

namespace Agnocast

variable {σ σ' : Kmod}

/-! ## The tool -/

/-- `add_agnocast_domain_bridge_rule`, from a namespace. -/
def addRule (env : Env) (ipcNs : IpcNs) (σ : Kmod) (rule : RuleTuple) : Except Errno Unit × Kmod :=
  addDomainBridge σ env rule.fromTopic rule.toTopic rule.fromDomain rule.toDomain ipcNs

/-- What `main` leaves behind: the exit code, what it prints for each rule (whether it was
registered), the topics it warns of, and the module. -/
structure RegisterRun where
  exitCode : Nat
  registered : List Bool
  skipped : List Name
  kmod : Kmod

/-- `main` of `register_domain_bridge.py`. -/
def registerDomainBridge (env : Env) (ipcNs : IpcNs) (σ : Kmod) (files : List ConfigFile) :
    RegisterRun :=
  let results := loadDomainBridgeRules files
  let answers := Replay.feed (addRule env ipcNs) σ (results.flatMap ConfigResult.rules)
  let failures := (answers.1.filter fun answer => !answer.isOk).length
  let unreadable := (results.filter ConfigResult.error).length
  { exitCode := if failures ≠ 0 ∨ unreadable ≠ 0 then 1 else 0
    registered := answers.1.map Except.isOk
    skipped := results.flatMap ConfigResult.skipped
    kmod := answers.2 }

/-! ## Answers that stay -/

variable {ipcNs : IpcNs} {rule : RuleTuple}

/-- The cell that a rule leads from. -/
def RuleTuple.cellFrom (rule : RuleTuple) (ipcNs : IpcNs) : Cell :=
  ⟨rule.fromTopic, ipcNs, rule.fromDomain⟩

/-- The cell that it leads to. -/
def RuleTuple.cellTo (rule : RuleTuple) (ipcNs : IpcNs) : Cell :=
  ⟨rule.toTopic, ipcNs, rule.toDomain⟩

/-- The rule of the module is for the two cells and no others. -/
def IsRuleOf (registered : DomainBridgeRule) (ipcNs : IpcNs) (rule : RuleTuple) : Prop :=
  registered.isPrefix = false ∧ registered.covers (rule.cellFrom ipcNs) = true ∧
    registered.covers (rule.cellTo ipcNs) = true

/-- The rule is registered, in its direction. -/
def Registered (σ : Kmod) (ipcNs : IpcNs) (rule : RuleTuple) : Prop :=
  ∃ r ∈ σ.domainRuleHtable, IsRuleOf (σ.domainRules r) ipcNs rule ∧
    (σ.domainRules r).enabled (rule.fromDomain < rule.toDomain) = true

/-- A topic exists for one of the cells. -/
def Joined (σ : Kmod) (ipcNs : IpcNs) (rule : RuleTuple) : Prop :=
  ∃ w ∈ σ.topicHashtable, w.cell = rule.cellFrom ipcNs ∨ w.cell = rule.cellTo ipcNs

/-- The rule cannot be registered: one of its cells belongs to another rule, or a topic
exists and the direction is off. -/
def RuleBlocked (σ : Kmod) (ipcNs : IpcNs) (rule : RuleTuple) : Prop :=
  (∃ r ∈ σ.domainRuleHtable, ((σ.domainRules r).covers (rule.cellFrom ipcNs) = true ∨
      (σ.domainRules r).covers (rule.cellTo ipcNs) = true) ∧
    ¬ IsRuleOf (σ.domainRules r) ipcNs rule) ∨
  Joined σ ipcNs rule ∧ ∀ r ∈ σ.domainRuleHtable, IsRuleOf (σ.domainRules r) ipcNs rule →
    (σ.domainRules r).enabled (rule.fromDomain < rule.toDomain) = false

/-- The answer to the rule is the one for ever. -/
def SettledRule (σ : Kmod) (ipcNs : IpcNs) (rule : RuleTuple) (answer : Except Errno Unit) : Prop :=
  rule.fromDomain = rule.toDomain ∧ answer = .error .EINVAL ∨
    rule.fromDomain ≠ rule.toDomain ∧
      (Registered σ ipcNs rule ∧ answer = .ok () ∨
        RuleBlocked σ ipcNs rule ∧ answer = .error .EBUSY)

theorem isRuleOf_enable {registered : DomainBridgeRule} {fromIsA : Bool} :
    IsRuleOf (registered.enable fromIsA) ipcNs rule ↔ IsRuleOf registered ipcNs rule := by
  have hpre : (registered.enable fromIsA).isPrefix = registered.isPrefix := by
    unfold DomainBridgeRule.enable
    split <;> rfl
  unfold IsRuleOf
  rw [hpre, DomainBridgeRule.covers_enable, DomainBridgeRule.covers_enable]

theorem enabled_enable {registered : DomainBridgeRule} {fromIsA : Bool} :
    (registered.enable fromIsA).enabled fromIsA = true := by
  cases fromIsA <;> simp [DomainBridgeRule.enable, DomainBridgeRule.enabled]

theorem enabled_of_enabled {registered : DomainBridgeRule} {fromIsA dir : Bool}
    (h : registered.enabled dir = true) : (registered.enable fromIsA).enabled dir = true := by
  cases fromIsA <;> cases dir <;> simp_all [DomainBridgeRule.enable, DomainBridgeRule.enabled]

/-- A rule of both cells is the one that a lookup finds. -/
private theorem find_isRuleOf (h : σ.RulesDisjoint) {r : Nat} (hr : r ∈ σ.domainRuleHtable)
    (hrule : IsRuleOf (σ.domainRules r) ipcNs rule) :
    findDomainRule σ (rule.cellFrom ipcNs) = some r ∧
      findDomainRule σ (rule.cellTo ipcNs) = some r :=
  ⟨(findDomainRule_eq_some_iff h).mpr ⟨hr, hrule.2.1⟩,
    (findDomainRule_eq_some_iff h).mpr ⟨hr, hrule.2.2⟩⟩

/-- `joined`. -/
private theorem joined_iff : ((findTopic σ (rule.cellFrom ipcNs)).isSome ||
    (findTopic σ (rule.cellTo ipcNs)).isSome) = true ↔ Joined σ ipcNs rule := by
  have hcell : ∀ c, (findTopic σ c).isSome = true ↔ ∃ w ∈ σ.topicHashtable, w.cell = c := by
    intro c
    rw [Option.isSome_iff_ne_none, Ne, findTopic_eq_none]
    push Not
    rfl
  rw [Bool.or_eq_true, hcell, hcell, ← exists_or]
  simp only [Joined, and_or_left]

/-- A rule that covers a cell, but is not of both, blocks. -/
private theorem blocked_of_find {r : Nat}
    (hfind : findDomainRule σ (rule.cellFrom ipcNs) = some r ∨
      findDomainRule σ (rule.cellTo ipcNs) = some r)
    (hnot : ¬ IsRuleOf (σ.domainRules r) ipcNs rule) : RuleBlocked σ ipcNs rule := by
  rcases hfind with hfind | hfind
  · obtain ⟨hr, hcov⟩ := findDomainRule_mem hfind
    exact .inl ⟨r, hr, .inl hcov, hnot⟩
  · obtain ⟨hr, hcov⟩ := findDomainRule_mem hfind
    exact .inl ⟨r, hr, .inr hcov, hnot⟩

/-- What a rule finds when it is handed to the module. -/
inductive AddRuleCase (env : Env) (ipcNs : IpcNs) (σ : Kmod) (rule : RuleTuple) : Prop
  | settled (answer : Except Errno Unit) (h : SettledRule σ ipcNs rule answer)
      (heq : addRule env ipcNs σ rule = (answer, σ))
  | new (hne : rule.fromDomain ≠ rule.toDomain)
      (hfrom : findDomainRule σ (rule.cellFrom ipcNs) = none)
      (hto : findDomainRule σ (rule.cellTo ipcNs) = none) (hfree : ¬ Joined σ ipcNs rule)
      (heq : addRule env ipcNs σ rule = insertDomainRule σ env (newDomainRule rule.fromTopic
        rule.toTopic rule.fromDomain rule.toDomain hne false ipcNs))
  | direction (hne : rule.fromDomain ≠ rule.toDomain) (r : Nat) (hr : r ∈ σ.domainRuleHtable)
      (hrule : IsRuleOf (σ.domainRules r) ipcNs rule) (hfree : ¬ Joined σ ipcNs rule)
      (hoff : (σ.domainRules r).enabled (rule.fromDomain < rule.toDomain) = false)
      (heq : addRule env ipcNs σ rule =
        (.ok (), σ.setRule r ((σ.domainRules r).enable (rule.fromDomain < rule.toDomain))))

/-- **The cases of ADD_DOMAIN_BRIDGE.** -/
theorem addRule_cases (env : Env) (ipcNs : IpcNs) (h : σ.RulesDisjoint) (rule : RuleTuple) :
    AddRuleCase env ipcNs σ rule := by
  by_cases hne : rule.fromDomain = rule.toDomain
  · exact .settled _ (.inl ⟨hne, rfl⟩) (dif_pos hne)
  have hadd : addRule env ipcNs σ rule = addDomainRule σ env rule.fromTopic rule.toTopic
      rule.fromDomain rule.toDomain hne ipcNs := dif_neg hne
  -- a rule of both cells is the one that both lookups find
  have hnot : ∀ {r : Nat}, r ∈ σ.domainRuleHtable → IsRuleOf (σ.domainRules r) ipcNs rule →
      findDomainRule σ (rule.cellFrom ipcNs) = some r ∧
        findDomainRule σ (rule.cellTo ipcNs) = some r := fun hr hrule => find_isRuleOf h hr hrule
  have hblocked : RuleBlocked σ ipcNs rule → addRule env ipcNs σ rule = (.error .EBUSY, σ) →
      AddRuleCase env ipcNs σ rule := fun h heq => .settled _ (.inr ⟨hne, .inr ⟨h, rfl⟩⟩) heq
  unfold addDomainRule at hadd
  simp only at hadd
  split at hadd
  · next hfrom hto =>
    split at hadd
    · next hjoined =>
      refine hblocked (.inr ⟨joined_iff.mp hjoined, fun r hr hrule => ?_⟩) hadd
      cases hfrom.symm.trans (hnot hr hrule).1
    · next hjoined => exact .new hne hfrom hto (fun h => hjoined (joined_iff.mpr h)) hadd
  · next rFrom rTo hfrom hto =>
    obtain ⟨hr, hcovFrom⟩ := findDomainRule_mem hfrom
    obtain ⟨-, hcovTo⟩ := findDomainRule_mem hto
    split at hadd
    · next hdiffer =>
      refine hblocked (blocked_of_find (.inl hfrom) fun hrule => hdiffer ?_) hadd
      exact Option.some.inj ((hnot hr hrule).2.symm.trans hto)
    next hsame =>
    obtain rfl := not_not.mp hsame
    split at hadd
    · next hpre =>
      refine hblocked (blocked_of_find (.inl hfrom) fun hrule => ?_) hadd
      rw [hrule.1] at hpre
      cases hpre
    next hexact =>
    have hrule : IsRuleOf (σ.domainRules rFrom) ipcNs rule :=
      ⟨Bool.eq_false_iff.mpr hexact, hcovFrom, hcovTo⟩
    split at hadd
    · next hon => exact .settled _ (.inr ⟨hne, .inl ⟨⟨rFrom, hr, hrule, hon⟩, rfl⟩⟩) hadd
    next hoff =>
    have hoff := Bool.eq_false_iff.mpr hoff
    split at hadd
    · next hjoined =>
      refine hblocked (.inr ⟨joined_iff.mp hjoined, fun r hr' hrule' => ?_⟩) hadd
      obtain rfl : rFrom = r := Option.some.inj (hfrom.symm.trans (hnot hr' hrule').1)
      exact hoff
    · next hjoined =>
      exact .direction hne rFrom hr hrule (fun h => hjoined (joined_iff.mpr h)) hoff hadd
  · next rFrom hfrom hto =>
    refine hblocked (blocked_of_find (.inl hfrom) fun hrule => ?_) hadd
    cases hto.symm.trans (hnot (findDomainRule_mem hfrom).1 hrule).2
  · next rTo hfrom hto =>
    refine hblocked (blocked_of_find (.inr hto) fun hrule => ?_) hadd
    cases hfrom.symm.trans (hnot (findDomainRule_mem hto).1 hrule).1

/-- Nothing fails while a rule is stored. -/
structure RuleAllocs (env : Env) : Prop where
  rule : env.kmalloc .domainBridgeRule = true
  nameA : env.kmalloc .ruleNameA = true
  nameB : env.kmalloc .ruleNameB = true

private theorem insertDomainRule_smooth {env : Env} (henv : RuleAllocs env)
    (registered : DomainBridgeRule) :
    insertDomainRule σ env registered = (.ok (),
      { σ.setRule σ.nextRulePtr registered with
        nextRulePtr := σ.nextRulePtr + 1
        domainRuleHtable :=
          HTable.hashAdd (env.place .domainRule) σ.domainRuleHtable σ.nextRulePtr }) := by
  unfold insertDomainRule
  rw [henv.rule, henv.nameA, henv.nameB]
  rfl

/-- A new rule is a rule of its cells, and its direction is on. -/
private theorem newDomainRule_spec (hne : rule.fromDomain ≠ rule.toDomain) :
    IsRuleOf (newDomainRule rule.fromTopic rule.toTopic rule.fromDomain rule.toDomain hne false
        ipcNs) ipcNs rule ∧
      (newDomainRule rule.fromTopic rule.toTopic rule.fromDomain rule.toDomain hne false
        ipcNs).enabled (rule.fromDomain < rule.toDomain) = true := by
  refine ⟨⟨?_, covers_newDomainRule_exact.mpr (.inl rfl),
    covers_newDomainRule_exact.mpr (.inr rfl)⟩, ?_⟩
  · unfold newDomainRule
    split <;> rfl
  · unfold newDomainRule
    split
    · next hlt => simp [DomainBridgeRule.enabled, hlt]
    · next hlt => simp [DomainBridgeRule.enabled, hlt]

/-- **An answer is settled when it is given.** -/
theorem addRule_settled {env : Env} (henv : RuleAllocs env) (h : σ.RulesDisjoint)
    (rule : RuleTuple) :
    SettledRule (addRule env ipcNs σ rule).2 ipcNs rule (addRule env ipcNs σ rule).1 := by
  cases addRule_cases env ipcNs h rule with
  | settled answer hsettled heq =>
    rw [heq]
    exact hsettled
  | new hne hfrom hto hfree heq =>
    rw [heq, insertDomainRule_smooth henv]
    refine .inr ⟨hne, .inl ⟨⟨σ.nextRulePtr, HTable.mem_hashAdd.mpr (.inl rfl), ?_⟩, rfl⟩⟩
    simp only [Kmod.setRule, Function.update_self]
    exact newDomainRule_spec hne
  | direction hne r hr hrule hfree hoff heq =>
    rw [heq]
    refine .inr ⟨hne, .inl ⟨⟨r, hr, ?_⟩, rfl⟩⟩
    simp only [Kmod.setRule, Function.update_self]
    exact ⟨isRuleOf_enable.mpr hrule, enabled_enable⟩

/-- The rules cover disjoint cells, so no other rule has one of the two. -/
private theorem isRuleOf_of_covers (h : σ.RulesDisjoint) {r r' : Nat}
    (hr : r ∈ σ.domainRuleHtable) (hrule : IsRuleOf (σ.domainRules r) ipcNs rule)
    (hr' : r' ∈ σ.domainRuleHtable)
    (hcov : (σ.domainRules r').covers (rule.cellFrom ipcNs) = true ∨
      (σ.domainRules r').covers (rule.cellTo ipcNs) = true) :
    IsRuleOf (σ.domainRules r') ipcNs rule := by
  have hsame : r = r' := by
    rcases hcov with hcov | hcov
    · exact h.disjoint r hr r' hr' _ hrule.2.1 hcov
    · exact h.disjoint r hr r' hr' _ hrule.2.2 hcov
  exact hsame ▸ hrule

private theorem not_blocked (h : σ.RulesDisjoint) (hreg : Registered σ ipcNs rule) :
    ¬ RuleBlocked σ ipcNs rule := by
  obtain ⟨r, hr, hrule, hon⟩ := hreg
  rintro (⟨r', hr', hcov, hnot⟩ | ⟨-, hoff⟩)
  · exact hnot (isRuleOf_of_covers h hr hrule hr' hcov)
  · rw [hoff r hr hrule] at hon
    cases hon

/-- There is one settled answer. -/
private theorem SettledRule.unique (h : σ.RulesDisjoint) {answer answer' : Except Errno Unit}
    (hsettled : SettledRule σ ipcNs rule answer) (hsettled' : SettledRule σ ipcNs rule answer') :
    answer = answer' := by
  rcases hsettled with ⟨hsame, rfl⟩ | ⟨hne, ⟨hreg, rfl⟩ | ⟨hblocked, rfl⟩⟩ <;>
    rcases hsettled' with ⟨hsame', rfl⟩ | ⟨hne', ⟨hreg', rfl⟩ | ⟨hblocked', rfl⟩⟩
  all_goals first
    | rfl
    | exact absurd hsame hne'
    | exact absurd hsame' hne
    | exact absurd hblocked' (not_blocked h hreg)
    | exact absurd hblocked (not_blocked h hreg')

/-- **Where an answer is settled**, it is given and nothing changes. -/
theorem addRule_of_settled (env : Env) (h : σ.RulesDisjoint) {answer : Except Errno Unit}
    (hsettled : SettledRule σ ipcNs rule answer) : addRule env ipcNs σ rule = (answer, σ) := by
  cases addRule_cases env ipcNs h rule with
  | settled answer' hsettled' heq => rw [heq, hsettled'.unique h hsettled]
  | new hne hfrom hto hfree _ =>
    exfalso
    rcases hsettled with ⟨hsame, -⟩ | ⟨-, ⟨⟨r, hr, hrule, -⟩, -⟩ |
      ⟨⟨r, hr, hcov | hcov, -⟩ | ⟨hjoined, -⟩, -⟩⟩
    · exact hne hsame
    · cases hfrom.symm.trans (find_isRuleOf h hr hrule).1
    · rw [findDomainRule_eq_none.mp hfrom r hr] at hcov
      cases hcov
    · rw [findDomainRule_eq_none.mp hto r hr] at hcov
      cases hcov
    · exact hfree hjoined
  | direction hne r hr hrule hfree hoff _ =>
    exfalso
    rcases hsettled with ⟨hsame, -⟩ | ⟨-, ⟨⟨r', hr', hrule', hon⟩, -⟩ |
      ⟨⟨r', hr', hcov, hnot⟩ | ⟨hjoined, -⟩, -⟩⟩
    · exact hne hsame
    · obtain rfl := h.disjoint r hr r' hr' _ hrule.2.1 hrule'.2.1
      rw [hoff] at hon
      cases hon
    · exact hnot (isRuleOf_of_covers h hr hrule hr' hcov)
    · exact hfree hjoined

/-! ## Nothing takes an answer back -/

/-- A rule that is there stays, with the directions it has. -/
private theorem rule_kept (h : σ.RulesDisjoint) (hchange : RuleChange σ σ') {r : Nat}
    (hr : r ∈ σ.domainRuleHtable) : r ∈ σ'.domainRuleHtable ∧
      (σ'.domainRules r = σ.domainRules r ∨
        Uncovered σ (σ.domainRules r) ∧
          ∃ fromIsA, σ'.domainRules r = (σ.domainRules r).enable fromIsA) := by
  cases hchange with
  | none => exact ⟨hr, .inl rfl⟩
  | insert place rule hdisjoint hfree =>
    refine ⟨HTable.mem_hashAdd.mpr (.inr hr), .inl ?_⟩
    exact Function.update_of_ne (h.ptr_lt r hr).ne _ _
  | enable r' fromIsA hr' hfree =>
    refine ⟨hr, ?_⟩
    by_cases hsame : r = r'
    · subst hsame
      exact .inr ⟨hfree, fromIsA, Function.update_self ..⟩
    · exact .inl (Function.update_of_ne hsame _ _)

/-- A rule is one that was there, or it covers the cell of no topic. -/
private theorem rule_new (hchange : RuleChange σ σ') {r : Nat} (hr : r ∈ σ'.domainRuleHtable) :
    r ∈ σ.domainRuleHtable ∧ σ'.domainRules r = σ.domainRules r ∨
      Uncovered σ (σ'.domainRules r) := by
  cases hchange with
  | none => exact .inl ⟨hr, rfl⟩
  | insert place rule hdisjoint hfree =>
    by_cases hsame : r = σ.nextRulePtr
    · right
      subst hsame
      simp only [Kmod.setRule, Function.update_self]
      exact hfree
    · left
      refine ⟨(HTable.mem_hashAdd.mp hr).resolve_left hsame, ?_⟩
      exact Function.update_of_ne hsame _ _
  | enable r' fromIsA hr' hfree =>
    by_cases hsame : r = r'
    · right
      subst hsame
      simp only [Kmod.setRule, Function.update_self]
      intro w hw
      rw [DomainBridgeRule.covers_enable]
      exact hfree w hw
    · exact .inl ⟨hr, Function.update_of_ne hsame _ _⟩

private theorem topicHashtable_ruleChange (hchange : RuleChange σ σ') :
    σ'.topicHashtable = σ.topicHashtable := by
  cases hchange <;> rfl

theorem Registered.ruleChange (h : σ.RulesDisjoint) (hreg : Registered σ ipcNs rule)
    (hchange : RuleChange σ σ') : Registered σ' ipcNs rule := by
  obtain ⟨r, hr, hrule, hon⟩ := hreg
  obtain ⟨hr', heq | ⟨-, fromIsA, heq⟩⟩ := rule_kept h hchange hr
  · exact ⟨r, hr', heq ▸ hrule, heq ▸ hon⟩
  · refine ⟨r, hr', ?_⟩
    rw [heq]
    exact ⟨isRuleOf_enable.mpr hrule, enabled_of_enabled hon⟩

theorem RuleBlocked.ruleChange (h : σ.RulesDisjoint) (hblocked : RuleBlocked σ ipcNs rule)
    (hchange : RuleChange σ σ') : RuleBlocked σ' ipcNs rule := by
  rcases hblocked with ⟨r, hr, hcov, hnot⟩ | ⟨⟨w, hw, hcell⟩, hoff⟩
  · obtain ⟨hr', heq | ⟨-, fromIsA, heq⟩⟩ := rule_kept h hchange hr
    · exact .inl ⟨r, hr', heq ▸ hcov, heq ▸ hnot⟩
    · refine .inl ⟨r, hr', ?_⟩
      rw [heq, DomainBridgeRule.covers_enable, DomainBridgeRule.covers_enable, isRuleOf_enable]
      exact ⟨hcov, hnot⟩
  · refine .inr ⟨⟨w, (topicHashtable_ruleChange hchange).symm ▸ hw, hcell⟩, fun r hr hrule => ?_⟩
    rcases rule_new hchange hr with ⟨hr', heq⟩ | hfree
    · rw [heq] at hrule ⊢
      exact hoff r hr' hrule
    · -- a rule with a topic in one of its cells is not added, and no direction turned on
      have hcov : (σ'.domainRules r).covers w.cell = true := by
        rcases hcell with hcell | hcell <;> rw [hcell]
        · exact hrule.2.1
        · exact hrule.2.2
      rw [hfree w hw] at hcov
      cases hcov

/-- **A settled answer stays.** -/
theorem SettledRule.ruleChange (h : σ.RulesDisjoint) {answer : Except Errno Unit}
    (hsettled : SettledRule σ ipcNs rule answer) (hchange : RuleChange σ σ') :
    SettledRule σ' ipcNs rule answer :=
  hsettled.imp id (And.imp_right (Or.imp (And.imp_left fun hreg => hreg.ruleChange h hchange)
    (And.imp_left fun hblocked => hblocked.ruleChange h hchange)))

/-- **A registered rule stays** through whatever the module is asked later. -/
theorem Registered.step (h : Reachable σ) (hreg : Registered σ ipcNs rule) (i : Input) :
    Registered (Agnocast.step σ i).2 ipcNs rule := by
  rcases step_moves h.wellFormed i with hchange | hmoves
  · exact hreg.ruleChange h.grouped.toRulesDisjoint hchange
  · have hsame := hmoves.sameRules
    unfold Registered
    rw [hsame.domainRuleHtable, hsame.domainRules]
    exact hreg

theorem Registered.exec (h : Reachable σ) (hreg : Registered σ ipcNs rule)
    (tr : List (Transition.Event Kmod Input Reply)) (is : List Input) :
    Reachable (kmod.exec σ tr is).2 ∧ Registered (kmod.exec σ tr is).2 ipcNs rule := by
  induction is generalizing σ tr with
  | nil => exact ⟨h, hreg⟩
  | cons i is ih => exact ih (h.step i) (hreg.step h i) _

/-- A rule of two cells pairs them. -/
theorem IsRuleOf.pairs {registered : DomainBridgeRule} (h : IsRuleOf registered ipcNs rule)
    (hne : rule.fromDomain ≠ rule.toDomain) :
    registered.Pairs (rule.cellFrom ipcNs) (rule.cellTo ipcNs) := by
  obtain ⟨hexact, hfrom, hto⟩ := h
  refine ⟨hfrom, ?_⟩
  have hlt := registered.canonical
  rw [DomainBridgeRule.covers_iff] at hfrom hto
  simp only [hexact, Bool.false_eq_true, ↓reduceIte] at hfrom hto
  unfold DomainBridgeRule.partnerCell
  unfold RuleTuple.cellFrom RuleTuple.cellTo at *
  simp only [hexact, Bool.false_eq_true, ↓reduceIte] at hfrom hto ⊢
  -- each of the two cells is one side of the rule, and not the same one
  grind

/-- **What a registered rule means**: topics in its two cells are one. -/
theorem registered_pairs (h : Reachable σ) (hreg : Registered σ ipcNs rule)
    (hne : rule.fromDomain ≠ rule.toDomain) {w w' : TopicWrapper}
    (hw : findTopic σ (rule.cellFrom ipcNs) = some w)
    (hw' : findTopic σ (rule.cellTo ipcNs) = some w') : w.topic = w'.topic := by
  obtain ⟨r, hr, hrule, -⟩ := hreg
  obtain ⟨hmem, hcell⟩ := findTopic_mem hw
  obtain ⟨hmem', hcell'⟩ := findTopic_mem hw'
  refine (h.grouped.shared w hmem w' hmem').mpr (.inr ⟨r, hr, ?_⟩)
  rw [hcell, hcell']
  exact hrule.pairs hne

/-! ## The runs of the tool -/

theorem addRule_ruleChange (env : Env) (ipcNs : IpcNs) (σ : Kmod) (rule : RuleTuple) :
    RuleChange σ (addRule env ipcNs σ rule).2 :=
  addDomainBridge_change env rule.fromTopic rule.toTopic rule.fromDomain rule.toDomain ipcNs

/-- What feeding the rules keeps. -/
private theorem addRule_grouped (env : Env) (ipcNs : IpcNs) (σ : Kmod) (rule : RuleTuple)
    (h : σ.Grouped) : (addRule env ipcNs σ rule).2.Grouped :=
  h.ruleChange (addRule_ruleChange env ipcNs σ rule)

private theorem addRule_reachable (env : Env) (ipcNs : IpcNs) (σ : Kmod) (rule : RuleTuple)
    (h : Reachable σ) : Reachable (addRule env ipcNs σ rule).2 :=
  h.step ⟨env, .addDomainBridge rule.fromTopic rule.toTopic rule.fromDomain rule.toDomain ipcNs⟩

private theorem addRule_settles {env : Env} (henv : RuleAllocs env) (ipcNs : IpcNs) :
    Replay.Settles (addRule env ipcNs) (fun σ => σ.Grouped) (SettledRule · ipcNs) where
  invariant := addRule_grouped env ipcNs
  made := fun _ rule h => addRule_settled henv h.toRulesDisjoint rule
  kept := fun σ _ _ rule h hr => hr.ruleChange h.toRulesDisjoint (addRule_ruleChange env ipcNs σ rule)
  settled := fun _ _ _ h hr => addRule_of_settled env h.toRulesDisjoint hr

/-- The rule pairs its cells, in every state that the module can get to. -/
structure PairsForever (σ : Kmod) (ipcNs : IpcNs) (rule : RuleTuple) : Prop where
  domains : rule.fromDomain ≠ rule.toDomain
  registered : ∀ is : List Input, Registered (kmod.exec σ [] is).2 ipcNs rule
  shared : ∀ (is : List Input) (w w' : TopicWrapper),
    findTopic (kmod.exec σ [] is).2 (rule.cellFrom ipcNs) = some w →
    findTopic (kmod.exec σ [] is).2 (rule.cellTo ipcNs) = some w' → w.topic = w'.topic

theorem pairsForever (h : Reachable σ) (hreg : Registered σ ipcNs rule)
    (hne : rule.fromDomain ≠ rule.toDomain) : PairsForever σ ipcNs rule where
  domains := hne
  registered := fun is => (hreg.exec h [] is).2
  shared := by
    intro is w w' hw hw'
    obtain ⟨hreach, hreg⟩ := hreg.exec h [] is
    exact registered_pairs hreach hreg hne hw hw'

/-- **The registration tool.** Whatever the configs, the topics and the rules that are there:
a second run prints the same, exits with the same code and leaves the module as the first did;
and when a run exits with zero, every config could be used, its rules are well formed, and
each of them pairs its cells for ever after. -/
theorem register_domain_bridge (h : Reachable σ) {env : Env} (henv : RuleAllocs env)
    (ipcNs : IpcNs) (files : List ConfigFile) :
    registerDomainBridge env ipcNs (registerDomainBridge env ipcNs σ files).kmod files =
        registerDomainBridge env ipcNs σ files ∧
      ((registerDomainBridge env ipcNs σ files).exitCode = 0 → ∀ file ∈ files,
        ∃ doc rules skipped, file = some doc ∧ parseDomainBridgeConfig doc = .ok (rules, skipped) ∧
          ∀ rule ∈ rules, RuleOk rule ∧
            PairsForever (registerDomainBridge env ipcNs σ files).kmod ipcNs rule) := by
  constructor
  · unfold registerDomainBridge
    simp only
    rw [(addRule_settles henv ipcNs).feed_feed h.grouped]
  · intro hexit file hfile
    unfold registerDomainBridge at hexit
    simp only at hexit
    obtain ⟨hfailures, hunreadable⟩ : ((Replay.feed (addRule env ipcNs) σ
        ((loadDomainBridgeRules files).flatMap ConfigResult.rules)).1.filter fun answer =>
          !answer.isOk).length = 0 ∧
        ((loadDomainBridgeRules files).filter ConfigResult.error).length = 0 := by
      by_contra hne
      rw [if_pos (by omega)] at hexit
      cases hexit
    have hload : loadConfig file ∈ loadDomainBridgeRules files := List.mem_map_of_mem hfile
    have hread : (loadConfig file).error = false := by
      have hnone := List.filter_eq_nil_iff.mp (List.length_eq_zero_iff.mp hunreadable) _ hload
      simpa using hnone
    -- so the file is a document that parses
    obtain ⟨doc, rules, skipped, rfl, hparse⟩ : ∃ doc rules skipped, file = some doc ∧
        parseDomainBridgeConfig doc = .ok (rules, skipped) := by
      unfold loadConfig at hread
      split at hread
      · cases hread
      · next doc =>
        split at hread
        · cases hread
        · next rules skipped hparse => exact ⟨doc, rules, skipped, rfl, hparse⟩
    refine ⟨doc, rules, skipped, rfl, hparse, fun rule hrule => ⟨parse_ok hparse rule hrule, ?_⟩⟩
    have hmem : rule ∈ (loadDomainBridgeRules files).flatMap ConfigResult.rules := by
      refine List.mem_flatMap.mpr ⟨_, hload, ?_⟩
      unfold loadConfig
      simp only
      rw [hparse]
      exact hrule
    -- its answer is a success, and settled
    obtain ⟨answer, hanswer, hsettled⟩ :=
      HTable.exists_of_forall₂ ((addRule_settles henv ipcNs).feed_answers h.grouped _).flip hmem
    have hok : answer.isOk = true := by
      have hnone := List.filter_eq_nil_iff.mp (List.length_eq_zero_iff.mp hfailures) _ hanswer
      simpa using hnone
    rcases hsettled with ⟨-, rfl⟩ | ⟨hne, ⟨hreg, -⟩ | ⟨-, rfl⟩⟩
    · cases hok
    · exact pairsForever (Replay.feed_invariant (addRule_reachable env ipcNs) h _) hreg hne
    · cases hok

/-- A config whose one topic is bridged both ways between the domains 1 and 2. -/
def bothWaysConfig : PyYaml :=
  .dict [(.str "from_domain".toList, .scalar (.int 1)), (.str "to_domain".toList, .scalar (.int 2)),
    (.str "topics".toList, .dict [(.str "chatter".toList,
      .dict [(.str "bidirectional".toList, .scalar (.bool true))])])]

theorem register_both_ways :
    registerDomainBridge .smooth 7 (registerDomainBridge .smooth 7 (.loaded (poolsOf 2))
        [some bothWaysConfig]).kmod [some bothWaysConfig] =
      registerDomainBridge .smooth 7 (.loaded (poolsOf 2)) [some bothWaysConfig] ∧
    ∃ rules skipped, parseDomainBridgeConfig bothWaysConfig = .ok (rules, skipped) ∧
      ∀ rule ∈ rules, PairsForever (registerDomainBridge .smooth 7 (.loaded (poolsOf 2))
        [some bothWaysConfig]).kmod 7 rule := by
  have h : Reachable (.loaded (poolsOf 2)) :=
    ⟨[], .init (moduleInit_poolsOf (by decide) (by decide))⟩
  have henv : RuleAllocs .smooth := ⟨rfl, rfl, rfl⟩
  obtain ⟨hagain, hzero⟩ := register_domain_bridge h henv 7 [some bothWaysConfig]
  obtain ⟨doc, rules, skipped, hdoc, hparse, hpairs⟩ := hzero (by decide) _ List.mem_cons_self
  cases hdoc
  exact ⟨hagain, rules, skipped, hparse, fun rule hrule => (hpairs rule hrule).2⟩

end Agnocast
