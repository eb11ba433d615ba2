import Agnocast.Kmod.DomainRule

/-!
# Domain rules — registration

What an accepted or rejected declaration does to the registered rules
(`RuleChange`): nothing, or one new rule that covers no cell another rule covers,
or one more direction of an existing rule. The last two only while no topic
wrapper exists for a covered cell.

* `addDomainBridge_change`, `addDomainBridgePrefix_change` — both ioctls do no
  more than that, whatever is declared.
-/

namespace Agnocast

variable {σ : Kmod}

/-! ## What a rule covers -/

namespace DomainBridgeRule

theorem covers_iff {rule : DomainBridgeRule} {c : Cell} :
    rule.covers c = true ↔ c.ipcNs = rule.ipcNs ∧
      (c.domainId = rule.domainA ∨ c.domainId = rule.domainB) ∧
      if rule.isPrefix then rule.topicNameA <+: c.key
      else (c.domainId = rule.domainA ∧ rule.topicNameA = c.key) ∨
        (c.domainId = rule.domainB ∧ rule.topicNameB = c.key) := by
  unfold covers
  by_cases hns : c.ipcNs = rule.ipcNs
  · by_cases hdom : c.domainId = rule.domainA ∨ c.domainId = rule.domainB
    · have hdom' : ¬ (c.domainId ≠ rule.domainA ∧ c.domainId ≠ rule.domainB) := by
        rcases hdom with hdom | hdom <;> simp [hdom]
      rw [if_neg (not_not.mpr hns), if_neg hdom']
      simp only [hns, hdom, true_and]
      split <;> simp
    · obtain ⟨ha, hb⟩ := not_or.mp hdom
      rw [if_neg (not_not.mpr hns), if_pos ⟨ha, hb⟩]
      simp [hdom]
  · rw [if_pos hns]
    simp [hns]

/-- Directions play no part in what a rule covers. -/
@[simp] theorem covers_enable (rule : DomainBridgeRule) (fromIsA : Bool) (c : Cell) :
    (rule.enable fromIsA).covers c = rule.covers c := by
  unfold enable
  split <;> rfl

@[simp] theorem partnerCell_enable (rule : DomainBridgeRule) (fromIsA : Bool) (c : Cell) :
    (rule.enable fromIsA).partnerCell c = rule.partnerCell c := by
  unfold enable
  split <;> rfl

end DomainBridgeRule

/-- An exact rule covers the two cells it was declared for. -/
theorem covers_newDomainRule_exact {nameFrom nameTo : Name} {fromDomain toDomain : Nat}
    {hne : fromDomain ≠ toDomain} {ipcNs : IpcNs} {c : Cell} :
    (newDomainRule nameFrom nameTo fromDomain toDomain hne false ipcNs).covers c = true ↔
      c = ⟨nameFrom, ipcNs, fromDomain⟩ ∨ c = ⟨nameTo, ipcNs, toDomain⟩ := by
  obtain ⟨key, ns, dom⟩ := c
  rw [DomainBridgeRule.covers_iff]
  unfold newDomainRule
  split <;> simp only [Bool.false_eq_true, ↓reduceIte, Cell.mk.injEq] <;> grind

/-- A prefix rule covers every name under the prefix in both domains. -/
theorem covers_newDomainRule_pre {pre : Name} {fromDomain toDomain : Nat}
    {hne : fromDomain ≠ toDomain} {ipcNs : IpcNs} {c : Cell} :
    (newDomainRule pre pre fromDomain toDomain hne true ipcNs).covers c = true ↔
      c.ipcNs = ipcNs ∧ (c.domainId = fromDomain ∨ c.domainId = toDomain) ∧ pre <+: c.key := by
  rw [DomainBridgeRule.covers_iff]
  unfold newDomainRule
  split <;> simp only [↓reduceIte]
  rw [or_comm (a := c.domainId = toDomain)]

/-- An exact rule that covers both cells of a declaration covers nothing else. -/
private theorem covers_of_pair {rule : DomainBridgeRule} (hexact : rule.isPrefix = false)
    {nameFrom nameTo : Name} {fromDomain toDomain : Nat} (hne : fromDomain ≠ toDomain)
    {ipcNs : IpcNs} (hfrom : rule.covers ⟨nameFrom, ipcNs, fromDomain⟩ = true)
    (hto : rule.covers ⟨nameTo, ipcNs, toDomain⟩ = true) {c : Cell} (hc : rule.covers c = true) :
    c = ⟨nameFrom, ipcNs, fromDomain⟩ ∨ c = ⟨nameTo, ipcNs, toDomain⟩ := by
  obtain ⟨key, ns, dom⟩ := c
  rw [DomainBridgeRule.covers_iff] at hfrom hto hc
  simp only [hexact, Bool.false_eq_true, ↓reduceIte, Cell.mk.injEq] at hfrom hto hc ⊢
  grind

/-! ## Finding a rule -/

theorem findDomainRule_eq_none {c : Cell} :
    findDomainRule σ c = none ↔ ∀ r ∈ σ.domainRuleHtable, (σ.domainRules r).covers c = false := by
  simp [findDomainRule]

theorem findDomainRule_mem {c : Cell} {r : Nat} (h : findDomainRule σ c = some r) :
    r ∈ σ.domainRuleHtable ∧ (σ.domainRules r).covers c = true :=
  ⟨List.mem_of_find?_eq_some h, by simpa using List.find?_some h⟩

theorem findTopic_eq_none {c : Cell} :
    findTopic σ c = none ↔ ∀ w ∈ σ.topicHashtable, w.cell ≠ c := HTable.lookup_eq_none_iff

/-! ## What a declaration can do -/

/-- No wrapper exists for a cell of the rule. -/
def Uncovered (σ : Kmod) (rule : DomainBridgeRule) : Prop :=
  ∀ w ∈ σ.topicHashtable, rule.covers w.cell = false

/-- The effect of a declaration on the module's state. -/
inductive RuleChange (σ : Kmod) : Kmod → Prop
  | none : RuleChange σ σ
  | insert (place : Nat) (rule : DomainBridgeRule)
      (hdisjoint : ∀ r ∈ σ.domainRuleHtable, ∀ c, (σ.domainRules r).covers c = true →
        rule.covers c = false)
      (hfree : Uncovered σ rule) :
      RuleChange σ
        { σ.setRule σ.nextRulePtr rule with
          nextRulePtr := σ.nextRulePtr + 1
          domainRuleHtable := HTable.hashAdd place σ.domainRuleHtable σ.nextRulePtr }
  | enable (r : Nat) (fromIsA : Bool) (hr : r ∈ σ.domainRuleHtable)
      (hfree : Uncovered σ (σ.domainRules r)) :
      RuleChange σ (σ.setRule r ((σ.domainRules r).enable fromIsA))

private theorem insertDomainRule_change (env : Env) {rule : DomainBridgeRule}
    (hdisjoint : ∀ r ∈ σ.domainRuleHtable, ∀ c, (σ.domainRules r).covers c = true →
      rule.covers c = false)
    (hfree : Uncovered σ rule) : RuleChange σ (insertDomainRule σ env rule).2 := by
  unfold insertDomainRule
  split
  · exact .none
  split
  · exact .none
  · exact .insert _ rule hdisjoint hfree

/-! ## Exact declarations -/

private theorem uncovered_of_cells {rule : DomainBridgeRule} {cellFrom cellTo : Cell}
    (hcells : ∀ c, rule.covers c = true → c = cellFrom ∨ c = cellTo)
    (hjoined : ((findTopic σ cellFrom).isSome || (findTopic σ cellTo).isSome) = false) :
    Uncovered σ rule := by
  simp only [Bool.or_eq_false_iff, Option.isSome_eq_false_iff, Option.isNone_iff_eq_none] at hjoined
  intro w hw
  by_contra hcov
  rcases hcells w.cell (by simpa using hcov) with heq | heq
  · exact findTopic_eq_none.mp hjoined.1 w hw heq
  · exact findTopic_eq_none.mp hjoined.2 w hw heq

theorem addDomainRule_change (env : Env) (nameFrom nameTo : Name) (fromDomain toDomain : Nat)
    (hne : fromDomain ≠ toDomain) (ipcNs : IpcNs) :
    RuleChange σ (addDomainRule σ env nameFrom nameTo fromDomain toDomain hne ipcNs).2 := by
  unfold addDomainRule
  simp only
  split
  · -- neither cell is paired yet
    next hfrom hto =>
    split
    · exact .none
    · next hjoined =>
      refine insertDomainRule_change env (fun r hr c hc => ?_)
        (uncovered_of_cells (fun c => covers_newDomainRule_exact.mp) (by simpa using hjoined))
      by_contra hnew
      rcases covers_newDomainRule_exact.mp (by simpa using hnew) with rfl | rfl
      · rw [findDomainRule_eq_none.mp hfrom r hr] at hc
        cases hc
      · rw [findDomainRule_eq_none.mp hto r hr] at hc
        cases hc
  · next rFrom rTo hfrom hto =>
    split
    · exact .none
    next heq =>
    rw [not_not] at heq
    subst heq
    split
    · exact .none
    next hexact =>
    split
    · exact .none
    split
    · exact .none
    · -- one exact rule pairs exactly these two cells
      next hjoined =>
      obtain ⟨hr, hcfrom⟩ := findDomainRule_mem hfrom
      exact .enable rFrom _ hr (uncovered_of_cells
        (fun c => covers_of_pair (by simpa using hexact) hne hcfrom (findDomainRule_mem hto).2)
        (by simpa using hjoined))
  · exact .none
  · exact .none

/-! ## Prefix declarations -/

/-- The cells a prefix declaration covers. -/
def UnderPrefix (pre : Name) (domainA domainB : Nat) (ipcNs : IpcNs) (c : Cell) : Prop :=
  c.ipcNs = ipcNs ∧ (c.domainId = domainA ∨ c.domainId = domainB) ∧ pre <+: c.key

/-- A rule that the loop of `add_prefix_domain_rule` passes over has no cell in
common with the declaration. -/
private def Apart (rule : DomainBridgeRule) (pre : Name) (domainA domainB : Nat) (ipcNs : IpcNs) :
    Prop :=
  ∀ c, rule.covers c = true → ¬ UnderPrefix pre domainA domainB ipcNs c

/-- A rule that the loop takes for a re-declaration covers just the declared cells. -/
private def Identical (rule : DomainBridgeRule) (pre : Name) (domainA domainB : Nat)
    (ipcNs : IpcNs) : Prop :=
  ∀ c, rule.covers c = true → UnderPrefix pre domainA domainB ipcNs c

/-- Two prefix rules have a cell in common only if the prefixes nest and the pairs
share a domain. -/
private theorem apart_of_pre {rule : DomainBridgeRule} (hpre : rule.isPrefix = true)
    {pre : Name} {domainA domainB : Nat} {ipcNs : IpcNs}
    (h : (!rule.nests pre || !rule.sharesDomain domainA domainB) = true) :
    Apart rule pre domainA domainB ipcNs := by
  rintro c hc ⟨_, hdom', hpre'⟩
  rw [DomainBridgeRule.covers_iff, if_pos hpre] at hc
  obtain ⟨_, hdom, hpre⟩ := hc
  rw [Bool.or_eq_true, Bool.not_eq_true', Bool.not_eq_true'] at h
  rcases h with hnests | hshares
  · unfold DomainBridgeRule.nests at hnests
    split at hnests
    · next hlen =>
      exact of_decide_eq_false hnests (List.prefix_of_prefix_length_le hpre hpre' hlen)
    · next hlen =>
      exact of_decide_eq_false hnests (List.prefix_of_prefix_length_le hpre' hpre (by omega))
  · have hshares := of_decide_eq_false hshares
    grind

private theorem apart_of_exact {rule : DomainBridgeRule} (hexact : rule.isPrefix = false)
    {pre : Name} {domainA domainB : Nat} {ipcNs : IpcNs}
    (h : ¬ (((rule.domainA = domainA ∨ rule.domainA = domainB) ∧ pre <+: rule.topicNameA) ∨
      ((rule.domainB = domainA ∨ rule.domainB = domainB) ∧ pre <+: rule.topicNameB))) :
    Apart rule pre domainA domainB ipcNs := by
  rintro c hc ⟨_, hdom', hpre'⟩
  rw [DomainBridgeRule.covers_iff] at hc
  simp only [hexact, Bool.false_eq_true, ↓reduceIte] at hc
  obtain ⟨_, _, ⟨hdom, hkey⟩ | ⟨hdom, hkey⟩⟩ := hc
  · exact h (.inl ⟨hdom ▸ hdom', hkey ▸ hpre'⟩)
  · exact h (.inr ⟨hdom ▸ hdom', hkey ▸ hpre'⟩)

/-- **The overlap check**: it passes only if every rule is apart from the
declaration, but for one identical prefix rule, which it returns. -/
private theorem prefixOverlapLoop_ok {pre : Name} {domainA domainB : Nat} {ipcNs : IpcNs}
    {rules : List Nat} {same res : Option Nat}
    (h : prefixOverlapLoop σ pre domainA domainB ipcNs rules same = .ok res) :
    (res = same ∧ ∀ r ∈ rules, Apart (σ.domainRules r) pre domainA domainB ipcNs) ∨
      ∃ r ∈ rules, res = some r ∧ Identical (σ.domainRules r) pre domainA domainB ipcNs := by
  induction rules generalizing same with
  | nil =>
    cases h
    exact .inl ⟨rfl, by simp⟩
  | cons r rest ih =>
    -- a rule that is passed over leaves the claim about the rest
    have hskip : ∀ same', Apart (σ.domainRules r) pre domainA domainB ipcNs →
        prefixOverlapLoop σ pre domainA domainB ipcNs rest same' = .ok res →
        (res = same' ∧ ∀ r' ∈ r :: rest, Apart (σ.domainRules r') pre domainA domainB ipcNs) ∨
          ∃ r' ∈ r :: rest, res = some r' ∧
            Identical (σ.domainRules r') pre domainA domainB ipcNs := by
      intro same' hapart h
      rcases ih h with ⟨hres, hall⟩ | ⟨r', hr', hrest⟩
      · exact .inl ⟨hres, List.forall_mem_cons.mpr ⟨hapart, hall⟩⟩
      · exact .inr ⟨r', List.mem_cons_of_mem _ hr', hrest⟩
    rw [prefixOverlapLoop] at h
    split at h
    · next hns =>
      refine hskip same (fun c hc hunder => hns ?_) h
      rw [DomainBridgeRule.covers_iff] at hc
      exact hunder.1.symm.trans hc.1
    split at h
    · next hpre =>
      split at h
      · next hclear => exact hskip same (apart_of_pre hpre hclear) h
      · next hnest =>
        split at h
        · next hlen =>
          split at h
          · next hpair =>
            -- the declaration repeats this rule
            right
            have hident : Identical (σ.domainRules r) pre domainA domainB ipcNs := by
              intro c hc
              rw [DomainBridgeRule.covers_iff, if_pos hpre, hpair.1, hpair.2] at hc
              have hname : (σ.domainRules r).topicNameA <+: pre := by
                by_contra hname
                exact hnest (by simp [DomainBridgeRule.nests, hlen.le, hname])
              rw [hname.eq_of_length hlen] at hc
              have hns : ipcNs = (σ.domainRules r).ipcNs := by
                by_contra hns
                contradiction
              exact ⟨hc.1.trans hns.symm, hc.2⟩
            rcases ih h with ⟨hres, _⟩ | ⟨r', hr', hrest⟩
            · exact ⟨r, List.mem_cons_self, hres, hident⟩
            · exact ⟨r', List.mem_cons_of_mem _ hr', hrest⟩
          · cases h
        · cases h
    · next hexact =>
      split at h
      · cases h
      · next hover => exact hskip same (apart_of_exact (by simpa using hexact) hover) h

private theorem uncovered_of_noTopic {rule : DomainBridgeRule} {pre : Name}
    {fromDomain toDomain : Nat} {ipcNs : IpcNs}
    (hcells : ∀ c, rule.covers c = true → UnderPrefix pre fromDomain toDomain ipcNs c)
    (hjoined : anyTopicUnderPrefix σ pre ipcNs fromDomain toDomain = false) :
    Uncovered σ rule := by
  intro w hw
  by_contra hcov
  obtain ⟨hns, hdom, hpre⟩ := hcells w.cell (by simpa using hcov)
  have := List.any_eq_false.mp hjoined w hw
  exact this (by simpa using ⟨hns, hdom, hpre⟩)

theorem addPrefixDomainRule_change (env : Env) (pre : Name) (fromDomain toDomain : Nat)
    (hne : fromDomain ≠ toDomain) (ipcNs : IpcNs) :
    RuleChange σ (addPrefixDomainRule σ env pre fromDomain toDomain hne ipcNs).2 := by
  -- the two domains of a rule are in no order
  have hdomains : ∀ c, UnderPrefix pre (min fromDomain toDomain) (max fromDomain toDomain) ipcNs c ↔
      UnderPrefix pre fromDomain toDomain ipcNs c := by
    intro c
    unfold UnderPrefix
    rcases le_total fromDomain toDomain with h | h
    · rw [min_eq_left h, max_eq_right h]
    · rw [min_eq_right h, max_eq_left h, or_comm (a := c.domainId = toDomain)]
  unfold addPrefixDomainRule
  simp only
  split
  · exact .none
  · -- a re-declaration
    next same hloop =>
    split
    · exact .none
    split
    · exact .none
    · next hjoined =>
      rcases prefixOverlapLoop_ok hloop with ⟨hres, _⟩ | ⟨r, hr, hres, hident⟩
      · cases hres
      · cases hres
        exact .enable same _ hr (uncovered_of_noTopic
          (fun c hc => (hdomains c).mp (hident c hc)) (by simpa using hjoined))
  · -- a new rule
    next hloop =>
    split
    · exact .none
    · next hjoined =>
      rcases prefixOverlapLoop_ok hloop with ⟨_, hall⟩ | ⟨r, hr, hres, _⟩
      · refine insertDomainRule_change env (fun r hr c hc => ?_)
          (uncovered_of_noTopic (fun c => covers_newDomainRule_pre.mp) (by simpa using hjoined))
        by_contra hnew
        exact hall r hr c hc ((hdomains c).mpr (covers_newDomainRule_pre.mp (by simpa using hnew)))
      · cases hres

/-! ## The two ioctls -/

/-- **ADD_DOMAIN_BRIDGE** changes nothing, adds a disjoint uncovered rule, or turns
a direction of an uncovered rule on. -/
theorem addDomainBridge_change (env : Env) (nameFrom nameTo : Name) (fromDomain toDomain : Nat)
    (ipcNs : IpcNs) :
    RuleChange σ (addDomainBridge σ env nameFrom nameTo fromDomain toDomain ipcNs).2 := by
  unfold addDomainBridge
  split
  · exact .none
  · exact addDomainRule_change ..

/-- **ADD_DOMAIN_BRIDGE_PREFIX**, likewise. -/
theorem addDomainBridgePrefix_change (env : Env) (pre : Name) (fromDomain toDomain : Nat)
    (ipcNs : IpcNs) :
    RuleChange σ (addDomainBridgePrefix σ env pre fromDomain toDomain ipcNs).2 := by
  unfold addDomainBridgePrefix
  split
  · exact .none
  split
  · exact .none
  · exact addPrefixDomainRule_change ..

end Agnocast
