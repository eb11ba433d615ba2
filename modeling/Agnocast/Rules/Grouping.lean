import Agnocast.Store.Steps

/-!
# Domain rules — grouping

Which wrappers share a topic is decided when a wrapper is created, from the rules
registered at that time. `Kmod.Grouped` says that in every reachable state it is
still what the rules registered *now* ask for:

* the rules cover disjoint sets of cells, so a lookup does not depend on the
  iteration order (`findDomainRule_eq_some_iff`);
* two wrappers share a topic exactly if one rule pairs their cells;
* the rule cached in a topic is the one a lookup of any of its cells finds.

Registration keeps it because a rule is added, and a direction turned on, only
while no wrapper exists for a covered cell (`RuleChange`).
-/

namespace Agnocast

variable {σ σ' : Kmod}

/-! ## Partner cells -/

namespace DomainBridgeRule

/-- The rule groups the two cells. -/
def Pairs (rule : DomainBridgeRule) (c c' : Cell) : Prop :=
  rule.covers c = true ∧ rule.partnerCell c = some c'

/-- A covered cell has a partner, which is covered too and whose partner it is. -/
theorem exists_pairs {rule : DomainBridgeRule} {c : Cell} (h : rule.covers c = true) :
    ∃ c', rule.Pairs c c' ∧ rule.Pairs c' c := by
  have hcov := h
  have hlt := rule.canonical
  obtain ⟨key, ns, dom⟩ := c
  rw [covers_iff] at h
  obtain ⟨hns, hdom, hname⟩ := h
  simp only at hns hdom hname
  subst hns
  rcases hdom with rfl | rfl
  · refine ⟨⟨if rule.isPrefix then key else rule.topicNameB, rule.ipcNs, rule.domainB⟩,
      ⟨hcov, by simp [partnerCell]⟩, ?_, ?_⟩
    · rw [covers_iff]
      cases hpre : rule.isPrefix <;> simp_all
    · cases hpre : rule.isPrefix <;> simp_all [partnerCell, hlt.ne']
      rcases hname with hname | ⟨hdom, _⟩
      · exact hname
      · omega
  · refine ⟨⟨if rule.isPrefix then key else rule.topicNameA, rule.ipcNs, rule.domainA⟩,
      ⟨hcov, by simp [partnerCell, hlt.ne']⟩, ?_, ?_⟩
    · rw [covers_iff]
      cases hpre : rule.isPrefix <;> simp_all
    · cases hpre : rule.isPrefix <;> simp_all [partnerCell]
      rcases hname with ⟨hdom, _⟩ | hname
      · omega
      · exact hname

theorem Pairs.symm {rule : DomainBridgeRule} {c c' : Cell} (h : rule.Pairs c c') :
    rule.Pairs c' c := by
  obtain ⟨c'', hpairs, hback⟩ := exists_pairs h.1
  have : c'' = c' := Option.some.inj (hpairs.2.symm.trans h.2)
  exact this ▸ hback

theorem Pairs.unique {rule : DomainBridgeRule} {c c' c'' : Cell} (h : rule.Pairs c c')
    (h' : rule.Pairs c c'') : c' = c'' := Option.some.inj (h.2.symm.trans h'.2)

/-- No cell is paired with itself. -/
theorem Pairs.ne {rule : DomainBridgeRule} {c c' : Cell} (h : rule.Pairs c c') : c ≠ c' := by
  rintro rfl
  have hlt := rule.canonical
  have h := h.2
  unfold partnerCell at h
  split at h
  · next hdom =>
    have := congrArg Cell.domainId (Option.some.inj h)
    simp only at this
    omega
  · split at h
    · next hdom =>
      have := congrArg Cell.domainId (Option.some.inj h)
      simp only at this
      omega
    · cases h

theorem pairs_enable {rule : DomainBridgeRule} {fromIsA : Bool} {c c' : Cell} :
    (rule.enable fromIsA).Pairs c c' ↔ rule.Pairs c c' := by
  rw [Pairs, Pairs, covers_enable, partnerCell_enable]

end DomainBridgeRule

/-! ## The invariant -/

/-- The rules cover disjoint sets of cells. -/
structure Kmod.RulesDisjoint (σ : Kmod) : Prop where
  ptr_lt : ∀ r ∈ σ.domainRuleHtable, r < σ.nextRulePtr
  disjoint : ∀ r ∈ σ.domainRuleHtable, ∀ r' ∈ σ.domainRuleHtable, ∀ c,
    (σ.domainRules r).covers c = true → (σ.domainRules r').covers c = true → r = r'

/-- Wrappers are grouped as the rules ask for. -/
structure Kmod.Grouped (σ : Kmod) : Prop extends σ.RulesDisjoint where
  shared : ∀ w ∈ σ.topicHashtable, ∀ w' ∈ σ.topicHashtable, w.topic = w'.topic ↔
    w = w' ∨ ∃ r ∈ σ.domainRuleHtable, (σ.domainRules r).Pairs w.cell w'.cell
  cached : ∀ w ∈ σ.topicHashtable, (σ.topicStructs w.topic).rule = findDomainRule σ w.cell

/-- **A lookup finds the rule that covers the cell**, if any: there is at most one. -/
theorem findDomainRule_eq_some_iff (h : σ.RulesDisjoint) {c : Cell} {r : Nat} :
    findDomainRule σ c = some r ↔
      r ∈ σ.domainRuleHtable ∧ (σ.domainRules r).covers c = true := by
  refine ⟨findDomainRule_mem, fun ⟨hr, hc⟩ => ?_⟩
  cases hfind : findDomainRule σ c with
  | none =>
    rw [findDomainRule_eq_none.mp hfind r hr] at hc
    cases hc
  | some r' =>
    obtain ⟨hr', hc'⟩ := findDomainRule_mem hfind
    rw [h.disjoint r hr r' hr' c hc hc']

/-- Any order of the table gives the same answer. -/
theorem find_perm (h : σ.RulesDisjoint) (c : Cell) {l : List Nat}
    (hperm : l.Perm σ.domainRuleHtable) :
    (l.find? fun r => (σ.domainRules r).covers c) = findDomainRule σ c := by
  have h' : ({ σ with domainRuleHtable := l } : Kmod).RulesDisjoint :=
    ⟨fun r hr => h.ptr_lt r (hperm.subset hr), fun r hr r' hr' =>
      h.disjoint r (hperm.subset hr) r' (hperm.subset hr')⟩
  refine Option.ext fun r => ?_
  have := findDomainRule_eq_some_iff h' (c := c) (r := r)
  rw [findDomainRule_eq_some_iff h, ← hperm.mem_iff]
  exact this

/-- The same rules for the same cell give the same answer. -/
private theorem findDomainRule_congr (h : σ.RulesDisjoint) (h' : σ'.RulesDisjoint) {c : Cell}
    (hmem : ∀ r, (r ∈ σ'.domainRuleHtable ∧ (σ'.domainRules r).covers c = true) ↔
      (r ∈ σ.domainRuleHtable ∧ (σ.domainRules r).covers c = true)) :
    findDomainRule σ' c = findDomainRule σ c := by
  refine Option.ext fun r => ?_
  rw [findDomainRule_eq_some_iff h, findDomainRule_eq_some_iff h', hmem]

/-! ## Moves keep it -/

namespace Kmod.Grouped

/-- Rules, wrappers and cached rules are all the invariant looks at. -/
private theorem of_same (h : σ.Grouped) (hr : SameRules σ σ')
    (hw : ∀ w ∈ σ'.topicHashtable, w ∈ σ.topicHashtable)
    (hcached : ∀ w ∈ σ'.topicHashtable,
      (σ'.topicStructs w.topic).rule = (σ.topicStructs w.topic).rule) : σ'.Grouped := by
  have hfind : ∀ c, findDomainRule σ' c = findDomainRule σ c := fun c => by
    unfold findDomainRule
    rw [hr.domainRuleHtable, hr.domainRules]
  refine ⟨⟨?_, ?_⟩, ?_, ?_⟩
  · rw [hr.domainRuleHtable, hr.nextRulePtr]
    exact h.ptr_lt
  · rw [hr.domainRuleHtable, hr.domainRules]
    exact h.disjoint
  · rw [hr.domainRuleHtable, hr.domainRules]
    exact fun w hw₁ w' hw₂ => h.shared w (hw w hw₁) w' (hw w' hw₂)
  · intro w hw₁
    rw [hfind, hcached w hw₁]
    exact h.cached w (hw w hw₁)

/-- Which wrappers a new wrapper for `c` has to share its topic with. -/
private theorem link (h : σ.Grouped) (hr : SameRules σ σ') {c : Cell} {tp : Nat} {place : Nat}
    (hnew : findTopic σ c = none)
    (htable : σ'.topicHashtable = HTable.hashAdd place σ.topicHashtable (c.wrapper tp))
    (hcached : ∀ w ∈ σ.topicHashtable,
      (σ'.topicStructs w.topic).rule = (σ.topicStructs w.topic).rule)
    (hrule : (σ'.topicStructs tp).rule = findDomainRule σ c)
    (hshare : ∀ w ∈ σ.topicHashtable, w.topic = tp ↔
      ∃ r ∈ σ.domainRuleHtable, (σ.domainRules r).Pairs c w.cell) : σ'.Grouped := by
  have hfind : ∀ c, findDomainRule σ' c = findDomainRule σ c := fun c => by
    unfold findDomainRule
    rw [hr.domainRuleHtable, hr.domainRules]
  have hne : ∀ w ∈ σ.topicHashtable, w ≠ c.wrapper tp := by
    rintro w hw rfl
    exact findTopic_eq_none.mp hnew _ hw rfl
  have hsymm : ∀ c', (∃ r ∈ σ.domainRuleHtable, (σ.domainRules r).Pairs c' c) ↔
      ∃ r ∈ σ.domainRuleHtable, (σ.domainRules r).Pairs c c' :=
    fun c' => ⟨fun ⟨r, hr, hp⟩ => ⟨r, hr, hp.symm⟩, fun ⟨r, hr, hp⟩ => ⟨r, hr, hp.symm⟩⟩
  refine ⟨⟨?_, ?_⟩, ?_, ?_⟩
  · rw [hr.domainRuleHtable, hr.nextRulePtr]
    exact h.ptr_lt
  · rw [hr.domainRuleHtable, hr.domainRules]
    exact h.disjoint
  · rw [hr.domainRuleHtable, hr.domainRules, htable]
    intro w hw w' hw'
    -- only pairs with the new wrapper are new
    rcases HTable.mem_hashAdd.mp hw with rfl | hw <;>
      rcases HTable.mem_hashAdd.mp hw' with rfl | hw'
    · simp
    · have := hshare w' hw'
      rw [Cell.wrapper_cell, ← this]
      constructor
      · exact fun heq => .inr heq.symm
      · rintro (heq | heq)
        · exact absurd heq.symm (hne w' hw')
        · exact heq.symm
    · have := hshare w hw
      rw [Cell.wrapper_cell, hsymm, ← this]
      constructor
      · exact .inr
      · rintro (heq | heq)
        · exact absurd heq (hne w hw)
        · exact heq
    · exact h.shared w hw w' hw'
  · intro w hw
    rw [htable] at hw
    rw [hfind]
    rcases HTable.mem_hashAdd.mp hw with rfl | hw
    · exact hrule
    · rw [hcached w hw]
      exact h.cached w hw

/-- Joining: the partner's topic is shared with the partner alone. -/
private theorem joinTopic (h : σ.Grouped) (hwf : σ.WellFormed) (place : Nat) {c : Cell} {tp : Nat}
    (hnew : findTopic σ c = none) (hg : findGroupedTopicStruct σ c = some tp) :
    (σ.joinTopic place c tp).Grouped := by
  obtain ⟨r, partner, w₀, hfind, hpartner, hfound, rfl⟩ := findGroupedTopicStruct_mem hg
  obtain ⟨hr, hcov⟩ := findDomainRule_mem hfind
  obtain ⟨hw₀, rfl⟩ := findTopic_mem hfound
  have hpairs : (σ.domainRules r).Pairs c w₀.cell := ⟨hcov, hpartner⟩
  have hrule : ∀ tp, ((σ.joinTopic place c w₀.topic).topicStructs tp).rule =
      (σ.topicStructs tp).rule := by
    intro tp
    by_cases htp : tp = w₀.topic
    · rw [htp]
      exact (congrArg TopicStruct.rule (setTopic_self ..)).trans rfl
    · exact congrArg TopicStruct.rule (setTopic_of_ne _ _ _ htp)
  refine h.link ⟨rfl, rfl, rfl⟩ hnew rfl (fun w _ => hrule _)
    ?_ fun w hw => ?_
  · rw [hrule, h.cached w₀ hw₀, hfind]
    exact (findDomainRule_eq_some_iff h.toRulesDisjoint).mpr ⟨hr, hpairs.symm.1⟩
  · constructor
    · intro htopic
      rcases (h.shared w hw w₀ hw₀).mp htopic with rfl | ⟨r', hr', hp'⟩
      · exact ⟨r, hr, hpairs⟩
      · -- the rule of the partner is `r`, and it pairs it with the new cell
        have : r' = r := h.disjoint r' hr' r hr _ hp'.symm.1 hpairs.symm.1
        subst this
        exact absurd (hp'.symm.unique hpairs.symm) (findTopic_eq_none.mp hnew w hw)
    · rintro ⟨r', hr', hp'⟩
      have : r' = r := h.disjoint r' hr' r hr _ hp'.1 hpairs.1
      subst this
      rw [HTable.eq_of_key_eq hwf.cells hw hw₀ (hp'.unique hpairs)]

/-- Creating: no wrapper exists for the partner cell, so the topic is shared with
nobody. -/
private theorem createTopic (h : σ.Grouped) (hwf : σ.WellFormed) (place : Nat) {c : Cell}
    (hnew : findTopic σ c = none) (hg : findGroupedTopicStruct σ c = none) :
    (σ.createTopic place c).Grouped := by
  refine h.link ⟨rfl, rfl, rfl⟩ hnew rfl (fun w hw => ?_) ?_
    fun w hw => ?_
  · exact congrArg TopicStruct.rule (setTopic_of_ne _ _ _ (hwf.topic_lt w hw).ne)
  · exact congrArg TopicStruct.rule (setTopic_self ..)
  · constructor
    · intro htopic
      exact absurd htopic (hwf.topic_lt w hw).ne
    · rintro ⟨r, hr, hp⟩
      have hfind := (findDomainRule_eq_some_iff h.toRulesDisjoint).mpr ⟨hr, hp.1⟩
      have hw' : findTopic σ w.cell = some w := HTable.lookup_self hwf.cells hw
      rw [findGroupedTopicStruct, hfind] at hg
      simp only [hp.2, hw'] at hg
      cases hg

theorem move {A : Nat → Action → Prop} (h : σ.Grouped) (hwf : σ.WellFormed) (hm : Move A σ σ') : σ'.Grouped := by
  have hr := hm.sameRules
  cases hm with
  | @topic w hw t' hm =>
    have hown := hm.sameOwner (hwf.store w.topic)
    refine h.of_same hr (fun _ hw => hw) fun w' _ => ?_
    by_cases htp : w'.topic = w.topic
    · rw [htp, setTopic_self, hown.2]
    · rw [setTopic_of_ne _ _ _ htp]
  | join place hnew hg => exact h.joinTopic hwf place hnew hg
  | create place hnew hg => exact h.createTopic hwf place hnew hg
  | @release w hw hempty =>
    refine h.of_same hr (fun w' hw' => (HTable.mem_hashDel.mp hw').1) fun w' _ => ?_
    by_cases htp : w'.topic = w.topic
    · rw [htp]
      refine (congrArg TopicStruct.rule (setTopic_self ..)).trans ?_
      unfold TopicStruct.dropRef
      simp only
      split <;> rfl
    · exact congrArg TopicStruct.rule (setTopic_of_ne _ _ _ htp)
  | world hw =>
    refine h.of_same hr (fun w h => hw.topicHashtable ▸ h) fun w _ => ?_
    rw [hw.topicStructs]

/-! ## Declarations keep it -/

theorem ruleChange (h : σ.Grouped) (hr : RuleChange σ σ') : σ'.Grouped := by
  cases hr with
  | none => exact h
  | insert place rule hdisjoint hfree =>
    set σ' : Kmod := { σ.setRule σ.nextRulePtr rule with
      nextRulePtr := σ.nextRulePtr + 1
      domainRuleHtable := HTable.hashAdd place σ.domainRuleHtable σ.nextRulePtr } with hσ'
    have hself : σ'.domainRules σ.nextRulePtr = rule := Function.update_self ..
    have hold : ∀ r ∈ σ.domainRuleHtable, σ'.domainRules r = σ.domainRules r :=
      fun r hr => Function.update_of_ne (h.ptr_lt r hr).ne _ _
    have hmem : ∀ r, r ∈ σ'.domainRuleHtable ↔ r = σ.nextRulePtr ∨ r ∈ σ.domainRuleHtable :=
      fun r => HTable.mem_hashAdd
    have hd : σ'.RulesDisjoint := by
      refine ⟨fun r hr => ?_, fun r hr r' hr' c hc hc' => ?_⟩
      · rcases (hmem r).mp hr with rfl | hr
        · exact Nat.lt_succ_self _
        · exact Nat.lt_succ_of_lt (h.ptr_lt r hr)
      · rcases (hmem r).mp hr with rfl | hr <;> rcases (hmem r').mp hr' with rfl | hr'
        · rfl
        · rw [hself] at hc
          rw [hold r' hr'] at hc'
          rw [hdisjoint r' hr' c hc'] at hc
          cases hc
        · rw [hold r hr] at hc
          rw [hself] at hc'
          rw [hdisjoint r hr c hc] at hc'
          cases hc'
        · rw [hold r hr] at hc
          rw [hold r' hr'] at hc'
          exact h.disjoint r hr r' hr' c hc hc'
    -- the new rule covers no wrapper's cell
    have hcov : ∀ w ∈ σ.topicHashtable, ∀ r, (r ∈ σ'.domainRuleHtable ∧
        (σ'.domainRules r).covers w.cell = true) ↔
          (r ∈ σ.domainRuleHtable ∧ (σ.domainRules r).covers w.cell = true) := by
      intro w hw r
      rw [hmem]
      constructor
      · rintro ⟨rfl | hr, hc⟩
        · rw [hself, hfree w hw] at hc
          cases hc
        · exact ⟨hr, hold r hr ▸ hc⟩
      · rintro ⟨hr, hc⟩
        exact ⟨.inr hr, (hold r hr).symm ▸ hc⟩
    refine ⟨hd, fun w hw w' hw' => ?_, fun w hw => ?_⟩
    · rw [h.shared w hw w' hw']
      refine or_congr_right ⟨fun ⟨r, hr, hp⟩ => ⟨r, (hmem r).mpr (.inr hr), ?_⟩,
        fun ⟨r, hr, hp⟩ => ?_⟩
      · rw [hold r hr]
        exact hp
      · obtain ⟨hr, hc⟩ := (hcov w hw r).mp ⟨hr, hp.1⟩
        rw [hold r hr] at hp
        exact ⟨r, hr, hp⟩
    · rw [findDomainRule_congr h.toRulesDisjoint hd (hcov w hw)]
      exact h.cached w hw
  | enable r fromIsA hr hfree =>
    set σ' := σ.setRule r ((σ.domainRules r).enable fromIsA) with hσ'
    have hself : σ'.domainRules r = (σ.domainRules r).enable fromIsA := Function.update_self ..
    have hother : ∀ r', r' ≠ r → σ'.domainRules r' = σ.domainRules r' :=
      fun r' hr' => Function.update_of_ne hr' _ _
    have hcov : ∀ r' c, (σ'.domainRules r').covers c = (σ.domainRules r').covers c := by
      intro r' c
      by_cases hr' : r' = r
      · rw [hr', hself, DomainBridgeRule.covers_enable]
      · rw [hother r' hr']
    have hpairs : ∀ r' c c', (σ'.domainRules r').Pairs c c' ↔ (σ.domainRules r').Pairs c c' := by
      intro r' c c'
      by_cases hr' : r' = r
      · rw [hr', hself, DomainBridgeRule.pairs_enable]
      · rw [hother r' hr']
    have hfind : ∀ c, findDomainRule σ' c = findDomainRule σ c := by
      intro c
      unfold findDomainRule
      simp only [hcov]
      rfl
    refine ⟨⟨h.ptr_lt, fun r₁ hr₁ r₂ hr₂ c => ?_⟩, fun w hw w' hw' => ?_, fun w hw => ?_⟩
    · rw [hcov, hcov]
      exact h.disjoint r₁ hr₁ r₂ hr₂ c
    · simp only [hpairs]
      exact h.shared w hw w' hw'
    · rw [hfind]
      exact h.cached w hw

theorem loaded (m : MemoryAllocator) : (Kmod.loaded m).Grouped := by
  refine ⟨⟨?_, ?_⟩, ?_, ?_⟩ <;> simp [Kmod.loaded]

end Kmod.Grouped

theorem Reachable.grouped (h : Reachable σ) : σ.Grouped :=
  h.of_moves .loaded (fun _ _ _ hwf hg hm => hg.move hwf hm) fun _ _ _ hg hr => hg.ruleChange hr

/-- **A covered cell freezes its rule**: while a wrapper exists for it, no step
changes the rule, let alone takes it out. -/
theorem step_rule_frozen (h : Reachable σ) {w : TopicWrapper} (hw : w ∈ σ.topicHashtable) {r : Nat}
    (hr : r ∈ σ.domainRuleHtable) (hcov : (σ.domainRules r).covers w.cell = true) (i : Input) :
    r ∈ (step σ i).2.domainRuleHtable ∧ (step σ i).2.domainRules r = σ.domainRules r := by
  rcases step_moves h.wellFormed i with hchange | hmoves
  · generalize (step σ i).2 = σ' at hchange
    cases hchange with
    | none => exact ⟨hr, rfl⟩
    | insert place rule _ _ =>
      exact ⟨HTable.mem_hashAdd.mpr (.inr hr),
        Function.update_of_ne (h.grouped.ptr_lt r hr).ne _ _⟩
    | enable r' fromIsA _ hfree =>
      refine ⟨hr, Function.update_of_ne ?_ _ _⟩
      rintro rfl
      rw [hfree w hw] at hcov
      cases hcov
  · have hsame := hmoves.sameRules
    rw [hsame.domainRuleHtable, hsame.domainRules]
    exact ⟨hr, rfl⟩

/-- What the rules owe to the wrappers of a state:

1. a cell matches at most one rule, and the table's order does not matter;
2. wrappers share a topic exactly if one rule pairs their cells;
3. the rule a topic has cached is the one its wrappers' cells match;
4. no step changes a rule that covers the cell of an existing wrapper. -/
structure RulesConsistent (σ : Kmod) : Prop where
  unique : ∀ c, (∀ r ∈ σ.domainRuleHtable, ∀ r' ∈ σ.domainRuleHtable,
      (σ.domainRules r).covers c = true → (σ.domainRules r').covers c = true → r = r') ∧
    ∀ l : List Nat, l.Perm σ.domainRuleHtable →
      (l.find? fun r => (σ.domainRules r).covers c) = findDomainRule σ c
  shared : ∀ w ∈ σ.topicHashtable, ∀ w' ∈ σ.topicHashtable, w ≠ w' → (w.topic = w'.topic ↔
    ∃ r ∈ σ.domainRuleHtable, (σ.domainRules r).covers w.cell = true ∧
      (σ.domainRules r).partnerCell w.cell = some w'.cell)
  cached : ∀ w ∈ σ.topicHashtable, (σ.topicStructs w.topic).rule = findDomainRule σ w.cell
  frozen : ∀ w ∈ σ.topicHashtable, ∀ r ∈ σ.domainRuleHtable,
    (σ.domainRules r).covers w.cell = true → ∀ i : Input,
      r ∈ (step σ i).2.domainRuleHtable ∧
        ((step σ i).2.domainRules r).aToB = (σ.domainRules r).aToB ∧
        ((step σ i).2.domainRules r).bToA = (σ.domainRules r).bToA

/-- **Rules and grouping agree** in every reachable state, whatever was declared in
whatever order. -/
theorem reachable_rules_consistent (h : Reachable σ) : RulesConsistent σ where
  unique c := ⟨fun r hr r' hr' => h.grouped.disjoint r hr r' hr' c,
    fun _ hperm => find_perm h.grouped.toRulesDisjoint c hperm⟩
  shared w hw w' hw' hne := by
    rw [h.grouped.shared w hw w' hw', or_iff_right hne]
    rfl
  cached := h.grouped.cached
  frozen w hw r hr hcov i := by
    obtain ⟨hr', heq⟩ := step_rule_frozen h hw hr hcov i
    exact ⟨hr', by rw [heq], by rw [heq]⟩

/-- A renaming rule between domains 1 and 2, with an endpoint on either side. -/
theorem rules_consistent_after_join :
    let σ := (runOf 2 [.addDomainBridge ['/', 'a'] ['/', 'b'] 1 2 0, .addProcess 1 0 0 1,
      .addProcess 2 0 0 2, .addPublisher ['/', 'a'] 0 ⟨[], 1, 1, false, false⟩,
      .addSubscriber ['/', 'b'] 0 ⟨[], 2, 1, false, true, false, false, false⟩ 7]).2
    σ.topicHashtable.map TopicWrapper.topic = [0, 0] ∧ RulesConsistent σ :=
  ⟨by decide, reachable_rules_consistent (reachable_runOf (by decide) (by decide) _)⟩

end Agnocast
