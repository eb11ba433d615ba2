import Agnocast.Rules.Grouping

/-!
# Delivery — the notify lists

Every publisher caches the eventfd contexts that its publications signal. The
list is rebuilt only when a subscriber with a context joins or leaves and when the
publisher itself joins; the delivery test of receive and take looks at the
subscriber, the publisher and the rule afresh each time.

* `NotifyOk`               — the cached lists are the recomputed ones, the arrays
  are large enough for the next rebuild, take-subscribers have no context.
* `Reachable.notifyOk`     — in every reachable state.
* `reachable_notify_exact` — so a publication wakes just those subscribers, once
  each, that the delivery test lets have the new entry.
-/

namespace Agnocast

variable {σ σ' : Kmod} {t t' : TopicStruct}

/-! ## The invariant -/

/-- The notify lists of a topic are what a rebuild would make of them. -/
structure NotifyOk (σ : Kmod) (t : TopicStruct) : Prop where
  listed : ∀ p ∈ t.pubInfoHtable, p.notifyCtxs.Perm (t.subInfoHtable.filterMap (notifies σ t p))
  room : ∀ p ∈ t.pubInfoHtable, notifiableSubscriberNum t ≤ p.notifyCapacity
  takeSub : ∀ s ∈ t.subInfoHtable, s.notifyCtx = none ↔ s.isTakeSub = true

/-- What the lists depend on in a subscriber. -/
def SubscriberInfo.notifyView (s : SubscriberInfo) :
    Option EventfdCtx × Bool × Nat × Bool × Bool × Pid :=
  (s.notifyCtx, s.isTakeSub, s.domainId, s.isBridge, s.ignoreLocalPublications, s.pid)

/-- What the lists depend on in a publisher. -/
def PublisherInfo.notifyView (p : PublisherInfo) : Nat × Bool × Pid × List EventfdCtx × Nat :=
  (p.domainId, p.isBridge, p.pid, p.notifyCtxs, p.notifyCapacity)

/-- The filter of a rebuild sees no more than the views and the rule. -/
private theorem notifies_congr {p p' : PublisherInfo} (hrule : t'.rule = t.rule)
    (hrules : ∀ r, t.rule = some r → σ'.domainRules r = σ.domainRules r)
    (hp : p'.notifyView = p.notifyView) {s s' : SubscriberInfo}
    (hs : s'.notifyView = s.notifyView) : notifies σ' t' p' s' = notifies σ t p s := by
  simp only [PublisherInfo.notifyView, SubscriberInfo.notifyView, Prod.mk.injEq] at hp hs
  obtain ⟨hctx, _, hdom, hbridge, hignore, hpid⟩ := hs
  obtain ⟨hpdom, hpbridge, hppid, _⟩ := hp
  have hallowed : domainDeliveryAllowed σ' t' p'.domainId p'.isBridge s'.domainId s'.isBridge =
      domainDeliveryAllowed σ t p.domainId p.isBridge s.domainId s.isBridge := by
    unfold domainDeliveryAllowed
    rw [hrule, hpdom, hpbridge, hdom, hbridge]
    cases hr : t.rule with
    | none => rfl
    | some r => simp only [hrules r hr]
  unfold notifies
  rw [hctx, hallowed, hignore, hpid, hppid]

private theorem filterMap_notifies_congr {p p' : PublisherInfo} (hrule : t'.rule = t.rule)
    (hrules : ∀ r, t.rule = some r → σ'.domainRules r = σ.domainRules r)
    (hp : p'.notifyView = p.notifyView) {subs subs' : List SubscriberInfo}
    (hsubs : subs'.map SubscriberInfo.notifyView = subs.map SubscriberInfo.notifyView) :
    subs'.filterMap (notifies σ' t' p') = subs.filterMap (notifies σ t p) := by
  induction subs generalizing subs' with
  | nil => rw [List.map_eq_nil_iff.mp hsubs]; rfl
  | cons s subs ih =>
    obtain ⟨s', subs'', rfl, hs, hrest⟩ := List.map_eq_cons_iff.mp hsubs
    rw [List.filterMap_cons, List.filterMap_cons, notifies_congr hrule hrules hp hs, ih hrest]

/-- The state `t'` differs from `t` in nothing that the lists depend on, except
that publishers may have left. -/
theorem NotifyOk.of_frame (h : NotifyOk σ t) (hrule : t'.rule = t.rule)
    (hrules : ∀ p ∈ t.pubInfoHtable, ∀ r, t.rule = some r → σ'.domainRules r = σ.domainRules r)
    (hpubs : ∀ p' ∈ t'.pubInfoHtable, ∃ p ∈ t.pubInfoHtable, p'.notifyView = p.notifyView)
    (hsubs : t'.subInfoHtable.map SubscriberInfo.notifyView =
      t.subInfoHtable.map SubscriberInfo.notifyView) : NotifyOk σ' t' := by
  have hnum : notifiableSubscriberNum t' = notifiableSubscriberNum t := by
    have hmap := fun u : TopicStruct => List.countP_map
      (p := fun v : Option EventfdCtx × Bool × Nat × Bool × Bool × Pid => v.1.isSome)
      (f := SubscriberInfo.notifyView) (l := u.subInfoHtable)
    unfold notifiableSubscriberNum
    exact (hmap t').symm.trans ((congrArg _ hsubs).trans (hmap t))
  refine ⟨fun p' hp' => ?_, fun p' hp' => ?_, fun s' hs' => ?_⟩
  · obtain ⟨p, hp, hview⟩ := hpubs p' hp'
    rw [filterMap_notifies_congr hrule (hrules p hp) hview hsubs]
    have hlist : p'.notifyCtxs = p.notifyCtxs := congrArg (fun v => v.2.2.2.1) hview
    exact hlist ▸ h.listed p hp
  · obtain ⟨p, hp, hview⟩ := hpubs p' hp'
    have hcapacity : p'.notifyCapacity = p.notifyCapacity := congrArg (fun v => v.2.2.2.2) hview
    rw [hnum, hcapacity]
    exact h.room p hp
  · obtain ⟨s, hs, hview⟩ := HTable.exists_of_map_eq hsubs hs'
    have hctx : s.notifyCtx = s'.notifyCtx := congrArg (fun v => v.1) hview
    have htake : s.isTakeSub = s'.isTakeSub := congrArg (fun v => v.2.1) hview
    rw [← hctx, ← htake]
    exact h.takeSub s hs

/-! ## Rebuilding -/

/-- With room for every subscriber that has a context the rebuild loop never stops
early. -/
private theorem fillNotifyCtxs_eq (p : PublisherInfo) (subs : List SubscriberInfo) (n : Nat)
    (hroom : n + subs.countP (fun s => s.notifyCtx.isSome) ≤ p.notifyCapacity) :
    fillNotifyCtxs σ t p subs n = subs.filterMap (notifies σ t p) := by
  induction subs generalizing n with
  | nil => rfl
  | cons s subs ih =>
    rw [List.countP_cons] at hroom
    rw [fillNotifyCtxs]
    cases hs : notifies σ t p s with
    | none => rw [List.filterMap_cons_none hs, ih n (by omega)]
    | some ctx =>
      have hctx : s.notifyCtx.isSome = true := by
        unfold notifies at hs
        split at hs
        · cases hs
        · next heq => rw [heq]; rfl
      rw [hctx, if_pos rfl] at hroom
      rw [List.filterMap_cons_some hs]
      simp only
      rw [if_neg (by omega), ih (n + 1) (by omega)]

theorem rebuildNotifyList_listed {p : PublisherInfo}
    (hroom : notifiableSubscriberNum t ≤ p.notifyCapacity) :
    (rebuildNotifyList σ t p).notifyCtxs = t.subInfoHtable.filterMap (notifies σ t p) :=
  fillNotifyCtxs_eq p t.subInfoHtable 0 (by rw [Nat.zero_add]; exact hroom)

/-- A rebuild of every list needs room, not correct lists. -/
theorem NotifyOk.rebuild
    (hroom : ∀ p ∈ t.pubInfoHtable, notifiableSubscriberNum t ≤ p.notifyCapacity)
    (htake : ∀ s ∈ t.subInfoHtable, s.notifyCtx = none ↔ s.isTakeSub = true) :
    NotifyOk σ (rebuildAllNotifyLists σ t) := by
  refine ⟨fun p' hp' => ?_, fun p' hp' => ?_, htake⟩ <;> obtain ⟨p, hp, rfl⟩ := List.mem_map.mp hp'
  · rw [rebuildNotifyList_listed (hroom p hp)]
    exact .refl _
  · exact hroom p hp

/-! ## Subscribers join and leave -/

private theorem notifies_eq_none {p : PublisherInfo} {s : SubscriberInfo} (h : s.notifyCtx = none) :
    notifies σ t p s = none := by
  unfold notifies
  rw [h]

/-- A subscriber without a context is in no list. -/
private theorem NotifyOk.join_silent (h : NotifyOk σ t) {s : SubscriberInfo}
    (hctx : s.notifyCtx = none) (htake : s.isTakeSub = true)
    (hrule : t'.rule = t.rule) (hpubs : t'.pubInfoHtable = t.pubInfoHtable)
    (hsubs : t'.subInfoHtable.Perm (s :: t.subInfoHtable)) : NotifyOk σ t' := by
  refine ⟨fun p hp => ?_, fun p hp => ?_, fun s' hs' => ?_⟩
  · rw [hpubs] at hp
    refine (h.listed p hp).trans ?_
    have hperm := hsubs.filterMap (notifies σ t' p)
    rw [List.filterMap_cons_none (notifies_eq_none hctx)] at hperm
    have hcongr : t.subInfoHtable.filterMap (notifies σ t p) =
        t.subInfoHtable.filterMap (notifies σ t' p) :=
      filterMap_notifies_congr hrule.symm (fun _ _ => rfl) rfl rfl
    rw [hcongr]
    exact hperm.symm
  · rw [hpubs] at hp
    unfold notifiableSubscriberNum
    rw [hsubs.countP_eq, List.countP_cons, hctx]
    exact h.room p hp
  · rcases List.mem_cons.mp (hsubs.subset hs') with rfl | hs'
    · exact ⟨fun _ => htake, fun _ => hctx⟩
    · exact h.takeSub s' hs'

private theorem NotifyOk.insertSubscriberInfo (h : NotifyOk σ t) (env : Env) (domainId : Nat)
    (args : SubscriberArgs) (ctx : Option EventfdCtx) (hctx : ctx = none ↔ args.isTakeSub = true) :
    NotifyOk σ (insertSubscriberInfo σ env t domainId args ctx).2 := by
  rcases insertSubscriberInfo_cases (σ := σ) env t domainId args ctx with
    ⟨e, pubs, hpubs, heq⟩ | ⟨pubs, hpubs, _, hroom, hsame, heq⟩
  · -- some arrays grew, the lists were carried across
    rw [heq]
    refine ⟨fun p' hp' => ?_, fun p' hp' => ?_, h.takeSub⟩ <;>
      obtain ⟨p, hp, hg, hle⟩ := HTable.exists_of_forall₂ hpubs hp'
    · have hlist : p'.notifyCtxs = p.notifyCtxs := by rw [hg]
      rw [hlist]
      refine (h.listed p hp).trans (List.Perm.of_eq (List.filterMap_congr fun s _ => ?_))
      rw [hg]
      rfl
    · exact (h.room p hp).trans hle
  · rw [heq]
    set s := newSubscriberInfo t domainId args ctx with hs
    have hperm : (t.joinSubscriber pubs (env.place .subInfo) s).subInfoHtable.Perm
        (s :: t.subInfoHtable) := HTable.hashAdd_perm ..
    have hnew : s.notifyCtx = none ↔ s.isTakeSub = true := hctx
    simp only
    cases hc : ctx with
    | none => exact h.join_silent hc (hnew.mp hc) rfl (hsame hc) hperm
    | some c =>
      rw [hc] at hroom
      refine .rebuild (fun p hp => ?_) fun s' hs' => ?_
      · have := hroom rfl p hp
        unfold notifiableSubscriberNum at this ⊢
        rw [hperm.countP_eq, List.countP_cons]
        split <;> omega
      · rcases List.mem_cons.mp (hperm.subset hs') with rfl | hs'
        · exact hnew
        · exact h.takeSub s' hs'

private theorem notifiableSubscriberNum_le_of_sublist {subs : List SubscriberInfo}
    (hsubs : subs.Sublist t.subInfoHtable) :
    notifiableSubscriberNum { t with subInfoHtable := subs } ≤ notifiableSubscriberNum t :=
  hsubs.countP_le

private theorem NotifyOk.unlinkSubscriberInfo (h : NotifyOk σ t) (hc : t.Consistent [])
    {s : SubscriberInfo} (hs : s ∈ t.subInfoHtable) : NotifyOk σ (unlinkSubscriberInfo σ t s) := by
  have hsub : (HTable.hashDel SubscriberInfo.id s.id t.subInfoHtable).Sublist t.subInfoHtable :=
    HTable.hashDel_sublist ..
  have hperm := HTable.hashDel_perm hc.subs_nodup hs
  unfold Agnocast.unlinkSubscriberInfo
  simp only
  split
  · exact .rebuild
      (fun p hp => (notifiableSubscriberNum_le_of_sublist hsub).trans (h.room p hp))
      fun s' hs' => h.takeSub s' (hsub.subset hs')
  · -- the lists never held anything for it
    next hctx =>
    rw [Bool.not_eq_true, Option.isSome_eq_false_iff, Option.isNone_iff_eq_none] at hctx
    refine ⟨fun p hp => (h.listed p hp).trans ?_,
      fun p hp => (notifiableSubscriberNum_le_of_sublist hsub).trans (h.room p hp),
      fun s' hs' => h.takeSub s' (hsub.subset hs')⟩
    have hlist := hperm.filterMap (notifies σ t p)
    rw [List.filterMap_cons_none (notifies_eq_none hctx)] at hlist
    exact hlist

private theorem NotifyOk.clearSubscriberReferences (h : NotifyOk σ t) {leaving : List Int}
    (hc : t.Consistent leaving) (b : Int) : NotifyOk σ (clearSubscriberReferences σ t b) := by
  refine h.of_frame rfl (fun _ _ _ _ => rfl) (fun p' hp' => ?_) rfl
  obtain ⟨p, hp, heq⟩ := (hc.clearSpec (σ := σ) b).fromPub p' hp'
  exact ⟨p, hp, by rw [heq]; rfl⟩

private theorem NotifyOk.preHandlerSubscriberExit (h : NotifyOk σ t) (hc : t.Consistent [])
    (pid : Pid) : NotifyOk σ (preHandlerSubscriberExit σ t pid) := by
  have hclear : ∀ (l : List SubscriberInfo) (t : TopicStruct),
      t.Consistent (l.map SubscriberInfo.id) → NotifyOk σ t →
      NotifyOk σ (l.foldl (fun t s => Agnocast.clearSubscriberReferences σ t s.id) t) := by
    intro l
    induction l with
    | nil => exact fun t _ h => h
    | cons s l ih =>
      exact fun t hc h => ih _ hc.clearSubscriberReferences (h.clearSubscriberReferences hc s.id)
  unfold Agnocast.preHandlerSubscriberExit
  simp only
  split
  · exact h
  · have hsub : (t.subInfoHtable.filter fun s => s.pid ≠ pid).Sublist t.subInfoHtable :=
      List.filter_sublist
    refine hclear _ _ (hc.unlinkByPid pid).rebuildAllNotifyLists (.rebuild
      (fun p hp => (notifiableSubscriberNum_le_of_sublist hsub).trans (h.room p hp))
      fun s' hs' => h.takeSub s' (hsub.subset hs'))

/-! ## Publishers join and leave -/

private theorem NotifyOk.insertPublisherInfo (h : NotifyOk σ t) (env : Env) (domainId : Nat)
    (args : PublisherArgs) : NotifyOk σ (insertPublisherInfo σ env t domainId args).2 := by
  have hframe : NotifyOk σ { t with currentPubsubId := t.currentPubsubId + 1 } :=
    h.of_frame rfl (fun _ _ _ _ => rfl) (fun p hp => ⟨p, hp, rfl⟩) rfl
  rcases insertPublisherInfo_cases (σ := σ) env t domainId args with
    ⟨e, heq⟩ | ⟨e, _, heq⟩ | ⟨capacity, hcapacity, _, heq⟩ <;> rw [heq]
  · exact h
  · exact hframe
  · refine ⟨fun p hp => ?_, fun p hp => ?_, h.takeSub⟩ <;>
      rcases HTable.mem_hashAdd.mp hp with rfl | hp
    · rw [rebuildNotifyList_listed hcapacity]
      exact .refl _
    · exact hframe.listed p hp
    · exact hcapacity
    · exact hframe.room p hp

private theorem NotifyOk.dropPublisher (h : NotifyOk σ t) (hc : t.Consistent [])
    {p : PublisherInfo} (hp : p ∈ t.pubInfoHtable) : NotifyOk σ (dropPublisher t p) := by
  refine h.of_frame rfl (fun _ _ _ _ => rfl) (fun q hq => ?_) rfl
  rcases (hc.mem_dropPublisher hp).mp hq with ⟨hq, _⟩ | ⟨rfl, _⟩
  · exact ⟨q, hq, rfl⟩
  · exact ⟨p, hp, rfl⟩

/-! ## Every move -/

private theorem NotifyOk.handOut (h : NotifyOk σ t) (b : Int) (ids : List Int) :
    NotifyOk σ (t.handOut b ids) := by
  unfold TopicStruct.handOut
  split
  · exact h
  · exact h.of_frame rfl (fun _ _ _ _ => rfl) (fun p hp => ⟨p, hp, rfl⟩)
      (HTable.map_modify (fun _ => by rfl) _)

private theorem NotifyOk.published (h : NotifyOk σ t) (p : PublisherInfo) (l : List EntryNode) :
    NotifyOk σ (t.published p l) := by
  refine h.of_frame rfl (fun _ _ _ _ => rfl) (fun q' hq' => ?_) rfl
  obtain ⟨q, hq, rfl⟩ := HTable.mem_modify.mp hq'
  exact ⟨q, hq, by split <;> rfl⟩

/-- Every operation on a topic leaves its lists as a rebuild would make them. -/
theorem NotifyOk.topicMove {A : Action → Prop} {domainId : Nat} (h : NotifyOk σ t)
    (hc : t.Consistent []) (hm : TopicMove A σ domainId t t') : NotifyOk σ t' := by
  cases hm with
  | insertSubscriber env args ctx hctx => exact h.insertSubscriberInfo env domainId args ctx hctx
  | insertPublisher env args =>
    have h := h.insertPublisherInfo env domainId args
    split
    · next heq =>
      rw [heq] at h
      exact h
    · next heq =>
      rw [heq] at h
      refine h.of_frame rfl (fun _ _ _ _ => rfl) (fun p hp => ⟨p, hp, rfl⟩) ?_
      rw [TopicStruct.requestMmapUpdate, List.map_map]
      rfl
  | publish env hp addr _ =>
    rcases publishMsgCore_cases hc hp env addr with ⟨e, heq⟩ | ⟨r, _, ⟨e, heq⟩ | heq⟩ <;> rw [heq]
    · exact h
    · exact h.published _ _
    · exact h.published _ _
  | receive hs =>
    rw [receiveMsgCore_eq hc hs]
    exact h.handOut _ _
  | @take s hs allow =>
    rw [takeMsgCore_eq hc hs]
    cases (deliveryWindow σ t s (takeFrom s allow)).head? with
    | none => exact h
    | some en => exact h.handOut s.id [en.entryId]
  | mapped id _ =>
    exact h.of_frame rfl (fun _ _ _ _ => rfl) (fun p hp => ⟨p, hp, rfl⟩)
      (HTable.map_modify (fun _ => by rfl) _)
  | clearBit hen b _ => exact h.of_frame rfl (fun _ _ _ _ => rfl) (fun p hp => ⟨p, hp, rfl⟩) rfl
  | @removeSubscriber s hs _ =>
    exact (h.unlinkSubscriberInfo hc hs).clearSubscriberReferences (hc.unlinkSubscriberInfo s) s.id
  | removePublisher hp => exact h.dropPublisher hc hp
  | subscriberExit pid _ => exact h.preHandlerSubscriberExit hc pid
  | ros2Num n m => exact h.of_frame rfl (fun _ _ _ _ => rfl) (fun p hp => ⟨p, hp, rfl⟩) rfl

/-- The lists of the topics without any endpoint. -/
private theorem NotifyOk.empty (hpubs : t.pubInfoHtable = []) (hsubs : t.subInfoHtable = []) :
    NotifyOk σ t := by
  constructor <;> simp [hpubs, hsubs]

private theorem notifyOk_move {A : Nat → Action → Prop} (hwf : σ.WellFormed)
    (h : ∀ tp, NotifyOk σ (σ.topicStructs tp)) (hm : Move A σ σ') (tp : Nat) :
    NotifyOk σ' (σ'.topicStructs tp) := by
  have hrules := hm.sameRules.domainRules
  -- the rules are the same, so it is enough to look at the topics
  suffices hσ : NotifyOk σ (σ'.topicStructs tp) from
    hσ.of_frame rfl (fun _ _ r _ => by rw [hrules]) (fun p hp => ⟨p, hp, rfl⟩) rfl
  refine hm.topicStruct hwf tp (h tp) (fun w _ _ t' hm => ?_) (fun _ _ _ n => ?_)
    fun _ _ _ => .empty rfl rfl
  · exact (hm.rec_consistent (h tp) (hwf.store tp) fun _ _ hc hP hm => hP.topicMove hc hm).1
  · exact (h tp).of_frame rfl (fun _ _ _ _ => rfl) (fun p hp => ⟨p, hp, rfl⟩) rfl

/-- A declaration changes no rule that a topic with publishers has cached. -/
theorem RuleChange.keeps_cached (hwf : σ.WellFormed) (hg : σ.Grouped) (hr : RuleChange σ σ')
    {tp : Nat} {p : PublisherInfo} (hp : p ∈ (σ.topicStructs tp).pubInfoHtable) {r : Nat}
    (hrule : (σ.topicStructs tp).rule = some r) : σ'.domainRules r = σ.domainRules r := by
  -- the rule of a publisher's topic is registered and covers a wrapper
  obtain ⟨w, hw, rfl, _⟩ := hwf.pub_domain tp p hp
  rw [hg.cached w hw] at hrule
  obtain ⟨hreg, hcov⟩ := findDomainRule_mem hrule
  cases hr with
  | none => rfl
  | insert place rule _ _ => exact Function.update_of_ne (hg.ptr_lt r hreg).ne _ _
  | enable r' fromIsA _ hfree =>
    refine Function.update_of_ne ?_ _ _
    rintro rfl
    rw [hfree w hw] at hcov
    cases hcov

theorem RuleChange.topicStructs (hr : RuleChange σ σ') : σ'.topicStructs = σ.topicStructs := by
  cases hr <;> rfl

private theorem notifyOk_ruleChange (hwf : σ.WellFormed) (hg : σ.Grouped)
    (h : ∀ tp, NotifyOk σ (σ.topicStructs tp)) (hr : RuleChange σ σ') (tp : Nat) :
    NotifyOk σ' (σ'.topicStructs tp) := by
  rw [hr.topicStructs]
  exact (h tp).of_frame rfl (fun p hp r hrule => hr.keeps_cached hwf hg hp hrule)
    (fun p hp => ⟨p, hp, rfl⟩) rfl

/-- **The notify lists are exact** in every reachable state. -/
theorem Reachable.notifyOk (h : Reachable σ) (tp : Nat) : NotifyOk σ (σ.topicStructs tp) := by
  have := h.of_moves (P := fun σ => σ.Grouped ∧ ∀ tp, NotifyOk σ (σ.topicStructs tp))
    (fun m => ⟨.loaded m, fun tp => .empty rfl rfl⟩)
    (fun _ _ _ hwf hσ hm => ⟨hσ.1.move hwf hm, notifyOk_move hwf hσ.2 hm⟩)
    fun _ _ hwf hσ hr => ⟨hσ.1.ruleChange hr, notifyOk_ruleChange hwf hσ.1 hσ.2 hr⟩
  exact this.2 tp

/-! ## What a publication wakes -/

/-- The subscribers that a publication of `p` has to wake: those that do not poll,
are in a domain `p`'s entries are delivered to, and do not ignore `p` as local. -/
def wakes (σ : Kmod) (t : TopicStruct) (p : PublisherInfo) (s : SubscriberInfo) : Bool :=
  !s.isTakeSub && domainDeliveryAllowed σ t p.domainId p.isBridge s.domainId s.isBridge &&
    !(s.ignoreLocalPublications && s.pid = p.pid)

/-- Every subscriber to be woken contributes its context once. -/
private theorem map_some_notifies {p : PublisherInfo} {subs : List SubscriberInfo}
    (htake : ∀ s ∈ subs, s.notifyCtx = none ↔ s.isTakeSub = true) :
    (subs.filterMap (notifies σ t p)).map some =
      (subs.filter (wakes σ t p)).map SubscriberInfo.notifyCtx := by
  induction subs with
  | nil => rfl
  | cons s subs ih =>
    obtain ⟨hs, hsubs⟩ := List.forall_mem_cons.mp htake
    have ih := ih hsubs
    cases hctx : s.notifyCtx with
    | none =>
      have hw : ¬ wakes σ t p s = true := by simp [wakes, hs.mp hctx]
      rw [List.filterMap_cons_none (notifies_eq_none hctx), List.filter_cons_of_neg hw, ih]
    | some ctx =>
      have htake : s.isTakeSub = false := by
        rw [← Bool.not_eq_true, ← hs, hctx]
        simp
      have hnotifies : notifies σ t p s = if wakes σ t p s then some ctx else none := by
        unfold notifies wakes
        rw [hctx, htake]
        cases domainDeliveryAllowed σ t p.domainId p.isBridge s.domainId s.isBridge with
        | false => rfl
        | true =>
          by_cases hignore : s.ignoreLocalPublications = true <;>
            by_cases hpid : s.pid = p.pid <;> simp [hignore, hpid]
      cases hw : wakes σ t p s with
      | true =>
        rw [hw, if_pos rfl] at hnotifies
        rw [List.filterMap_cons_some hnotifies, List.filter_cons_of_pos hw, List.map_cons,
          List.map_cons, ih, hctx]
      | false =>
        rw [hw, if_neg (by simp)] at hnotifies
        rw [List.filterMap_cons_none hnotifies, List.filter_cons_of_neg (by simp [hw]), ih]

/-- For a live publisher the delivery test is the filter of a rebuild. -/
theorem isEntryDeliverable_of_live {p : PublisherInfo} {en : EntryNode} {s : SubscriberInfo}
    (hp : findPublisherInfo t en.publisherId = some p) (hlive : processGone σ p.pid = false) :
    isEntryDeliverable σ t s en =
      .ok (domainDeliveryAllowed σ t p.domainId p.isBridge s.domainId s.isBridge &&
        !(s.ignoreLocalPublications && s.pid = p.pid)) := by
  unfold isEntryDeliverable
  rw [hp]
  simp only [hlive, Bool.false_eq_true, ↓reduceIte]
  by_cases hlocal : s.ignoreLocalPublications ∧ s.pid = p.pid
  · rw [if_pos hlocal]
    simp [hlocal.1, hlocal.2]
  · rw [if_neg hlocal]
    have : (s.ignoreLocalPublications && decide (s.pid = p.pid)) = false := by
      rw [← Bool.not_eq_true]
      simpa using hlocal
    rw [this, Bool.not_false, Bool.and_true]

/-- What the notify lists of a state amount to:

1. a publisher's list holds the contexts of the subscribers to be woken, each as
   often as there are such subscribers with it;
2. it fits its array;
3. every context in it belongs to a subscriber in the table;
4. a successful publication of a live publisher signals every non-take subscriber
   that the delivery test lets have the new entry, once each, and no other. -/
structure NotifyExact (σ : Kmod) : Prop where
  listed : ∀ tp, ∀ p ∈ (σ.topicStructs tp).pubInfoHtable,
    (p.notifyCtxs.map some).Perm (((σ.topicStructs tp).subInfoHtable.filter fun s =>
      !s.isTakeSub && domainDeliveryAllowed σ (σ.topicStructs tp) p.domainId p.isBridge s.domainId
        s.isBridge && !(s.ignoreLocalPublications && s.pid = p.pid)).map SubscriberInfo.notifyCtx)
  room : ∀ tp, ∀ p ∈ (σ.topicStructs tp).pubInfoHtable, p.notifyNum ≤ p.notifyCapacity
  linked : ∀ tp, ∀ p ∈ (σ.topicStructs tp).pubInfoHtable, ∀ ctx ∈ p.notifyCtxs,
    ∃ s ∈ (σ.topicStructs tp).subInfoHtable, s.notifyCtx = some ctx
  signalled : ∀ env current topicName ipcNs publisherId addr reply σ',
    publishMsg σ env current topicName ipcNs publisherId addr = (.ok reply, σ') →
    ∃ w ∈ σ.topicHashtable, ∃ p ∈ (σ.topicStructs w.topic).pubInfoHtable, p.id = publisherId ∧
      (processGone σ p.pid = false → ∃ en ∈ (σ'.topicStructs w.topic).entries,
        en.entryId = reply.entryId ∧ en.publisherId = publisherId ∧ en.msgVirtualAddress = addr ∧
        (reply.signalled.map some).Perm (((σ'.topicStructs w.topic).subInfoHtable.filter fun s =>
          !s.isTakeSub && decide (isEntryDeliverable σ' (σ'.topicStructs w.topic) s en =
            .ok true)).map SubscriberInfo.notifyCtx))

private theorem NotifyOk.map_some (h : NotifyOk σ t) {p : PublisherInfo}
    (hp : p ∈ t.pubInfoHtable) : (p.notifyCtxs.map some).Perm
      ((t.subInfoHtable.filter (wakes σ t p)).map SubscriberInfo.notifyCtx) := by
  have := (h.listed p hp).map some
  rwa [map_some_notifies h.takeSub] at this

/-- The entry a publication adds is there afterwards, whatever was trimmed. -/
theorem mem_published {p : PublisherInfo} {addr : Nat} {r : ReleaseLoop}
    (hr : ReleaseSpec p.id (t.entries ++ [newEntryNode t p addr]) 0 [] r) :
    newEntryNode t p addr ∈ (t.published p r.entries).entries := by
  refine List.mem_of_getLast? ?_
  show r.entries.getLast? = _
  rw [hr.newest, List.getLast?_append_of_ne_nil _ (by simp)]
  rfl

private theorem findPublisherInfo_published (hc : t.Consistent []) {p : PublisherInfo}
    (hp : p ∈ t.pubInfoHtable) (l : List EntryNode) :
    findPublisherInfo (t.published p l) p.id = some { p with entriesNum := entriesOf p.id l } := by
  unfold findPublisherInfo TopicStruct.published
  rw [HTable.lookup_modify (fun _ => by rfl), if_pos rfl, HTable.lookup_self hc.pubs_nodup hp]
  rfl

/-- **The notify lists agree with the delivery test** in every reachable state. -/
theorem reachable_notify_exact (h : Reachable σ) : NotifyExact σ where
  listed tp p hp := (h.notifyOk tp).map_some hp
  room tp p hp := by
    refine le_trans ?_ ((h.notifyOk tp).room p hp)
    have hlen := ((h.notifyOk tp).map_some hp).length_eq
    rw [List.length_map, List.length_map] at hlen
    rw [PublisherInfo.notifyNum, hlen, ← List.countP_eq_length_filter]
    refine List.countP_mono_left fun s hs hw => ?_
    have htake := (h.notifyOk tp).takeSub s hs
    cases hctx : s.notifyCtx with
    | none => simp [wakes, htake.mp hctx] at hw
    | some ctx => rfl
  linked tp p hp ctx hctx := by
    have := ((h.notifyOk tp).map_some hp).subset (List.mem_map_of_mem hctx)
    obtain ⟨s, hs, heq⟩ := List.mem_map.mp this
    exact ⟨s, (List.mem_filter.mp hs).1, heq⟩
  signalled env current topicName ipcNs publisherId addr reply σ' hpub := by
    rcases publishMsg_cases (σ := σ) env current topicName ipcNs publisherId addr with
      ⟨e, heq⟩ | ⟨w, p, _, hw, hp, _, _, _, heq⟩
    · rw [heq] at hpub
      cases hpub
    have hw := (findTopicForCurrent_mem hw).1
    obtain ⟨hp, hid⟩ := HTable.mem_of_lookup hp
    refine ⟨w, hw, p, hp, hid, fun hlive => ?_⟩
    have hc := h.wellFormed.store w.topic
    have hlist := (h.notifyOk w.topic).map_some hp
    set t := σ.topicStructs w.topic with ht
    rcases publishMsgCore_cases hc hp env addr with ⟨e, hcore⟩ | ⟨r, hr, ⟨e, hcore⟩ | hcore⟩ <;>
      rw [heq, hcore] at hpub <;> cases hpub
    have hself : (σ.setTopic w.topic (t.published p r.entries)).topicStructs w.topic =
        t.published p r.entries := Kmod.setTopic_self ..
    rw [hself]
    refine ⟨newEntryNode t p addr, mem_published hr, rfl, hid, rfl, ?_⟩
    -- the delivery test on the new entry is the filter of the list
    refine hlist.trans (List.Perm.of_eq (congrArg _ (List.filter_congr fun s _ => ?_)))
    have hdeliver : isEntryDeliverable (σ.setTopic w.topic (t.published p r.entries))
        (t.published p r.entries) s (newEntryNode t p addr) = .ok _ :=
      isEntryDeliverable_of_live (findPublisherInfo_published hc hp r.entries) hlive
    dsimp only
    rw [hdeliver]
    unfold wakes
    rw [Bool.and_assoc]
    simp only [Except.ok.injEq, Bool.decide_eq_true]
    rfl

/-- Two processes on a topic; a take-subscriber, a subscriber of the publisher's
own process that ignores local publications, and one that is woken. -/
theorem notify_exact_after_join :
    let σ := (runOf 2 [.addProcess 1 0 0 0, .addProcess 2 0 0 0,
      .addPublisher ['/', 't'] 0 ⟨[], 1, 1, false, false⟩,
      .addSubscriber ['/', 't'] 0 ⟨[], 1, 1, false, true, false, true, false⟩ 7,
      .addSubscriber ['/', 't'] 0 ⟨[], 2, 1, false, true, true, false, false⟩ 8,
      .addSubscriber ['/', 't'] 0 ⟨[], 2, 1, false, true, false, false, false⟩ 9]).2
    (σ.topicStructs 0).pubInfoHtable.map PublisherInfo.notifyCtxs = [[9]] ∧ NotifyExact σ :=
  ⟨by decide, reachable_notify_exact (reachable_runOf (by decide) (by decide) _)⟩

end Agnocast
