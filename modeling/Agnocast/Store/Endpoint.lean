import Agnocast.Kmod.Topic

/-!
# The store — what inserting an endpoint does

`insertSubscriberInfo` and `insertPublisherInfo` have many ways to fail and one
to succeed. `insertSubscriberInfo_cases` and `insertPublisherInfo_cases` list the
outcomes: every later fact about them is a case split on these.
`insertSubscriberInfo_entries`, `_subs` and `_pubs` say what all outcomes have in common.
-/

namespace Agnocast

variable {σ : Kmod}

/-! ## Reserved arrays -/

/-- `p'` is `p` with a notify array at least as large. -/
def GrownNotify (p p' : PublisherInfo) : Prop :=
  p' = { p with notifyCapacity := p'.notifyCapacity } ∧ p.notifyCapacity ≤ p'.notifyCapacity

theorem GrownNotify.refl (p : PublisherInfo) : GrownNotify p p := ⟨rfl, le_rfl⟩

theorem needed_le_grownNotifyCapacity (capacity needed : Nat) :
    needed ≤ grownNotifyCapacity capacity needed := by
  unfold grownNotifyCapacity
  simp only
  split <;> split <;> split <;> omega

theorem reserveNotifyCtxs_ok {env : Env} {p p' : PublisherInfo} {needed : Nat}
    (h : reserveNotifyCtxs env p needed = .ok p') :
    GrownNotify p p' ∧ needed ≤ p'.notifyCapacity := by
  unfold reserveNotifyCtxs at h
  split at h
  · next hle =>
    cases h
    exact ⟨.refl p, hle⟩
  · next hlt =>
    split at h
    · cases h
    · cases h
      have := needed_le_grownNotifyCapacity p.notifyCapacity needed
      exact ⟨⟨rfl, by simp only; omega⟩, this⟩

theorem forall₂_grownNotify_refl (pubs : List PublisherInfo) :
    List.Forall₂ GrownNotify pubs pubs :=
  List.forall₂_same.mpr fun p _ => .refl p

/-- A reservation, failed or not, changes nothing but the sizes of the arrays. -/
theorem reserveAllNotifyCtxs_grown (env : Env) (needed : Nat) (pubs : List PublisherInfo) :
    List.Forall₂ GrownNotify pubs (reserveAllNotifyCtxs env needed pubs).2 := by
  induction pubs with
  | nil => exact .nil
  | cons p rest ih =>
    rw [reserveAllNotifyCtxs]
    cases h : reserveNotifyCtxs env p needed with
    | error e => exact .cons (.refl p) (forall₂_grownNotify_refl rest)
    | ok p' => exact .cons (reserveNotifyCtxs_ok h).1 ih

/-- After a successful reservation every array is large enough. -/
theorem reserveAllNotifyCtxs_ok {env : Env} {needed : Nat} {pubs pubs' : List PublisherInfo}
    (h : reserveAllNotifyCtxs env needed pubs = (.ok (), pubs')) :
    ∀ p ∈ pubs', needed ≤ p.notifyCapacity := by
  induction pubs generalizing pubs' with
  | nil =>
    cases h
    simp
  | cons p rest ih =>
    rw [reserveAllNotifyCtxs] at h
    cases hp : reserveNotifyCtxs env p needed with
    | error e =>
      rw [hp] at h
      cases h
    | ok p' =>
      rw [hp] at h
      cases hrest : reserveAllNotifyCtxs env needed rest with
      | mk ret rest' =>
        rw [hrest] at h
        obtain ⟨rfl, rfl⟩ := Prod.mk.inj h
        intro q hq
        rcases List.mem_cons.mp hq with rfl | hq
        · exact (reserveNotifyCtxs_ok hp).2
        · exact ih hrest q hq

theorem map_eq_of_grownNotify {α : Type*} {f : PublisherInfo → α}
    (hf : ∀ p c, f { p with notifyCapacity := c } = f p) {pubs pubs' : List PublisherInfo}
    (h : List.Forall₂ GrownNotify pubs pubs') : pubs'.map f = pubs.map f := by
  induction h with
  | nil => rfl
  | cons hp _ ih => rw [List.map_cons, List.map_cons, ih, hp.1, hf]

/-! ## A subscriber joins -/

/-- The node a successful ADD_SUBSCRIBER links. -/
def newSubscriberInfo (t : TopicStruct) (domainId : Nat) (args : SubscriberArgs)
    (notifyCtx : Option EventfdCtx) : SubscriberInfo where
  id := t.currentPubsubId
  domainId := domainId
  pid := args.pid
  qosDepth := args.qosDepth
  qosIsTransientLocal := args.qosIsTransientLocal
  qosIsReliable := args.qosIsReliable
  latestReceivedEntryId := if args.qosIsTransientLocal then -1 else t.currentEntryId
  nodeName := args.nodeName
  isTakeSub := args.isTakeSub
  ignoreLocalPublications := args.ignoreLocalPublications
  needMmapUpdate := true
  isBridge := args.isBridge
  notifyCtx := notifyCtx

/-- The topic once the subscriber is linked, before any notify list is rebuilt. -/
def TopicStruct.joinSubscriber (t : TopicStruct) (pubs : List PublisherInfo) (place : Nat)
    (s : SubscriberInfo) : TopicStruct :=
  { t with
    currentPubsubId := t.currentPubsubId + 1
    currentEntryId := if s.qosIsTransientLocal then t.currentEntryId else t.currentEntryId + 1
    pubInfoHtable := pubs
    subInfoHtable := HTable.hashAdd place t.subInfoHtable s }

/-- **How ADD_SUBSCRIBER's insertion ends**: it fails with at most some arrays
grown, or it links the node. -/
theorem insertSubscriberInfo_cases (env : Env) (t : TopicStruct) (domainId : Nat)
    (args : SubscriberArgs) (notifyCtx : Option EventfdCtx) :
    (∃ e pubs, List.Forall₂ GrownNotify t.pubInfoHtable pubs ∧
      insertSubscriberInfo σ env t domainId args notifyCtx =
        (.error e, { t with pubInfoHtable := pubs })) ∨
    (∃ pubs, List.Forall₂ GrownNotify t.pubInfoHtable pubs ∧
      t.currentPubsubId < maxTopicLocalId ∧
      (notifyCtx.isSome → ∀ p ∈ pubs, notifiableSubscriberNum t + 1 ≤ p.notifyCapacity) ∧
      (notifyCtx = none → pubs = t.pubInfoHtable) ∧
      insertSubscriberInfo σ env t domainId args notifyCtx =
        (.ok t.currentPubsubId,
          let t' := t.joinSubscriber pubs (env.place .subInfo)
            (newSubscriberInfo t domainId args notifyCtx)
          if notifyCtx.isSome then rebuildAllNotifyLists σ t' else t')) := by
  rw [insertSubscriberInfo]
  have hrefl := forall₂_grownNotify_refl t.pubInfoHtable
  split
  · exact .inl ⟨_, _, hrefl, rfl⟩
  split
  · exact .inl ⟨_, _, hrefl, rfl⟩
  -- the checks come first
  next hlt =>
  split
  · exact .inl ⟨_, _, hrefl, rfl⟩
  split
  · exact .inl ⟨_, _, hrefl, rfl⟩
  cases notifyCtx with
  | none => exact .inr ⟨_, hrefl, by omega, by simp, fun _ => rfl, rfl⟩
  | some ctx =>
    -- an array that cannot grow stops the loop, and those before it stay grown
    have hgrown := reserveAllNotifyCtxs_grown env (notifiableSubscriberNum t + 1) t.pubInfoHtable
    have hok := @reserveAllNotifyCtxs_ok env (notifiableSubscriberNum t + 1) t.pubInfoHtable
    simp only [Option.isSome_some, ↓reduceIte]
    cases h : reserveAllNotifyCtxs env (notifiableSubscriberNum t + 1) t.pubInfoHtable with
    | mk ret pubs =>
      rw [h] at hgrown
      cases ret with
      | error e => exact .inl ⟨e, pubs, hgrown, rfl⟩
      | ok _ => exact .inr ⟨pubs, hgrown, by omega, fun _ => hok h, by simp, rfl⟩

/-- `p'` is `p` with another notify list. -/
def Renotified (p p' : PublisherInfo) : Prop :=
  p' = { p with notifyCtxs := p'.notifyCtxs, notifyCapacity := p'.notifyCapacity }

theorem GrownNotify.renotified {p p' : PublisherInfo} (h : GrownNotify p p') : Renotified p p' := by
  unfold Renotified
  rw [h.1]

theorem Renotified.entriesNum_eq {p p' : PublisherInfo} (h : Renotified p p') :
    p'.entriesNum = p.entriesNum := by rw [h]

section

variable (env : Env) (t : TopicStruct) (domainId : Nat) (args : SubscriberArgs)
  (notifyCtx : Option EventfdCtx)

/-- **A subscriber that joins, or fails to**, leaves the entries alone. -/
theorem insertSubscriberInfo_entries :
    (insertSubscriberInfo σ env t domainId args notifyCtx).2.entries = t.entries := by
  rcases insertSubscriberInfo_cases (σ := σ) env t domainId args notifyCtx with
    ⟨e, pubs, _, heq⟩ | ⟨pubs, _, _, _, _, heq⟩ <;> rw [heq]
  split <;> rfl

/-- It is linked, or the subscribers stay as they are. -/
theorem insertSubscriberInfo_subs :
    (insertSubscriberInfo σ env t domainId args notifyCtx).2.subInfoHtable = t.subInfoHtable ∨
      (insertSubscriberInfo σ env t domainId args notifyCtx).2.subInfoHtable =
        HTable.hashAdd (env.place .subInfo) t.subInfoHtable
          (newSubscriberInfo t domainId args notifyCtx) := by
  rcases insertSubscriberInfo_cases (σ := σ) env t domainId args notifyCtx with
    ⟨e, pubs, _, heq⟩ | ⟨pubs, _, _, _, _, heq⟩ <;> rw [heq]
  · exact .inl rfl
  · right
    simp only
    split <;> rfl

/-- The publishers may get another notify list each. -/
theorem insertSubscriberInfo_pubs :
    List.Forall₂ Renotified t.pubInfoHtable
      (insertSubscriberInfo σ env t domainId args notifyCtx).2.pubInfoHtable := by
  rcases insertSubscriberInfo_cases (σ := σ) env t domainId args notifyCtx with
    ⟨e, pubs, hgrown, heq⟩ | ⟨pubs, hgrown, _, _, _, heq⟩ <;> rw [heq]
  · exact hgrown.imp fun _ _ => GrownNotify.renotified
  · simp only
    split
    · refine List.forall₂_map_right_iff.mpr (hgrown.imp fun p p' hg => ?_)
      have hsame : Renotified p p' := hg.renotified
      unfold Renotified at hsame ⊢
      rw [hsame]
      rfl
    · exact hgrown.imp fun _ _ => GrownNotify.renotified

end

/-! ## A publisher joins -/

/-- The node a successful ADD_PUBLISHER links, before its notify list is built. -/
def newPublisherInfo (t : TopicStruct) (domainId : Nat) (args : PublisherArgs) (capacity : Nat) :
    PublisherInfo where
  id := t.currentPubsubId
  domainId := domainId
  pid := args.pid
  nodeName := args.nodeName
  qosDepth := args.qosDepth
  qosIsTransientLocal := args.qosIsTransientLocal
  entriesNum := 0
  isBridge := args.isBridge
  notifyCtxs := []
  notifyCapacity := capacity

/-- **How ADD_PUBLISHER's insertion ends**: it fails before the id is consumed, it
fails to reserve the notify array with the id consumed, or it links the node. -/
theorem insertPublisherInfo_cases (env : Env) (t : TopicStruct) (domainId : Nat)
    (args : PublisherArgs) :
    (∃ e, insertPublisherInfo σ env t domainId args = (.error e, t)) ∨
    (∃ e, t.currentPubsubId < maxTopicLocalId ∧ insertPublisherInfo σ env t domainId args =
      (.error e, { t with currentPubsubId := t.currentPubsubId + 1 })) ∨
    (∃ capacity, notifiableSubscriberNum t ≤ capacity ∧ t.currentPubsubId < maxTopicLocalId ∧
      insertPublisherInfo σ env t domainId args =
        (.ok t.currentPubsubId,
          let t' := { t with currentPubsubId := t.currentPubsubId + 1 }
          { t' with
            pubInfoHtable := HTable.hashAdd (env.place .pubInfo) t.pubInfoHtable
              (rebuildNotifyList σ t' (newPublisherInfo t domainId args capacity)) })) := by
  rw [insertPublisherInfo]
  split
  · exact .inl ⟨_, rfl⟩
  split
  · exact .inl ⟨_, rfl⟩
  next hlt =>
  split
  · exact .inl ⟨_, rfl⟩
  split
  · exact .inl ⟨_, rfl⟩
  refine .inr ?_
  simp only
  split
  · next e _ => exact .inl ⟨e, by omega, rfl⟩
  · next p hp =>
    obtain ⟨⟨hp, _⟩, hcap⟩ := reserveNotifyCtxs_ok hp
    refine .inr ⟨p.notifyCapacity, hcap, by omega, ?_⟩
    rw [hp]
    rfl

end Agnocast
