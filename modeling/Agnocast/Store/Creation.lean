import Agnocast.Store.Steps

/-!
# The store — endpoint creation that fails

ADD_SUBSCRIBER and ADD_PUBLISHER first make sure that the caller's cell has a
wrapper (`add_topic`) and then insert the endpoint. An error of the insertion
does not take the wrapper back, and ADD_PUBLISHER has consumed an id by the time
the notify array is reserved.

* `FailsClean`            — where the error comes before anything was changed.
* `creation_undone_iff`   — a failed creation leaves the topics as they were
  exactly then.
* `failed_creation_leaves_wrapper` — a subscriber whose node cannot be allocated
  leaves a wrapper behind that no endpoint belongs to.
-/

namespace Agnocast

variable {σ : Kmod}

/-- The topics of `σ'` are those of `σ`: the same wrappers, counters and
endpoints. A publisher may have more room reserved for its notify list, but the
list is the same. -/
structure CreationUndone (σ σ' : Kmod) : Prop where
  wrappers : ∀ w, w ∈ σ'.topicHashtable ↔ w ∈ σ.topicHashtable
  refcnt : ∀ tp, (σ'.topicStructs tp).wrapperRefcnt = (σ.topicStructs tp).wrapperRefcnt
  pubsubId : ∀ tp, (σ'.topicStructs tp).currentPubsubId = (σ.topicStructs tp).currentPubsubId
  entryId : ∀ tp, (σ'.topicStructs tp).currentEntryId = (σ.topicStructs tp).currentEntryId
  subs : ∀ tp, (σ'.topicStructs tp).subInfoHtable = (σ.topicStructs tp).subInfoHtable
  pubs : ∀ tp, List.Forall₂ GrownNotify (σ.topicStructs tp).pubInfoHtable
    (σ'.topicStructs tp).pubInfoHtable

/-! ## Where it fails -/

/-- `add_topic` has no wrapper for the cell and cannot allocate what it needs. -/
def TopicUnavailable (σ : Kmod) (env : Env) (c : Cell) : Prop :=
  findTopic σ c = none ∧
    (env.kmalloc .topicWrapper = false ∨ env.kmalloc .topicKey = false ∨
      (findGroupedTopicStruct σ c = none ∧ env.kmalloc .topicStruct = false))

/-- ADD_PUBLISHER is refused before the topic gives out an id. -/
def RefusedBeforeId (env : Env) (t : TopicStruct) : Prop :=
  t.pubInfoHtable.length = maxPublisherNum ∨ maxTopicLocalId ≤ t.currentPubsubId ∨
    env.kmalloc .publisherInfo = false ∨ env.kmalloc .nodeName = false

/-- The failures that come before anything was changed: a bad eventfd, a topic that
cannot be had, or an insertion into a topic whose wrapper exists, which for a
publisher must fail before the notify array is reserved. -/
def FailsClean (σ : Kmod) (env : Env) : Call → Prop
  | .addSubscriber topicName ipcNs args eventfd =>
    let c : Cell := ⟨topicName, ipcNs, getProcessDomainId σ args.pid⟩
    (args.isTakeSub = false ∧ (env.eventfdGet eventfd).isOk = false) ∨
      (findTopic σ c).isSome ∨ TopicUnavailable σ env c
  | .addPublisher topicName ipcNs args =>
    let c : Cell := ⟨topicName, ipcNs, getProcessDomainId σ args.pid⟩
    (∃ w, findTopic σ c = some w ∧ RefusedBeforeId env (σ.topicStructs w.topic)) ∨
      TopicUnavailable σ env c
  | _ => True

/-- `add_topic` fails exactly when the topic cannot be had. -/
theorem addTopic_error_iff (env : Env) (c : Cell) :
    (∃ e, addTopic σ env c = (.error e, σ)) ↔ TopicUnavailable σ env c := by
  unfold addTopic TopicUnavailable
  cases hfind : findTopic σ c with
  | some w => simp
  | none =>
    cases hw : env.kmalloc .topicWrapper with
    | false => simp
    | true =>
      cases hk : env.kmalloc .topicKey with
      | false => simp
      | true =>
        cases hg : findGroupedTopicStruct σ c with
        | some tp => simp
        | none => cases ht : env.kmalloc .topicStruct <;> simp

/-- **Where ADD_PUBLISHER's insertion fails** decides whether an id is lost. -/
theorem insertPublisherInfo_error (env : Env) (t : TopicStruct) (domainId : Nat)
    (args : PublisherArgs) {e : Errno} {t' : TopicStruct}
    (h : insertPublisherInfo σ env t domainId args = (.error e, t')) :
    (RefusedBeforeId env t ∧ t' = t) ∨
      (¬ RefusedBeforeId env t ∧ t' = { t with currentPubsubId := t.currentPubsubId + 1 }) := by
  unfold insertPublisherInfo at h
  unfold RefusedBeforeId
  split at h
  · next hfull => exact .inl ⟨.inl hfull, (Prod.mk.inj h).2.symm⟩
  split at h
  · next hids => exact .inl ⟨.inr (.inl hids), (Prod.mk.inj h).2.symm⟩
  split at h
  · next hinfo => exact .inl ⟨.inr (.inr (.inl (by simpa using hinfo))), (Prod.mk.inj h).2.symm⟩
  split at h
  · next hname => exact .inl ⟨.inr (.inr (.inr (by simpa using hname))), (Prod.mk.inj h).2.symm⟩
  -- only the reservation is left to fail, and the id is taken
  next hfull hids hinfo hname =>
  simp only at h
  split at h
  · refine .inr ⟨?_, (Prod.mk.inj h).2.symm⟩
    rintro (h' | h' | h' | h')
    · exact hfull h'
    · exact hids h'
    · simp [h'] at hinfo
    · simp [h'] at hname
  · cases (Prod.mk.inj h).1

/-! ## What is left behind -/

private theorem undone_refl : CreationUndone σ σ :=
  ⟨fun _ => Iff.rfl, fun _ => rfl, fun _ => rfl, fun _ => rfl, fun _ => rfl,
    fun _ => forall₂_grownNotify_refl _⟩

/-- A failed insertion behind an existing wrapper changes nothing but reserved room,
if the id is not lost. -/
private theorem undone_setTopic {tp : Nat} {pubs : List PublisherInfo}
    (hpubs : List.Forall₂ GrownNotify (σ.topicStructs tp).pubInfoHtable pubs) :
    CreationUndone σ (σ.setTopic tp { σ.topicStructs tp with pubInfoHtable := pubs }) := by
  refine ⟨fun _ => Iff.rfl, ?_, ?_, ?_, ?_, ?_⟩ <;> intro tp' <;> by_cases htp : tp' = tp
  all_goals first
    | rw [htp, Kmod.setTopic_self]
    | rw [Kmod.setTopic_of_ne _ _ _ htp]
  · exact hpubs
  · exact forall₂_grownNotify_refl _

/-- A wrapper for a cell that had none is there to stay. -/
private theorem not_undone_of_wrapper {σ' : Kmod} {c : Cell} {w : TopicWrapper}
    (hnew : findTopic σ c = none) (hw : w ∈ σ'.topicHashtable) (hc : w.cell = c) :
    ¬ CreationUndone σ σ' :=
  fun h => findTopic_eq_none.mp hnew w ((h.wrappers w).mp hw) hc

/-- **What `add_topic` leaves to the insertion**: the existing wrapper in the same
state, or a new one. -/
private theorem addTopic_ok {env : Env} {c : Cell} {w : TopicWrapper} {σ₁ : Kmod}
    (h : addTopic σ env c = (.ok w, σ₁)) :
    (findTopic σ c = some w ∧ σ₁ = σ) ∨
      (findTopic σ c = none ∧ w ∈ σ₁.topicHashtable ∧ w.cell = c) := by
  have hw := (addTopic_moves (σ := σ) (A := fun _ _ => False) env c).2 w (congrArg Prod.fst h)
  rw [h] at hw
  rcases addTopic_cases (σ := σ) env c with ⟨e, _, heq⟩ | ⟨w', hfind, heq⟩ | ⟨tp, hnew, _, heq⟩ |
    ⟨hnew, _, heq⟩ <;> rw [heq] at h
  · cases (Prod.mk.inj h).1
  · obtain ⟨hw', rfl⟩ := Prod.mk.inj h
    cases hw'
    exact .inl ⟨hfind, rfl⟩
  · exact .inr ⟨hnew, hw⟩
  · exact .inr ⟨hnew, hw⟩

private theorem available_of_ok {env : Env} {c : Cell} {w : TopicWrapper} {σ₁ : Kmod}
    (h : addTopic σ env c = (.ok w, σ₁)) : ¬ TopicUnavailable σ env c := by
  rw [← addTopic_error_iff, h]
  rintro ⟨e, he⟩
  cases (Prod.mk.inj he).1

private theorem addSubscriber_undone_iff {env : Env} {topicName : Name} {ipcNs : IpcNs}
    {args : SubscriberArgs} {eventfd : Int} {e : Errno}
    (hfail : (addSubscriber σ env topicName ipcNs args eventfd).1 = .error e) :
    CreationUndone σ (addSubscriber σ env topicName ipcNs args eventfd).2 ↔
      FailsClean σ env (.addSubscriber topicName ipcNs args eventfd) := by
  rcases addSubscriber_cases (σ := σ) env topicName ipcNs args eventfd with
    ⟨⟨e', heq⟩, hearly⟩ | ⟨ctx, w, σ₁, _, hfd, hadd, heq⟩ <;> rw [heq] at hfail ⊢
  · refine iff_of_true undone_refl ?_
    rcases hearly with ⟨htake, e'', he⟩ | ⟨e'', he⟩
    · exact .inl ⟨htake, by rw [he]; rfl⟩
    · exact .inr (.inr ((addTopic_error_iff env _).mp ⟨e'', he⟩))
  rcases addTopic_ok hadd with ⟨hfind, rfl⟩ | ⟨hnew, hw, hc⟩
  · refine iff_of_true ?_ (.inr (.inl (by rw [hfind]; rfl)))
    rcases insertSubscriberInfo_cases (σ := σ₁) env (σ₁.topicStructs w.topic) w.domainId args ctx
      with ⟨e', pubs, hpubs, hins⟩ | ⟨pubs, _, _, _, _, hins⟩ <;> rw [hins] at hfail ⊢
    · exact undone_setTopic hpubs
    · cases hfail
  · -- the insertion failed behind a wrapper that nobody else uses
    refine iff_of_false (not_undone_of_wrapper hnew hw hc) ?_
    rintro (⟨htake, hbad⟩ | hsome | hun)
    · obtain ⟨fd, hfd⟩ := hfd htake
      rw [hfd] at hbad
      cases hbad
    · rw [hnew] at hsome
      cases hsome
    · exact available_of_ok hadd hun

private theorem addPublisher_undone_iff {env : Env} {topicName : Name} {ipcNs : IpcNs}
    {args : PublisherArgs} {e : Errno}
    (hfail : (addPublisher σ env topicName ipcNs args).1 = .error e) :
    CreationUndone σ (addPublisher σ env topicName ipcNs args).2 ↔
      FailsClean σ env (.addPublisher topicName ipcNs args) := by
  rcases addPublisher_cases (σ := σ) env topicName ipcNs args with
    ⟨e', heq, hadd⟩ | ⟨w, σ₁, hadd, ⟨e', t, hins, heq⟩ | ⟨id, t, _, heq⟩⟩ <;> rw [heq] at hfail ⊢
  · exact iff_of_true undone_refl (.inr ((addTopic_error_iff env _).mp ⟨e', hadd⟩))
  · have hclean : FailsClean σ env (.addPublisher topicName ipcNs args) ↔
        ∃ w', findTopic σ ⟨topicName, ipcNs, getProcessDomainId σ args.pid⟩ = some w' ∧
          RefusedBeforeId env (σ.topicStructs w'.topic) :=
      or_iff_left (available_of_ok hadd)
    rw [hclean]
    rcases addTopic_ok hadd with ⟨hfind, rfl⟩ | ⟨hnew, hw, hc⟩
    · rcases insertPublisherInfo_error env _ _ _ hins with ⟨hearly, rfl⟩ | ⟨hlate, rfl⟩
      · exact iff_of_true (undone_setTopic (forall₂_grownNotify_refl _)) ⟨w, hfind, hearly⟩
      · -- the id is consumed
        refine iff_of_false (fun h => ?_) ?_
        · have hid := h.pubsubId w.topic
          rw [Kmod.setTopic_self] at hid
          show False
          simp only at hid
          omega
        · rintro ⟨w', hw', hearly⟩
          rw [hfind] at hw'
          cases hw'
          exact hlate hearly
    · refine iff_of_false (not_undone_of_wrapper hnew hw hc) ?_
      rintro ⟨w', hw', _⟩
      rw [hnew] at hw'
      cases hw'
  · cases hfail

/-- **A failed creation leaves the topics as they were** exactly when it fails
before anything was changed. -/
theorem creation_undone_iff {env : Env} {call : Call} {e : Errno}
    (hfail : (step σ ⟨env, call⟩).1 = .endpointAdded (.error e)) :
    CreationUndone σ (step σ ⟨env, call⟩).2 ↔ FailsClean σ env call := by
  cases call with
  | addSubscriber topicName ipcNs args eventfd =>
    exact addSubscriber_undone_iff (Reply.endpointAdded.inj hfail)
  | addPublisher topicName ipcNs args =>
    exact addPublisher_undone_iff (Reply.endpointAdded.inj hfail)
  | _ => cases hfail

/-- A process registers; the name of its first publisher cannot be copied. -/
theorem creation_undone_iff_first :
    let σ := (runOf 2 [.addProcess 1 0 0 0]).2
    let env := { Env.smooth with kmalloc := fun s => s ≠ .nodeName }
    let call := Call.addPublisher ['/', 't'] 0 ⟨[], 1, 1, false, false⟩
    (step σ ⟨env, call⟩).1 = .endpointAdded (.error .ENOMEM) ∧
      (CreationUndone σ (step σ ⟨env, call⟩).2 ↔ FailsClean σ env call) :=
  ⟨rfl, creation_undone_iff (e := .ENOMEM) rfl⟩

/-- **A failed creation does not always undo itself**: the node of a first
subscriber cannot be allocated, and the wrapper made for it stays. -/
theorem failed_creation_leaves_wrapper :
    ¬ ∀ (σ : Kmod) (env : Env) (call : Call) (e : Errno), Reachable σ →
      (step σ ⟨env, call⟩).1 = .endpointAdded (.error e) →
      CreationUndone σ (step σ ⟨env, call⟩).2 := by
  intro h
  have hundone := h (runOf 2 [.addProcess 1 0 0 0]).2
    { Env.smooth with kmalloc := fun s => s ≠ .subscriberInfo }
    (.addSubscriber ['/', 't'] 0 ⟨[], 1, 1, false, true, false, false, false⟩ 7) .ENOMEM
    (reachable_runOf (by decide) (by decide) _) rfl
  have hw := (hundone.wrappers ⟨0, 0, ['/', 't'], 0⟩).mp (by decide)
  exact absurd hw (by decide)

end Agnocast
