import Agnocast.Store.Zombies

/-!
# The store — entries of publishers that have left

A publisher leaves when it is removed, or when its process exits. From then on its
entries are only kept for the subscribers that still reference them, and the
publisher for its entries.

RELEASE_SUB_REF clears a bit and looks no further, and the loop that REMOVE_SUBSCRIBER
and the exit cleanup share sweeps by the process table: a publisher that was removed
while its process lives on, or whose pid was given to another process, is alive for it.

* `run_no_dead_entry`  — in runs that never give up the last reference of such an
  entry in a way that leaves it, no entry of a departed publisher is unreferenced.
* `released_entry_stays` — a run that does.
-/

namespace Agnocast

variable {σ : Kmod} {t t' : TopicStruct}

/-! ## Leaving -/

/-- In the event, publisher `id` of the topic at `tp` leaves: it is removed, or its
process is cleaned up. -/
def Leaves (ev : Event) (tp : Nat) (id : Int) : Prop :=
  ∃ p ∈ (ev.pre.topicStructs tp).pubInfoHtable, p.id = id ∧
    ((∃ current topicName ipcNs w, ev.input.call = .removePublisher current topicName ipcNs id ∧
      findTopicForCurrent ev.pre current topicName ipcNs = some w ∧ w.topic = tp) ∨
    (ev.input.call = .processExitCleanup p.pid ∧ (findProcessInfo ev.pre p.pid).isSome))

/-- It has left in the run. -/
def Departed (tr : List Event) (tp : Nat) (id : Int) : Prop := ∃ ev ∈ tr, Leaves ev tp id

/-- Nothing of a departed publisher is kept but what somebody references. -/
structure NoDeadEntry (tr : List Event) (σ : Kmod) : Prop where
  entries : ∀ tp, ∀ en ∈ (σ.topicStructs tp).entries, Departed tr tp en.publisherId →
    ∃ s ∈ (σ.topicStructs tp).subInfoHtable, s.id ∈ en.referencingSubscribers.bits
  publishers : ∀ tp, ∀ p ∈ (σ.topicStructs tp).pubInfoHtable, Departed tr tp p.id →
    ∃ en ∈ (σ.topicStructs tp).entries, en.publisherId = p.id ∧
      ∃ s ∈ (σ.topicStructs tp).subInfoHtable, s.id ∈ en.referencingSubscribers.bits

/-- The event spares every publisher that has left before. -/
def SparesDeparted (before : List Event) (ev : Event) : Prop :=
  ∀ tp, ∀ p ∈ (ev.pre.topicStructs tp).pubInfoHtable, Departed before tp p.id →
    SparesPublisher ev.pre ev.input.call tp (ev.pre.topicStructs tp) p

/-- Every event of the run spares the publishers that have left before it. -/
def SparesAllDeparted : List Event → Prop
  | [] => True
  | ev :: before => SparesDeparted before ev ∧ SparesAllDeparted before

/-! ## One step -/

theorem Settled.of_store (h : SameStore t t') {p : PublisherInfo} (hs : Settled t p) :
    Settled t' p := by
  unfold Settled
  rw [h.entries]
  exact hs

private theorem SparesPublisher.of_store {call : Call} {tp : Nat} {p : PublisherInfo}
    (h : SameStore t t') (hs : SparesPublisher σ call tp t p) : SparesPublisher σ call tp t' p := by
  unfold SparesPublisher SurvivesWithout at *
  rw [h.entries, h.subs]
  exact hs

/-- The publisher that leaves in a step is settled after it. -/
private theorem leaves_settled (hr : Reachable σ) {i : Input} {tp : Nat} {p' : PublisherInfo}
    (hp' : p' ∈ ((step σ i).2.topicStructs tp).pubInfoHtable)
    (hleaves : Leaves (eventOf σ i) tp p'.id) : Settled ((step σ i).2.topicStructs tp) p' := by
  have hc := hr.wellFormed.store tp
  obtain ⟨p, hp, hid, ⟨current, topicName, ipcNs, w, hcall, hfind, htp⟩ | ⟨hcall, hsome⟩⟩ :=
    hleaves
  · obtain ⟨env, call⟩ := i
    obtain rfl : call = _ := hcall
    have hp : p ∈ (σ.topicStructs tp).pubInfoHtable := hp
    subst htp
    rw [← hid] at hp' ⊢
    obtain ⟨hsame, _⟩ := removePublisher_topicStep hr.wellFormed hfind hp
    have hp' : p' ∈ ((removePublisher σ current topicName ipcNs p.id).2.topicStructs
      w.topic).pubInfoHtable := hp'
    show Settled ((removePublisher σ current topicName ipcNs p.id).2.topicStructs w.topic) p'
    refine .of_store hsame ?_
    rw [hsame.pubs] at hp'
    rcases (hc.mem_dropPublisher hp).mp hp' with ⟨_, hne⟩ | ⟨rfl, hpos⟩
    · exact absurd hid.symm hne
    · -- it stays for its entries, and those that stay are referenced
      refine ⟨hpos.ne', fun en hen hen' => ?_⟩
      rw [hc.dropPublisher_entries hp] at hen
      have hkeep := (List.mem_filter.mp hen).2
      have hen' : en.publisherId = p.id := hen'
      simpa [hen'] using hkeep
  · obtain ⟨env, call⟩ := i
    obtain rfl : call = _ := hcall
    obtain ⟨procInfo, hproc⟩ := Option.isSome_iff_exists.mp hsome
    have hproc : findProcessInfo σ p.pid = some procInfo := hproc
    obtain ⟨σ₁, hprocs, hsame⟩ := exit_topicStep hr.wellFormed hproc tp
    have hclean := visit_cleaned hc ((processGone_of_exit hproc hprocs).mpr (.inl rfl))
    show Settled ((processExitCleanup σ p.pid).topicStructs tp) p'
    have hp' : p' ∈ ((processExitCleanup σ p.pid).topicStructs tp).pubInfoHtable := hp'
    refine (hclean.of_content hsame.toSameContent).pubs p' hp' ?_
    -- the publisher behind `p'` is the one that left
    rcases (hr.evolves ⟨env, .processExitCleanup p.pid⟩ tp).pub p' hp' with
      ⟨p₀, hp₀, hsame₀⟩ | ⟨hnew, _⟩
    · rw [hsame₀.pid_eq, HTable.eq_of_key_eq hc.pubs_nodup hp₀ hp (hsame₀.id_eq.symm.trans hid.symm)]
    · exact absurd (hc.pub_id p hp).2 (by rw [hid]; exact not_lt.mpr hnew)

/-- A publisher that has left in a run had an id that is taken. -/
theorem departed_lt {tr : List Event} (h : Transition.Run kmod Transition.anyStep tr σ) {tp : Nat}
    {id : Int} (hd : Departed tr tp id) : id < (σ.topicStructs tp).currentPubsubId := by
  refine h.history (P := fun tr σ => ∀ tp id, Departed tr tp id →
    id < (σ.topicStructs tp).currentPubsubId) ?_ (fun tr σ i hr ih _ tp id hd => ?_) tp id hd
  · rintro σ _ tp id ⟨_, hev, _⟩
    cases hev
  · have hr : Reachable σ := hr.reachable
    have hle : (σ.topicStructs tp).currentPubsubId ≤
      ((kmod.step σ i).2.topicStructs tp).currentPubsubId := (hr.evolves i tp).pubsubId
    obtain ⟨ev, hev, hleaves⟩ := hd
    rcases List.mem_cons.mp hev with rfl | hev
    · obtain ⟨p, hp, rfl, _⟩ := hleaves
      exact ((hr.wellFormed.store tp).pub_id p hp).2.trans_le hle
    · exact (ih tp id ⟨ev, hev, hleaves⟩).trans_le hle

/-! ## Runs -/

/-- What a run keeps: publishers that have left are settled. -/
private theorem departed_settled {tr : List Event}
    (h : Transition.Run kmod Transition.anyStep tr σ) (hspares : SparesAllDeparted tr) :
    ∀ tp, ∀ p ∈ (σ.topicStructs tp).pubInfoHtable, Departed tr tp p.id →
      Settled (σ.topicStructs tp) p := by
  refine h.history (P := fun tr σ => SparesAllDeparted tr →
      ∀ tp, ∀ p ∈ (σ.topicStructs tp).pubInfoHtable, Departed tr tp p.id →
        Settled (σ.topicStructs tp) p) ?_ (fun tr σ i hrun ih _ hspares tp p' hp' hd => ?_) hspares
  · rintro σ _ _ tp p _ ⟨_, hev, _⟩
    cases hev
  have hr : Reachable σ := hrun.reachable
  change p' ∈ ((step σ i).2.topicStructs tp).pubInfoHtable at hp'
  change Settled ((step σ i).2.topicStructs tp) p'
  obtain ⟨ev, hev, hleaves⟩ := hd
  rcases List.mem_cons.mp hev with rfl | hev
  · exact leaves_settled hr hp' hleaves
  -- it had left before this step, which spares it
  have hd : Departed tr tp p'.id := ⟨ev, hev, hleaves⟩
  obtain ⟨hnow, hbefore⟩ := hspares
  have ih := ih hbefore
  obtain ⟨t, t', hleft, hstep, hright⟩ := step_topicStep hr i tp
  rw [hright.pubs] at hp'
  refine .of_store hright (hstep.settled (hleft.consistent (hr.wellFormed.store tp)) (q := p'.id)
    ?_ (fun p hp hid => ?_) p' hp' rfl)
  · rw [hleft.pubsubId]
    exact departed_lt hrun hd
  · rw [hleft.pubs] at hp
    rw [← hid] at hd
    exact ⟨.of_store hleft (ih tp p hp hd), .of_store hleft (hnow tp p hp hd)⟩

/-- **No dead entry is retained** in a run whose steps spare the publishers that have
left: each of their entries is referenced, and each of them has such an entry. -/
theorem run_no_dead_entry {tr : List Event} (h : Transition.Run kmod Transition.anyStep tr σ)
    (hspares : SparesAllDeparted tr) : NoDeadEntry tr σ := by
  have hr : Reachable σ := h.reachable
  have hsettled := departed_settled h hspares
  have hholder : ∀ tp, ∀ en ∈ (σ.topicStructs tp).entries, isReferenced en = true →
      ∃ s ∈ (σ.topicStructs tp).subInfoHtable, s.id ∈ en.referencingSubscribers.bits := by
    intro tp en hen href
    obtain ⟨b, hb⟩ := isReferenced_iff.mp href
    obtain ⟨s, hs, rfl⟩ := (hr.wellFormed.store tp).bit_holder hen hb
    exact ⟨s, hs, hb⟩
  refine ⟨fun tp en hen hd => ?_, fun tp p hp hd => ?_⟩
  · obtain ⟨p, hp, hid⟩ := (hr.wellFormed.store tp).publisher en hen
    rw [← hid] at hd
    exact hholder tp en hen ((hsettled tp p hp hd).2 en hen hid.symm)
  · have hs := hsettled tp p hp hd
    obtain ⟨en, hen, hid⟩ := hs.entry (hr.wellFormed.store tp) hp
    exact ⟨en, hen, hid, hholder tp en hen (hs.2 en hen hid)⟩

/-- A publisher is removed while a subscriber references its entry. -/
theorem departed_entry_is_held :
    let r := runOf 3 [.addProcess 1 0 0 1, .addProcess 2 0 0 1,
      .addPublisher ['/', 't'] 0 ⟨[], 1, 1, false, false⟩,
      .addSubscriber ['/', 't'] 0 ⟨[], 2, 1, false, true, false, false, false⟩ 7,
      .publishMsg 1 ['/', 't'] 0 0 16, .receiveMsg 2 ['/', 't'] 0 1 10,
      .removePublisher 1 ['/', 't'] 0 0]
    NoDeadEntry r.1 r.2 ∧ Departed r.1 0 0 ∧ (r.2.topicStructs 0).entries ≠ [] := by
  refine ⟨run_no_dead_entry (run_runOf (by decide) (by decide) (kmod.guarded_anyStep _ _))
    ⟨fun _ _ _ _ => trivial, fun _ _ _ _ => trivial, fun tp p _ hd => ?_, fun _ _ _ _ => trivial,
      fun _ _ _ _ => trivial, fun _ _ _ _ => trivial, fun _ _ _ _ => trivial, trivial⟩, ?_, by decide⟩
  · -- nobody has left before the publication
    exfalso
    obtain ⟨ev, hev, _, _, _, ⟨_, _, _, _, hcall, _⟩ | ⟨hcall, _⟩⟩ := hd <;>
    · rcases hev with _ | ⟨_, _ | ⟨_, _ | ⟨_, _ | ⟨_, hev⟩⟩⟩⟩ <;> first | cases hcall | cases hev
  · exact ⟨_, List.mem_cons_self, ⟨0, 1, 1, [], 1, false, 1, false, [7], 8⟩, by decide, rfl,
      .inl ⟨1, ['/', 't'], 0, ⟨0, 1, ['/', 't'], 0⟩, rfl, by decide, rfl⟩⟩

/-- **A release leaves the entry**: process 1 publishes and exits while process 2 holds
the message; the release of process 2 clears the last reference and keeps the entry. -/
theorem released_entry_stays :
    ¬ ∀ (tr : List Event) (σ : Kmod), Transition.Run kmod Transition.anyStep tr σ →
      NoDeadEntry tr σ := by
  intro h
  have hdead := h _ _ (run_runOf (n := 3) (by decide) (by decide) (kmod.guarded_anyStep _
    ([.addProcess 1 0 0 1, .addProcess 2 0 0 1,
      .addPublisher ['/', 't'] 0 ⟨[], 1, 1, false, false⟩,
      .addSubscriber ['/', 't'] 0 ⟨[], 2, 1, false, true, false, false, false⟩ 7,
      .publishMsg 1 ['/', 't'] 0 0 16, .receiveMsg 2 ['/', 't'] 0 1 10,
      .processExitCleanup 1, .releaseMessageEntryReference 2 ['/', 't'] 0 1 1].map
        fun call => ⟨.smooth, call⟩)))
  have hentry := hdead.entries 0 ⟨1, 0, 16, .zero⟩ (by decide)
    ⟨_, List.mem_cons_of_mem _ List.mem_cons_self, ⟨0, 1, 1, [], 1, false, 1, false, [7], 8⟩,
      by decide, rfl, .inr ⟨rfl, rfl⟩⟩
  obtain ⟨s, _, hbit⟩ := hentry
  cases hbit

end Agnocast
