import Agnocast.Process.ExitCleanup

/-!
# Delivery — entries of exited publishers

Whether an entry is delivered is decided by the state of its publisher's process, and
that is looked up by pid. A process that has exited is gone, in the table as one that is
marked and later as one that is missing, until its pid registers again.

* `ExitedPublication`       — an entry whose process was marked exited after it had
  published it.
* `run_never_delivered_again` — as long as no such entry is in a topic when its pid
  registers again, it is never handed out any more.
* `reused_pid_delivers`     — a run in which it is.
-/

namespace Agnocast

variable {σ : Kmod} {tr : List Event}

/-! ## Publications of a run -/

/-- The event marks the registration of the pid exited. -/
def MarksExited (ev : Event) (pid : Pid) : Prop :=
  ev.input.call = .processExitCleanup pid ∧ (findProcessInfo ev.pre pid).isSome = true

/-- The entry was published in the run, and afterwards its process was marked exited. -/
def ExitedPublication : List Event → Publication → Prop
  | [], _ => False
  | ev :: before, pb => ExitedPublication before pb ∨
      (MarksExited ev pb.pid ∧ ∃ x ∈ before, pb ∈ publications x)

/-- No entry of an exited process is handed out. -/
def NeverDeliveredAgain : List Event → Prop
  | [] => True
  | ev :: before => NeverDeliveredAgain before ∧
      ∀ pb, ExitedPublication before pb → ∀ ho ∈ handouts ev,
        ¬ (ho.topic = pb.topic ∧ ho.entryId = pb.entryId)

/-- A pid registers only when no topic keeps an entry that an exited process published
under it. -/
def SparesExited : List Event → Prop
  | [] => True
  | ev :: before => SparesExited before ∧
      match ev.input.call with
      | .addProcess pid _ _ _ =>
        findProcessInfo ev.pre pid = none →
          (findProcessInfo (step ev.pre ev.input).2 pid).isSome = true →
          ∀ pb, ExitedPublication before pb → pb.pid = pid →
            ∀ en ∈ (ev.pre.topicStructs pb.topic).entries, en.entryId ≠ pb.entryId
      | _ => True

/-! ## Where the entries of a process are kept -/

/-- In the topic, the entry `id` belongs to publishers of the process. -/
def BelongsTo (t : TopicStruct) (id : Int) (pid : Pid) : Prop :=
  ∀ en ∈ t.entries, en.entryId = id →
    ∀ p ∈ t.pubInfoHtable, p.id = en.publisherId → p.pid = pid

/-- An entry that was there keeps its publisher, and no later one gets its id. -/
private theorem belongsTo_evolves {t t' : TopicStruct} {D : Nat → Prop} (hc : t.Consistent [])
    (he : t.Evolves D t') {id : Int} {pid : Pid} (hlt : id < t.currentEntryId)
    (h : BelongsTo t id pid) : id < t'.currentEntryId ∧ BelongsTo t' id pid := by
  refine ⟨lt_of_lt_of_le hlt he.entryId, fun en' hen' hid p' hp' hpid => ?_⟩
  rcases he.entry en' hen' with ⟨en, hen, hsame⟩ | hnew
  · have hold : ∃ q ∈ t.pubInfoHtable, q.id = en.publisherId := hc.publisher en hen
    rcases he.pub p' hp' with ⟨p, hp, hsamep⟩ | ⟨hnew, _⟩
    · rw [hsamep.pid_eq]
      refine h en hen (hsame.entryId_eq.symm.trans hid) p hp ?_
      rw [← hsamep.id_eq, hpid, hsame.publisherId_eq]
    · -- the publisher of an old entry has an old id
      obtain ⟨q, hq, hqid⟩ := hold
      have hlt' := (hc.pub_id q hq).2
      rw [hpid, hsame.publisherId_eq, ← hqid] at hnew
      exact absurd hlt' (not_lt.mpr hnew)
  · exact absurd hlt (not_lt.mpr (hid ▸ hnew))

/-- A fresh entry belongs to its publisher. -/
private theorem belongsTo_published {t : TopicStruct} (hc : t.Consistent []) {p : PublisherInfo}
    (hp : p ∈ t.pubInfoHtable) {addr : Nat} {r : ReleaseLoop}
    (hr : ReleaseSpec p.id (t.entries ++ [newEntryNode t p addr]) 0 [] r) :
    BelongsTo (t.published p r.entries) t.currentEntryId p.pid := by
  intro en hen hid q hq hqid
  rcases List.mem_append.mp (hr.sublist.subset hen) with hen | hen
  · exact absurd (hc.entry_lt en hen) (by rw [hid]; exact lt_irrefl _)
  · rw [List.mem_singleton.mp hen] at hqid
    obtain ⟨q₀, hq₀, rfl⟩ := HTable.mem_modify.mp hq
    have hpid : q₀.id = p.id := by
      split at hqid <;> exact hqid
    rw [HTable.eq_of_key_eq hc.pubs_nodup hq₀ hp hpid]
    split <;> rfl

/-- **What was published in a run** has an id that is taken, and as long as it is kept it
belongs to the process that published it. -/
theorem run_publication (h : Transition.Run kmod Transition.anyStep tr σ) :
    ∀ pb, (∃ x ∈ tr, pb ∈ publications x) →
      pb.entryId < (σ.topicStructs pb.topic).currentEntryId ∧
      BelongsTo (σ.topicStructs pb.topic) pb.entryId pb.pid := by
  refine h.history (P := fun tr σ => ∀ pb, (∃ x ∈ tr, pb ∈ publications x) →
    pb.entryId < (σ.topicStructs pb.topic).currentEntryId ∧
      BelongsTo (σ.topicStructs pb.topic) pb.entryId pb.pid) ?_ ?_
  · rintro σ _ pb ⟨x, hx, _⟩
    cases hx
  · rintro tr σ i hrun ih _ pb ⟨x, hx, hpb⟩
    have hr : Reachable σ := hrun.reachable
    rcases List.mem_cons.mp hx with rfl | hx
    · obtain ⟨w, _, p, hp, _, addr, r, _, rfl, hspec, hafter⟩ :=
        publication_cases hr.wellFormed (i := i) hpb
      have htopic : (step σ i).2.topicStructs w.topic =
          (σ.topicStructs w.topic).published p r.entries := by
        rw [hafter, Kmod.setTopic_self]
      change _ < ((step σ i).2.topicStructs w.topic).currentEntryId ∧
        BelongsTo ((step σ i).2.topicStructs w.topic) _ _
      rw [htopic]
      exact ⟨Int.lt_succ _, belongsTo_published (hr.wellFormed.store w.topic) hp hspec⟩
    · obtain ⟨hlt, hbelongs⟩ := ih pb ⟨x, hx, hpb⟩
      exact belongsTo_evolves (hr.wellFormed.store pb.topic) (hr.evolves i pb.topic) hlt hbelongs

theorem ExitedPublication.published {pb : Publication} (h : ExitedPublication tr pb) :
    ∃ x ∈ tr, pb ∈ publications x := by
  induction tr with
  | nil => exact h.elim
  | cons ev before ih =>
    rcases h with h | ⟨_, x, hx, hpb⟩
    · obtain ⟨x, hx, hpb⟩ := ih h
      exact ⟨x, List.mem_cons_of_mem _ hx, hpb⟩
    · exact ⟨x, List.mem_cons_of_mem _ hx, hpb⟩

/-! ## Who is gone -/

/-- A process that is gone stays so until its pid registers. -/
theorem processGone_step (hr : Reachable σ) {i : Input} {pid : Pid}
    (hgone : processGone σ pid = true)
    (hnew : ∀ ipcNs raw domainId, i.call = .addProcess pid ipcNs raw domainId →
      findProcessInfo σ pid = none → findProcessInfo (step σ i).2 pid = none) :
    processGone (step σ i).2 pid = true := by
  refine Bool.not_eq_false _ ▸ fun hlive => ?_
  obtain ⟨q, hq, hqlive⟩ := processGone_eq_false.mp hlive
  rcases registration_from hr hq with ⟨p, hp, _, hmark⟩ | ⟨ipcNs, raw, domainId, hcall, _, _, hfree⟩
  · rw [processGone_eq_false.mpr ⟨p, hp, hmark hqlive⟩] at hgone
    cases hgone
  · rw [hnew ipcNs raw domainId hcall hfree] at hq
    cases hq

/-- **The process of an entry that was published before it was marked is gone**, as long
as the entry is kept. -/
theorem run_exited_gone (h : Transition.Run kmod Transition.anyStep tr σ) :
    SparesExited tr → ∀ pb, ExitedPublication tr pb →
      ∀ en ∈ (σ.topicStructs pb.topic).entries, en.entryId = pb.entryId →
        processGone σ pb.pid = true := by
  refine h.history (P := fun tr σ => SparesExited tr → ∀ pb, ExitedPublication tr pb →
    ∀ en ∈ (σ.topicStructs pb.topic).entries, en.entryId = pb.entryId →
      processGone σ pb.pid = true) ?_ ?_
  · intro σ _ _ pb hpb
    exact hpb.elim
  · rintro tr σ i hrun ih _ ⟨hspares, hguard⟩ pb hpb en' hen' hid
    have hr : Reachable σ := hrun.reachable
    rcases hpb with hpb | ⟨⟨hcall, hsome⟩, _⟩
    · -- the entry was there before, for its id is taken
      obtain ⟨hlt, _⟩ := run_publication hrun pb hpb.published
      rcases (hr.evolves i pb.topic).entry en' hen' with ⟨en, hen, hsame⟩ | hnew
      · have hid' : en.entryId = pb.entryId := hsame.entryId_eq.symm.trans hid
        refine processGone_step hr (ih hspares pb hpb en hen hid') ?_
        intro ipcNs raw domainId hcall hfree
        refine Option.not_isSome_iff_eq_none.mp fun hsome => ?_
        simp only [hcall] at hguard
        exact hguard hfree hsome pb hpb rfl en hen hid'
      · exact absurd hlt (not_lt.mpr (hid ▸ hnew))
    · obtain ⟨p, hp⟩ := Option.isSome_iff_exists.mp hsome
      have hafter : (step σ i).2 = processExitCleanup σ pb.pid := by
        obtain ⟨env, call⟩ := i
        obtain rfl : call = _ := hcall
        rfl
      show processGone (step σ i).2 pb.pid = true
      rw [hafter]
      exact (processGone_of_exit hp rfl).mpr (.inl rfl)

/-! ## Delivery -/

/-- What a subscriber accepts comes from a process that is not gone. -/
theorem accepts_live {t : TopicStruct} {s : SubscriberInfo} {en : EntryNode}
    (h : accepts σ t s en = true) :
    ∃ p ∈ t.pubInfoHtable, p.id = en.publisherId ∧ processGone σ p.pid = false := by
  unfold accepts isEntryDeliverable at h
  cases hp : findPublisherInfo t en.publisherId with
  | none =>
    rw [hp] at h
    cases h
  | some p =>
    rw [hp] at h
    obtain ⟨hmem, hid⟩ := HTable.mem_of_lookup hp
    refine ⟨p, hmem, hid, Bool.eq_false_iff.mpr fun hgone => ?_⟩
    simp only [hgone, if_true] at h
    cases h

/-- **An entry of an exited process is never delivered again** in a run that spares
them. -/
theorem run_never_delivered_again (h : Transition.Run kmod Transition.anyStep tr σ)
    (hspares : SparesExited tr) : NeverDeliveredAgain tr := by
  refine h.history (P := fun tr _ => SparesExited tr → NeverDeliveredAgain tr) (fun _ _ _ => trivial)
    ?_ hspares
  rintro tr σ i hrun ih _ ⟨hspares, _⟩
  refine ⟨ih hspares, fun pb hpb ho hho ⟨htopic, hentry⟩ => ?_⟩
  have hr : Reachable σ := hrun.reachable
  obtain ⟨w, s, batch, infos, t', m, _, hf, en, hen, rfl⟩ := handout_cases hr.wellFormed hho
  have htopic : w.topic = pb.topic := htopic
  obtain ⟨p, hp, hid, hlive⟩ := accepts_live (hf.accepted en hen)
  have hmem := hf.sublist.subset hen
  rw [htopic] at hmem hp
  have hgone := run_exited_gone hrun hspares pb hpb en hmem hentry
  rw [← (run_publication hrun pb hpb.published).2 en hmem hentry p hp hid, hlive] at hgone
  cases hgone

/-- A publisher exits while one subscriber references its entry, and the other one asks
for it. -/
theorem exited_entry_is_withheld :
    let r := runOf 4 [.addProcess 1 0 0 1, .addProcess 2 0 0 1, .addProcess 3 0 0 1,
      .addPublisher ['/', 't'] 0 ⟨[], 1, 1, false, false⟩,
      .addSubscriber ['/', 't'] 0 ⟨[], 2, 1, false, true, false, false, false⟩ 7,
      .addSubscriber ['/', 't'] 0 ⟨[], 3, 1, false, true, false, false, false⟩ 8,
      .publishMsg 1 ['/', 't'] 0 0 16, .receiveMsg 2 ['/', 't'] 0 1 10, .processExitCleanup 1,
      .receiveMsg 3 ['/', 't'] 0 2 10]
    NeverDeliveredAgain r.1 ∧ ExitedPublication r.1 ⟨0, 2, 1⟩ ∧
      (r.2.topicStructs 0).entries.map EntryNode.entryId = [2] := by
  refine ⟨run_never_delivered_again (run_runOf (by decide) (by decide) (kmod.guarded_anyStep _ _))
    ?_, ?_, by decide⟩
  · -- nobody has exited yet when the processes register
    refine ⟨⟨⟨⟨⟨⟨⟨⟨⟨⟨trivial, fun _ _ pb hpb => hpb.elim⟩, ?_⟩, ?_⟩, trivial⟩, trivial⟩, trivial⟩,
      trivial⟩, trivial⟩, trivial⟩, trivial⟩
    · rintro _ _ pb (hnone | ⟨⟨hcall, _⟩, _⟩)
      · exact hnone.elim
      · cases hcall
    · rintro _ _ pb ((hnone | ⟨⟨hcall, _⟩, _⟩) | ⟨⟨hcall, _⟩, _⟩)
      · exact hnone.elim
      · cases hcall
      · cases hcall
  · exact .inl (.inr ⟨⟨rfl, by decide⟩, _, List.mem_cons_of_mem _ List.mem_cons_self, by decide⟩)

/-- **A reused pid delivers**: process 1 exits while process 2 references its entry, its
registration is drained, and a new process 1 registers; process 3 receives the entry. -/
theorem reused_pid_delivers :
    ¬ ∀ (tr : List Event) (σ : Kmod), Transition.Run kmod Transition.anyStep tr σ →
      NeverDeliveredAgain tr := by
  intro h
  have hnever := h _ _ (run_runOf (n := 4) (by decide) (by decide) (kmod.guarded_anyStep _
    ([.addProcess 1 0 0 1, .addProcess 2 0 0 1, .addProcess 3 0 0 1,
      .addPublisher ['/', 't'] 0 ⟨[], 1, 1, false, false⟩,
      .addSubscriber ['/', 't'] 0 ⟨[], 2, 1, false, true, false, false, false⟩ 7,
      .addSubscriber ['/', 't'] 0 ⟨[], 3, 1, false, true, false, false, false⟩ 8,
      .publishMsg 1 ['/', 't'] 0 0 16, .receiveMsg 2 ['/', 't'] 0 1 10, .processExitCleanup 1,
      .commitExitProcess 0 1 9, .addProcess 1 0 0 1, .receiveMsg 3 ['/', 't'] 0 2 10].map
        fun call => ⟨.smooth, call⟩)))
  exact hnever.2 ⟨0, 2, 1⟩ (.inl (.inl (.inr ⟨⟨rfl, by decide⟩, _,
    List.mem_cons_of_mem _ List.mem_cons_self, by decide⟩))) ⟨0, 2, 2, 16⟩ (by decide) ⟨rfl, rfl⟩

end Agnocast
