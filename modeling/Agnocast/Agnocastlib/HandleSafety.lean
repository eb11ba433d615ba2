import Agnocast.Agnocastlib.TakeSubscription

/-!
# The client library — handles keep their entries (proof)

What a live handle needs is that its control block is the only one for its entry, and
that the entry carries the bit. `Taker.Sound` says so for every control block, dying ones
included, and for every take that is about to return.
-/

namespace Agnocast

variable {σ : Kmod} {sub : TakeSubscription} {w : TopicWrapper}

/-! ## The subscription in the kernel -/

/-- The call leaves the subscription alone. -/
structure TakeSubscription.Spared (sub : TakeSubscription) (w : TopicWrapper) (σ : Kmod)
    (call : Call) : Prop where
  leave : ¬ Permits σ call w.topic (.leave sub.id)
  exit : call ≠ .processExitCleanup sub.pid
  commit : ∀ ipcNs callerPid, call ≠ .commitExitProcess ipcNs sub.pid callerPid

namespace TakeSubscription

/-- The subscriber with the id is the process's own. -/
private theorem Stands.spares (h : sub.Stands w σ) (hr : Reachable σ) {call : Call}
    (hspare : sub.Spared w σ call) :
    ∀ s ∈ (σ.topicStructs w.topic).subInfoHtable, s.id = sub.id →
      SparesSubscriber σ call w.topic s := by
  intro s hs hid
  obtain ⟨s₀, hs₀, hid₀, hpid, _⟩ := h.subscriber
  obtain rfl := HTable.eq_of_key_eq (hr.wellFormed.store w.topic).subs_nodup hs hs₀
    (hid.trans hid₀.symm)
  exact ⟨hid ▸ hspare.leave, hpid ▸ hspare.exit⟩

/-- The registration keeps its domain, so the process finds the same topic. -/
theorem Stands.step (h : sub.Stands w σ) (hr : Reachable σ) {i : Input}
    (hspare : sub.Spared w σ i.call) : sub.Stands w (Agnocast.step σ i).2 := by
  obtain ⟨s, hs, hid, hpid, hdom, htake⟩ := h.subscriber
  obtain ⟨s', hs', hsame⟩ := keeps_subscriber_step hr i hs (h.spares hr hspare s hs hid)
  obtain ⟨hprocess, hdomain⟩ := process_stays hr h.process hspare.exit hspare.commit
  exact ⟨finds_topic_step hr i h.wrapper hdomain hs hs' hsame hdom, hprocess, s', hs',
    hsame.id_eq.trans hid, hsame.pid_eq.trans hpid, hsame.domainId_eq.trans hdom,
    hsame.isTakeSub_eq.trans htake⟩

/-- **A granted entry stays granted** while nobody releases it. -/
theorem Granted.step {entryId : Int} (hg : sub.Granted w σ entryId) (h : sub.Stands w σ)
    (hr : Reachable σ) {i : Input} (hspare : sub.Spared w σ i.call)
    (hrelease : ¬ Permits σ i.call w.topic (.release sub.id entryId)) :
    sub.Granted w (Agnocast.step σ i).2 entryId := by
  obtain ⟨en, href, rfl⟩ := hg
  obtain ⟨en', hsame, href'⟩ := keeps_reference_step hr i href hrelease (h.spares hr hspare)
  exact ⟨en', href', hsame.entryId_eq⟩

/-! ## The ioctls of the library -/

/-- The call of a take. -/
private def takeInput (sub : TakeSubscription) (env : Env) (allow : Bool) : Input :=
  ⟨env, .takeMsg sub.pid sub.topicName sub.ipcNs sub.id allow maxPublisherNum⟩

private theorem spared_take (env : Env) (allow : Bool) :
    sub.Spared w σ (takeInput sub env allow).call := by
  refine ⟨?_, fun h => (by cases h), fun _ _ h => (by cases h)⟩
  rintro ⟨_, _, _, _, hcall, _⟩
  cases hcall

private theorem take_releases_nothing (env : Env) (allow : Bool) (entryId : Int) :
    ¬ Permits σ (takeInput sub env allow).call w.topic (.release sub.id entryId) := by
  rintro ⟨_, _, _, _, hcall, _⟩
  cases hcall

/-- What a take returns is granted. -/
theorem Stands.take_granted (h : sub.Stands w σ) (hr : Reachable σ) {env : Env} {allow : Bool}
    {e : Int × Nat} {infos : List PublisherShmInfo} {σ' : Kmod}
    (htake : takeMsg σ env sub.pid sub.topicName sub.ipcNs sub.id allow maxPublisherNum =
      (.ok (some e, infos), σ')) : sub.Granted w σ' e.1 := by
  have hstep : Agnocast.step σ (takeInput sub env allow) = (.taken (.ok (some e, infos)), σ') :=
    congrArg (answer Reply.taken) htake
  have hho : (⟨w.topic, sub.id, e.1, e.2⟩ : Handout) ∈
      handouts (eventOf σ (takeInput sub env allow)) := by
    unfold eventOf
    rw [hstep]
    simp only [handouts, takeInput, h.wrapper, List.mem_singleton]
  obtain ⟨w', s, batch, infos', t', m, _, hf, en, hen, heq⟩ := handout_cases hr.wellFormed hho
  obtain ⟨htp, hid, hentry, _⟩ := Handout.mk.inj heq
  obtain ⟨en', hen', hsame, hbit⟩ := hf.granted hr.wellFormed hen
  have htopic := hf.topic
  rw [hstep] at htopic
  refine ⟨en', ⟨?_, hid ▸ hbit⟩, hsame.entryId_eq.trans hentry.symm⟩
  rw [htp, htopic]
  exact hen'

/-- The call of a release. -/
private def releaseInput (sub : TakeSubscription) (entryId : Int) : Input :=
  ⟨.smooth, .releaseMessageEntryReference sub.pid sub.topicName sub.ipcNs sub.id entryId⟩

private theorem spared_release (entryId : Int) :
    sub.Spared w σ (releaseInput sub entryId).call := by
  refine ⟨?_, fun h => (by cases h), fun _ _ h => (by cases h)⟩
  rintro ⟨_, _, _, _, hcall, _⟩
  cases hcall

/-- It releases one entry. -/
private theorem releases_one {entryId entryId' : Int} (hne : entryId' ≠ entryId) :
    ¬ Permits σ (releaseInput sub entryId).call w.topic (.release sub.id entryId') := by
  rintro ⟨_, _, _, _, hcall, _⟩
  cases hcall
  exact hne rfl

/-- **The release of a granted entry succeeds.** -/
theorem Stands.release_ok (h : sub.Stands w σ) (hr : Reachable σ) {entryId : Int}
    (hg : sub.Granted w σ entryId) :
    (releaseMessageEntryReference σ sub.pid sub.topicName sub.ipcNs sub.id entryId).1 = .ok () := by
  obtain ⟨en, ⟨hen, hbit⟩, rfl⟩ := hg
  have hc := hr.wellFormed.store w.topic
  have hfind : findMessageEntry (σ.topicStructs w.topic) en.entryId = some en :=
    (HTable.lookup_eq_some_iff hc.entries_nodup).mpr ⟨hen, rfl⟩
  obtain ⟨s, hs, hid, _⟩ := h.subscriber
  have hrange : inBitmapRange sub.id := hid ▸ hc.sub_inRange hs
  unfold releaseMessageEntryReference
  simp only [h.wrapper, hfind]
  rw [if_neg (not_not.mpr hrange), if_neg (not_not.mpr hbit)]

end TakeSubscription

/-! ## The invariant -/

/-- What holds of the process at every moment. -/
structure Taker.Sound (sub : TakeSubscription) (w : TopicWrapper) (x : Taker) : Prop where
  reachable : Reachable x.kmod
  stands : sub.Stands w x.kmod
  counted : x.ptrs.Counted refCountSize
  cached : ∀ b, x.lastTakenPtr = some b → b ∈ x.ptrs.instances
  granted : ∀ b ref, x.ptrs.valueOf b = some ref → ref.topicName = sub.topicName ∧
    ref.pubsubId = sub.id ∧ sub.Granted w x.kmod ref.entryId
  distinct : ∀ b c ref ref', x.ptrs.valueOf b = some ref → x.ptrs.valueOf c = some ref' →
    ref.entryId = ref'.entryId → b = c
  pending : ∀ take ∈ x.pending, sub.Granted w x.kmod take.entryId

namespace Taker.Sound

variable {x : Taker}

/-- A step of the module that takes nothing from the subscription. -/
private theorem of_kmod (h : x.Sound sub w) {i : Input} (hspare : sub.Spared w x.kmod i.call)
    (hrelease : ∀ entryId, ¬ Permits x.kmod i.call w.topic (.release sub.id entryId)) :
    ({ x with kmod := (Agnocast.step x.kmod i).2 } : Taker).Sound sub w where
  reachable := Transition.Reachable.step h.reachable i
  stands := h.stands.step h.reachable hspare
  counted := h.counted
  cached := h.cached
  granted b ref href := by
    obtain ⟨hname, hid, hg⟩ := h.granted b ref href
    exact ⟨hname, hid, hg.step h.stands h.reachable hspare (hrelease _)⟩
  distinct := h.distinct
  pending take htake := (h.pending take htake).step h.stands h.reachable hspare (hrelease _)

/-- The pointers change, but no control block is made or changed. -/
private theorem of_ptrs (h : x.Sound sub w) {ptrs : SharedPtrs MessageRef}
    (hc : ptrs.Counted refCountSize) (hvalue : ∀ b, ptrs.valueOf b = x.ptrs.valueOf b)
    (hcached : ∀ b, x.lastTakenPtr = some b → b ∈ ptrs.instances) :
    ({ x with ptrs := ptrs } : Taker).Sound sub w where
  reachable := h.reachable
  stands := h.stands
  counted := hc
  cached := hcached
  granted b ref href := h.granted b ref (hvalue b ▸ href)
  distinct b c ref ref' hb hc := h.distinct b c ref ref' (hvalue b ▸ hb) (hvalue c ▸ hc)
  pending := h.pending

private theorem mem_of_handles {b : Nat} (hb : b ∈ x.handles) : b ∈ x.ptrs.instances := by
  unfold handles at hb
  split at hb
  · exact hb
  · exact List.mem_of_mem_erase hb

/-- The cached instance is not one of the handles, so dropping a handle leaves it. -/
private theorem cached_erase (h : x.Sound sub w) {b c : Nat} (hb : b ∈ x.handles)
    (hc : x.lastTakenPtr = some c) : c ∈ x.ptrs.instances.erase b := by
  by_cases heq : c = b
  · unfold handles at hb
    rw [hc] at hb
    subst heq
    exact hb
  · exact (List.mem_erase_of_ne heq).mpr (h.cached c hc)

/-- A new control block, for an entry that has none. -/
private theorem of_make (h : x.Sound sub w) {entryId : Int} (hg : sub.Granted w x.kmod entryId)
    (hnew : ∀ b ref, x.ptrs.valueOf b = some ref → ref.entryId ≠ entryId) :
    ({ x with ptrs := x.ptrs.make ⟨sub.topicName, sub.id, entryId⟩ } : Taker).Sound sub w where
  reachable := h.reachable
  stands := h.stands
  counted := h.counted.make (by decide) _
  cached b hb := List.mem_cons_of_mem _ (h.cached b hb)
  granted b ref href := by
    have href : (x.ptrs.make _).valueOf b = some ref := href
    rw [SharedPtrs.valueOf_make] at href
    split at href
    · obtain rfl := Option.some.inj href
      exact ⟨rfl, rfl, hg⟩
    · exact h.granted b ref href
  distinct b c ref ref' hb hc heq := by
    have hb : (x.ptrs.make _).valueOf b = some ref := hb
    have hc : (x.ptrs.make _).valueOf c = some ref' := hc
    rw [SharedPtrs.valueOf_make] at hb hc
    split at hb <;> split at hc
    · next hb' hc' => rw [hb', hc']
    · obtain rfl := Option.some.inj hb
      exact absurd heq.symm (hnew c ref' hc)
    · obtain rfl := Option.some.inj hc
      exact absurd heq (hnew b ref hb)
    · exact h.distinct b c ref ref' hb hc heq
  pending := h.pending

private theorem of_copy (h : x.Sound sub w) {b : Nat} (hb : b ∈ x.ptrs.instances) :
    ({ x with ptrs := x.ptrs.copy refCountSize b } : Taker).Sound sub w := by
  refine h.of_ptrs (h.counted.copy hb) (fun _ => SharedPtrs.valueOf_copy ..) fun c hc => ?_
  have hc := h.cached c hc
  unfold SharedPtrs.copy
  split
  · exact hc
  · exact List.mem_cons_of_mem _ hc

private theorem of_drop (h : x.Sound sub w) {b : Nat} (hb : b ∈ x.handles)
    (hlast : ∀ k, x.ptrs.blocks b = some k → k.refCount = 1 → x.ptrs.instances.count b = 1) :
    ({ x with ptrs := x.ptrs.drop refCountSize b } : Taker).Sound sub w := by
  refine h.of_ptrs (h.counted.drop (by decide) (mem_of_handles hb) hlast)
    (fun _ => SharedPtrs.valueOf_drop ..) fun c hc => ?_
  unfold SharedPtrs.drop
  split
  · exact h.cached c hc
  · exact h.cached_erase hb hc

private theorem of_move (h : x.Sound sub w) {b : Nat} (hb : b ∈ x.handles) :
    ({ x with ptrs := { x.ptrs with instances := b :: x.ptrs.instances.erase b } } :
      Taker).Sound sub w := by
  have hperm := List.perm_cons_erase (mem_of_handles hb)
  exact h.of_ptrs (h.counted.perm hperm.symm) (fun _ => rfl) fun c hc =>
    hperm.mem_iff.mp (h.cached c hc)

/-- The first half of a take. -/
private theorem takeIoctl (h : x.Sound sub w) (env : Env) (allow : Bool) :
    (x.takeIoctl sub env allow).Sound sub w := by
  have hafter := h.of_kmod (sub.spared_take env allow) (sub.take_releases_nothing env allow)
  have hkmod : (Agnocast.step x.kmod (sub.takeInput env allow)).2 =
      (takeMsg x.kmod env sub.pid sub.topicName sub.ipcNs sub.id allow maxPublisherNum).2 := rfl
  rw [hkmod] at hafter
  unfold Taker.takeIoctl
  split
  · next e σ' heq =>
    rw [heq] at hafter
    exact ⟨hafter.reachable, hafter.stands, hafter.counted, hafter.cached, hafter.granted,
      hafter.distinct, hafter.pending⟩
  · next infos σ' heq =>
    rw [heq] at hafter
    exact hafter
  · next entryId addr infos σ' heq =>
    have hg := h.stands.take_granted h.reachable heq
    rw [heq] at hafter
    split
    · exact hafter
    · refine ⟨hafter.reachable, hafter.stands, hafter.counted, hafter.cached, hafter.granted,
        hafter.distinct, fun take htake => ?_⟩
      rcases List.mem_cons.mp htake with rfl | htake
      · exact hg
      · exact hafter.pending take htake

/-- The second half. -/
private theorem takeReturn (h : x.Sound sub w) {take : PendingTake} (htake : take ∈ x.pending)
    (hone : OneBlock x (.takeReturn take)) : (x.takeReturn sub take).Sound sub w := by
  have hback : ({ x with pending := x.pending.erase take } : Taker).Sound sub w :=
    ⟨h.reachable, h.stands, h.counted, h.cached, h.granted, h.distinct,
      fun other hother => h.pending other (List.mem_of_mem_erase hother)⟩
  have hbuilt : (take.allowSameMessage = true → x.cachedFor take.entryId = none) →
      ({ x with
        ptrs := x.ptrs.make ⟨sub.topicName, sub.id, take.entryId⟩
        pending := x.pending.erase take } : Taker).Sound sub w :=
    fun hmiss => hback.of_make (h.pending take htake) (hone hmiss)
  unfold Taker.takeReturn
  by_cases hallow : take.allowSameMessage = true
  · have hsame : ({ x with pending := x.pending.erase take } : Taker).cachedFor take.entryId =
        x.cachedFor take.entryId := rfl
    simp only [hallow, if_true]
    rw [hsame]
    cases hcached : x.cachedFor take.entryId with
    | some b =>
      have hb : x.lastTakenPtr = some b := (Option.filter_eq_some_iff.mp hcached).1
      exact hback.of_copy (h.cached b hb)
    | none =>
      have hnew : x.ptrs.next ∈ (x.ptrs.make ⟨sub.topicName, sub.id, take.entryId⟩).instances :=
        List.mem_cons_self
      have hcopy := (hbuilt fun _ => hcached).of_copy hnew
      refine ⟨hcopy.reachable, hcopy.stands, hcopy.counted, fun b hb => ?_, hcopy.granted,
        hcopy.distinct, hcopy.pending⟩
      obtain rfl := Option.some.inj hb
      show x.ptrs.next ∈ (SharedPtrs.copy refCountSize x.ptrs.next _).instances
      unfold SharedPtrs.copy
      split
      · exact hnew
      · exact List.mem_cons_self
  · rw [if_neg hallow]
    exact hbuilt fun hyes => absurd hyes hallow

/-- A dying block is deleted once the kernel, in `σ'`, has cleared no bit but its own. -/
private theorem of_delete (h : x.Sound sub w) {b : Nat} (hb : b ∈ x.ptrs.dying) {ref : MessageRef}
    (href : x.ptrs.valueOf b = some ref)
    (hpending : ∀ take ∈ x.pending, take.entryId ≠ ref.entryId) {σ' : Kmod} (hr : Reachable σ')
    (hstands : sub.Stands w σ')
    (hkept : ∀ entryId, entryId ≠ ref.entryId → sub.Granted w x.kmod entryId →
      sub.Granted w σ' entryId) :
    ({ x with kmod := σ', ptrs := x.ptrs.delete b } : Taker).Sound sub w where
  reachable := hr
  stands := hstands
  counted := h.counted.delete hb
  cached := h.cached
  granted c ref' href' := by
    have href' : (x.ptrs.delete b).valueOf c = some ref' := href'
    rw [SharedPtrs.valueOf_delete] at href'
    split at href'
    · cases href'
    · next hne =>
      -- another block is one for another entry
      obtain ⟨hname, hid, hg⟩ := h.granted c ref' href'
      exact ⟨hname, hid, hkept _ (fun heq => hne (h.distinct c b ref' ref href' href heq)) hg⟩
  distinct c d ref' ref'' hc hd heq := by
    have hc : (x.ptrs.delete b).valueOf c = some ref' := hc
    have hd : (x.ptrs.delete b).valueOf d = some ref'' := hd
    rw [SharedPtrs.valueOf_delete] at hc hd
    split at hc
    · cases hc
    split at hd
    · cases hd
    exact h.distinct c d ref' ref'' hc hd heq
  pending take htake := hkept _ (hpending take htake) (h.pending take htake)

/-- **The release of a dying block** succeeds, and takes its bit from nobody else. -/
private theorem release (h : x.Sound sub w) {b : Nat} (hb : b ∈ x.ptrs.dying)
    (hone : OneBlock x (.release b)) :
    (x.release sub b).2.Sound sub w ∧ ∀ r, (x.release sub b).1 = some r → r = .ok () := by
  obtain ⟨ref, href⟩ := Option.isSome_iff_exists.mp
    (h.counted.present b (List.mem_append_right _ hb))
  obtain ⟨hname, hid, hg⟩ := h.granted b ref href
  have hpending := hone ref href
  unfold Taker.release
  rw [href]
  simp only
  split
  · exact ⟨h.of_delete hb href hpending h.reachable h.stands fun _ _ hg => hg,
      fun r hr => by cases hr⟩
  have hok := h.stands.release_ok h.reachable hg
  have hspare := sub.spared_release (w := w) (σ := x.kmod) ref.entryId
  have hstep : (Agnocast.step x.kmod (sub.releaseInput ref.entryId)).2 =
    (releaseMessageEntryReference x.kmod sub.pid sub.topicName sub.ipcNs sub.id ref.entryId).2 := rfl
  have hreach := Transition.Reachable.step h.reachable (sub.releaseInput ref.entryId)
  have hstands := h.stands.step h.reachable hspare
  have hkept : ∀ entryId, entryId ≠ ref.entryId → sub.Granted w x.kmod entryId →
      sub.Granted w (Agnocast.step x.kmod (sub.releaseInput ref.entryId)).2 entryId :=
    fun entryId hne hg => hg.step h.stands h.reachable hspare (sub.releases_one hne)
  change Reachable (Agnocast.step x.kmod (sub.releaseInput ref.entryId)).2 at hreach
  rw [hstep] at hreach hstands hkept
  rw [hname, hid]
  generalize releaseMessageEntryReference x.kmod sub.pid sub.topicName sub.ipcNs sub.id
    ref.entryId = reply at hok hreach hstands hkept
  obtain ⟨ret, σ'⟩ := reply
  obtain rfl : ret = .ok () := hok
  exact ⟨h.of_delete hb href hpending hreach hstands hkept, fun r hr => (Option.some.inj hr).symm⟩

/-- A step of the process. -/
private theorem act (h : x.Sound sub w) {i : TakerInput} (hone : OneBlock x i) :
    (x.act sub i).2.Sound sub w ∧ ∀ r, (x.act sub i).1 = some r → r = .ok () := by
  have hquiet : ∀ y : Taker, y.Sound sub w →
      y.Sound sub w ∧ ∀ r, (none : Option (Except Errno Unit)) = some r → r = .ok () :=
    fun y hy => ⟨hy, fun r hr => by cases hr⟩
  -- what the process has not got it cannot use
  have hif : ∀ {c : Prop} [Decidable c] {y : Taker}, (c → y.Sound sub w) →
      (if c then y else x).Sound sub w := by
    intro c _ y hy
    split
    · next hc => exact hy hc
    · exact h
  cases i with
  | kernel i => exact hquiet x h
  | takeIoctl env allow => exact hquiet _ (h.takeIoctl env allow)
  | takeReturn take => exact hquiet _ (hif fun htake => h.takeReturn htake hone)
  | copy b => exact hquiet _ (hif fun hb => h.of_copy (mem_of_handles hb))
  | move b => exact hquiet _ (hif fun hb => h.of_move hb)
  | drop b => exact hquiet _ (hif fun hb => h.of_drop hb hone)
  | release b =>
    unfold Taker.act
    simp only
    split
    · next hb => exact h.release hb hone
    · exact hquiet x h

/-- **Every step keeps the invariant**, and no release ioctl fails. -/
theorem step (h : x.Sound sub w) {i : TakerInput} (halive : StaysAlive sub x i)
    (hone : OneBlock x i) :
    (x.step sub i).2.Sound sub w ∧ ∀ r, (x.step sub i).1 = some r → r = .ok () := by
  have hown : (if x.terminated then (none, x) else x.act sub i).2.Sound sub w ∧
      ∀ r, (if x.terminated then (none, x) else x.act sub i).1 = some r → r = .ok () := by
    split
    · exact ⟨h, fun r hr => by cases hr⟩
    · exact h.act hone
  cases i with
  | kernel i =>
    obtain ⟨hleave, hexit, hcommit⟩ := halive
    obtain ⟨hleave, hrelease⟩ := hleave w h.stands.wrapper
    exact ⟨h.of_kmod ⟨hleave, hexit, hcommit⟩ hrelease, fun r hr => by cases hr⟩
  | _ => exact hown

end Taker.Sound

/-! ## Runs -/

/-- **Handles are safe** as long as an entry has one control block: every live instance
has its bit, so its entry stays, and no release ioctl ends the process. -/
theorem handles_safe {tr : List TakerEvent} {x : Taker}
    (h : Transition.Run (taker sub) (fun x i => StaysAlive sub x i ∧ OneBlock x i) tr x) :
    HandlesSafe sub tr x := by
  -- the invariant along the run, with the answers so far
  have hrun : (∃ w, x.Sound sub w) ∧ ∀ ev ∈ tr, ∀ r, ev.output = some r → r = .ok () := by
    refine h.history (P := fun tr x => (∃ w, x.Sound sub w) ∧
      ∀ ev ∈ tr, ∀ r, ev.output = some r → r = .ok ()) ?_ ?_
    · rintro x ⟨hr, ⟨w, hstands⟩, hptrs, hcached, hpending, _⟩
      refine ⟨⟨w, hr, hstands, hptrs ▸ .empty, fun b hb => ?_, fun b ref href => ?_,
        fun b c ref ref' hb => ?_, fun take htake => ?_⟩, fun ev hev => by cases hev⟩
      · rw [hcached] at hb
        cases hb
      · rw [hptrs] at href
        cases href
      · rw [hptrs] at hb
        cases hb
      · rw [hpending] at htake
        cases htake
    · rintro tr x i _ ⟨⟨w, hsound⟩, hpast⟩ ⟨halive, hone⟩
      obtain ⟨hsound', hreply⟩ := hsound.step halive hone
      refine ⟨⟨w, hsound'⟩, fun ev hev => ?_⟩
      rcases List.mem_cons.mp hev with rfl | hev
      · exact hreply
      · exact hpast ev hev
  obtain ⟨⟨w, hsound⟩, hpast⟩ := hrun
  refine ⟨fun b hb => ?_, hpast⟩
  obtain ⟨ref, href⟩ := Option.isSome_iff_exists.mp
    (hsound.counted.present b (List.mem_append_left _ hb))
  exact ⟨ref, w, href, hsound.stands.wrapper, (hsound.granted b ref href).2.2⟩

/-- Process 2 subscribes to the topic of process 1. -/
def subscriptionOfTwo : TakeSubscription := ⟨2, 0, ['/', 't'], 1⟩

/-- It has taken nothing yet. -/
def idleTaker : Taker where
  kmod := (runOf 2 [.addProcess 1 0 0 1, .addProcess 2 0 0 1,
    .addPublisher ['/', 't'] 0 ⟨[], 1, 1, false, false⟩,
    .addSubscriber ['/', 't'] 0 ⟨[], 2, 1, false, true, true, false, false⟩ 7]).2
  ptrs := .empty
  lastTakenPtr := none
  pending := []
  terminated := false

theorem init_idleTaker : (taker subscriptionOfTwo).init idleTaker := by
  refine ⟨reachable_runOf (by decide) (by decide) _, ⟨⟨0, 1, ['/', 't'], 0⟩, ?_⟩, rfl, rfl, rfl,
    rfl⟩
  exact ⟨by decide, ⟨_, rfl, by decide⟩, _, List.mem_cons_self, rfl, rfl, rfl, rfl⟩

/-- A publication of the other process. -/
def otherPublishes : TakerInput := .kernel ⟨.smooth, .publishMsg 1 ['/', 't'] 0 0 16⟩

private theorem staysAlive_publish (x : Taker) : StaysAlive subscriptionOfTwo x otherPublishes := by
  refine ⟨fun w _ => ⟨?_, fun entryId => ?_⟩, fun h => (by cases h), fun _ _ h => (by cases h)⟩
  · rintro ⟨_, _, _, _, hcall, _⟩
    cases hcall
  · rintro ⟨_, _, _, _, hcall, _⟩
    cases hcall

/-- A handle is copied, both copies are dropped, and the release succeeds. -/
theorem handles_safe_copied : ∃ tr x, HandlesSafe subscriptionOfTwo tr x ∧
    tr.head?.bind Transition.Event.output = some (.ok ()) := by
  have hguarded : (taker subscriptionOfTwo).Guarded
      (fun x i => StaysAlive subscriptionOfTwo x i ∧ OneBlock x i) idleTaker
      [otherPublishes, .takeIoctl .smooth false, .takeReturn ⟨false, 1⟩, .copy 0, .drop 0, .drop 0,
        .release 0] := by
    refine ⟨⟨staysAlive_publish _, trivial⟩, ⟨trivial, trivial⟩, ⟨trivial, ?_⟩, ⟨trivial, trivial⟩,
      ⟨trivial, ?_⟩, ⟨trivial, ?_⟩, ⟨trivial, ?_⟩, trivial⟩
    · exact fun _ b ref href => by cases href
    · rintro k ⟨⟩ hone
      cases hone
    · rintro k ⟨⟩ _
      rfl
    · rintro ref ⟨⟩ take htake
      cases htake
  exact ⟨_, _, handles_safe ((Transition.Run.init init_idleTaker).exec hguarded), rfl⟩

/-- Take the entry twice, once in each mode, and drop the first handle. -/
def takenTwice : List TakerEvent × Taker :=
  (taker subscriptionOfTwo).exec idleTaker []
    [otherPublishes, .takeIoctl .smooth false, .takeReturn ⟨false, 1⟩, .takeIoctl .smooth true,
      .takeReturn ⟨true, 1⟩, .drop 0, .release 0]

/-- **A second control block loses the bit**: the entry is taken once with `take(false)`
and once with `take(true)`, and the first handle is dropped. -/
theorem second_block_loses_bit : ¬ ∀ (sub : TakeSubscription) (tr : List TakerEvent) (x : Taker),
    Transition.Run (taker sub) (StaysAlive sub) tr x → HandlesSafe sub tr x := by
  intro h
  have hrun : Transition.Run (taker subscriptionOfTwo) (StaysAlive subscriptionOfTwo)
      takenTwice.1 takenTwice.2 :=
    (Transition.Run.init init_idleTaker).exec
      ⟨staysAlive_publish _, trivial, trivial, trivial, trivial, trivial, trivial, trivial⟩
  obtain ⟨_, w, _, hw, en, ⟨hen, hbit⟩, _⟩ := (h _ _ _ hrun).1 1 (by decide)
  have hclear : ∀ en ∈ (takenTwice.2.kmod.topicStructs 0).entries,
      (1 : Int) ∉ en.referencingSubscribers.bits := by decide
  have htopic : findTopicForCurrent takenTwice.2.kmod 2 ['/', 't'] 0 =
      some ⟨0, 1, ['/', 't'], 0⟩ := by decide
  obtain rfl := Option.some.inj (htopic.symm.trans hw)
  exact hclear en hen hbit

end Agnocast
