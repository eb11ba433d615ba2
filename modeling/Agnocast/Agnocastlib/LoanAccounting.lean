import Agnocast.Agnocastlib.HandleSteps

/-!
# The library — the loans of each thread

While a thread has loans, its ordinary allocations go to shared memory; the thread-local
counter `borrowed_publisher_num` tells. Every loan is counted up on the thread that borrows
it and counted down on the thread that publishes it, cancels it or drops it last, and
nothing makes these one thread.

* `loans_accounted` — every run in which they are.
* `loan_dropped_elsewhere` — the last copy of a message dropped on another thread.
-/

namespace Agnocast

variable {x y : IpcSharedPtrs} {tr : List HandleEvent}

/-! ## Counting -/

/-- Counting all but one. -/
private theorem countP_except {l : List Nat} (hl : l.Nodup) {p q : Nat → Bool} {b : Nat} (hb : b ∈ l)
    (hpb : p b = true) (hqb : q b = false) (hother : ∀ c, c ≠ b → q c = p c) :
    l.countP q + 1 = l.countP p := by
  have hperm := List.perm_cons_erase hb
  rw [hperm.countP_eq p, hperm.countP_eq q, List.countP_cons_of_pos hpb,
    List.countP_cons_of_neg (by simp [hqb])]
  congr 1
  refine List.countP_congr fun c hc => ?_
  rw [hother c fun heq => (hl.mem_erase_iff.mp (heq ▸ hc)).1 rfl]

theorem settled_cons (ev : HandleEvent) :
    settled (ev :: tr) = (ev.output.bind HandleReply.settles).toList ++ settled tr := by
  unfold settled
  rw [List.filterMap_cons]
  cases ev.output.bind HandleReply.settles <;> rfl

namespace IpcSharedPtrs

theorem isLoanOf_iff {thread b : Nat} :
    x.isLoanOf thread b = true ↔ ∃ addr type, x.origins b = some (.loan thread addr type) := by
  unfold isLoanOf
  constructor
  · intro h
    split at h
    next t addr type ho => exact ⟨addr, type, by rw [ho, of_decide_eq_true h]⟩
    · cases h
  · rintro ⟨addr, type, ho⟩
    rw [ho]
    exact decide_eq_true rfl

/-- A loan has one lender. -/
theorem isLoanOf_unique {t t' b : Nat} (h : x.isLoanOf t b = true) (h' : x.isLoanOf t' b = true) :
    t = t' := by
  obtain ⟨_, _, ho⟩ := isLoanOf_iff.mp h
  obtain ⟨_, _, ho'⟩ := isLoanOf_iff.mp h'
  rw [ho] at ho'
  cases ho'
  rfl

end IpcSharedPtrs

/-- A loan that is not settled is counted. -/
private theorem outstanding_pos (h : HandlesOk x) {t b : Nat} (hloan : x.isLoanOf t b = true)
    (hb : b ∉ settled tr) : 0 < outstanding tr x t := by
  obtain ⟨_, _, ho⟩ := IpcSharedPtrs.isLoanOf_iff.mp hloan
  refine List.countP_pos_iff.mpr ⟨b, List.mem_range.mpr ((h.origins b).mp (by rw [ho]; rfl)), ?_⟩
  simp [hloan, hb]

private theorem outstanding_congr {ev : HandleEvent} (hnext : y.ptrs.next = x.ptrs.next)
    (horigins : y.origins = x.origins) (hev : ev.output.bind HandleReply.settles = none) (t : Nat) :
    outstanding (ev :: tr) y t = outstanding tr x t := by
  unfold outstanding IpcSharedPtrs.isLoanOf
  rw [settled_cons, hev, hnext, horigins]
  rfl

/-- An event settles one loan: one less for its lender, and nothing changes for the others. -/
private theorem outstanding_settle (h : HandlesOk x) {ev : HandleEvent} {t b : Nat}
    (hnext : y.ptrs.next = x.ptrs.next) (horigins : y.origins = x.origins)
    (hev : ev.output.bind HandleReply.settles = some b) (hloan : x.isLoanOf t b = true)
    (hb : b ∉ settled tr) (t' : Nat) :
    outstanding (ev :: tr) y t' = Function.update (outstanding tr x) t (outstanding tr x t - 1) t' := by
  have hsettled : settled (ev :: tr) = b :: settled tr := by
    rw [settled_cons, hev]
    rfl
  obtain ⟨_, _, ho⟩ := IpcSharedPtrs.isLoanOf_iff.mp hloan
  have hlt : b < x.ptrs.next := (h.origins b).mp (by rw [ho]; rfl)
  by_cases ht : t' = t
  · subst ht
    rw [Function.update_self]
    have hcount : outstanding (ev :: tr) y t' + 1 = outstanding tr x t' := by
      unfold outstanding
      rw [hsettled, hnext]
      refine countP_except List.nodup_range (List.mem_range.mpr hlt) (by simp [hloan, hb]) (by simp)
        fun c hc => ?_
      unfold IpcSharedPtrs.isLoanOf
      rw [horigins]
      simp [hc]
    omega
  · rw [Function.update_of_ne ht]
    unfold outstanding
    rw [hsettled, hnext]
    refine List.countP_congr fun c _ => ?_
    have hc : x.isLoanOf t' c = true → c ≠ b := by
      rintro hc rfl
      exact ht (IpcSharedPtrs.isLoanOf_unique hc hloan)
    have hsame : y.isLoanOf t' c = x.isLoanOf t' c := by
      unfold IpcSharedPtrs.isLoanOf
      rw [horigins]
    rw [hsame]
    by_cases hl : x.isLoanOf t' c = true
    · simp [hl, hc hl]
    · simp [hl]

/-- An event settles what is nobody's loan, or was settled before. -/
private theorem outstanding_again {ev : HandleEvent} {b : Nat}
    (hnext : y.ptrs.next = x.ptrs.next) (horigins : y.origins = x.origins)
    (hev : ev.output.bind HandleReply.settles = some b)
    (hb : ∀ t, x.isLoanOf t b = true → b ∈ settled tr) (t : Nat) :
    outstanding (ev :: tr) y t = outstanding tr x t := by
  unfold outstanding
  rw [settled_cons, hev, hnext]
  refine List.countP_congr fun c _ => ?_
  have hsame : y.isLoanOf t c = x.isLoanOf t c := by
    unfold IpcSharedPtrs.isLoanOf
    rw [horigins]
  rw [hsame]
  by_cases hc : c = b
  · subst hc
    simp only [Option.toList_some, List.cons_append, List.mem_cons_self, not_true_eq_false,
      decide_false, Bool.and_false, Bool.and_eq_true, decide_eq_true_eq]
    refine ⟨fun h => (by cases h), fun h => absurd (hb t h.1) h.2⟩
  · simp [hc]

/-! ## What a step keeps -/

/-- What holds of the loans after a run: a withdrawal under way is of an unsettled loan of its
thread, and a loan is settled once it is invalid and not being withdrawn any more. -/
structure AccountsOk (tr : List HandleEvent) (x : IpcSharedPtrs) : Prop where
  handles : HandlesOk x
  count : x.terminated = false → ∀ t, x.borrowedPublisherNum t = outstanding tr x t
  made : ∀ b ∈ settled tr, b < x.ptrs.next
  withdrawing : ∀ t b, (t, b) ∈ x.withdrawing →
    x.isLoanOf t b = true ∧ x.valid b = false ∧ b ∉ settled tr
  once : (x.withdrawing.map Prod.snd).Nodup
  unsettled : ∀ b, (x.ptrs.valueOf b).isSome → x.valid b = true → b ∉ settled tr
  withdrawn : ∀ t b, x.isLoanOf t b = true → x.valid b = false → (t, b) ∉ x.withdrawing →
    b ∈ settled tr
  notExceeded : ∀ ev ∈ tr, ev.output ≠ some .exceeded

theorem AccountsOk.start (hinit : ipcSharedPtrs.init x) : AccountsOk [] x := by
  obtain ⟨hitems, hptrs, horigins, hnum, _⟩ := id hinit
  have hwithdrawing : x.withdrawing = [] := by
    unfold IpcSharedPtrs.withdrawing
    rw [hitems]
    rfl
  refine ⟨.start hinit, fun _ t => ?_, fun b hb => ?_, fun t b hb => ?_, ?_, fun b _ _ hb => ?_,
    fun t b hloan => ?_, fun ev hev => ?_⟩
  · rw [hnum t]
    unfold outstanding
    rw [hptrs]
    rfl
  · cases hb
  · rw [hwithdrawing] at hb
    cases hb
  · rw [hwithdrawing]
    exact .nil
  · cases hb
  · obtain ⟨_, _, ho⟩ := IpcSharedPtrs.isLoanOf_iff.mp hloan
    rw [horigins b] at ho
    cases ho
  · cases hev

private theorem isLoanOf_congr (h : y.origins = x.origins) (t b : Nat) :
    y.isLoanOf t b = x.isLoanOf t b := by
  unfold IpcSharedPtrs.isLoanOf
  rw [h]

/-- A withdrawal under way holds its control block. -/
theorem HandlesOk.held_of_withdrawing (h : HandlesOk x) {t b : Nat} (hb : (t, b) ∈ x.withdrawing) :
    b ∈ x.ptrs.instances := by
  obtain ⟨item, hitem, hw⟩ := List.mem_filterMap.mp hb
  cases item with
  | idle r => cases hw
  | closing t' r => cases hw
  | withdrawing t' how r =>
    obtain ⟨b', hcontrol, heq⟩ := Option.map_eq_some_iff.mp hw
    obtain ⟨rfl, rfl⟩ := Prod.mk.inj heq
    exact h.mem_instances hitem hcontrol

private theorem notExceeded_cons (h : AccountsOk tr x) {i : HandleInput} {r : Option HandleReply}
    (hr : r ≠ some .exceeded) : ∀ ev ∈ (⟨x, i, r⟩ :: tr : List HandleEvent),
      ev.output ≠ some .exceeded := by
  intro ev hev
  rcases List.mem_cons.mp hev with rfl | hev
  · exact hr
  · exact h.notExceeded ev hev

/-- A step that settles nothing and leaves the loans as they are. -/
private theorem AccountsOk.quiet (h : AccountsOk tr x) (hy : HandlesOk y) (hsame : SameBlocks x y)
    {i : HandleInput} {r : Option HandleReply} (hr : r.bind HandleReply.settles = none)
    (hexceeded : r ≠ some .exceeded) (hwithdrawing : y.withdrawing.Perm x.withdrawing)
    (hcount : y.terminated = false → x.terminated = false ∧
      y.borrowedPublisherNum = x.borrowedPublisherNum) : AccountsOk (⟨x, i, r⟩ :: tr) y := by
  have hsettled : settled (⟨x, i, r⟩ :: tr) = settled tr := by
    rw [settled_cons, hr]
    rfl
  refine ⟨hy, fun hterm t => ?_, fun b hb => ?_, fun t b hb => ?_, ?_, fun b hval hvalid => ?_,
    fun t b hloan hvalid hb => ?_, notExceeded_cons h hexceeded⟩
  · obtain ⟨hx, hnum⟩ := hcount hterm
    rw [hnum, h.count hx t, outstanding_congr hsame.next hsame.origins hr t]
  · rw [hsame.next]
    exact h.made b (hsettled ▸ hb)
  · rw [isLoanOf_congr hsame.origins, hsame.valid, hsettled]
    exact h.withdrawing t b (hwithdrawing.mem_iff.mp hb)
  · exact ((hwithdrawing.map _).nodup_iff).mpr h.once
  · rw [hsettled]
    exact h.unsettled b (hsame.value b ▸ hval) (hsame.valid ▸ hvalid)
  · rw [isLoanOf_congr hsame.origins] at hloan
    rw [hsettled]
    exact h.withdrawn t b hloan (hsame.valid ▸ hvalid) fun hmem => hb (hwithdrawing.mem_iff.mpr hmem)

private theorem AccountsOk.constructed (h : AccountsOk tr x) (hy : HandlesOk y) {i : HandleInput}
    {ref : MessageRef} {o : Origin} (hterm : x.terminated = false) (hguard : OnItsThread x i)
    (hinput : ∀ thread addr type, o = .loan thread addr type →
      ∃ topicName pubsubId, i = .borrow thread topicName pubsubId addr type)
    (hvalue : ∀ b, y.ptrs.valueOf b = if b = x.ptrs.next then some ref else x.ptrs.valueOf b)
    (hnext : y.ptrs.next = x.ptrs.next + 1)
    (hvalid : y.valid = Function.update x.valid x.ptrs.next true)
    (horigins : y.origins = Function.update x.origins x.ptrs.next (some o))
    (hnum : y.borrowedPublisherNum = o.count x.borrowedPublisherNum)
    (hwithdrawing : y.withdrawing = x.withdrawing) : AccountsOk (⟨x, i, none⟩ :: tr) y := by
  have hsettled : settled (⟨x, i, none⟩ :: tr) = settled tr := settled_cons _
  -- a control block that is made now has not been settled before
  have hnew : x.ptrs.next ∉ settled tr := fun hmem => Nat.lt_irrefl _ (h.made _ hmem)
  have hloan : ∀ t b, b ≠ x.ptrs.next → y.isLoanOf t b = x.isLoanOf t b := by
    intro t b hne
    unfold IpcSharedPtrs.isLoanOf
    rw [horigins, Function.update_of_ne hne]
  have hold : ∀ b ∈ List.range x.ptrs.next, b ≠ x.ptrs.next := fun b hb =>
    Nat.ne_of_lt (List.mem_range.mp hb)
  refine ⟨hy, fun _ t => ?_, fun b hb => ?_, fun t b hb => ?_, ?_, fun b hval hvalid' => ?_,
    fun t b hloan' hvalid' hb => ?_, notExceeded_cons h (by simp)⟩
  · -- the new one is outstanding if it is a loan of the thread
    have hout : outstanding (⟨x, i, none⟩ :: tr) y t =
        outstanding tr x t + if y.isLoanOf t x.ptrs.next then 1 else 0 := by
      unfold outstanding
      rw [hsettled, hnext, List.range_succ, List.countP_append, List.countP_singleton]
      congr 1
      · exact List.countP_congr fun b hb => by rw [hloan t b (hold b hb)]
      · simp [hnew]
    rw [hout, hnum, ← h.count hterm t]
    unfold IpcSharedPtrs.isLoanOf
    rw [horigins, Function.update_self]
    cases o with
    | received ref' => rfl
    | loan thread addr type =>
      obtain ⟨topicName, pubsubId, rfl⟩ := hinput thread addr type rfl
      show Function.update _ thread _ t = _ + if decide (thread = t) = true then 1 else 0
      by_cases ht : t = thread
      · subst ht
        rw [Function.update_self, if_pos (decide_eq_true rfl)]
        exact Nat.mod_eq_of_lt hguard
      · rw [Function.update_of_ne ht, if_neg (by simpa using Ne.symm ht)]
        rfl
  · have hlt := h.made b (hsettled ▸ hb)
    omega
  · rw [hwithdrawing] at hb
    obtain ⟨hloan', hinvalid, hunsettled⟩ := h.withdrawing t b hb
    -- one that is being withdrawn has an origin, so it is not the new one
    have hne : b ≠ x.ptrs.next := by
      rintro rfl
      obtain ⟨_, _, ho⟩ := IpcSharedPtrs.isLoanOf_iff.mp hloan'
      exact Nat.lt_irrefl _ ((h.handles.origins _).mp (by rw [ho]; rfl))
    rw [hloan t b hne, hvalid, Function.update_of_ne hne, hsettled]
    exact ⟨hloan', hinvalid, hunsettled⟩
  · rw [hwithdrawing]
    exact h.once
  · rw [hsettled]
    by_cases hne : b = x.ptrs.next
    · exact hne ▸ hnew
    · rw [hvalue b, if_neg hne] at hval
      rw [hvalid, Function.update_of_ne hne] at hvalid'
      exact h.unsettled b hval hvalid'
  · rw [hsettled]
    by_cases hne : b = x.ptrs.next
    · rw [hvalid, hne, Function.update_self] at hvalid'
      cases hvalid'
    · rw [hvalid, Function.update_of_ne hne] at hvalid'
      rw [hwithdrawing] at hb
      exact h.withdrawn t b (hloan t b hne ▸ hloan') hvalid' hb

private theorem AccountsOk.withdraw (h : AccountsOk tr x) (hy : HandlesOk y) {thread : Nat}
    {how : Withdrawal} {topicName : Name} {r : IpcSharedPtr} {b : Nat} (hterm : x.terminated = false)
    (hguard : OnItsThread x (.withdraw thread how topicName r)) (hitem : .idle r ∈ x.items)
    (hcontrol : r.control = some b) (hget : x.get r ≠ none)
    (htopic : x.getTopicName r = some topicName) (hptrs : y.ptrs = x.ptrs)
    (hvalid : y.valid = Function.update x.valid b false) (horigins : y.origins = x.origins)
    (hnum : y.borrowedPublisherNum = x.borrowedPublisherNum)
    (hwithdrawing : y.withdrawing.Perm ((thread, b) :: x.withdrawing)) :
    AccountsOk (⟨x, .withdraw thread how topicName r, some (.withdrawn b)⟩ :: tr) y := by
  have hsettled : settled (⟨x, .withdraw thread how topicName r, some (.withdrawn b)⟩ :: tr) =
      settled tr := settled_cons _
  have hloan : x.isLoanOf thread b = true := hguard hget htopic b hcontrol
  have hold : x.valid b = true := IpcSharedPtrs.valid_of_get hget hcontrol
  have hpresent : (x.ptrs.valueOf b).isSome := h.handles.counted.present b
    (List.mem_append_left _ (h.handles.mem_instances hitem hcontrol))
  refine ⟨hy, fun _ t => ?_, fun c hc => ?_, fun t c hc => ?_, ?_, fun c hval hvalid' => ?_,
    fun t c hloan' hvalid' hc => ?_, notExceeded_cons h (by simp)⟩
  · rw [hnum, h.count hterm t, outstanding_congr (by rw [hptrs]) horigins rfl t]
  · rw [hptrs]
    exact h.made c (hsettled ▸ hc)
  · rw [isLoanOf_congr horigins, hsettled, hvalid]
    -- the loan that is withdrawn now was valid, the others no longer
    rcases List.mem_cons.mp (hwithdrawing.mem_iff.mp hc) with heq | hc
    · obtain ⟨rfl, rfl⟩ := Prod.mk.inj heq
      exact ⟨hloan, Function.update_self .., h.unsettled c hpresent hold⟩
    · obtain ⟨hloan', hinvalid, hunsettled⟩ := h.withdrawing t c hc
      have hne : c ≠ b := by
        rintro rfl
        rw [hold] at hinvalid
        cases hinvalid
      exact ⟨hloan', by rw [Function.update_of_ne hne]; exact hinvalid, hunsettled⟩
  · -- it was valid, so nobody was withdrawing it
    rw [(hwithdrawing.map Prod.snd).nodup_iff, List.map_cons, List.nodup_cons]
    refine ⟨fun hmem => ?_, h.once⟩
    obtain ⟨⟨t, c⟩, hc, heq⟩ := List.mem_map.mp hmem
    have hinvalid := (h.withdrawing t c hc).2.1
    have heq : c = b := heq
    rw [heq, hold] at hinvalid
    cases hinvalid
  · rw [hptrs] at hval
    rw [hsettled]
    refine h.unsettled c hval ?_
    rw [hvalid] at hvalid'
    by_cases hne : c = b
    · exact hne ▸ hold
    · rwa [Function.update_of_ne hne] at hvalid'
  · rw [isLoanOf_congr horigins] at hloan'
    rw [hsettled]
    have hnot := mt hwithdrawing.mem_iff.mpr hc
    rw [List.mem_cons, not_or] at hnot
    have hne : c ≠ b := by
      rintro rfl
      exact hnot.1 (by rw [IpcSharedPtrs.isLoanOf_unique hloan' hloan])
    rw [hvalid, Function.update_of_ne hne] at hvalid'
    exact h.withdrawn t c hloan' hvalid' hnot.2

private theorem AccountsOk.settle (h : AccountsOk tr x) (hy : HandlesOk y) {i : HandleInput}
    {thread b : Nat} {r : HandleReply} (hr : r.settles = some b) (hexceeded : r ≠ .exceeded)
    (hterm : x.terminated = false) (hsame : SameBlocks x y)
    (hnum : y.borrowedPublisherNum = (x.decrementBorrowed thread).borrowedPublisherNum)
    (hwithdrawing : ((thread, b) :: y.withdrawing).Perm x.withdrawing) :
    AccountsOk (⟨x, i, some r⟩ :: tr) y := by
  have hsettled : settled (⟨x, i, some r⟩ :: tr) = b :: settled tr := by
    rw [settled_cons]
    show (r.settles).toList ++ _ = _
    rw [hr]
    rfl
  obtain ⟨hloan, hinvalid, hunsettled⟩ := h.withdrawing thread b (hwithdrawing.mem_iff.mp
    List.mem_cons_self)
  -- a loan is withdrawn by one call, so nobody else settles it
  have honce : b ∉ y.withdrawing.map Prod.snd ∧ (y.withdrawing.map Prod.snd).Nodup := by
    have hnodup := (hwithdrawing.map Prod.snd).nodup_iff.mpr h.once
    rwa [List.map_cons, List.nodup_cons] at hnodup
  refine ⟨hy, fun _ t => ?_, fun c hc => ?_, fun t c hc => ?_, honce.2, fun c hval hvalid => ?_,
    fun t c hloan' hvalid hc => ?_, notExceeded_cons h (by simpa using hexceeded)⟩
  · have hevent : (some r : Option HandleReply).bind HandleReply.settles = some b := hr
    rw [outstanding_settle h.handles hsame.next hsame.origins hevent hloan hunsettled t, hnum]
    show Function.update _ thread _ t = _
    rw [h.count hterm thread, funext (h.count hterm)]
  · rw [hsettled] at hc
    rw [hsame.next]
    rcases List.mem_cons.mp hc with rfl | hc
    · obtain ⟨_, _, ho⟩ := IpcSharedPtrs.isLoanOf_iff.mp hloan
      exact (h.handles.origins c).mp (by rw [ho]; rfl)
    · exact h.made c hc
  · have hne : c ≠ b := by
      rintro rfl
      exact honce.1 (List.mem_map_of_mem (f := Prod.snd) hc)
    obtain ⟨hloan', hinvalid', hunsettled'⟩ := h.withdrawing t c (hwithdrawing.mem_iff.mp
      (List.mem_cons_of_mem _ hc))
    rw [isLoanOf_congr hsame.origins, hsame.valid, hsettled, List.mem_cons, not_or]
    exact ⟨hloan', hinvalid', hne, hunsettled'⟩
  · rw [hsame.valid] at hvalid
    have hne : c ≠ b := by
      rintro rfl
      -- what is settled is not valid any more
      rw [hvalid] at hinvalid
      cases hinvalid
    rw [hsettled, List.mem_cons, not_or]
    exact ⟨hne, h.unsettled c (hsame.value c ▸ hval) hvalid⟩
  · rw [isLoanOf_congr hsame.origins] at hloan'
    rw [hsettled]
    by_cases hne : c = b
    · exact hne ▸ List.mem_cons_self
    · refine List.mem_cons_of_mem _ (h.withdrawn t c hloan' (hsame.valid ▸ hvalid) fun hmem => ?_)
      rcases List.mem_cons.mp (hwithdrawing.mem_iff.mpr hmem) with heq | hmem
      · exact hne (Prod.mk.inj heq).2
      · exact hc hmem

/-- What the counters are after a control block was deleted: as long as loans are dropped on
their own threads, those of the loans that are left. -/
private theorem AccountsOk.frees_count (h : AccountsOk tr x) {i : HandleInput} {thread : Nat}
    {r : IpcSharedPtr} {b : Nat} {ref : MessageRef} {freed : Option Freed} {num : Nat → Nat}
    (hterm : x.terminated = false) (hguard : OnItsThread x i) (hc : Closing x i thread r b ref)
    (hfrees : Frees x thread r b ref freed num) (hnext : y.ptrs.next = x.ptrs.next)
    (horigins : y.origins = x.origins) (t : Nat) :
    num t = outstanding (⟨x, i, some (.closed b freed)⟩ :: tr) y t := by
  have hevent : (some (HandleReply.closed b freed)).bind HandleReply.settles = some b := rfl
  have hdescribes := h.handles.describes b ref
  have hdying : b ∉ x.ptrs.instances :=
    h.handles.counted.unused b (h.handles.mem_dying hc.item hc.control)
  obtain ⟨o, ho⟩ : ∃ o, x.origins b = some o :=
    Option.isSome_iff_exists.mp ((h.handles.origins b).mpr (h.handles.lt_next hc.value))
  cases hfrees with
  | reference hentry =>
    rw [h.count hterm t]
    refine (outstanding_again hnext horigins hevent (fun t' hloan => ?_) t).symm
    obtain ⟨_, _, ho'⟩ := IpcSharedPtrs.isLoanOf_iff.mp hloan
    exact absurd (hdescribes _ hc.value ho') hentry
  | message hentry hvalid hnonzero =>
    obtain ⟨lender, addr, type, rfl⟩ : ∃ lender addr type, o = .loan lender addr type := by
      cases o with
      | loan lender addr type => exact ⟨lender, addr, type, rfl⟩
      | received ref' => exact absurd hentry (hdescribes _ hc.value ho).2
    have hguard := hc.input ▸ hguard
    obtain rfl : lender = thread := hguard b lender addr type hc.control ho hvalid
    have hunsettled := h.unsettled b (by rw [hc.value]; rfl) hvalid
    rw [outstanding_settle h.handles hnext horigins hevent
      (IpcSharedPtrs.isLoanOf_iff.mpr ⟨addr, type, ho⟩) hunsettled t]
    show Function.update _ lender _ t = _
    rw [h.count hterm lender, funext (h.count hterm)]
  | nothing hentry hvalid =>
    rw [h.count hterm t]
    refine (outstanding_again hnext horigins hevent (fun t' hloan => ?_) t).symm
    exact h.withdrawn t' b hloan hvalid fun hmem =>
      hdying (h.handles.held_of_withdrawing hmem)

private theorem AccountsOk.close (h : AccountsOk tr x) (hy : HandlesOk y) {i : HandleInput}
    {thread : Nat} {r : IpcSharedPtr} {b : Nat} {ref : MessageRef} {freed : Option Freed}
    (hterm : x.terminated = false) (hguard : OnItsThread x i) (hc : Closing x i thread r b ref)
    (hfrees : Frees x thread r b ref freed y.borrowedPublisherNum)
    (hvalue : ∀ c, y.ptrs.valueOf c = if c = b then none else x.ptrs.valueOf c)
    (hnext : y.ptrs.next = x.ptrs.next) (hvalid : y.valid = x.valid)
    (horigins : y.origins = x.origins) (hwithdrawing : y.withdrawing.Perm x.withdrawing) :
    AccountsOk (⟨x, i, some (.closed b freed)⟩ :: tr) y := by
  have hsettled : settled (⟨x, i, some (.closed b freed)⟩ :: tr) = b :: settled tr := settled_cons _
  have hdying : b ∉ x.ptrs.instances :=
    h.handles.counted.unused b (h.handles.mem_dying hc.item hc.control)
  refine ⟨hy, fun _ t => h.frees_count hterm hguard hc hfrees hnext horigins t, fun c hc' => ?_,
    fun t c hc' => ?_, ?_, fun c hval hvalid' => ?_, fun t c hloan hvalid' hc' => ?_,
    notExceeded_cons h (by simp)⟩
  · rw [hsettled] at hc'
    rw [hnext]
    rcases List.mem_cons.mp hc' with rfl | hc'
    · exact h.handles.lt_next hc.value
    · exact h.made c hc'
  · have hmem := hwithdrawing.mem_iff.mp hc'
    have hne : c ≠ b := by
      rintro rfl
      exact hdying (h.handles.held_of_withdrawing hmem)
    obtain ⟨hloan, hinvalid, hunsettled⟩ := h.withdrawing t c hmem
    rw [isLoanOf_congr horigins, hvalid, hsettled, List.mem_cons, not_or]
    exact ⟨hloan, hinvalid, hne, hunsettled⟩
  · exact ((hwithdrawing.map _).nodup_iff).mpr h.once
  · rw [hvalue c] at hval
    split at hval
    · cases hval
    next hne =>
    rw [hsettled, List.mem_cons, not_or]
    exact ⟨hne, h.unsettled c hval (hvalid ▸ hvalid')⟩
  · rw [isLoanOf_congr horigins] at hloan
    rw [hsettled]
    exact List.mem_cons_of_mem _ (h.withdrawn t c hloan (hvalid ▸ hvalid') fun hmem =>
      hc' (hwithdrawing.mem_iff.mpr hmem))

/-- No thread finds zero: a loan that it is about to count down is one of its own. -/
private theorem AccountsOk.not_zero (h : AccountsOk tr x) {i : HandleInput} {thread b : Nat}
    (hterm : x.terminated = false) (hguard : OnItsThread x i)
    (hloan : (thread, b) ∈ x.withdrawing ∨ ∃ r ref, Closing x i thread r b ref ∧
      ref.entryId = entryIdNotAssigned ∧ x.valid b = true) : x.borrowedPublisherNum thread ≠ 0 := by
  rw [h.count hterm thread]
  refine Nat.ne_of_gt ?_
  rcases hloan with hmem | ⟨r, ref, hc, hentry, hvalid⟩
  · obtain ⟨hloan, _, hunsettled⟩ := h.withdrawing thread b hmem
    exact outstanding_pos h.handles hloan hunsettled
  · obtain ⟨o, ho⟩ : ∃ o, x.origins b = some o :=
      Option.isSome_iff_exists.mp ((h.handles.origins b).mpr (h.handles.lt_next hc.value))
    cases o with
    | received ref' => exact absurd hentry (h.handles.describes b ref _ hc.value ho).2
    | loan lender addr type =>
      have hguard := hc.input ▸ hguard
      obtain rfl : lender = thread := hguard b lender addr type hc.control ho hvalid
      exact outstanding_pos h.handles (IpcSharedPtrs.isLoanOf_iff.mpr ⟨addr, type, ho⟩)
        (h.unsettled b (by rw [hc.value]; rfl) hvalid)

theorem AccountsOk.step (h : AccountsOk tr x) {i : HandleInput} (hfit : CopiesFit x i)
    (hguard : OnItsThread x i) : AccountsOk (⟨x, i, (x.step i).1⟩ :: tr) (x.step i).2 := by
  have hstay : AccountsOk (⟨x, i, none⟩ :: tr) x :=
    h.quiet h.handles ⟨fun _ => rfl, rfl, rfl, rfl⟩ rfl (by simp) (.refl _) fun hterm => ⟨hterm, rfl⟩
  by_cases hterm : x.terminated = true
  · unfold IpcSharedPtrs.step
    rw [if_pos hterm]
    exact hstay
  have hterm : x.terminated = false := Bool.eq_false_iff.mpr hterm
  have hy := h.handles.step hfit
  have heffect := step_effect x i
  revert heffect hy
  generalize (x.step i).1 = r
  generalize (x.step i).2 = y
  intro hy heffect
  cases heffect with
  | rearranged hsame hnum hwithdrawing =>
    exact h.quiet hy hsame rfl (by simp) hwithdrawing fun _ => ⟨hterm, hnum⟩
  | constructed ref o _ hinput hvalue hnext hvalid horigins hnum hwithdrawing =>
    exact h.constructed hy hterm hguard hinput hvalue hnext hvalid horigins hnum hwithdrawing
  | withdrawn _ _ _ r b hinput hitem hcontrol hget htopic hptrs hvalid horigins hnum hwithdrawing =>
    subst hinput
    exact h.withdraw hy hterm hguard hitem hcontrol hget htopic hptrs hvalid horigins hnum
      hwithdrawing
  | settled thread how r b _ _ hsame _ hnum hwithdrawing =>
    have hreply : (Withdrawal.reply b r.ptr how).settles = some b := by cases how <;> rfl
    exact h.settle hy hreply (by cases how <;> simp [Withdrawal.reply]) hterm hsame hnum hwithdrawing
  | closed _ _ b ref freed hc hfrees hvalue hnext hvalid horigins hwithdrawing =>
    exact h.close hy hterm hguard hc hfrees hvalue hnext hvalid horigins hwithdrawing
  | refused hsame hstop hreply hwithdrawing =>
    refine h.quiet hy hsame ?_ ?_ (hwithdrawing ▸ .refl _) fun hrunning => ?_
    · obtain rfl | ⟨b, rfl⟩ := hreply <;> rfl
    · obtain rfl | ⟨b, rfl⟩ := hreply <;> simp
    · rw [hstop] at hrunning
      cases hrunning
  | exceeded thread b _ _ hzero hloan => exact absurd hzero (h.not_zero hterm hguard hloan)

/-! ## Every run -/

/-- **The loan accounting**: over every run in which no counter runs over, and in which every
loan is published, cancelled or dropped last on the thread that borrowed it. -/
theorem loans_accounted
    (hrun : Transition.Run ipcSharedPtrs (fun x i => CopiesFit x i ∧ OnItsThread x i) tr x) :
    LoansAccounted tr x := by
  have hok : AccountsOk tr x :=
    hrun.history (fun _ hinit => .start hinit) fun _ _ _ _ h hg => h.step hg.1 hg.2
  refine ⟨hok.count, hok.notExceeded, fun hterm hsettled t => ?_⟩
  rw [hok.count hterm t]
  -- every loan is settled
  refine List.countP_eq_zero.mpr fun b _ => ?_
  by_cases hloan : x.isLoanOf t b = true
  · simp [hsettled t b hloan]
  · simp [hloan]

/-- Thread 1 drops a copy of a message before thread 0, which borrowed it, publishes it. -/
def publishAtHome : List HandleInput :=
  let message : IpcSharedPtr := ⟨.object 0, some 64, some 0⟩
  [.borrow 0 ['t'] 0 64 (.object 0), .copyConstruct message (.converted (.object 0) id),
    .reset 1 message, .withdraw 0 .publish ['t'] message, .finishWithdrawal 0 .publish message]

theorem loans_accounted_of_copy :
    LoansAccounted (ipcSharedPtrs.exec noInstances [] publishAtHome).1
        (ipcSharedPtrs.exec noInstances [] publishAtHome).2 ∧
      (ipcSharedPtrs.exec noInstances [] publishAtHome).2.borrowedPublisherNum 0 = 0 := by
  have hguard : ipcSharedPtrs.Guarded (fun x i => CopiesFit x i ∧ OnItsThread x i) noInstances
      publishAtHome := by
    refine ⟨⟨trivial, ?_⟩, ⟨fun b hb => ?_, trivial⟩, ⟨trivial, trivial⟩,
      ⟨trivial, fun _ _ b hb => ?_⟩, ⟨trivial, trivial⟩, trivial⟩
    · exact (by decide : 0 + 1 < refCountSize)
    · obtain rfl := Option.some.inj hb
      decide
    · obtain rfl := Option.some.inj hb
      rfl
  exact ⟨loans_accounted ((Transition.Run.init noInstances_init).exec hguard), rfl⟩

/-- Thread 0 borrows a message and copies it for thread 1, which drops the last copy. -/
def dropElsewhere : List HandleInput :=
  let message : IpcSharedPtr := ⟨.object 0, some 64, some 0⟩
  [.borrow 0 ['t'] 0 64 (.object 0), .copyConstruct message (.converted (.object 0) id),
    .reset 0 message, .reset 1 message, .closeLast 1 message]

/-- **A loan that another thread drops**: it finds its own counter at zero, which ends the
process, while the lender's counter still stands at one. -/
theorem loan_dropped_elsewhere :
    let run := ipcSharedPtrs.exec noInstances [] dropElsewhere
    Transition.Run ipcSharedPtrs CopiesFit run.1 run.2 ∧ run.2.terminated = true ∧
      run.2.borrowedPublisherNum 0 = 1 ∧ ¬ LoansAccounted run.1 run.2 := by
  have hguard : ipcSharedPtrs.Guarded CopiesFit noInstances dropElsewhere := by
    refine ⟨trivial, fun b hb => ?_, trivial, trivial, trivial, trivial⟩
    obtain rfl := Option.some.inj hb
    decide
  refine ⟨(Transition.Run.init noInstances_init).exec hguard, rfl, rfl, fun h => ?_⟩
  exact h.neverExceeded _ List.mem_cons_self rfl

end Agnocast
