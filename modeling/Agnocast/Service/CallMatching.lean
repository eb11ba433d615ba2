import Mathlib.Data.List.Pairwise
import Agnocast.Service.ServiceCalls

/-!
# Services — every response finds its call

The numbers of one client's requests differ, and its response topic is its own, so the
topic and the number of a response name one request. Its call is in the client's map from
the send until the first response, which takes it out under the mutex; whoever took it out
is the only one to fulfil its promise.

* `CallsOk`       — the invariant: where a request, a response and a call can be.
* `calls_matched` — every run of clients with distinct response topics.
-/

namespace Agnocast

variable {topicOf : Nat → Name} {tr : List ServiceEvent} {x : ServiceCalls}

/-! ## The invariant -/

/-- A response is one to the request that it was borrowed for. -/
structure Response.Faithful (response : Response) : Prop where
  topicName : response.topicName = response.answers.responseTopicName
  seqno : response.seqno = response.answers.seqno

/-- What holds of the clients and the servers after a run. -/
structure CallsOk (topicOf : Nat → Name) (tr : List ServiceEvent) (x : ServiceCalls) : Prop where
  made : ∀ r ∈ borrowedRequests tr, r.message < x.messages ∧
    r.seqno < x.nextSequenceNumber r.client ∧ r.responseTopicName = topicOf r.client
  distinct : (borrowedRequests tr).Pairwise fun r r' => r.client = r'.client → r.seqno ≠ r'.seqno
  borrowed : ∀ r ∈ x.borrowed, r ∈ borrowedRequests tr ∧ r ∉ sentRequests tr
  borrowedOnce : x.borrowed.Nodup
  sent : ∀ r ∈ sentRequests tr, r ∈ borrowedRequests tr
  registered : ∀ r ∈ x.registered, r ∈ sentRequests tr
  requests : ∀ r ∈ x.requests, r ∈ sentRequests tr
  handling : ∀ h ∈ x.handling, h.2 ∈ sentRequests tr
  responding : ∀ a ∈ x.responding, a.2.Faithful ∧ a.2.answers ∈ sentRequests tr
  responses : ∀ a ∈ x.responses, (a.Faithful ∧ a.answers ∈ sentRequests tr) ∧
    a ∈ producedResponses tr
  pending : ∀ c seqno call, x.responseCallInfo c seqno = some call ↔
    call.client = c ∧ call.seqno = seqno ∧ call ∈ sentRequests tr ∧
      call ∉ (answeredCalls tr).map Prod.fst
  answeredOnce : ((answeredCalls tr).map Prod.fst).Nodup
  answered : ∀ p ∈ answeredCalls tr, p.2.answers = p.1 ∧ p.2 ∈ producedResponses tr ∧
    p.1 ∈ sentRequests tr
  fulfilling : (resolvedCalls tr ++ x.fulfilling).Perm (answeredCalls tr)
  unmatched : ∀ ev ∈ tr, ∀ c response, ev.input = .deliver c response →
    ev.pre.responseCallInfo c response.seqno = none → (ev.pre.step topicOf ev.input).2 = ev.pre

/-- A client and a number name one request. -/
theorem CallsOk.request_eq (h : CallsOk topicOf tr x) {r r' : Request}
    (hr : r ∈ borrowedRequests tr) (hr' : r' ∈ borrowedRequests tr) (hclient : r.client = r'.client)
    (hseqno : r.seqno = r'.seqno) : r = r' := by
  by_contra hne
  have hsymm : Std.Symm fun r r' : Request => r.client = r'.client → r.seqno ≠ r'.seqno :=
    ⟨fun _ _ hrel hc => (hrel hc.symm).symm⟩
  exact h.distinct.forall hr hr' hne hclient hseqno

theorem CallsOk.start (hinit : (serviceCalls topicOf).init x) : CallsOk topicOf [] x := by
  obtain ⟨_, hpending, _, hborrowed, hregistered, hrequests, hhandling, hresponding, hresponses,
    hfulfilling⟩ := hinit
  refine ⟨fun _ hr => ?_, .nil, fun _ hr => ?_, ?_, fun _ hr => ?_, fun _ hr => ?_, fun _ hr => ?_,
    fun _ hh => ?_, fun _ ha => ?_, fun _ ha => ?_, fun c seqno call => ?_, .nil, fun _ hp => ?_, ?_,
    fun _ hev => ?_⟩
  · cases hr
  · rw [hborrowed] at hr
    cases hr
  · rw [hborrowed]
    exact .nil
  · cases hr
  · rw [hregistered] at hr
    cases hr
  · rw [hrequests] at hr
    cases hr
  · rw [hhandling] at hh
    cases hh
  · rw [hresponding] at ha
    cases ha
  · rw [hresponses] at ha
    cases ha
  · rw [hpending]
    exact ⟨fun h => (by cases h), fun h => (by cases h.2.2.1)⟩
  · cases hp
  · rw [hfulfilling]
    exact .refl _
  · cases hev

/-! ## The clients send -/

theorem CallsOk.borrowLoanedRequest (h : CallsOk topicOf tr x) (client : Nat)
    (hunmatched : ∀ c response, ServiceInput.borrowLoanedRequest client ≠ .deliver c response) :
    CallsOk topicOf
      (⟨x, .borrowLoanedRequest client, (x.borrowLoanedRequest topicOf client).1⟩ :: tr)
      (x.borrowLoanedRequest topicOf client).2 := by
  -- messages are numbered; the new one has the next number
  have hnew : ∀ {r : Request}, r ∈ borrowedRequests tr → r.message ≠ x.messages := fun hr =>
    Nat.ne_of_lt (h.made _ hr).1
  refine { h with
    made := fun r hr => ?_, distinct := ?_, borrowed := fun r hr => ?_, borrowedOnce := ?_
    sent := fun r hr => List.mem_cons_of_mem _ (h.sent r hr), unmatched := fun ev hev c a hi => ?_ }
  · rcases List.mem_cons.mp hr with rfl | hr
    · refine ⟨Nat.lt_succ_self _, ?_, rfl⟩
      show x.nextSequenceNumber client < Function.update x.nextSequenceNumber client _ client
      rw [Function.update_self]
      omega
    · obtain ⟨hmessage, hseqno, htopic⟩ := h.made r hr
      refine ⟨Nat.lt_succ_of_lt hmessage, ?_, htopic⟩
      show r.seqno < Function.update x.nextSequenceNumber client _ r.client
      by_cases hc : r.client = client
      · rw [hc, Function.update_self]
        rw [hc] at hseqno
        omega
      · rw [Function.update_of_ne hc]
        exact hseqno
  · -- the new number is above all of the client's
    refine List.pairwise_cons.mpr ⟨fun r hr hc => ?_, h.distinct⟩
    have hlt := (h.made r hr).2.1
    have hc : client = r.client := hc
    rw [← hc] at hlt
    exact (Int.ne_of_lt hlt).symm
  · rcases List.mem_cons.mp hr with rfl | hr
    · exact ⟨List.mem_cons_self, fun hsent => hnew (h.sent _ hsent) rfl⟩
    · exact ⟨List.mem_cons_of_mem _ (h.borrowed r hr).1, (h.borrowed r hr).2⟩
  · exact List.nodup_cons.mpr ⟨fun hmem => hnew (h.borrowed _ hmem).1 rfl, h.borrowedOnce⟩
  · rcases List.mem_cons.mp hev with rfl | hev
    · exact absurd hi (hunmatched c a)
    · exact h.unmatched ev hev c a hi

/-- The map has no other call under the number of a request that was not sent. -/
private theorem CallsOk.not_pending (h : CallsOk topicOf tr x) {r : Request} (hr : r ∈ x.borrowed) :
    x.responseCallInfo r.client r.seqno = none := by
  obtain ⟨hmade, hnot⟩ := h.borrowed r hr
  cases hinfo : x.responseCallInfo r.client r.seqno with
  | none => rfl
  | some call =>
    obtain ⟨hclient, hseqno, hsent, _⟩ := (h.pending _ _ _).mp hinfo
    rw [h.request_eq (h.sent call hsent) hmade hclient hseqno] at hsent
    exact absurd hsent hnot

theorem CallsOk.register (h : CallsOk topicOf tr x) {r : Request} (hr : r ∈ x.borrowed) :
    CallsOk topicOf (⟨x, .register r, (x.register r).1⟩ :: tr) (x.register r).2 := by
  have hnone := h.not_pending hr
  obtain ⟨hmade, hnot⟩ := h.borrowed r hr
  have hmem : ∀ {r' : Request}, r' ∈ sentRequests tr → r' ∈ r :: sentRequests tr := fun hr' =>
    List.mem_cons_of_mem _ hr'
  refine { h with
    borrowed := fun r' hr' => ?_, borrowedOnce := h.borrowedOnce.erase r, sent := fun r' hr' => ?_
    registered := fun r' hr' => ?_, requests := fun r' hr' => hmem (h.requests r' hr')
    handling := fun h' hh' => hmem (h.handling h' hh')
    responding := fun a ha => ⟨(h.responding a ha).1, hmem (h.responding a ha).2⟩
    responses := fun a ha =>
      ⟨⟨(h.responses a ha).1.1, hmem (h.responses a ha).1.2⟩, (h.responses a ha).2⟩
    pending := fun c seqno call => ?_
    answered := fun p hp => ⟨(h.answered p hp).1, (h.answered p hp).2.1, hmem (h.answered p hp).2.2⟩
    unmatched := fun ev hev c a hi => ?_ }
  · obtain ⟨hne, hr'⟩ := h.borrowedOnce.mem_erase_iff.mp hr'
    exact ⟨(h.borrowed r' hr').1, fun hsent =>
      ((List.mem_cons.mp hsent).resolve_left hne |> (h.borrowed r' hr').2)⟩
  · rcases List.mem_cons.mp hr' with rfl | hr'
    · exact hmade
    · exact h.sent r' hr'
  · exact (List.mem_cons.mp hr').elim (fun heq => heq ▸ List.mem_cons_self)
      fun hr' => hmem (h.registered r' hr')
  · -- the new call is where no other was
    show x.tryEmplace r c seqno = some call ↔ _ ∧ _ ∧ call ∈ r :: sentRequests tr ∧ _
    unfold ServiceCalls.tryEmplace
    rw [hnone, if_neg (by simp), List.mem_cons]
    by_cases hkey : c = r.client ∧ seqno = r.seqno
    · obtain ⟨rfl, rfl⟩ := hkey
      rw [Function.update_self, Function.update_self, Option.some.injEq]
      constructor
      · rintro rfl
        refine ⟨rfl, rfl, .inl rfl, fun hanswered => ?_⟩
        obtain ⟨p, hp, heq⟩ := List.mem_map.mp hanswered
        exact hnot (heq ▸ (h.answered p hp).2.2)
      -- only this request has its client and number
      · rintro ⟨hclient, hseqno, rfl | hsent, _⟩
        · rfl
        · exact (h.request_eq (h.sent call hsent) hmade hclient hseqno).symm
    -- the cells of other calls stay as they are
    · have hother : Function.update x.responseCallInfo r.client
          (Function.update (x.responseCallInfo r.client) r.seqno (some r)) c seqno =
            x.responseCallInfo c seqno := by
        by_cases hc : c = r.client
        · rw [hc, Function.update_self, Function.update_of_ne fun hq => hkey ⟨hc, hq⟩]
        · rw [Function.update_of_ne hc]
      rw [hother, h.pending c seqno call]
      have hne : call.client = c → call.seqno = seqno → call ≠ r := by
        rintro rfl rfl rfl
        exact hkey ⟨rfl, rfl⟩
      constructor
      · exact fun ⟨hclient, hseqno, hsent, hnot⟩ => ⟨hclient, hseqno, .inr hsent, hnot⟩
      · exact fun ⟨hclient, hseqno, hsent, hnot⟩ =>
          ⟨hclient, hseqno, hsent.resolve_left (hne hclient hseqno), hnot⟩
  · rcases List.mem_cons.mp hev with rfl | hev
    · cases hi
    · exact h.unmatched ev hev c a hi

/-! ## The servers answer -/

/-- A step that shows nothing, finds no call, and hands on what there was. -/
private theorem CallsOk.quiet (h : CallsOk topicOf tr x) {i : ServiceInput}
    (hi : ∀ c a, i = .deliver c a → (x.step topicOf i).2 = x) : CallsOk topicOf (⟨x, i, none⟩ :: tr) x :=
  { h with
    unmatched := fun ev hev c a hdeliver hnone => (by
      rcases List.mem_cons.mp hev with rfl | hev
      · exact hi c a hdeliver
      · exact h.unmatched ev hev c a hdeliver hnone) }

theorem CallsOk.sendResponse (h : CallsOk topicOf tr x) {server : Nat} {r : Request} {a : Response}
    (ha : (server, a) ∈ x.responding) :
    CallsOk topicOf (⟨x, .sendResponse server r a, (x.sendResponse server r a).1⟩ :: tr)
      (x.sendResponse server r a).2 := by
  have hunmatched : ∀ o, ∀ ev ∈ (⟨x, .sendResponse server r a, o⟩ :: tr : List ServiceEvent),
      ∀ c response, ev.input = .deliver c response →
        ev.pre.responseCallInfo c response.seqno = none →
          (ev.pre.step topicOf ev.input).2 = ev.pre := by
    intro o ev hev c response hi
    rcases List.mem_cons.mp hev with rfl | hev
    · cases hi
    · exact h.unmatched ev hev c response hi
  unfold ServiceCalls.sendResponse
  split
  · -- the process ends
    exact { h with
      handling := fun h' hh' => h.handling h' (List.mem_filter.mp hh').1
      responding := fun a' ha' => h.responding a' (List.mem_filter.mp ha').1
      unmatched := hunmatched _ }
  · refine { h with
      handling := fun h' hh' => h.handling h' (List.mem_of_mem_erase hh')
      responding := fun a' ha' => h.responding a' (List.mem_of_mem_erase ha')
      responses := fun a' ha' => ?_
      answered := fun p hp => ?_
      unmatched := hunmatched _ }
    · rcases List.mem_cons.mp ha' with rfl | ha'
      · exact ⟨h.responding _ ha, List.mem_cons_self⟩
      · exact ⟨(h.responses a' ha').1, List.mem_cons_of_mem _ (h.responses a' ha').2⟩
    · obtain ⟨hanswers, hproduced, hsent⟩ := h.answered p hp
      exact ⟨hanswers, List.mem_cons_of_mem _ hproduced, hsent⟩

/-! ## The clients receive -/

/-- The call that a response finds is that of the request it answers. -/
private theorem CallsOk.answers_eq (h : CallsOk topicOf tr x) (htopics : Function.Injective topicOf)
    {client : Nat} {a : Response} {info : Request} (ha : a ∈ x.responses)
    (htopic : a.topicName = topicOf client)
    (hinfo : x.responseCallInfo client a.seqno = some info) : a.answers = info := by
  obtain ⟨⟨hfaithful, hsent⟩, _⟩ := h.responses a ha
  obtain ⟨hclient, hseqno, hinfosent, _⟩ := (h.pending _ _ _).mp hinfo
  have hmade := h.sent _ hsent
  -- the topic tells the client
  have hsame : a.answers.client = client := htopics (by
    rw [← htopic, hfaithful.topicName, (h.made _ hmade).2.2])
  exact h.request_eq hmade (h.sent _ hinfosent) (hsame.trans hclient.symm)
    (hfaithful.seqno.symm.trans hseqno.symm)

theorem CallsOk.deliver (h : CallsOk topicOf tr x) (htopics : Function.Injective topicOf)
    {client : Nat} {a : Response} (ha : a ∈ x.responses) (htopic : a.topicName = topicOf client) :
    CallsOk topicOf (⟨x, .deliver client a, (x.deliver client a).1⟩ :: tr) (x.deliver client a).2 := by
  have hstep : (x.step topicOf (.deliver client a)).2 = (x.deliver client a).2 := by
    simp only [ServiceCalls.step, if_pos (And.intro ha htopic)]
  have hunmatched : ∀ ev ∈ (⟨x, .deliver client a, (x.deliver client a).1⟩ :: tr : List ServiceEvent),
      ∀ c response, ev.input = .deliver c response →
        ev.pre.responseCallInfo c response.seqno = none →
          (ev.pre.step topicOf ev.input).2 = ev.pre := by
    intro ev hev c response hi hnone
    rcases List.mem_cons.mp hev with rfl | hev
    · cases hi
      have hnone : x.responseCallInfo client a.seqno = none := hnone
      show (x.step topicOf (.deliver client a)).2 = x
      rw [hstep]
      simp only [ServiceCalls.deliver, hnone]
    · exact h.unmatched ev hev c response hi hnone
  revert hunmatched
  unfold ServiceCalls.deliver
  split
  · exact fun hunmatched => { h with unmatched := hunmatched }
  next info hinfo =>
  intro hunmatched
  have hanswers := h.answers_eq htopics ha htopic hinfo
  obtain ⟨hclient, hseqno, hsent, hnot⟩ := (h.pending _ _ _).mp hinfo
  refine { h with
    pending := fun c seqno call => ?_
    answeredOnce := List.nodup_cons.mpr ⟨hnot, h.answeredOnce⟩
    answered := fun p hp => ?_
    fulfilling := List.perm_middle.trans (h.fulfilling.cons _)
    unmatched := hunmatched }
  · show Function.update x.responseCallInfo client
      (Function.update (x.responseCallInfo client) a.seqno none) c seqno = some call ↔
        _ ∧ _ ∧ _ ∧ call ∉ info :: (answeredCalls tr).map Prod.fst
    rw [List.mem_cons, not_or]
    -- the entry that is answered is taken out; no other call has its key
    by_cases hkey : c = client ∧ seqno = a.seqno
    · obtain ⟨rfl, rfl⟩ := hkey
      rw [Function.update_self, Function.update_self]
      refine ⟨fun h => (by cases h), fun ⟨hc, hq, hcall, hne, _⟩ => ?_⟩
      exact absurd (h.request_eq (h.sent _ hcall) (h.sent _ hsent) (hc.trans hclient.symm)
        (hq.trans hseqno.symm)) hne
    · have hother : Function.update x.responseCallInfo client
          (Function.update (x.responseCallInfo client) a.seqno none) c seqno =
            x.responseCallInfo c seqno := by
        by_cases hc : c = client
        · rw [hc, Function.update_self, Function.update_of_ne fun hq => hkey ⟨hc, hq⟩]
        · rw [Function.update_of_ne hc]
      rw [hother, h.pending c seqno call]
      have hne : call.client = c → call.seqno = seqno → call ≠ info := by
        rintro rfl rfl rfl
        exact hkey ⟨hclient, hseqno⟩
      constructor
      · exact fun ⟨hc, hq, hcall, hnot⟩ => ⟨hc, hq, hcall, hne hc hq, hnot⟩
      · exact fun ⟨hc, hq, hcall, _, hnot⟩ => ⟨hc, hq, hcall, hnot⟩
  · rcases List.mem_cons.mp hp with rfl | hp
    · exact ⟨hanswers, (h.responses a ha).2, hsent⟩
    · exact h.answered p hp

theorem CallsOk.fulfil (h : CallsOk topicOf tr x) {r : Request} {a : Response}
    (hr : (r, a) ∈ x.fulfilling) :
    CallsOk topicOf (⟨x, .fulfil r a, some (.resolved r a)⟩ :: tr)
      { x with fulfilling := x.fulfilling.erase (r, a) } := by
  refine { h with fulfilling := ?_, unmatched := fun ev hev c response hi => ?_ }
  · have hback : (((r, a) :: resolvedCalls tr) ++ x.fulfilling.erase (r, a)).Perm
        (resolvedCalls tr ++ x.fulfilling) :=
      List.perm_middle.symm.trans ((List.perm_cons_erase hr).symm.append_left _)
    exact hback.trans h.fulfilling
  · rcases List.mem_cons.mp hev with rfl | hev
    · cases hi
    · exact h.unmatched ev hev c response hi

/-! ## Every run -/

theorem CallsOk.step (h : CallsOk topicOf tr x) (htopics : Function.Injective topicOf)
    (i : ServiceInput) :
    CallsOk topicOf (⟨x, i, (x.step topicOf i).1⟩ :: tr) (x.step topicOf i).2 := by
  -- a step that cannot be taken changes nothing
  have hstay : ∀ {i : ServiceInput}, (x.step topicOf i).2 = x →
      CallsOk topicOf (⟨x, i, none⟩ :: tr) x := fun hsame => h.quiet fun _ _ _ => hsame
  cases i with
  | borrowLoanedRequest client => exact h.borrowLoanedRequest client (fun _ _ hi => (by cases hi))
  | register r =>
    by_cases hr : r ∈ x.borrowed
    · simp only [ServiceCalls.step, if_pos hr]
      exact h.register hr
    · have hsame : x.step topicOf (.register r) = (none, x) := by
        simp only [ServiceCalls.step, if_neg hr]
      rw [hsame]
      exact hstay (by rw [hsame])
  | publish r =>
    simp only [ServiceCalls.step]
    split
    next hr =>
      refine { h.quiet (i := .publish r) (fun _ _ hi => (by cases hi)) with
        registered := fun r' hr' => h.registered r' (List.mem_of_mem_erase hr')
        requests := fun r' hr' => ?_ }
      rcases List.mem_cons.mp hr' with rfl | hr'
      · exact h.registered _ hr
      · exact h.requests r' hr'
    · exact h.quiet fun _ _ hi => (by cases hi)
  | serve server r =>
    simp only [ServiceCalls.step]
    split
    next hr =>
      refine { h.quiet (i := .serve server r) (fun _ _ hi => (by cases hi)) with
        handling := fun h' hh' => ?_ }
      rcases List.mem_cons.mp hh' with rfl | hh'
      · exact h.requests r hr
      · exact h.handling h' hh'
    · exact h.quiet fun _ _ hi => (by cases hi)
  | borrowLoanedResponse server r =>
    simp only [ServiceCalls.step]
    split
    next hr =>
      refine { h.quiet (i := .borrowLoanedResponse server r) (fun _ _ hi => (by cases hi)) with
        responding := fun a ha => ?_ }
      rcases List.mem_cons.mp ha with rfl | ha
      · exact ⟨⟨rfl, rfl⟩, h.handling _ hr⟩
      · exact h.responding a ha
    · exact h.quiet fun _ _ hi => (by cases hi)
  | sendResponse server r a =>
    simp only [ServiceCalls.step]
    split
    next hmem => exact h.sendResponse hmem.2
    · exact h.quiet fun _ _ hi => (by cases hi)
  | deliver client a =>
    by_cases hmem : a ∈ x.responses ∧ a.topicName = topicOf client
    · simp only [ServiceCalls.step, if_pos hmem]
      exact h.deliver htopics hmem.1 hmem.2
    · have hsame : x.step topicOf (.deliver client a) = (none, x) := by
        simp only [ServiceCalls.step, if_neg hmem]
      rw [hsame]
      exact hstay (by rw [hsame])
  | fulfil r a =>
    simp only [ServiceCalls.step]
    split
    next hmem => exact h.fulfil hmem
    · exact h.quiet fun _ _ hi => (by cases hi)

/-- **Requests and responses match**, for clients with distinct response topics, over every run. -/
theorem calls_matched (htopics : Function.Injective topicOf)
    (hrun : Transition.Run (serviceCalls topicOf) Transition.anyStep tr x) :
    CallsMatched topicOf tr x := by
  have hok : CallsOk topicOf tr x :=
    hrun.history (fun _ hinit => .start hinit) fun _ _ i _ h _ => h.step htopics i
  have hresolved : ∀ p ∈ resolvedCalls tr, p ∈ answeredCalls tr := fun p hp =>
    hok.fulfilling.mem_iff.mp (List.mem_append_left _ hp)
  refine ⟨?_, fun call a hmem => hok.answered _ (hresolved _ hmem), fun c => ?_, hok.pending,
    hok.unmatched⟩
  · -- whoever took the call out of the map fulfils the promise
    have hnodup := (hok.fulfilling.map Prod.fst).nodup_iff.mpr hok.answeredOnce
    rw [List.map_append] at hnodup
    exact hnodup.of_append_left
  · refine List.pairwise_map.mpr ?_
    refine (hok.distinct.filter _).imp_of_mem fun hr hr' hne => ?_
    have hc := of_decide_eq_true (List.mem_filter.mp hr).2
    have hc' := of_decide_eq_true (List.mem_filter.mp hr').2
    exact hne (hc.trans hc'.symm)

/-! ### A request with two answers -/

/-- A service before any request. -/
def noCalls : ServiceCalls := ⟨fun _ => 0, 0, [], fun _ _ => none, [], [], [], [], [], []⟩

/-- Two servers answer a request, and both responses arrive. -/
def answeredTwice : List ServiceInput :=
  let request : Request := ⟨0, 0, 0, ['r']⟩
  let response : Response := ⟨['r'], 0, request⟩
  [.borrowLoanedRequest 0, .register request, .publish request, .serve 0 request, .serve 1 request,
    .borrowLoanedResponse 0 request, .sendResponse 0 request response,
    .borrowLoanedResponse 1 request, .deliver 0 response, .sendResponse 1 request response,
    .deliver 0 response, .fulfil request response]

theorem calls_matched_of_two_answers :
    let run := (serviceCalls fun c => List.replicate (c + 1) 'r').exec noCalls [] answeredTwice
    CallsMatched (fun c => List.replicate (c + 1) 'r') run.1 run.2 ∧
      resolvedCalls run.1 = [(⟨0, 0, 0, ['r']⟩, ⟨['r'], 0, ⟨0, 0, 0, ['r']⟩⟩)] ∧
      run.2.responses.length = 2 := by
  have htopics : Function.Injective fun c => List.replicate (c + 1) 'r' := fun c c' h => by
    have hlength := congrArg List.length h
    simpa using hlength
  have hinit : (serviceCalls fun c => List.replicate (c + 1) 'r').init noCalls :=
    ⟨fun _ => rfl, fun _ _ => rfl, rfl, rfl, rfl, rfl, rfl, rfl, rfl, rfl⟩
  exact ⟨calls_matched htopics ((Transition.Run.init hinit).exec (Transition.System.guarded_anyStep ..)),
    rfl, rfl⟩

end Agnocast
