import Agnocast.Agnocastlib.HandleSteps

/-!
# The library — the protocol of the handles

The control block of a message is deleted by whoever drops the last instance, and only
then. Dropping it returns a received message to the kernel and frees a loan that nobody
withdrew — through the pointer and the type of that last instance, whichever view of the
message it is.

* `handles_follow_protocol` — every run in which the last instance of an unpublished loan is
  one to what was borrowed.
* `dropped_request_freed_as_base` — a request of a service client that is dropped unsent: its only
  instance is one to the base class.
-/

namespace Agnocast

variable {x y : IpcSharedPtrs} {tr : List HandleEvent}

/-! ## What the events say -/

/-- What a dropped loan or a dropped received message frees. -/
def Origin.freed (valid : Bool) : Origin → Option Freed
  | .loan _ addr type => if valid then some (.message (some addr) type) else none
  | .received ref => some (.reference ref)

/-- The reply is about no deletion and no withdrawal. -/
def Quiet (r : Option HandleReply) : Prop :=
  ∀ b, r.bind (HandleReply.freed b) = none ∧ r ≠ some (.withdrawn b)

theorem closings_cons (b : Nat) (ev : HandleEvent) :
    closings b (ev :: tr) = (ev.output.bind (HandleReply.freed b)).toList ++ closings b tr := by
  unfold closings
  rw [List.filterMap_cons]
  cases ev.output.bind (HandleReply.freed b) <;> rfl

theorem withdrawn_cons {b : Nat} {ev : HandleEvent} :
    Withdrawn (ev :: tr) b ↔ ev.output = some (.withdrawn b) ∨ Withdrawn tr b := by
  unfold Withdrawn
  simp only [List.mem_cons, exists_eq_or_imp]

/-- What holds of the control blocks after a run. -/
structure ProtocolOk (tr : List HandleEvent) (x : IpcSharedPtrs) : Prop where
  handles : HandlesOk x
  unborn : ∀ b, x.ptrs.next ≤ b → closings b tr = [] ∧ ¬ Withdrawn tr b
  valid : ∀ b, b < x.ptrs.next → (x.valid b = false ↔ Withdrawn tr b)
  live : ∀ b, (x.ptrs.valueOf b).isSome → closings b tr = []
  dead : ∀ b o, x.origins b = some o → x.ptrs.valueOf b = none →
    closings b tr = [o.freed (x.valid b)]

theorem ProtocolOk.start (hinit : ipcSharedPtrs.init x) : ProtocolOk [] x := by
  obtain ⟨_, hptrs, horigins, _, _⟩ := id hinit
  refine ⟨.start hinit, fun b _ => ⟨rfl, fun ⟨_, hev, _⟩ => (by cases hev)⟩, fun b hb => ?_,
    fun _ _ => rfl, fun b o ho => ?_⟩
  · rw [hptrs] at hb
    exact absurd hb (Nat.not_lt_zero b)
  · rw [horigins b] at ho
    cases ho

/-- A step that is about no control block. -/
private theorem ProtocolOk.quiet (h : ProtocolOk tr x) (hy : HandlesOk y) (hsame : SameBlocks x y)
    {i : HandleInput} {r : Option HandleReply} (hr : Quiet r) : ProtocolOk (⟨x, i, r⟩ :: tr) y := by
  have hclosings : ∀ b, closings b (⟨x, i, r⟩ :: tr) = closings b tr := fun b => by
    rw [closings_cons, (hr b).1]
    rfl
  have hwithdrawn : ∀ b, Withdrawn (⟨x, i, r⟩ :: tr) b ↔ Withdrawn tr b := fun b =>
    withdrawn_cons.trans (or_iff_right (hr b).2)
  refine ⟨hy, fun b hb => ?_, fun b hb => ?_, fun b hb => ?_, fun b o ho hval => ?_⟩
  · rw [hclosings, hwithdrawn]
    exact h.unborn b (hsame.next ▸ hb)
  · rw [hsame.valid, hwithdrawn]
    exact h.valid b (hsame.next ▸ hb)
  · rw [hclosings]
    exact h.live b (hsame.value b ▸ hb)
  · rw [hclosings, hsame.valid]
    exact h.dead b o (hsame.origins ▸ ho) (hsame.value b ▸ hval)

private theorem ProtocolOk.constructed (h : ProtocolOk tr x) (hy : HandlesOk y) {i : HandleInput}
    {ref : MessageRef} {o : Origin}
    (hvalue : ∀ b, y.ptrs.valueOf b = if b = x.ptrs.next then some ref else x.ptrs.valueOf b)
    (hnext : y.ptrs.next = x.ptrs.next + 1)
    (hvalid : y.valid = Function.update x.valid x.ptrs.next true)
    (horigins : y.origins = Function.update x.origins x.ptrs.next (some o)) :
    ProtocolOk (⟨x, i, none⟩ :: tr) y := by
  have hclosings : ∀ b, closings b (⟨x, i, none⟩ :: tr) = closings b tr := fun b =>
    closings_cons b _
  have hwithdrawn : ∀ b, Withdrawn (⟨x, i, none⟩ :: tr) b ↔ Withdrawn tr b := fun b =>
    withdrawn_cons.trans (or_iff_right (by simp))
  -- nothing has happened to the new block
  have hnew := h.unborn x.ptrs.next (Nat.le_refl _)
  refine ⟨hy, fun b hb => ?_, fun b hb => ?_, fun b hb => ?_, fun b o' ho hval => ?_⟩
  · rw [hclosings, hwithdrawn]
    exact h.unborn b (by omega)
  · rw [hvalid, hwithdrawn]
    by_cases heq : b = x.ptrs.next
    · subst heq
      simp [hnew.2]
    · rw [Function.update_of_ne heq]
      exact h.valid b (by omega)
  · rw [hclosings]
    by_cases heq : b = x.ptrs.next
    · exact heq ▸ hnew.1
    · rw [hvalue b, if_neg heq] at hb
      exact h.live b hb
  · rw [hvalue b] at hval
    by_cases heq : b = x.ptrs.next
    · rw [if_pos heq] at hval
      cases hval
    · rw [if_neg heq] at hval
      rw [horigins, Function.update_of_ne heq] at ho
      rw [hclosings, hvalid, Function.update_of_ne heq]
      exact h.dead b o' ho hval

private theorem ProtocolOk.withdrawn (h : ProtocolOk tr x) (hy : HandlesOk y) {i : HandleInput}
    {r : IpcSharedPtr} {b : Nat} (hitem : .idle r ∈ x.items) (hcontrol : r.control = some b)
    (hptrs : y.ptrs = x.ptrs) (hvalid : y.valid = Function.update x.valid b false)
    (horigins : y.origins = x.origins) : ProtocolOk (⟨x, i, some (.withdrawn b)⟩ :: tr) y := by
  obtain ⟨k, hk⟩ := h.handles.blocks_of_held (h.handles.mem_instances hitem hcontrol)
  have hval : x.ptrs.valueOf b = some k.value := by
    unfold SharedPtrs.valueOf
    rw [hk]
    rfl
  have hlt : b < x.ptrs.next := h.handles.lt_next hval
  have hclosings : ∀ c, closings c (⟨x, i, some (.withdrawn b)⟩ :: tr) = closings c tr :=
    fun c => closings_cons c _
  have hwithdrawn : ∀ c, Withdrawn (⟨x, i, some (.withdrawn b)⟩ :: tr) c ↔ b = c ∨ Withdrawn tr c :=
    fun c => withdrawn_cons.trans (by simp)
  refine ⟨hy, fun c hc => ?_, fun c hc => ?_, fun c hc => ?_, fun c o ho hnone => ?_⟩
  · rw [hptrs] at hc
    rw [hclosings, hwithdrawn]
    obtain ⟨hnil, hnot⟩ := h.unborn c hc
    exact ⟨hnil, not_or.mpr ⟨by omega, hnot⟩⟩
  · rw [hptrs] at hc
    rw [hvalid, hwithdrawn]
    by_cases heq : c = b
    · simp [heq]
    · rw [Function.update_of_ne heq, h.valid c hc, or_iff_right (Ne.symm heq)]
  · rw [hptrs] at hc
    rw [hclosings]
    exact h.live c hc
  · rw [hptrs] at hnone
    rw [horigins] at ho
    have hne : c ≠ b := by
      rintro rfl
      rw [hval] at hnone
      cases hnone
    rw [hclosings, hvalid, Function.update_of_ne hne]
    exact h.dead c o ho hnone

/-- The last instance frees what its message is, if it is one to what was borrowed. -/
private theorem freed_eq (h : ProtocolOk tr x) {i : HandleInput} {thread : Nat} {r : IpcSharedPtr}
    {b : Nat} {ref : MessageRef} {freed : Option Freed} {num : Nat → Nat} {o : Origin}
    (hlast : LastIsOriginal x i) (hc : Closing x i thread r b ref)
    (hfrees : Frees x thread r b ref freed num) (ho : x.origins b = some o) :
    freed = o.freed (x.valid b) := by
  have hdescribes := h.handles.describes b ref o hc.value ho
  cases hfrees with
  | reference hentry =>
    cases o with
    | loan thread addr type => exact absurd hdescribes hentry
    | received ref' => rw [hdescribes.1]; rfl
  | message hentry hvalid _ htype =>
    cases o with
    | loan lender addr type =>
      have hlast := hc.input ▸ hlast
      obtain ⟨hptr, hty⟩ := (hlast b lender addr type hc.control ho hvalid).resolve_left htype
      rw [hptr, hty, hvalid]
      rfl
    | received ref' => exact absurd hentry hdescribes.2
  | nothing hentry hvalid =>
    cases o with
    | loan lender addr type => rw [hvalid]; rfl
    | received ref' => exact absurd hentry hdescribes.2

private theorem ProtocolOk.closed (h : ProtocolOk tr x) (hy : HandlesOk y) {i : HandleInput}
    {thread : Nat} {r : IpcSharedPtr} {b : Nat} {ref : MessageRef} {freed : Option Freed}
    {num : Nat → Nat} (hlast : LastIsOriginal x i) (hc : Closing x i thread r b ref)
    (hfrees : Frees x thread r b ref freed num)
    (hvalue : ∀ c, y.ptrs.valueOf c = if c = b then none else x.ptrs.valueOf c)
    (hnext : y.ptrs.next = x.ptrs.next) (hvalid : y.valid = x.valid)
    (horigins : y.origins = x.origins) : ProtocolOk (⟨x, i, some (.closed b freed)⟩ :: tr) y := by
  have hother : ∀ c, c ≠ b → closings c (⟨x, i, some (.closed b freed)⟩ :: tr) = closings c tr := by
    intro c hne
    rw [closings_cons]
    simp [HandleReply.freed, Ne.symm hne]
  have hself : closings b (⟨x, i, some (.closed b freed)⟩ :: tr) = [freed] := by
    rw [closings_cons, h.live b (by rw [hc.value]; rfl)]
    simp [HandleReply.freed]
  have hwithdrawn : ∀ c, Withdrawn (⟨x, i, some (.closed b freed)⟩ :: tr) c ↔ Withdrawn tr c :=
    fun c => withdrawn_cons.trans (or_iff_right (by simp))
  have hlt : b < x.ptrs.next := h.handles.lt_next hc.value
  refine ⟨hy, fun c hc' => ?_, fun c hc' => ?_, fun c hc' => ?_, fun c o ho hnone => ?_⟩
  · rw [hnext] at hc'
    rw [hother c (by omega), hwithdrawn]
    exact h.unborn c hc'
  · rw [hvalid, hwithdrawn]
    exact h.valid c (hnext ▸ hc')
  · rw [hvalue c] at hc'
    split at hc'
    · cases hc'
    next hne =>
    rw [hother c hne]
    exact h.live c hc'
  · rw [horigins] at ho
    rw [hvalid]
    by_cases heq : c = b
    · subst heq
      rw [hself, freed_eq h hlast hc hfrees ho]
    · rw [hvalue c, if_neg heq] at hnone
      rw [hother c heq]
      exact h.dead c o ho hnone

theorem ProtocolOk.step (h : ProtocolOk tr x) {i : HandleInput} (hfit : CopiesFit x i)
    (hlast : LastIsOriginal x i) : ProtocolOk (⟨x, i, (x.step i).1⟩ :: tr) (x.step i).2 := by
  have hy := h.handles.step hfit
  have heffect := step_effect x i
  revert heffect hy
  generalize (x.step i).1 = r
  generalize (x.step i).2 = y
  intro hy heffect
  cases heffect with
  | rearranged hsame => exact h.quiet hy hsame fun b => ⟨rfl, by simp⟩
  | constructed ref o _ _ hvalue hnext hvalid horigins =>
    exact h.constructed hy hvalue hnext hvalid horigins
  | withdrawn _ _ _ r b _ hitem hcontrol _ _ hptrs hvalid horigins =>
    exact h.withdrawn hy hitem hcontrol hptrs hvalid horigins
  | settled _ how r b _ _ hsame =>
    exact h.quiet hy hsame fun c => by cases how <;> exact ⟨rfl, by simp [Withdrawal.reply]⟩
  | closed _ _ b ref freed hc hfrees hvalue hnext hvalid horigins =>
    exact h.closed hy hlast hc hfrees hvalue hnext hvalid horigins
  | refused hsame _ hreply =>
    refine h.quiet hy hsame fun c => ?_
    obtain rfl | ⟨b, rfl⟩ := hreply <;> exact ⟨rfl, by simp⟩
  | exceeded _ _ hsame => exact h.quiet hy hsame fun c => ⟨rfl, by simp⟩

/-! ## Every run -/

/-- A block is gone when it was deleted. -/
private theorem HandlesOk.gone_iff (h : HandlesOk x) {b : Nat} :
    x.Gone b ↔ (x.origins b).isSome ∧ x.ptrs.valueOf b = none := by
  unfold IpcSharedPtrs.Gone
  rw [x.holders_eq, List.count_eq_zero]
  refine and_congr_right fun _ => ⟨fun ⟨hheld, hleft⟩ => ?_, fun hnone => ⟨fun hheld => ?_, ?_⟩⟩
  · by_contra hsome
    rcases List.mem_append.mp (h.leak b (Option.isSome_iff_ne_none.mpr hsome)) with hmem | hmem
    · exact hheld (h.held.mem_iff.mpr hmem)
    · obtain ⟨item, hitem, hb⟩ := List.mem_filterMap.mp (h.left.mem_iff.mpr hmem)
      exact hleft item hitem hb
  · have hval := h.counted.present b (List.mem_append_left _ (h.held.mem_iff.mp hheld))
    rw [hnone] at hval
    cases hval
  · intro item hitem hb
    have hval := h.counted.present b (List.mem_append_right _ (h.mem_dying hitem hb))
    rw [hnone] at hval
    cases hval

private theorem ProtocolOk.protocol (h : ProtocolOk tr x) : HandleProtocol tr x := by
  have hlt : ∀ {b o}, x.origins b = some o → b < x.ptrs.next := fun ho =>
    (h.handles.origins _).mp (by rw [ho]; rfl)
  refine ⟨fun b k hk => h.handles.refCount_eq hk, fun b hmade hgone => ?_, fun b hgone => ?_,
    fun b ref ho hgone => ?_, fun b thread addr type ho hgone hw => ?_,
    fun b thread addr type ho hgone hw => ?_, fun b r hw hcontrol => ?_⟩
  · have hsome : (x.ptrs.valueOf b).isSome := by
      rw [Option.isSome_iff_ne_none]
      exact fun hnone => hgone (h.handles.gone_iff.mpr ⟨hmade, hnone⟩)
    refine ⟨?_, h.live b hsome⟩
    unfold SharedPtrs.valueOf at hsome
    rwa [Option.isSome_map] at hsome
  · have hnone := (h.handles.gone_iff.mp hgone).2
    unfold SharedPtrs.valueOf at hnone
    rwa [Option.map_eq_none_iff] at hnone
  · exact h.dead b _ ho (h.handles.gone_iff.mp hgone).2
  · have hvalid : x.valid b = true := by
      rw [← Bool.not_eq_false, h.valid b (hlt ho)]
      exact hw
    rw [h.dead b _ ho (h.handles.gone_iff.mp hgone).2, hvalid]
    rfl
  · rw [h.dead b _ ho (h.handles.gone_iff.mp hgone).2, (h.valid b (hlt ho)).mpr hw]
    rfl
  · -- the flag of the control block is cleared, which is what `get` looks at
    have hlt : b < x.ptrs.next := by
      by_contra hge
      exact (h.unborn b (by omega)).2 hw
    by_contra hget
    have hvalid := IpcSharedPtrs.valid_of_get hget hcontrol
    rw [(h.valid b hlt).mpr hw] at hvalid
    cases hvalid

/-- **The handle protocol**: over every run in which no counter of instances runs over, and in
which the last instance of a loan that is neither published nor cancelled has the pointer and
the type that were borrowed. -/
theorem handles_follow_protocol
    (hrun : Transition.Run ipcSharedPtrs (fun x i => CopiesFit x i ∧ LastIsOriginal x i) tr x) :
    HandleProtocol tr x := by
  have hok : ProtocolOk tr x :=
    hrun.history (fun _ hinit => .start hinit) fun _ _ _ _ h hg => h.step hg.1 hg.2
  exact hok.protocol

/-! ### One message -/

/-- A message is borrowed and copied, and both instances are dropped. -/
def dropBoth : List HandleInput :=
  let message : IpcSharedPtr := ⟨.object 0, some 64, some 0⟩
  [.borrow 0 ['t'] 0 64 (.object 0), .copyConstruct message (.converted (.object 0) id),
    .reset 0 message, .destroy (.null (.object 0)), .reset 0 message, .closeLast 0 message]

theorem handles_follow_protocol_of_two :
    HandleProtocol (ipcSharedPtrs.exec noInstances [] dropBoth).1
        (ipcSharedPtrs.exec noInstances [] dropBoth).2 ∧
      closings 0 (ipcSharedPtrs.exec noInstances [] dropBoth).1 =
        [some (.message (some 64) (.object 0))] := by
  have hguard : ipcSharedPtrs.Guarded (fun x i => CopiesFit x i ∧ LastIsOriginal x i) noInstances
      dropBoth := by
    refine ⟨⟨trivial, trivial⟩, ⟨fun b hb => ?_, trivial⟩, ⟨trivial, trivial⟩, ⟨trivial, trivial⟩,
      ⟨trivial, trivial⟩, ⟨trivial, fun b thread addr type hb ho _ => ?_⟩, trivial⟩
    · obtain rfl := Option.some.inj hb
      decide
    · obtain rfl := Option.some.inj hb
      cases ho
      exact .inr ⟨rfl, rfl⟩
  exact ⟨handles_follow_protocol ((Transition.Run.init noInstances_init).exec hguard), rfl⟩

/-- `borrow_loaned_request` returns a request as an instance to its base class. It is dropped
without being sent. -/
def dropRequest : List HandleInput :=
  [.borrow 0 ['r'] 0 64 (.object 0),
    .moveConstruct ⟨.object 0, some 64, some 0⟩ (.converted (.object 1) id),
    .destroy (.null (.object 0)), .reset 0 ⟨.object 1, some 64, some 0⟩,
    .closeLast 0 ⟨.object 1, some 64, some 0⟩]

/-- **A loan that is freed as something else**: a request of a service client that is dropped
unsent is deleted through its base class. -/
theorem dropped_request_freed_as_base :
    let run := ipcSharedPtrs.exec noInstances [] dropRequest
    Transition.Run ipcSharedPtrs CopiesFit run.1 run.2 ∧
      run.2.origins 0 = some (.loan 0 64 (.object 0)) ∧
      closings 0 run.1 = [some (.message (some 64) (.object 1))] ∧
      ¬ HandleProtocol run.1 run.2 := by
  have hclosings : closings 0 (ipcSharedPtrs.exec noInstances [] dropRequest).1 =
      [some (.message (some 64) (.object 1))] := rfl
  refine ⟨(Transition.Run.init noInstances_init).exec ⟨trivial, trivial, trivial, trivial, trivial, trivial⟩,
    rfl, hclosings, fun h => ?_⟩
  have hfreed := h.freed 0 0 64 (.object 0) rfl ⟨rfl, rfl, by decide⟩ (by unfold Withdrawn; decide)
  rw [hclosings] at hfreed
  cases hfreed

end Agnocast
