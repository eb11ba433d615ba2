import Agnocast.Agnocastlib.EpollUpdate

/-!
# The client library — no registration with an epoll is missed

Whoever makes a callback wait for an epoll is still on its way to ask for a scan, or the
request stands, or a thread of the executor has the scan still before it: the next step of
each hands the callback over to the next. A group that joins the executor while a thread
scans joins by a thread that has its own scan still before it, or by one that will ask.

* `UpdateOk`              — the invariant; it says which thread will come to the callback.
* `Executors.Expects`     — the request stands, or some thread is responsible.
* `registration_not_missed` — every reachable state.
-/

namespace Agnocast

/-! ## Who is responsible -/

/-- The order of the handlers. -/
def EpollEventType.rank : EpollEventType → Nat
  | .subscription => 0
  | .timer => 1
  | .clock => 2

/-- Where the callbacks of the type are registered. -/
def EpollEventType.registry : EpollEventType → Registry
  | .subscription => .callbacks
  | .timer => .timers
  | .clock => .timers

namespace UpdateThread

/-- The thread will come to the callback in its scan for executor `x`. -/
def willPrepare (x : Nat) (type : EpollEventType) (id : Nat) : UpdateThread → Prop
  | .taken y => y = x
  | .adding y _ _ => y = x
  | .preparing y type' left => y = x ∧ (type'.rank < type.rank ∨ (type' = type ∧ id ∈ left))
  | _ => False

/-- The thread will come to the group among those of the node. -/
def willAssociate (x n g : Nat) : UpdateThread → Prop
  | .taken y => y = x
  | .adding y nodes groups => y = x ∧ (n ∈ nodes ∨ g ∈ groups)
  | _ => False

variable {x n g id : Nat} {type : EpollEventType} {registry : Registry} {t : UpdateThread}

theorem updates_of_willPrepare (h : t.willPrepare x type id) : t.updates x := by
  cases t with
  | taken y => exact h
  | adding y nodes groups => exact h
  | preparing y type' left => exact h.1
  | _ => exact h.elim

theorem updates_of_willAssociate (h : t.willAssociate x n g) : t.updates x := by
  cases t with
  | taken y => exact h
  | adding y nodes groups => exact h.1
  | _ => exact h.elim

/-- Nodes only get more groups. -/
theorem requests_mono {node node' : Nat → NodeBase}
    (hnode : ∀ n, ∀ g ∈ (node n).callbackGroups, g ∈ (node' n).callbackGroups)
    (h : t.requests node x registry id g) : t.requests node' x registry id g := by
  cases t with
  | addingNode y n groups => exact ⟨h.1, hnode _ _ h.2⟩
  | requestNode y n => exact ⟨h.1, hnode _ _ h.2⟩
  | requestAll registry' id' => exact h
  | requesting registry' id' left => exact h
  | requestGroup y g' => exact h
  | _ => exact h.elim

end UpdateThread

namespace Executors

variable {s s' : Executors} {x n g id : Nat} {type : EpollEventType} {registry : Registry}
  {t : UpdateThread} {ts : List UpdateThread} {P Q : UpdateThread → Prop}

/-- The request of executor `x` stands, or a thread with `P` is responsible. -/
def Expects (s : Executors) (x : Nat) (P : UpdateThread → Prop) : Prop :=
  (s.executor x).needUpdate = true ∨ ∃ t ∈ s.threads, P t

/-- A thread goes on, and what it was responsible for is requested or left to its successors. -/
theorem Expects.move (h : s.Expects x P)
    (hneed : (s.executor x).needUpdate = true → (s'.executor x).needUpdate = true)
    (hthreads : s'.threads = Bag.replace s.threads t ts) (hPQ : ∀ t, P t → Q t)
    (ht : P t → (s'.executor x).needUpdate = true ∨ ∃ t' ∈ ts, Q t') : s'.Expects x Q := by
  by_cases hasked : (s'.executor x).needUpdate = true
  · exact .inl hasked
  · have hold := h.resolve_left fun hold => hasked (hneed hold)
    refine .inr ?_
    rw [hthreads]
    exact Bag.exists_replace hold hPQ fun hp => (ht hp).resolve_left hasked

/-- No thread goes on. -/
theorem Expects.keep (h : s.Expects x P)
    (hneed : (s.executor x).needUpdate = true → s'.Expects x Q)
    (hthreads : ∀ t ∈ s.threads, t ∈ s'.threads) (hPQ : ∀ t, P t → Q t) : s'.Expects x Q := by
  rcases h with hasked | ⟨t, ht, hp⟩
  · exact hneed hasked
  · exact .inr ⟨t, hthreads t ht, hPQ t hp⟩

/-- The fd of the type, or the callback itself, is registered and not in an epoll. -/
def NeedsFd (s : Executors) (type : EpollEventType) (id g : Nat) : Prop :=
  match type with
  | .subscription => s.Needs .callbacks id g
  | type => ∃ e ∈ s.id2TimerInfo, e.timerId = id ∧ e.callbackGroup = g ∧ e.pending type = true

/-- A request that concerns the group, or the scan of a thread, will come to the callback. -/
def Reaches (s : Executors) (x : Nat) (type : EpollEventType) (id g : Nat) (t : UpdateThread) :
    Prop :=
  t.willPrepare x type id ∨ t.requests s.node x type.registry id g

/-- The same for a group that has still to join. -/
def Joins (s : Executors) (x n : Nat) (registry : Registry) (id g : Nat) (t : UpdateThread) :
    Prop :=
  t.willAssociate x n g ∨ t.requests s.node x registry id g

/-- The maps of an executor that has none are empty, and so the test is a test of membership. -/
theorem isCallbackGroupAssociated_iff :
    s.isCallbackGroupAssociated x g = true ↔
      g ∈ (s.executor x).weakGroupsAssociatedWithExecutorToNodes ∨
        g ∈ (s.executor x).weakGroupsToNodesAssociatedWithExecutor := by
  unfold isCallbackGroupAssociated
  split
  · next hempty =>
    simp only [Bool.and_eq_true, List.isEmpty_iff] at hempty
    rw [hempty.1.1, hempty.1.2]
    simp
  · simp

end Executors

/-- The flags of a timer speak of fds that it has, and it needs the update while one is set. -/
structure TimerEntry.Consistent (e : TimerEntry) : Prop where
  timer : e.pending .timer = e.timerFdNeedUpdate
  clock : e.pending .clock = e.clockEventfdNeedUpdate
  need : e.needEpollUpdate = (e.timerFdNeedUpdate || e.clockEventfdNeedUpdate)

/-- What a thread that is on its way knows: the group of its callback exists, the flags of its
timer are consistent, and the groups that it goes through are those of its node. -/
def UpdateThread.Sound (s : Executors) : UpdateThread → Prop
  | .callback _ g => g < s.groups
  | .timer e => e.callbackGroup < s.groups ∧ e.Consistent
  | .addingNode _ n left => ∀ g ∈ left, g ∈ (s.node n).callbackGroups
  | _ => True

/-! ## The invariant -/

/-- **Every callback that waits is expected**: a fd whose group is associated with an executor
will be scanned or asked for, and a group that has still to join will be found or asked for. -/
structure UpdateOk (s : Executors) : Prop where
  callbackIds : (s.id2CallbackInfo.map CallbackEntry.id).Nodup
  timerIds : (s.id2TimerInfo.map TimerEntry.timerId).Nodup
  timerFds : ∀ e ∈ s.id2TimerInfo, e.Consistent
  fresh : ∀ x, s.executors ≤ x → (s.executor x).needUpdate = true
  exist : ∀ registry id g, s.Needs registry id g → g < s.groups
  coming : ∀ t ∈ s.threads, t.Sound s
  prepared : ∀ type id g, s.NeedsFd type id g → ∀ x, s.isCallbackGroupAssociated x g = true →
    s.Expects x (s.Reaches x type id g)
  joined : ∀ registry id g, s.Needs registry id g → ∀ x n, s.OfNode x n g →
    s.Expects x (s.Joins x n registry id g)

theorem UpdateOk.empty : UpdateOk .empty := by
  refine ⟨List.nodup_nil, List.nodup_nil, fun _ he => (by cases he), fun _ _ => rfl,
    fun registry id g hneeds => ?_, fun _ ht => (by cases ht), fun _ _ _ _ _ _ => .inl rfl,
    fun _ _ _ _ _ _ _ => .inl rfl⟩
  cases registry <;>
    · obtain ⟨e, he, _⟩ := hneeds
      cases he

variable {s s' : Executors} {x n g id : Nat} {t : UpdateThread} {ts : List UpdateThread}

/-- The invariant says what is claimed. -/
theorem UpdateOk.requestStands (hok : UpdateOk s) : s.RequestStands := by
  intro registry id g hneeds x hassoc
  rcases hassoc with hmember | ⟨n, hnode⟩
  · -- one of the fds of the callback is not in an epoll yet
    obtain ⟨type, htype, hfd⟩ : ∃ type : EpollEventType, type.registry = registry ∧
        s.NeedsFd type id g := by
      cases registry with
      | callbacks => exact ⟨.subscription, rfl, hneeds⟩
      | timers =>
        obtain ⟨e, he, hid, hgroup, hneed⟩ := hneeds
        have hflags := hok.timerFds e he
        rw [hflags.need, Bool.or_eq_true, ← hflags.timer, ← hflags.clock] at hneed
        rcases hneed with hfd | hfd
        · exact ⟨.timer, rfl, e, he, hid, hgroup, hfd⟩
        · exact ⟨.clock, rfl, e, he, hid, hgroup, hfd⟩
    refine (hok.prepared type id g hfd x hmember).imp_right fun ⟨t, ht, hreach⟩ => ?_
    rcases hreach with hscan | hrequest
    · exact .inl ⟨t, ht, UpdateThread.updates_of_willPrepare hscan⟩
    · exact .inr ⟨t, ht, htype ▸ hrequest⟩
  · refine (hok.joined registry id g hneeds x n hnode).imp_right fun ⟨t, ht, hjoin⟩ => ?_
    rcases hjoin with hscan | hrequest
    · exact .inl ⟨t, ht, UpdateThread.updates_of_willAssociate hscan⟩
    · exact .inr ⟨t, ht, hrequest⟩

/-! ## Threads that go on -/

/-- Nothing that is shared changes but for requests that are made. -/
structure SameShared (s s' : Executors) : Prop where
  callbacks : s'.id2CallbackInfo = s.id2CallbackInfo
  timers : s'.id2TimerInfo = s.id2TimerInfo
  groups : s'.groups = s.groups
  group : s'.group = s.group
  node : s'.node = s.node
  executors : s.executors ≤ s'.executors
  manual : ∀ x, (s'.executor x).weakGroupsAssociatedWithExecutorToNodes =
    (s.executor x).weakGroupsAssociatedWithExecutorToNodes
  automatic : ∀ x, (s'.executor x).weakGroupsToNodesAssociatedWithExecutor =
    (s.executor x).weakGroupsToNodesAssociatedWithExecutor
  nodes : ∀ x, (s'.executor x).weakNodes = (s.executor x).weakNodes
  requested : ∀ x, (s.executor x).needUpdate = true → (s'.executor x).needUpdate = true

namespace SameShared

theorem needs (h : SameShared s s') {registry : Registry} :
    s'.Needs registry id g ↔ s.Needs registry id g := by
  cases registry <;> simp only [Executors.Needs, h.callbacks, h.timers]

theorem needsFd (h : SameShared s s') {type : EpollEventType} :
    s'.NeedsFd type id g ↔ s.NeedsFd type id g := by
  cases type <;> simp only [Executors.NeedsFd, Executors.Needs, h.callbacks, h.timers]

theorem associated (h : SameShared s s') :
    s'.isCallbackGroupAssociated x g = s.isCallbackGroupAssociated x g := by
  simp only [Executors.isCallbackGroupAssociated, h.manual, h.automatic, h.nodes]

theorem ofNode (h : SameShared s s') (hnode : s'.OfNode x n g) : s.OfNode x n g :=
  ⟨h.nodes x ▸ hnode.added, h.node ▸ hnode.created, h.group ▸ hnode.automatic,
    h.group ▸ hnode.free⟩

theorem sound (h : SameShared s s') (hs : t.Sound s) : t.Sound s' := by
  cases t with
  | callback id g => exact lt_of_lt_of_eq hs h.groups.symm
  | timer e => exact ⟨lt_of_lt_of_eq hs.1 h.groups.symm, hs.2⟩
  | addingNode y n left =>
    intro g hg
    rw [h.node]
    exact hs g hg
  | _ => trivial

/-- The invariant, when whoever was responsible is followed by somebody who is. -/
theorem updateOk (h : SameShared s s') (hok : UpdateOk s)
    (hcoming : ∀ t ∈ s'.threads, t.Sound s)
    (hprepared : ∀ type id g x, s.NeedsFd type id g → s.isCallbackGroupAssociated x g = true →
      s.Expects x (s.Reaches x type id g) → s'.Expects x (s.Reaches x type id g))
    (hjoined : ∀ registry id g x n, s.OfNode x n g → s.Expects x (s.Joins x n registry id g) →
      s'.Expects x (s.Joins x n registry id g)) : UpdateOk s' where
  callbackIds := h.callbacks ▸ hok.callbackIds
  timerIds := h.timers ▸ hok.timerIds
  timerFds := h.timers ▸ hok.timerFds
  fresh x hx := h.requested x (hok.fresh x (h.executors.trans hx))
  exist registry id g hneeds := h.groups ▸ hok.exist registry id g (h.needs.mp hneeds)
  coming t ht := h.sound (hcoming t ht)
  prepared type id g hneeds x hassoc := by
    have hneeds' := h.needsFd.mp hneeds
    rw [h.associated] at hassoc
    have hexp := hprepared type id g x hneeds' hassoc (hok.prepared type id g hneeds' x hassoc)
    unfold Executors.Reaches at hexp ⊢
    rwa [h.node]
  joined registry id g hneeds x n hnode := by
    have hnode' := h.ofNode hnode
    have hexp := hjoined registry id g x n hnode' (hok.joined registry id g (h.needs.mp hneeds) x n hnode')
    unfold Executors.Joins at hexp ⊢
    rwa [h.node]

end SameShared

/-- **A thread goes on**: nothing shared changes but a request, and what the thread was
responsible for is requested or left to what it becomes. -/
theorem UpdateOk.turn (hok : UpdateOk s) (h : SameShared s s')
    (hthreads : s'.threads = Bag.replace s.threads t ts) (hsound : ∀ t' ∈ ts, t'.Sound s)
    (hprepared : ∀ type id g x, s.NeedsFd type id g → s.isCallbackGroupAssociated x g = true →
      s.Reaches x type id g t →
      (s'.executor x).needUpdate = true ∨ ∃ t' ∈ ts, s.Reaches x type id g t')
    (hjoined : ∀ registry id g x n, s.OfNode x n g → s.Joins x n registry id g t →
      (s'.executor x).needUpdate = true ∨ ∃ t' ∈ ts, s.Joins x n registry id g t') :
    UpdateOk s' := by
  refine h.updateOk hok (fun t' ht' => ?_)
    (fun type id g x hneeds hassoc hexp => hexp.move (h.requested x) hthreads (fun _ hp => hp) ?_)
    fun registry id g x n hnode hexp => hexp.move (h.requested x) hthreads (fun _ hp => hp) ?_
  · rw [hthreads] at ht'
    exact (Bag.mem_replace ht').elim (hsound t') (hok.coming t')
  · exact hprepared type id g x hneeds hassoc
  · exact hjoined registry id g x n hnode

/-- A thread goes on and touches nothing that is shared. -/
theorem UpdateOk.become (hok : UpdateOk s) (hsound : ∀ t' ∈ ts, t'.Sound s)
    (hprepared : ∀ type id g x, s.NeedsFd type id g → s.isCallbackGroupAssociated x g = true →
      s.Reaches x type id g t → ∃ t' ∈ ts, s.Reaches x type id g t')
    (hjoined : ∀ registry id g x n, s.OfNode x n g → s.Joins x n registry id g t →
      ∃ t' ∈ ts, s.Joins x n registry id g t') : UpdateOk (s.become t ts) :=
  hok.turn ⟨rfl, rfl, rfl, rfl, rfl, le_refl _, fun _ => rfl, fun _ => rfl, fun _ => rfl,
    fun _ => id⟩ rfl hsound (fun type id g x hn ha hr => .inr (hprepared type id g x hn ha hr))
    fun registry id g x n hn hj => .inr (hjoined registry id g x n hn hj)

/-! ## The scan -/

/-- A thread has one successor, which is no thread that registers anything. -/
private theorem sound_singleton {u : UpdateThread} (hu : u.Sound s) : ∀ t' ∈ [u], t'.Sound s :=
  fun _ ht' => List.mem_singleton.mp ht' ▸ hu

theorem UpdateOk.taken (hok : UpdateOk s) :
    UpdateOk (s.become (.taken x) [.adding x (s.executor x).weakNodes []]) := by
  refine hok.become (sound_singleton trivial) (fun type id g y _ _ hr => ?_)
    fun registry id g y n hnode hj => ?_
  · rcases hr with rfl | hno
    · exact ⟨_, List.mem_singleton_self _, .inl rfl⟩
    · exact hno.elim
  · rcases hj with rfl | hno
    · exact ⟨_, List.mem_singleton_self _, .inl ⟨rfl, .inl hnode.added⟩⟩
    · exact hno.elim

theorem UpdateOk.nextNode (hok : UpdateOk s) {nodes : List Nat} :
    UpdateOk (s.become (.adding x (n :: nodes) []) [.adding x nodes (s.node n).callbackGroups]) := by
  refine hok.become (sound_singleton trivial) (fun type id g y _ _ hr => ?_)
    fun registry id g y m hnode hj => ?_
  · rcases hr with rfl | hno
    · exact ⟨_, List.mem_singleton_self _, .inl rfl⟩
    · exact hno.elim
  · rcases hj with ⟨rfl, hm | hg⟩ | hno
    · refine ⟨_, List.mem_singleton_self _, .inl ⟨rfl, ?_⟩⟩
      rcases List.mem_cons.mp hm with rfl | hm
      · exact .inr hnode.created
      · exact .inl hm
    · cases hg
    · exact hno.elim

/-- A callback that waits is in the registry that the handler of its fd goes through. -/
theorem Executors.NeedsFd.mem_ids {type : EpollEventType} (hneeds : s.NeedsFd type id g) :
    (type = .subscription → id ∈ s.id2CallbackInfo.map CallbackEntry.id) ∧
      (type ≠ .subscription → id ∈ s.id2TimerInfo.map TimerEntry.timerId) := by
  cases type with
  | subscription =>
    obtain ⟨e, he, rfl, _⟩ := hneeds
    exact ⟨fun _ => List.mem_map_of_mem he, fun hne => absurd rfl hne⟩
  | timer =>
    obtain ⟨e, he, rfl, _⟩ := hneeds
    exact ⟨fun heq => (by cases heq), fun _ => List.mem_map_of_mem he⟩
  | clock =>
    obtain ⟨e, he, rfl, _⟩ := hneeds
    exact ⟨fun heq => (by cases heq), fun _ => List.mem_map_of_mem he⟩

theorem UpdateOk.prepareEpoll (hok : UpdateOk s) :
    UpdateOk (s.become (.adding x [] [])
      [.preparing x .subscription (s.id2CallbackInfo.map CallbackEntry.id)]) := by
  refine hok.become (sound_singleton trivial) (fun type id g y hneeds _ hr => ?_)
    fun registry id g y m hnode hj => ?_
  · rcases hr with rfl | hno
    · refine ⟨_, List.mem_singleton_self _, .inl ⟨rfl, ?_⟩⟩
      cases type with
      | subscription => exact .inr ⟨rfl, hneeds.mem_ids.1 rfl⟩
      | timer => exact .inl Nat.zero_lt_one
      | clock => exact .inl Nat.zero_lt_two
    · exact hno.elim
  · rcases hj with ⟨_, hm | hg⟩ | hno
    · cases hm
    · cases hg
    · exact hno.elim

/-- A thread that scans associates nothing more, and asks for nothing. -/
private theorem not_joins_preparing {y : Nat} {type : EpollEventType} {left : List Nat}
    {registry : Registry} (hj : s.Joins y n registry id g (.preparing x type left)) : False :=
  hj.elim False.elim False.elim

/-- The next handler. -/
theorem UpdateOk.nextHandler (hok : UpdateOk s) {type type' : EpollEventType}
    (htype : type'.rank = type.rank + 1) :
    UpdateOk (s.become (.preparing x type [])
      [.preparing x type' (s.id2TimerInfo.map TimerEntry.timerId)]) := by
  refine hok.become (sound_singleton trivial) (fun fd id g y hneeds _ hr => ?_)
    fun registry id g y m _ hj => (not_joins_preparing hj).elim
  rcases hr with ⟨rfl, hlt | ⟨_, hid⟩⟩ | hno
  · refine ⟨_, List.mem_singleton_self _, .inl ⟨rfl, ?_⟩⟩
    -- either it is the turn of this handler, or of the last one
    cases fd with
    | subscription => exact absurd hlt (Nat.not_lt_zero _)
    | timer =>
      have hid := hneeds.mem_ids.2 EpollEventType.noConfusion
      cases type' <;> cases type <;> simp_all [EpollEventType.rank]
    | clock =>
      have hid := hneeds.mem_ids.2 EpollEventType.noConfusion
      cases type' <;> cases type <;> simp_all [EpollEventType.rank]
  · cases hid
  · exact hno.elim

theorem UpdateOk.prepared_all (hok : UpdateOk s) :
    UpdateOk (s.become (.preparing x .clock []) []) := by
  refine hok.become (fun _ ht' => (by cases ht')) (fun fd id g y _ _ hr => ?_)
    fun registry id g y m _ hj => (not_joins_preparing hj).elim
  rcases hr with ⟨_, hlt | ⟨_, hid⟩⟩ | hno
  · cases fd <;> simp [EpollEventType.rank] at hlt
  · cases hid
  · exact hno.elim

/-- The scan goes past a callback that is in the epoll now, or whose group is not associated. -/
theorem UpdateOk.pass (hok : UpdateOk s) {type : EpollEventType} {left : List Nat}
    (hdone : ∀ g, s.NeedsFd type id g → s.isCallbackGroupAssociated x g = false) :
    UpdateOk (s.become (.preparing x type left) [.preparing x type (left.erase id)]) := by
  refine hok.become (sound_singleton trivial) (fun fd id' g y hneeds hassoc hr => ?_)
    fun registry id' g y m _ hj => (not_joins_preparing hj).elim
  rcases hr with ⟨rfl, hlt | ⟨rfl, hid⟩⟩ | hno
  · exact ⟨_, List.mem_singleton_self _, .inl ⟨rfl, .inl hlt⟩⟩
  · have hne : id' ≠ id := by
      rintro rfl
      rw [hdone g hneeds] at hassoc
      cases hassoc
    exact ⟨_, List.mem_singleton_self _, .inl ⟨rfl, .inr ⟨rfl, (List.mem_erase_of_ne hne).mpr hid⟩⟩⟩
  · exact hno.elim

/-! ## Requests -/

theorem Executors.requestUpdate_executor (s : Executors) (x y : Nat) :
    (s.requestUpdate x).executor y =
      { s.executor y with needUpdate := decide (y = x) || (s.executor y).needUpdate } := by
  unfold requestUpdate setExecutor
  by_cases heq : y = x
  · simp [heq]
  · simp [heq]

/-- A request is made, and the thread that makes it goes on. -/
theorem UpdateOk.request (hok : UpdateOk s) (hsound : ∀ t' ∈ ts, t'.Sound s)
    (hprepared : ∀ type id g y, s.Reaches y type id g t →
      y = x ∨ ∃ t' ∈ ts, s.Reaches y type id g t')
    (hjoined : ∀ registry id g y n, s.Joins y n registry id g t →
      y = x ∨ ∃ t' ∈ ts, s.Joins y n registry id g t') :
    UpdateOk ((s.requestUpdate x).become t ts) := by
  have hexecutor : ∀ y, ((s.requestUpdate x).become t ts).executor y =
      { s.executor y with needUpdate := decide (y = x) || (s.executor y).needUpdate } :=
    s.requestUpdate_executor x
  have hshared : SameShared s ((s.requestUpdate x).become t ts) := by
    refine ⟨rfl, rfl, rfl, rfl, rfl, le_refl _, fun y => ?_, fun y => ?_, fun y => ?_,
      fun y hy => ?_⟩ <;> rw [hexecutor]
    rw [hy]
    exact Bool.or_true _
  have hasked : ∀ y, y = x → (((s.requestUpdate x).become t ts).executor y).needUpdate = true := by
    rintro y rfl
    rw [hexecutor]
    simp
  exact hok.turn hshared rfl hsound
    (fun type id g y _ _ hr => (hprepared type id g y hr).imp_left (hasked y))
    fun registry id g y n _ hj => (hjoined registry id g y n hj).imp_left (hasked y)

/-- `request_update_all` begins; an executor that is created later has its first request. -/
theorem UpdateOk.requestAll (hok : UpdateOk s) {registry : Registry} :
    UpdateOk (s.become (.requestAll registry id)
      [.requesting registry id (List.range s.executors)]) := by
  have hcreated : ∀ y, (s.executor y).needUpdate = true ∨ y ∈ List.range s.executors := by
    intro y
    rcases Nat.lt_or_ge y s.executors with hlt | hge
    · exact .inr (List.mem_range.mpr hlt)
    · exact .inl (hok.fresh y hge)
  refine hok.turn ⟨rfl, rfl, rfl, rfl, rfl, le_refl _, fun _ => rfl, fun _ => rfl, fun _ => rfl,
    fun _ h => h⟩ rfl (sound_singleton trivial) (fun fd id' g y _ _ hr => ?_)
    fun registry' id' g y n _ hj => ?_
  · rcases hr with hno | ⟨hreg, hid⟩
    · exact hno.elim
    · exact (hcreated y).imp_right fun hy =>
        ⟨_, List.mem_singleton_self _, .inr ⟨hreg, hid, hy⟩⟩
  · rcases hj with hno | ⟨hreg, hid⟩
    · exact hno.elim
    · exact (hcreated y).imp_right fun hy =>
        ⟨_, List.mem_singleton_self _, .inr ⟨hreg, hid, hy⟩⟩

theorem UpdateOk.requesting (hok : UpdateOk s) {registry : Registry} {left : List Nat} :
    UpdateOk ((s.requestUpdate x).become (.requesting registry id (x :: left))
      [.requesting registry id left]) := by
  refine hok.request (sound_singleton trivial) (fun fd id' g y hr => ?_)
    fun registry' id' g y n hj => ?_
  · rcases hr with hno | ⟨hreg, hid, hy⟩
    · exact hno.elim
    · exact (List.mem_cons.mp hy).imp_right fun hy =>
        ⟨_, List.mem_singleton_self _, .inr ⟨hreg, hid, hy⟩⟩
  · rcases hj with hno | ⟨hreg, hid, hy⟩
    · exact hno.elim
    · exact (List.mem_cons.mp hy).imp_right fun hy =>
        ⟨_, List.mem_singleton_self _, .inr ⟨hreg, hid, hy⟩⟩

theorem UpdateOk.requested_all (hok : UpdateOk s) {registry : Registry} :
    UpdateOk (s.become (.requesting registry id []) []) := by
  refine hok.become (fun _ ht' => (by cases ht')) (fun fd id' g y _ _ hr => ?_)
    fun registry' id' g y n _ hj => ?_
  · rcases hr with hno | ⟨_, _, hy⟩
    · exact hno.elim
    · cases hy
  · rcases hj with hno | ⟨_, _, hy⟩
    · exact hno.elim
    · cases hy

theorem UpdateOk.requestGroup (hok : UpdateOk s) :
    UpdateOk ((s.requestUpdate x).become (.requestGroup x g) []) := by
  refine hok.request (fun _ ht' => (by cases ht')) (fun fd id' g y hr => ?_)
    fun registry' id' g y n hj => ?_
  · exact hr.elim False.elim fun hr => .inl hr.1.symm
  · exact hj.elim False.elim fun hj => .inl hj.1.symm

theorem UpdateOk.requestNode (hok : UpdateOk s) :
    UpdateOk ((s.requestUpdate x).become (.requestNode x n) []) := by
  refine hok.request (fun _ ht' => (by cases ht')) (fun fd id' g y hr => ?_)
    fun registry' id' g y n hj => ?_
  · exact hr.elim False.elim fun hr => .inl hr.1.symm
  · exact hj.elim False.elim fun hj => .inl hj.1.symm

theorem UpdateOk.node (hok : UpdateOk s) :
    UpdateOk (s.become (.node x n) [.addingNode x n (s.node n).callbackGroups]) := by
  refine hok.become (sound_singleton fun _ hg => hg) (fun type id g y _ _ hr => ?_)
    fun registry id g y m _ hj => ?_
  · exact (hr.elim False.elim False.elim)
  · exact (hj.elim False.elim False.elim)

/-! ## Callbacks and timers -/

/-- What a thread reaches stays in its reach while the nodes only get more groups. -/
theorem Executors.Reaches.mono
    (hnode : ∀ n, ∀ g ∈ (s.node n).callbackGroups, g ∈ (s'.node n).callbackGroups)
    {type : EpollEventType} (h : s.Reaches x type id g t) : s'.Reaches x type id g t :=
  h.imp_right (UpdateThread.requests_mono hnode)

theorem Executors.Joins.mono
    (hnode : ∀ n, ∀ g ∈ (s.node n).callbackGroups, g ∈ (s'.node n).callbackGroups)
    {registry : Registry} (h : s.Joins x n registry id g t) : s'.Joins x n registry id g t :=
  h.imp_right (UpdateThread.requests_mono hnode)

/-- **A registration**: a callback of group `c` enters a registry under an id, and the thread
that registers it, which was responsible for nothing, asks all trackers next. -/
theorem UpdateOk.insert (hok : UpdateOk s) {r : Registry} {i c : Nat}
    (hreaches : ∀ x type id g, ¬ s.Reaches x type id g t)
    (hjoins : ∀ x n registry id g, ¬ s.Joins x n registry id g t)
    (hthreads : s'.threads = Bag.replace s.threads t [.requestAll r i]) (hgroup : c < s.groups)
    (hgroups : s'.groups = s.groups) (hshared : s'.group = s.group ∧ s'.node = s.node ∧
      s'.executors = s.executors ∧ s'.executor = s.executor)
    (hneeds : ∀ registry id g, s'.Needs registry id g →
      (registry = r ∧ id = i ∧ g = c) ∨ s.Needs registry id g)
    (hneedsFd : ∀ type id g, s'.NeedsFd type id g →
      (type.registry = r ∧ id = i ∧ g = c) ∨ s.NeedsFd type id g)
    (hcallbackIds : (s'.id2CallbackInfo.map CallbackEntry.id).Nodup)
    (htimerIds : (s'.id2TimerInfo.map TimerEntry.timerId).Nodup)
    (htimerFds : ∀ e ∈ s'.id2TimerInfo, e.Consistent) : UpdateOk s' := by
  obtain ⟨hgroup', hnode, hexecutors, hexecutor⟩ := hshared
  -- the thread is going to ask every executor about the new callback
  have hnew : ∀ x (Q : UpdateThread → Prop), Q (.requestAll r i) → s'.Expects x Q := by
    intro x Q hq
    refine .inr ⟨.requestAll r i, ?_, hq⟩
    rw [hthreads]
    exact List.mem_append_left _ (List.mem_singleton_self _)
  have hasked : ∀ x, (s.executor x).needUpdate = true → (s'.executor x).needUpdate = true :=
    fun x h => hexecutor ▸ h
  refine ⟨hcallbackIds, htimerIds, htimerFds, fun x hx => ?_, fun registry id g hneeds' => ?_,
    fun t' ht' => ?_, fun type id g hneeds' x hassoc => ?_, fun registry id g hneeds' x n hnode' => ?_⟩
  · exact hasked x (hok.fresh x (hexecutors ▸ hx))
  · rw [hgroups]
    rcases hneeds registry id g hneeds' with ⟨_, _, rfl⟩ | hold
    · exact hgroup
    · exact hok.exist registry id g hold
  · rw [hthreads] at ht'
    have hsound : t'.Sound s := by
      rcases Bag.mem_replace ht' with hmem | hmem
      · obtain rfl := List.mem_singleton.mp hmem
        trivial
      · exact hok.coming t' hmem
    cases t' with
    | callback => exact lt_of_lt_of_eq hsound hgroups.symm
    | timer => exact ⟨lt_of_lt_of_eq hsound.1 hgroups.symm, hsound.2⟩
    | addingNode => exact fun g hg => hnode ▸ hsound g hg
    | _ => trivial
  -- the new callback waits for this thread; an older one for whom it waited before
  · rcases hneedsFd type id g hneeds' with ⟨hreg, rfl, rfl⟩ | hold
    · exact hnew x _ (.inr ⟨hreg.symm, rfl⟩)
    · have hassoc' : s.isCallbackGroupAssociated x g = true := by
        rw [Executors.isCallbackGroupAssociated_iff] at hassoc ⊢
        rwa [hexecutor] at hassoc
      exact (hok.prepared type id g hold x hassoc').move (hasked x) hthreads
        (fun _ hr => hr.mono fun n g hg => hnode ▸ hg) fun h => (hreaches _ _ _ _ h).elim
  · rcases hneeds registry id g hneeds' with ⟨rfl, rfl, rfl⟩ | hold
    · exact hnew x _ (.inr ⟨rfl, rfl⟩)
    · have hnode'' : s.OfNode x n g := ⟨hexecutor ▸ hnode'.added, hnode ▸ hnode'.created,
        hgroup' ▸ hnode'.automatic, hgroup' ▸ hnode'.free⟩
      exact (hok.joined registry id g hold x n hnode'').move (hasked x) hthreads
        (fun _ hr => hr.mono fun n g hg => hnode ▸ hg) fun h => (hjoins _ _ _ _ _ h).elim

/-- A new entry takes the place of what had its id. -/
private theorem nodup_insert {α : Type} {key : α → Nat} {l : List α} (hnd : (l.map key).Nodup)
    (a : α) : ((a :: HTable.hashDel key (key a) l).map key).Nodup := by
  refine List.nodup_cons.mpr ⟨fun hmem => ?_, HTable.nodup_map_hashDel hnd⟩
  obtain ⟨b, hb, heq⟩ := List.mem_map.mp hmem
  exact (HTable.mem_hashDel.mp hb).2 heq

theorem UpdateOk.insertCallback (hok : UpdateOk s) {i c : Nat} (ht : .callback i c ∈ s.threads) :
    UpdateOk (s.advance (.callback i c)) := by
  have hneeds : ∀ registry id g, (s.advance (.callback i c)).Needs registry id g →
      (registry = .callbacks ∧ id = i ∧ g = c) ∨ s.Needs registry id g := by
    intro registry id g hneeds
    cases registry with
    | callbacks =>
      obtain ⟨e, he, rfl, rfl, hneed⟩ := hneeds
      rcases List.mem_cons.mp he with rfl | he
      · exact .inl ⟨rfl, rfl, rfl⟩
      · exact .inr ⟨e, (HTable.mem_hashDel.mp he).1, rfl, rfl, hneed⟩
    | timers => exact .inr hneeds
  refine hok.insert (fun _ _ _ _ h => h.elim False.elim False.elim)
    (fun _ _ _ _ _ h => h.elim False.elim False.elim) rfl (hok.coming _ ht) rfl
    ⟨rfl, rfl, rfl, rfl⟩ hneeds (fun type id g hneeds' => ?_)
    (nodup_insert hok.callbackIds ⟨i, c, true⟩) hok.timerIds hok.timerFds
  cases type with
  | subscription => exact hneeds .callbacks id g hneeds'
  | _ => exact .inr hneeds'

theorem UpdateOk.insertTimer (hok : UpdateOk s) {info : TimerEntry} (ht : .timer info ∈ s.threads) :
    UpdateOk (s.advance (.timer info)) := by
  obtain ⟨hgroup, hflags⟩ : info.callbackGroup < s.groups ∧ info.Consistent := hok.coming _ ht
  have hcases : ∀ e ∈ (s.advance (.timer info)).id2TimerInfo, e = info ∨ e ∈ s.id2TimerInfo :=
    fun e he => (List.mem_cons.mp he).imp_right fun he => (HTable.mem_hashDel.mp he).1
  refine hok.insert (fun _ _ _ _ h => h.elim False.elim False.elim)
    (fun _ _ _ _ _ h => h.elim False.elim False.elim) rfl hgroup rfl
    ⟨rfl, rfl, rfl, rfl⟩ (fun registry id g hneeds => ?_) (fun type id g hneeds => ?_)
    hok.callbackIds (nodup_insert hok.timerIds info) fun e he => ?_
  · cases registry with
    | callbacks => exact .inr hneeds
    | timers =>
      obtain ⟨e, he, rfl, rfl, hneed⟩ := hneeds
      rcases hcases e he with rfl | hold
      · exact .inl ⟨rfl, rfl, rfl⟩
      · exact .inr ⟨e, hold, rfl, rfl, hneed⟩
  · cases type with
    | subscription => exact .inr hneeds
    | _ =>
      obtain ⟨e, he, rfl, rfl, hneed⟩ := hneeds
      rcases hcases e he with rfl | hold
      · exact .inl ⟨rfl, rfl, rfl⟩
      · exact .inr ⟨e, hold, rfl, rfl, hneed⟩
  · rcases hcases e he with rfl | hold
    · exact hflags
    · exact hok.timerFds e hold

/-! ## Groups and nodes -/

/-- The group goes to the executor. -/
private def Executors.associate (s : Executors) (x g : Nat) : Executors :=
  (s.setGroup g { s.group g with associatedWithExecutor := true }).setExecutor x
    { s.executor x with
      weakGroupsToNodesAssociatedWithExecutor :=
        g :: (s.executor x).weakGroupsToNodesAssociatedWithExecutor }

private theorem Executors.associate_executor (s : Executors) (x g y : Nat) :
    (s.associate x g).executor y =
      { s.executor y with
        weakGroupsToNodesAssociatedWithExecutor :=
          (if y = x then [g] else []) ++ (s.executor y).weakGroupsToNodesAssociatedWithExecutor } := by
  unfold associate setExecutor
  by_cases heq : y = x
  · simp [heq]
  · simp [heq, setGroup]

private theorem Executors.associate_group (s : Executors) (x g : Nat) {g' : Nat}
    (hfree : ((s.associate x g).group g').associatedWithExecutor = false) :
    g' ≠ g ∧ (s.associate x g).group g' = s.group g' := by
  have hgroup : (s.associate x g).group g' =
      if g' = g then { s.group g with associatedWithExecutor := true } else s.group g' := by
    simp only [associate, setExecutor, setGroup, Function.update_apply]
  rw [hgroup] at hfree ⊢
  split at hfree
  · cases hfree
  · next hne => exact ⟨hne, if_neg hne⟩

/-- **A group of a node joins**: the thread that lets it join comes to its callbacks later on,
or asks for somebody who does. -/
theorem UpdateOk.tryAssociate (hok : UpdateOk s) {u : UpdateThread} (hsound : u.Sound s)
    (hnew : ∀ type id, s.Reaches x type id g u)
    (hprepared : ∀ type id g' y, s.Reaches y type id g' t → s.Reaches y type id g' u)
    (hjoined : ∀ registry id g' y n, g' ≠ g → s.OfNode y n g' → s.Joins y n registry id g' t →
      s.Joins y n registry id g' u) :
    UpdateOk ((s.tryAssociate x g).become t [u]) := by
  unfold Executors.tryAssociate
  split
  case isFalse hno =>
    -- it has joined elsewhere, and is nobody's to let join
    refine hok.become (sound_singleton hsound) (fun type id g' y _ _ hr => ?_)
      fun registry id g' y n hnode hj => ⟨u, List.mem_singleton_self u, ?_⟩
    · exact ⟨u, List.mem_singleton_self u, hprepared _ _ _ _ hr⟩
    · refine hjoined _ _ _ _ _ ?_ hnode hj
      rintro rfl
      rw [hnode.automatic, hnode.free] at hno
      exact hno rfl
  case isTrue =>
  have hexecutor : ∀ y, ((s.associate x g).become t [u]).executor y =
      { s.executor y with
        weakGroupsToNodesAssociatedWithExecutor :=
          (if y = x then [g] else []) ++ (s.executor y).weakGroupsToNodesAssociatedWithExecutor } :=
    s.associate_executor x g
  show UpdateOk ((s.associate x g).become t [u])
  have hasked : ∀ y, (s.executor y).needUpdate = true →
      (((s.associate x g).become t [u]).executor y).needUpdate = true := by
    intro y hy
    rw [hexecutor]
    exact hy
  refine ⟨hok.callbackIds, hok.timerIds, hok.timerFds, fun y hy => hasked y (hok.fresh y hy),
    hok.exist, fun t' ht' => ?_, fun type id g' hneeds y hassoc => ?_,
    fun registry id g' hneeds y n hnode => ?_⟩
  · have hold : t'.Sound s := by
      rcases Bag.mem_replace ht' with hmem | hmem
      · exact List.mem_singleton.mp hmem ▸ hsound
      · exact hok.coming t' hmem
    cases t' <;> exact hold
  · rw [Executors.isCallbackGroupAssociated_iff, hexecutor] at hassoc
    -- what this executor has just let join is the thread's to prepare
    by_cases hself : y = x ∧ g' = g
    · obtain ⟨rfl, rfl⟩ := hself
      exact .inr ⟨u, List.mem_append_left _ (List.mem_singleton_self u), hnew type id⟩
    · have hassoc' : s.isCallbackGroupAssociated y g' = true := by
        rw [Executors.isCallbackGroupAssociated_iff]
        refine hassoc.imp_right fun hmem => (List.mem_append.mp hmem).resolve_left fun hmem => ?_
        split at hmem
        · next heq => exact hself ⟨heq, List.mem_singleton.mp hmem⟩
        · cases hmem
      exact (hok.prepared type id g' hneeds y hassoc').move (hasked y) rfl (fun _ hp => hp)
        fun hr => .inr ⟨u, List.mem_singleton_self u, hprepared _ _ _ _ hr⟩
  · obtain ⟨hne, hsame⟩ := s.associate_group x g hnode.free
    have hauto : ((s.associate x g).group g').automaticallyAddToExecutorWithNode = true :=
      hnode.automatic
    have hfree : ((s.associate x g).group g').associatedWithExecutor = false := hnode.free
    rw [hsame] at hauto hfree
    have hadded : n ∈ (s.executor y).weakNodes := by
      have hmem := hnode.added
      rwa [hexecutor] at hmem
    have hnode' : s.OfNode y n g' := ⟨hadded, hnode.created, hauto, hfree⟩
    exact (hok.joined registry id g' hneeds y n hnode').move (hasked y) rfl (fun _ hp => hp)
      fun hj => .inr ⟨u, List.mem_singleton_self u, hjoined _ _ _ _ _ hne hnode' hj⟩

theorem UpdateOk.addNextGroup (hok : UpdateOk s) {nodes groups : List Nat} :
    UpdateOk ((s.tryAssociate x g).become (.adding x nodes (g :: groups))
      [.adding x nodes groups]) := by
  refine hok.tryAssociate trivial (fun _ _ => .inl rfl) (fun type id g' y hr => hr)
    fun registry id g' y n hne _ hj => ?_
  rcases hj with ⟨rfl, hn | hg⟩ | hno
  · exact .inl ⟨rfl, .inl hn⟩
  · exact .inl ⟨rfl, .inr ((List.mem_cons.mp hg).resolve_left hne)⟩
  · exact hno.elim

theorem UpdateOk.addNextGroupOfNode (hok : UpdateOk s) {groups : List Nat}
    (ht : .addingNode x n (g :: groups) ∈ s.threads) :
    UpdateOk ((s.tryAssociate x g).become (.addingNode x n (g :: groups))
      [.addingNode x n groups]) := by
  have hsound : ∀ g' ∈ g :: groups, g' ∈ (s.node n).callbackGroups := hok.coming _ ht
  refine hok.tryAssociate (fun g' hg' => hsound g' (List.mem_cons_of_mem g hg'))
    (fun _ _ => .inr ⟨rfl, hsound g List.mem_cons_self⟩) (fun type id g' y hr => ?_)
    fun registry id g' y n' _ _ hj => ?_
  · exact .inr (hr.resolve_left False.elim)
  · exact .inr (hj.resolve_left False.elim)

/-- **A change of one executor's lists**: what joins by it is what the thread asks for next. -/
theorem UpdateOk.addedTo (hok : UpdateOk s) {e : OnlyExecutor} {u : UpdateThread}
    (hneed : e.needUpdate = (s.executor x).needUpdate) (hsound : u.Sound s)
    (hreaches : ∀ type id g y, s.Reaches y type id g t → s.Reaches y type id g u)
    (hjoins : ∀ registry id g y n, s.Joins y n registry id g t → s.Joins y n registry id g u)
    (hassociated : ∀ type id g, s.NeedsFd type id g →
      g ∈ e.weakGroupsAssociatedWithExecutorToNodes ∨
        g ∈ e.weakGroupsToNodesAssociatedWithExecutor →
      s.isCallbackGroupAssociated x g = true ∨ s.Reaches x type id g u)
    (hadded : ∀ registry id g n, n ∈ e.weakNodes → g ∈ (s.node n).callbackGroups →
      n ∈ (s.executor x).weakNodes ∨ s.Joins x n registry id g u) :
    UpdateOk ((s.setExecutor x e).become t [u]) := by
  have hexecutor : ∀ y, ((s.setExecutor x e).become t [u]).executor y =
      if y = x then e else s.executor y := fun y => Function.update_apply ..
  have hasked : ∀ y, (s.executor y).needUpdate = true →
      (((s.setExecutor x e).become t [u]).executor y).needUpdate = true := by
    intro y hy
    rw [hexecutor]
    split
    · next heq => rw [hneed, ← heq, hy]
    · exact hy
  -- an expectation is met by the thread that goes on as `u`
  have hnew : ∀ y (P : UpdateThread → Prop), P u →
      ((s.setExecutor x e).become t [u]).Expects y P :=
    fun y P hp => .inr ⟨u, List.mem_append_left _ (List.mem_singleton_self u), hp⟩
  have hmove : ∀ y (P : UpdateThread → Prop), s.Expects y P → (P t → P u) →
      ((s.setExecutor x e).become t [u]).Expects y P := fun y P hexp hstep =>
    hexp.move (hasked y) rfl (fun _ hp => hp) fun hp => .inr ⟨u, List.mem_singleton_self u, hstep hp⟩
  refine ⟨hok.callbackIds, hok.timerIds, hok.timerFds, fun y hy => hasked y (hok.fresh y hy),
    hok.exist, fun t' ht' => ?_, fun type id g hneeds y hassoc => ?_,
    fun registry id g hneeds y n hnode => ?_⟩
  · have hold : t'.Sound s := by
      rcases Bag.mem_replace ht' with hmem | hmem
      · exact List.mem_singleton.mp hmem ▸ hsound
      · exact hok.coming t' hmem
    cases t' <;> exact hold
  · rw [Executors.isCallbackGroupAssociated_iff, hexecutor] at hassoc
    have hcases : s.isCallbackGroupAssociated y g = true ∨ (y = x ∧ s.Reaches x type id g u) := by
      by_cases heq : y = x
      · rw [if_pos heq] at hassoc
        rw [heq]
        exact (hassociated type id g hneeds hassoc).imp_right fun h => ⟨rfl, h⟩
      · rw [if_neg heq] at hassoc
        exact .inl (Executors.isCallbackGroupAssociated_iff.mpr hassoc)
    rcases hcases with hold | ⟨rfl, hreach⟩
    · exact hmove y _ (hok.prepared type id g hneeds y hold) (hreaches type id g y)
    · exact hnew y _ hreach
  · have hmem := hnode.added
    rw [hexecutor] at hmem
    have hcases : n ∈ (s.executor y).weakNodes ∨ (y = x ∧ s.Joins x n registry id g u) := by
      by_cases heq : y = x
      · rw [if_pos heq] at hmem
        rw [heq]
        exact (hadded registry id g n hmem hnode.created).imp_right fun h => ⟨rfl, h⟩
      · rw [if_neg heq] at hmem
        exact .inl hmem
    rcases hcases with hold | ⟨rfl, hjoin⟩
    · have hnode' : s.OfNode y n g := ⟨hold, hnode.created, hnode.automatic, hnode.free⟩
      exact hmove y _ (hok.joined registry id g hneeds y n hnode') (hjoins registry id g y n)
    · exact hnew y _ hjoin

/-- `add_callback_group` inserts the group. -/
theorem UpdateOk.insertGroup (hok : UpdateOk s) :
    UpdateOk ((s.setExecutor x { s.executor x with
      weakGroupsAssociatedWithExecutorToNodes :=
        g :: (s.executor x).weakGroupsAssociatedWithExecutorToNodes }).become (.group x g)
      [.requestGroup x g]) := by
  refine hok.addedTo rfl trivial (fun _ _ _ _ h => h.elim False.elim False.elim)
    (fun _ _ _ _ _ h => h.elim False.elim False.elim)
    (fun type id g' _ hmem => ?_) fun _ _ _ _ hn _ => .inl hn
  rw [Executors.isCallbackGroupAssociated_iff]
  rcases hmem with hmem | hmem
  · rcases List.mem_cons.mp hmem with rfl | hmem
    · exact .inr (.inr ⟨rfl, rfl⟩)
    · exact .inl (.inl hmem)
  · exact .inl (.inr hmem)

/-- `add_node` has gone through the groups, and the node goes into the list. -/
theorem UpdateOk.insertNode (hok : UpdateOk s) :
    UpdateOk ((s.setExecutor x { s.executor x with
      weakNodes := (s.executor x).weakNodes ++ [n] }).become (.addingNode x n [])
      [.requestNode x n]) := by
  refine hok.addedTo rfl trivial (fun _ _ _ _ h => .inr (h.resolve_left False.elim))
    (fun _ _ _ _ _ h => .inr (h.resolve_left False.elim))
    (fun _ _ _ _ hmem => .inl (Executors.isCallbackGroupAssociated_iff.mpr hmem))
    fun registry id g m hm hg => ?_
  rcases List.mem_append.mp hm with hm | hm
  · exact .inl hm
  · obtain rfl := List.mem_singleton.mp hm
    exact .inr (.inr ⟨rfl, hg⟩)

/-! ## Threads that begin -/

/-- **The request is taken**, and the thread that has taken it has everything before it. -/
theorem UpdateOk.takeUpdateRequest (hok : UpdateOk s) (x : Nat) :
    UpdateOk (s.takeUpdateRequest x) := by
  unfold Executors.takeUpdateRequest
  split
  case isFalse => exact hok
  next hx =>
  have hexecutor : ∀ y, (s.setExecutor x { s.executor x with needUpdate := false }).executor y =
      { s.executor y with needUpdate := !decide (y = x) && (s.executor y).needUpdate } := by
    intro y
    unfold Executors.setExecutor
    by_cases heq : y = x
    · simp [heq]
    · simp [heq]
  -- who waited for the request waits for the thread that has taken it
  have hkeep : ∀ y (P : UpdateThread → Prop), s.Expects y P → (y = x → P (.taken x)) →
      ({ s.setExecutor x { s.executor x with needUpdate := false } with
        threads := .taken x :: s.threads } : Executors).Expects y P := by
    intro y P hexp htaken
    refine hexp.keep (fun hy => ?_) (fun t ht => List.mem_cons_of_mem _ ht) fun _ hp => hp
    by_cases heq : y = x
    · exact .inr ⟨.taken x, List.mem_cons_self, htaken heq⟩
    · refine .inl ?_
      show ((s.setExecutor x _).executor y).needUpdate = true
      rw [hexecutor, hy]
      simp [heq]
  refine ⟨hok.callbackIds, hok.timerIds, hok.timerFds, fun y hy => ?_, hok.exist, fun t ht => ?_,
    fun type id g hneeds y hassoc => ?_, fun registry id g hneeds y n hnode => ?_⟩
  · show ((s.setExecutor x _).executor y).needUpdate = true
    rw [hexecutor, hok.fresh y hy]
    simp only [Bool.and_true, Bool.not_eq_true', decide_eq_false_iff_not]
    exact Nat.ne_of_gt (Nat.lt_of_lt_of_le hx.1 hy)
  · rcases List.mem_cons.mp ht with rfl | ht
    · trivial
    · have hold := hok.coming t ht
      cases t <;> exact hold
  · have hassoc' : s.isCallbackGroupAssociated y g = true := by
      rw [Executors.isCallbackGroupAssociated_iff] at hassoc ⊢
      change _ ∈ ((s.setExecutor x _).executor y).weakGroupsAssociatedWithExecutorToNodes ∨
        _ ∈ ((s.setExecutor x _).executor y).weakGroupsToNodesAssociatedWithExecutor at hassoc
      rwa [hexecutor] at hassoc
    exact hkeep y _ (hok.prepared type id g hneeds y hassoc') fun heq => .inl heq.symm
  · have hadded : n ∈ (s.executor y).weakNodes := by
      have hmem := hnode.added
      change n ∈ ((s.setExecutor x _).executor y).weakNodes at hmem
      rwa [hexecutor] at hmem
    have hnode' : s.OfNode y n g := ⟨hadded, hnode.created, hnode.automatic, hnode.free⟩
    exact hkeep y _ (hok.joined registry id g hneeds y n hnode') fun heq => .inl heq.symm

/-- Nothing happens to the threads. -/
theorem UpdateOk.of_same (hok : UpdateOk s) (h : SameShared s s') (hthreads : s'.threads = s.threads) :
    UpdateOk s' := by
  have hmem : ∀ t' ∈ s.threads, t' ∈ s'.threads := fun t' ht' => hthreads ▸ ht'
  exact h.updateOk hok (fun t' ht' => hok.coming t' (hthreads ▸ ht')) (fun type id g x _ _ hexp =>
    hexp.keep (fun hasked => .inl (h.requested x hasked)) hmem fun _ hp => hp)
    fun registry id g x n _ hexp =>
      hexp.keep (fun hasked => .inl (h.requested x hasked)) hmem fun _ hp => hp

/-- A thread begins that asks for something or registers something. -/
theorem UpdateOk.begin (hok : UpdateOk s) (h : SameShared s s')
    (hthreads : s'.threads = t :: s.threads) (hsound : t.Sound s) : UpdateOk s' := by
  have hmem : ∀ t' ∈ s.threads, t' ∈ s'.threads := fun t' ht' =>
    hthreads ▸ List.mem_cons_of_mem t ht'
  refine h.updateOk hok (fun t' ht' => ?_) (fun type id g x _ _ hexp =>
    hexp.keep (fun hasked => .inl (h.requested x hasked)) hmem fun _ hp => hp)
    fun registry id g x n _ hexp =>
      hexp.keep (fun hasked => .inl (h.requested x hasked)) hmem fun _ hp => hp
  rw [hthreads] at ht'
  rcases List.mem_cons.mp ht' with rfl | ht'
  · exact hsound
  · exact hok.coming t' ht'

theorem UpdateOk.registerCallback (hok : UpdateOk s) (g : Nat) : UpdateOk (s.registerCallback g) := by
  unfold Executors.registerCallback
  simp only
  split
  · exact hok.of_same ⟨rfl, rfl, rfl, rfl, rfl, le_refl _, fun _ => rfl, fun _ => rfl,
      fun _ => rfl, fun _ h => h⟩ rfl
  · next hno =>
    exact hok.begin ⟨rfl, rfl, rfl, rfl, rfl, le_refl _, fun _ => rfl, fun _ => rfl,
      fun _ => rfl, fun _ h => h⟩ rfl (Nat.lt_of_not_le fun hle => hno (.inr hle))

theorem UpdateOk.registerTimerInfo (hok : UpdateOk s) (g : Nat) (isRosTime rosTimeIsActive : Bool) :
    UpdateOk (s.registerTimerInfo g isRosTime rosTimeIsActive) := by
  unfold Executors.registerTimerInfo
  simp only
  split
  · exact hok.of_same ⟨rfl, rfl, rfl, rfl, rfl, le_refl _, fun _ => rfl, fun _ => rfl,
      fun _ => rfl, fun _ h => h⟩ rfl
  · next hno =>
    refine hok.begin ⟨rfl, rfl, rfl, rfl, rfl, le_refl _, fun _ => rfl, fun _ => rfl,
      fun _ => rfl, fun _ h => h⟩ rfl ⟨Nat.lt_of_not_le fun hle => hno (.inr hle), ?_⟩
    -- a timer without a timerfd has a clock eventfd
    cases isRosTime <;> cases rosTimeIsActive <;> exact ⟨rfl, rfl, rfl⟩

/-- A group or a node is marked, and the thread that marks it goes on. -/
theorem UpdateOk.mark (hok : UpdateOk s) (hcallbacks : s'.id2CallbackInfo = s.id2CallbackInfo)
    (htimers : s'.id2TimerInfo = s.id2TimerInfo) (hgroups : s'.groups = s.groups)
    (hexecutors : s'.executors = s.executors) (hexecutor : s'.executor = s.executor)
    (hnode : ∀ n, (s'.node n).callbackGroups = (s.node n).callbackGroups)
    (hgroup : ∀ g, (s'.group g).associatedWithExecutor = false → s'.group g = s.group g)
    (hthreads : s'.threads = t :: s.threads) (hsound : t.Sound s) : UpdateOk s' := by
  have hneeds : ∀ {registry id g}, s'.Needs registry id g ↔ s.Needs registry id g := by
    intro registry id g
    cases registry <;> simp only [Executors.Needs, hcallbacks, htimers]
  have hneedsFd : ∀ {type id g}, s'.NeedsFd type id g ↔ s.NeedsFd type id g := by
    intro type id g
    cases type <;> simp only [Executors.NeedsFd, Executors.Needs, hcallbacks, htimers]
  have hmem : ∀ t' ∈ s.threads, t' ∈ s'.threads := fun t' ht' =>
    hthreads ▸ List.mem_cons_of_mem t ht'
  have hmono : ∀ n, ∀ g ∈ (s.node n).callbackGroups, g ∈ (s'.node n).callbackGroups :=
    fun n g hg => (hnode n).symm ▸ hg
  refine ⟨hcallbacks ▸ hok.callbackIds, htimers ▸ hok.timerIds, htimers ▸ hok.timerFds,
    fun x hx => hexecutor ▸ hok.fresh x (hexecutors ▸ hx),
    fun registry id g h => hgroups ▸ hok.exist registry id g (hneeds.mp h), fun t' ht' => ?_,
    fun type id g h x hassoc => ?_, fun registry id g h x n hn => ?_⟩
  · have hold : t'.Sound s := by
      rw [hthreads] at ht'
      rcases List.mem_cons.mp ht' with rfl | ht'
      · exact hsound
      · exact hok.coming t' ht'
    cases t' with
    | callback => exact lt_of_lt_of_eq hold hgroups.symm
    | timer => exact ⟨lt_of_lt_of_eq hold.1 hgroups.symm, hold.2⟩
    | addingNode => exact fun g hg => hmono _ g (hold g hg)
    | _ => trivial
  · have hassoc' : s.isCallbackGroupAssociated x g = true := by
      rw [Executors.isCallbackGroupAssociated_iff] at hassoc ⊢
      rwa [hexecutor] at hassoc
    exact (hok.prepared type id g (hneedsFd.mp h) x hassoc').keep
      (fun hasked => .inl (hexecutor ▸ hasked)) hmem fun _ hr => hr.mono hmono
  -- a group that is still free has not been marked
  · have hfree := hn.free
    have hauto := hn.automatic
    rw [hgroup g hn.free] at hfree hauto
    have hn' : s.OfNode x n g := ⟨hexecutor ▸ hn.added, hnode n ▸ hn.created, hauto, hfree⟩
    exact (hok.joined registry id g (hneeds.mp h) x n hn').keep
      (fun hasked => .inl (hexecutor ▸ hasked)) hmem fun _ hj => hj.mono hmono

theorem UpdateOk.addCallbackGroup (hok : UpdateOk s) (x g : Nat) :
    UpdateOk (s.addCallbackGroup x g) := by
  unfold Executors.addCallbackGroup
  split
  · exact hok.of_same ⟨rfl, rfl, rfl, rfl, rfl, le_refl _, fun _ => rfl, fun _ => rfl,
      fun _ => rfl, fun _ h => h⟩ rfl
  · refine hok.mark (t := .group x g) rfl rfl rfl rfl rfl (fun _ => rfl) (fun g' hfree => ?_) rfl trivial
    by_cases heq : g' = g
    · subst heq
      change ((s.setGroup g' _).group g').associatedWithExecutor = false at hfree
      simp [Executors.setGroup] at hfree
    · exact Function.update_of_ne heq _ _

theorem UpdateOk.addNode (hok : UpdateOk s) (x n : Nat) : UpdateOk (s.addNode x n) := by
  unfold Executors.addNode
  split
  · exact hok.of_same ⟨rfl, rfl, rfl, rfl, rfl, le_refl _, fun _ => rfl, fun _ => rfl,
      fun _ => rfl, fun _ h => h⟩ rfl
  · refine hok.mark (t := .node x n) rfl rfl rfl rfl rfl (fun m => ?_) (fun _ _ => rfl) rfl trivial
    show (Function.update s.node n _ m).callbackGroups = _
    by_cases heq : m = n
    · rw [heq, Function.update_self]
    · rw [Function.update_of_ne heq]

/-- A new group has no callback yet. -/
theorem UpdateOk.createCallbackGroup (hok : UpdateOk s) (n : Nat) (automaticallyAdd : Bool) :
    UpdateOk (s.createCallbackGroup n automaticallyAdd) := by
  have hnode : ∀ m, ((s.createCallbackGroup n automaticallyAdd).node m).callbackGroups =
      (s.node m).callbackGroups ++ if m = n then [s.groups] else [] := by
    intro m
    show (Function.update s.node n _ m).callbackGroups = _
    by_cases heq : m = n
    · rw [heq, Function.update_self, if_pos rfl]
    · rw [Function.update_of_ne heq, if_neg heq, List.append_nil]
  have hmono : ∀ m, ∀ g ∈ (s.node m).callbackGroups,
      g ∈ ((s.createCallbackGroup n automaticallyAdd).node m).callbackGroups := by
    intro m g hg
    rw [hnode]
    exact List.mem_append_left _ hg
  have hneeds : ∀ {registry id g}, (s.createCallbackGroup n automaticallyAdd).Needs registry id g ↔
      s.Needs registry id g := by
    intro registry id g
    cases registry <;> exact Iff.rfl
  have hneedsFd : ∀ {type id g}, (s.createCallbackGroup n automaticallyAdd).NeedsFd type id g ↔
      s.NeedsFd type id g := by
    intro type id g
    cases type <;> exact Iff.rfl
  refine ⟨hok.callbackIds, hok.timerIds, hok.timerFds, hok.fresh,
    fun registry id g h => Nat.lt_succ_of_lt (hok.exist registry id g (hneeds.mp h)), fun t ht => ?_,
    fun type id g h x hassoc => ?_, fun registry id g h x m hm => ?_⟩
  · have hold := hok.coming t ht
    cases t with
    | callback => exact Nat.lt_succ_of_lt hold
    | timer => exact ⟨Nat.lt_succ_of_lt hold.1, hold.2⟩
    | addingNode => exact fun g hg => hmono _ g (hold g hg)
    | _ => trivial
  · exact (hok.prepared type id g (hneedsFd.mp h) x hassoc).keep .inl (fun _ ht => ht)
      fun _ hr => hr.mono hmono
  -- a callback is of a group that is there already
  · have hne : g ≠ s.groups := Nat.ne_of_lt (hok.exist registry id g (hneeds.mp h))
    have hgroup : (s.createCallbackGroup n automaticallyAdd).group g = s.group g :=
      Function.update_of_ne hne _ _
    have hcreated : g ∈ (s.node m).callbackGroups := by
      have hmem := hm.created
      rw [hnode] at hmem
      refine (List.mem_append.mp hmem).resolve_right fun hnew => ?_
      split at hnew
      · exact hne (List.mem_singleton.mp hnew)
      · cases hnew
    have hm' : s.OfNode x m g := ⟨hm.added, hcreated, hgroup ▸ hm.automatic, hgroup ▸ hm.free⟩
    exact (hok.joined registry id g (hneeds.mp h) x m hm').keep .inl (fun _ ht => ht)
      fun _ hj => hj.mono hmono

/-! ## The registries -/

/-- Some fd is in an epoll now. -/
theorem UpdateOk.fewer (hok : UpdateOk s) (hgroups : s'.groups = s.groups)
    (hgroup : s'.group = s.group) (hnode : s'.node = s.node) (hexecutors : s'.executors = s.executors)
    (hexecutor : s'.executor = s.executor) (hthreads : s'.threads = s.threads)
    (hneeds : ∀ registry id g, s'.Needs registry id g → s.Needs registry id g)
    (hneedsFd : ∀ type id g, s'.NeedsFd type id g → s.NeedsFd type id g)
    (hcallbackIds : (s'.id2CallbackInfo.map CallbackEntry.id).Nodup)
    (htimerIds : (s'.id2TimerInfo.map TimerEntry.timerId).Nodup)
    (htimerFds : ∀ e ∈ s'.id2TimerInfo, e.Consistent) : UpdateOk s' := by
  have hmono : ∀ n, ∀ g ∈ (s.node n).callbackGroups, g ∈ (s'.node n).callbackGroups :=
    fun n g hg => hnode ▸ hg
  refine ⟨hcallbackIds, htimerIds, htimerFds,
    fun x hx => hexecutor ▸ hok.fresh x (hexecutors ▸ hx),
    fun registry id g h => hgroups ▸ hok.exist registry id g (hneeds _ _ _ h), fun t ht => ?_,
    fun type id g h x hassoc => ?_, fun registry id g h x n hn => ?_⟩
  · have hold := hok.coming t (hthreads ▸ ht)
    cases t with
    | callback => exact lt_of_lt_of_eq hold hgroups.symm
    | timer => exact ⟨lt_of_lt_of_eq hold.1 hgroups.symm, hold.2⟩
    | addingNode => exact fun g hg => hmono _ g (hold g hg)
    | _ => trivial
  · have hassoc' : s.isCallbackGroupAssociated x g = true := by
      rw [Executors.isCallbackGroupAssociated_iff] at hassoc ⊢
      rwa [hexecutor] at hassoc
    exact (hok.prepared type id g (hneedsFd _ _ _ h) x hassoc').keep
      (fun hasked => .inl (hexecutor ▸ hasked)) (fun _ ht => hthreads ▸ ht) fun _ hr => hr.mono hmono
  · have hn' : s.OfNode x n g :=
      ⟨hexecutor ▸ hn.added, hnode ▸ hn.created, hgroup ▸ hn.automatic, hgroup ▸ hn.free⟩
    exact (hok.joined registry id g (hneeds _ _ _ h) x n hn').keep
      (fun hasked => .inl (hexecutor ▸ hasked)) (fun _ ht => hthreads ▸ ht) fun _ hj => hj.mono hmono

/-- What the scan has come to needs nothing more that executor `x` could give. -/
def Executors.Passed (s : Executors) (x : Nat) (type : EpollEventType) (id : Nat) : Prop :=
  s.exited = false → ∀ g, s.NeedsFd type id g → s.isCallbackGroupAssociated x g = false

theorem UpdateOk.exit (hok : UpdateOk s) : UpdateOk s.exit :=
  hok.of_same ⟨rfl, rfl, rfl, rfl, rfl, le_refl _, fun _ => rfl, fun _ => rfl, fun _ => rfl,
    fun _ h => h⟩ rfl

theorem Executors.passed_exit {type : EpollEventType} : s.exit.Passed x type id :=
  fun hno => (by cases hno)

theorem UpdateOk.prepareCallback (hok : UpdateOk s) (x : Nat) {e : CallbackEntry}
    (he : e ∈ s.id2CallbackInfo) (epollCtl : Bool) :
    UpdateOk (s.prepareCallback x e epollCtl) ∧
      (s.prepareCallback x e epollCtl).Passed x .subscription e.id := by
  have hself : ∀ {e'}, e' ∈ s.id2CallbackInfo → e'.id = e.id → e' = e := fun he' hid =>
    HTable.eq_of_key_eq hok.callbackIds he' he hid
  unfold Executors.prepareCallback
  split
  · next hneed =>
    refine ⟨hok, fun _ g hneeds => ?_⟩
    obtain ⟨e', he', hid, _, hneed'⟩ := hneeds
    rw [hself he' hid] at hneed'
    rw [hneed'] at hneed
    cases hneed
  split
  · next hout =>
    refine ⟨hok, fun _ g hneeds => ?_⟩
    obtain ⟨e', he', hid, rfl, _⟩ := hneeds
    rw [hself he' hid]
    simpa using hout
  split
  · exact ⟨hok.exit, Executors.passed_exit⟩
  -- the callback is in the epoll, and the others are as they were
  have hothers : ∀ e' ∈ HTable.modify CallbackEntry.id e.id
      (fun e => { e with needEpollUpdate := false }) s.id2CallbackInfo,
      e'.needEpollUpdate = true → e'.id ≠ e.id ∧ e' ∈ s.id2CallbackInfo := by
    intro e' he' hneed
    obtain ⟨e₀, he₀, rfl⟩ := HTable.mem_modify.mp he'
    split at hneed
    · cases hneed
    · next hne =>
      rw [if_neg hne]
      exact ⟨hne, he₀⟩
  have hneeds : ∀ registry id g, Executors.Needs { s with
      id2CallbackInfo := HTable.modify CallbackEntry.id e.id
        (fun e => { e with needEpollUpdate := false }) s.id2CallbackInfo
      watched := (x, .subscription, e.id) :: s.watched } registry id g → s.Needs registry id g := by
    intro registry id g h
    cases registry with
    | callbacks =>
      obtain ⟨e', he', hid, hg, hneed⟩ := h
      exact ⟨e', (hothers e' he' hneed).2, hid, hg, hneed⟩
    | timers => exact h
  refine ⟨hok.fewer rfl rfl rfl rfl rfl rfl hneeds (fun type id g h => ?_) ?_ hok.timerIds
    hok.timerFds, fun _ g h => ?_⟩
  · cases type with
    | subscription => exact hneeds .callbacks id g h
    | _ => exact h
  · show ((HTable.modify _ _ _ s.id2CallbackInfo).map CallbackEntry.id).Nodup
    rw [HTable.map_modify fun _ => by rfl]
    exact hok.callbackIds
  · obtain ⟨e', he', hid, _, hneed⟩ := h
    exact absurd hid (hothers e' he' hneed).1

/-- `need_epoll_update` is the disjunction of the flags that are left. -/
theorem TimerEntry.Consistent.update {e : TimerEntry} (h : e.Consistent) (type : EpollEventType)
    (cleared : Bool) : (e.update type cleared).Consistent := by
  obtain ⟨timerId, callbackGroup, timerFd, timerFdNeed, clockFd, clockNeed, need⟩ := e
  obtain ⟨htimer, hclock, _⟩ := h
  simp only [pending] at htimer hclock
  refine ⟨?_, ?_, rfl⟩
  · simp only [TimerEntry.update, pending]
    split
    · exact Bool.and_false _
    · exact htimer
  · simp only [TimerEntry.update, pending]
    split
    · exact Bool.and_false _
    · exact hclock

theorem TimerEntry.Consistent.need_of_pending {e : TimerEntry} (h : e.Consistent)
    {type : EpollEventType} (hfd : e.pending type = true) : e.needEpollUpdate = true := by
  rw [h.need, Bool.or_eq_true]
  cases type with
  | subscription => cases hfd
  | timer => exact .inl (h.timer ▸ hfd)
  | clock => exact .inr (h.clock ▸ hfd)

/-- The round for a fd leaves that fd in the epoll. -/
theorem TimerEntry.update_pending_self (e : TimerEntry) (type : EpollEventType) :
    (e.update type (e.pending type)).pending type = false := by
  cases type with
  | subscription => rfl
  | timer => cases hfd : e.pending .timer <;> simp_all [update, pending]
  | clock => cases hfd : e.pending .clock <;> simp_all [update, pending]

/-- No round makes a fd wait. -/
theorem TimerEntry.update_pending {e : TimerEntry} {type type' : EpollEventType} {cleared : Bool}
    (hfd : (e.update type cleared).pending type' = true) : e.pending type' = true := by
  cases type' with
  | subscription => cases hfd
  | _ =>
    simp only [update, pending, Bool.and_eq_true] at hfd ⊢
    refine hfd.imp_right fun hflag => ?_
    split at hflag
    · cases hflag
    · exact hflag

/-- Nor makes it a timer need an update. -/
theorem TimerEntry.Consistent.update_need {e : TimerEntry} (h : e.Consistent)
    {type : EpollEventType} {cleared : Bool}
    (hneed : (e.update type cleared).needEpollUpdate = true) : e.needEpollUpdate = true := by
  have hafter := h.update type cleared
  rw [hafter.need, Bool.or_eq_true, ← hafter.timer, ← hafter.clock] at hneed
  rcases hneed with hfd | hfd
  · exact h.need_of_pending (TimerEntry.update_pending hfd)
  · exact h.need_of_pending (TimerEntry.update_pending hfd)

theorem UpdateOk.prepareTimerInfo (hok : UpdateOk s) (x : Nat) {type : EpollEventType}
    (htype : type ≠ .subscription) {e : TimerEntry} (he : e ∈ s.id2TimerInfo) (epollCtl : Bool) :
    UpdateOk (s.prepareTimerInfo x type e epollCtl) ∧
      (s.prepareTimerInfo x type e epollCtl).Passed x type e.timerId := by
  have hself : ∀ {e'}, e' ∈ s.id2TimerInfo → e'.timerId = e.timerId → e' = e := fun he' hid =>
    HTable.eq_of_key_eq hok.timerIds he' he hid
  -- what needs the fd is in the registry of the timers
  have hentry : ∀ {s' : Executors} {id g}, s'.NeedsFd type id g →
      ∃ e ∈ s'.id2TimerInfo, e.timerId = id ∧ e.callbackGroup = g ∧ e.pending type = true := by
    intro s' id g h
    cases type with
    | subscription => exact absurd rfl htype
    | _ => exact h
  unfold Executors.prepareTimerInfo
  split
  · next hneed =>
    refine ⟨hok, fun _ g hneeds => ?_⟩
    obtain ⟨e', he', hid, _, hfd⟩ := hentry hneeds
    rw [hself he' hid] at hfd
    rw [(hok.timerFds e he).need_of_pending hfd] at hneed
    cases hneed
  split
  · next hout =>
    refine ⟨hok, fun _ g hneeds => ?_⟩
    obtain ⟨e', he', hid, rfl, _⟩ := hentry hneeds
    rw [hself he' hid]
    simpa using hout
  split
  · exact ⟨hok.exit, Executors.passed_exit⟩
  -- every entry is what it was, or is that of the round
  have hentries : ∀ e' ∈ HTable.modify TimerEntry.timerId e.timerId
      (fun e => e.update type (e.pending type)) s.id2TimerInfo,
      ∃ e₀ ∈ s.id2TimerInfo, e₀.timerId = e'.timerId ∧ e₀.callbackGroup = e'.callbackGroup ∧
        (e' = e₀ ∧ e₀.timerId ≠ e.timerId ∨ e' = e₀.update type (e₀.pending type)) := by
    intro e' he'
    obtain ⟨e₀, he₀, rfl⟩ := HTable.mem_modify.mp he'
    refine ⟨e₀, he₀, ?_⟩
    split
    · exact ⟨rfl, rfl, .inr rfl⟩
    · next hne => exact ⟨rfl, rfl, .inl ⟨rfl, hne⟩⟩
  refine ⟨hok.fewer rfl rfl rfl rfl rfl rfl (fun registry id g h => ?_) (fun type' id g h => ?_)
    hok.callbackIds ?_ fun e' he' => ?_, fun _ g h => ?_⟩
  · cases registry with
    | callbacks => exact h
    | timers =>
      obtain ⟨e', he', hid, hg, hneed⟩ := h
      obtain ⟨e₀, he₀, hid₀, hg₀, hcase⟩ := hentries e' he'
      refine ⟨e₀, he₀, hid₀.trans hid, hg₀.trans hg, ?_⟩
      rcases hcase with ⟨rfl, _⟩ | rfl
      · exact hneed
      · exact (hok.timerFds e₀ he₀).update_need hneed
  · cases type' with
    | subscription => exact h
    | _ =>
      obtain ⟨e', he', hid, hg, hfd⟩ := h
      obtain ⟨e₀, he₀, hid₀, hg₀, hcase⟩ := hentries e' he'
      refine ⟨e₀, he₀, hid₀.trans hid, hg₀.trans hg, ?_⟩
      rcases hcase with ⟨rfl, _⟩ | rfl
      · exact hfd
      · exact TimerEntry.update_pending hfd
  · show ((HTable.modify _ _ _ s.id2TimerInfo).map TimerEntry.timerId).Nodup
    rw [HTable.map_modify fun _ => by rfl]
    exact hok.timerIds
  · obtain ⟨e₀, he₀, _, _, hcase⟩ := hentries e' he'
    rcases hcase with ⟨rfl, _⟩ | rfl
    · exact hok.timerFds _ he₀
    · exact (hok.timerFds e₀ he₀).update type _
  · obtain ⟨e', he', hid, _, hfd⟩ := hentry h
    obtain ⟨e₀, _, hid₀, _, hcase⟩ := hentries e' he'
    rcases hcase with ⟨rfl, hne⟩ | rfl
    · exact absurd hid hne
    · rw [TimerEntry.update_pending_self] at hfd
      cases hfd

/-! ## Runs -/

theorem UpdateOk.prepare (hok : UpdateOk s) (x : Nat) (type : EpollEventType) (id : Nat)
    (epollCtl : Bool) :
    UpdateOk (s.prepare x type id epollCtl) ∧ (s.prepare x type id epollCtl).Passed x type id := by
  have hgone : ∀ {type'}, (∀ g, ¬ s.NeedsFd type' id g) → s.Passed x type' id :=
    fun hno _ g h => absurd h (hno g)
  by_cases htype : type = .subscription
  · subst htype
    show UpdateOk ((HTable.lookup CallbackEntry.id id s.id2CallbackInfo).elim s _) ∧
      Executors.Passed ((HTable.lookup CallbackEntry.id id s.id2CallbackInfo).elim s _) _ _ _
    cases he : HTable.lookup CallbackEntry.id id s.id2CallbackInfo with
    | none =>
      refine ⟨hok, hgone fun g h => ?_⟩
      obtain ⟨e, hmem, hid, _⟩ := h
      exact HTable.lookup_eq_none_iff.mp he e hmem hid
    | some e =>
      obtain ⟨hmem, rfl⟩ := HTable.mem_of_lookup he
      exact hok.prepareCallback x hmem epollCtl
  · have hprepare : s.prepare x type id epollCtl =
        (HTable.lookup TimerEntry.timerId id s.id2TimerInfo).elim s fun e =>
          s.prepareTimerInfo x type e epollCtl := by
      cases type with
      | subscription => exact absurd rfl htype
      | _ => rfl
    rw [hprepare]
    cases he : HTable.lookup TimerEntry.timerId id s.id2TimerInfo with
    | none =>
      refine ⟨hok, hgone fun g h => ?_⟩
      have hmem := h.mem_ids.2 htype
      obtain ⟨e, hmem, hid⟩ := List.mem_map.mp hmem
      exact HTable.lookup_eq_none_iff.mp he e hmem hid
    | some e =>
      obtain ⟨hmem, rfl⟩ := HTable.mem_of_lookup he
      exact hok.prepareTimerInfo x htype hmem epollCtl

/-- **A thread's next step.** -/
theorem UpdateOk.advance (hok : UpdateOk s) (ht : t ∈ s.threads) : UpdateOk (s.advance t) := by
  cases t with
  | taken x => exact hok.taken
  | adding x nodes groups =>
    cases groups with
    | cons g groups => exact hok.addNextGroup
    | nil =>
      cases nodes with
      | cons n nodes => exact hok.nextNode
      | nil => exact hok.prepareEpoll
  | preparing x type left =>
    cases left with
    | cons id left => cases type <;> exact hok
    | nil =>
      cases type with
      | subscription => exact hok.nextHandler rfl
      | timer => exact hok.nextHandler rfl
      | clock => exact hok.prepared_all
  | callback i c => exact hok.insertCallback ht
  | timer info => exact hok.insertTimer ht
  | requestAll registry id => exact hok.requestAll
  | requesting registry id left =>
    cases left with
    | cons x left => exact hok.requesting
    | nil => exact hok.requested_all
  | group x g =>
    simp only [Executors.advance]
    split
    · exact hok.exit
    · exact hok.insertGroup
  | requestGroup x g => exact hok.requestGroup
  | node x n => exact hok.node
  | addingNode x n groups =>
    cases groups with
    | cons g groups => exact hok.addNextGroupOfNode ht
    | nil => exact hok.insertNode
  | requestNode x n => exact hok.requestNode

/-- **Every step.** -/
theorem UpdateOk.step (hok : UpdateOk s) (i : EpollUpdateInput) : UpdateOk (s.step i).2 := by
  show UpdateOk (if s.exited then s else s.act i)
  split
  · exact hok
  cases i with
  | createExecutor =>
    exact hok.of_same ⟨rfl, rfl, rfl, rfl, rfl, Nat.le_succ _, fun _ => rfl, fun _ => rfl,
      fun _ => rfl, fun _ h => h⟩ rfl
  | createCallbackGroup n automaticallyAdd => exact hok.createCallbackGroup n automaticallyAdd
  | registerCallback g => exact hok.registerCallback g
  | registerTimerInfo g isRosTime rosTimeIsActive =>
    exact hok.registerTimerInfo g isRosTime rosTimeIsActive
  | addCallbackGroup x g =>
    simp only [Executors.act]
    split
    · exact hok.addCallbackGroup x g
    · exact hok
  | addNode x n =>
    simp only [Executors.act]
    split
    · exact hok.addNode x n
    · exact hok
  | takeUpdateRequest x => exact hok.takeUpdateRequest x
  | advance t =>
    simp only [Executors.act]
    split
    · next ht => exact hok.advance ht
    · exact hok
  | prepare x type left id epollCtl =>
    simp only [Executors.act]
    split
    · obtain ⟨hok', hpassed⟩ := hok.prepare x type id epollCtl
      split
      · exact hok'
      · next hexited => exact hok'.pass (hpassed (Bool.eq_false_iff.mpr hexited))
    · exact hok

/-- **No registration with an epoll is missed**, in any state that any run reaches. -/
theorem registration_not_missed {tr : List EpollUpdateEvent} {s : Executors}
    (hrun : Transition.Run epollUpdates Transition.anyStep tr s) : s.RequestStands := by
  have hok : UpdateOk s := by
    refine hrun.invariant (P := UpdateOk) (fun s hs => ?_) fun s i hok _ => hok.step i
    obtain rfl : s = .empty := hs
    exact .empty
  exact hok.requestStands

/-- A callback of a group that was created on a node of the executor: the request was taken
before it is made again, and the thread that has taken it has not looked at the groups. -/
theorem registration_not_missed_of_late_group :
    let s := (epollUpdates.exec .empty [] [.createExecutor, .addNode 0 0, .advance (.node 0 0),
      .advance (.addingNode 0 0 []), .advance (.requestNode 0 0), .createCallbackGroup 0 true,
      .registerCallback 0, .advance (.callback 0 0), .takeUpdateRequest 0]).2
    s.RequestStands ∧ s.Needs .callbacks 0 0 ∧ s.Associated 0 0 ∧
      (s.executor 0).needUpdate = false := by
  refine ⟨registration_not_missed ((Transition.Run.init rfl).exec
    (epollUpdates.guarded_anyStep _ _)), ?_, .inr ⟨0, ?_⟩, by decide⟩
  · exact ⟨⟨0, 0, true⟩, by decide, rfl, rfl, rfl⟩
  · exact ⟨by decide, by decide, by decide, by decide⟩

end Agnocast
