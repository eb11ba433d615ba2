import Agnocast.Lib.Transition
import Agnocast.Agnocastlib.OnlyIsolatedExecutorSafety

/-!
# The client library — `spin` of the executor without ROS 2

The thread in `spin` collects groups and gives each a child. The other threads change what it looks at
meanwhile, in ways that `Around` lists.

* `Lives`    — the invariant of the children.
* `Spinning` — the invariant of the thread in `spin`.
* `Served`   — what a scan has found is served, or on its way to be.
* `Around`   — what the other threads do, as `spin` sees it.
-/

namespace Agnocast

/-! ## Positions -/

/-- The groups are collected and spawned, or the loop waits between two scans. -/
def OnlySpinPos.scanning : OnlySpinPos → Bool
  | .collecting _ _ _ => true
  | .collected _ _ => true
  | .spawning _ _ => true
  | .spawn _ _ _ => true
  | .loop => true
  | .waited => true
  | _ => false

/-- `spin` has been called and has not returned. -/
def OnlySpinPos.inSpin : OnlySpinPos → Bool
  | .idle => false
  | .returned => false
  | _ => true

/-- No child has been spawned. -/
def OnlySpinPos.early : OnlySpinPos → Bool
  | .idle => true
  | .entered => true
  | .collecting monitor _ _ => !monitor
  | .collected monitor _ => !monitor
  | _ => false

/-- The groups are those that are collected before the loop. -/
def OnlySpinPos.first : OnlySpinPos → Bool
  | .collecting monitor _ _ => !monitor
  | .collected monitor _ => !monitor
  | .spawning monitor _ => !monitor
  | .spawn monitor _ _ => !monitor
  | _ => false

/-- The nodes that a collection has not come to. -/
def OnlySpinPos.nodesLeft : OnlySpinPos → List Nat
  | .collecting _ nodes _ => nodes
  | _ => []

theorem OnlySpinPos.inSpin_of_scanning {pos : OnlySpinPos} (h : pos.scanning = true) :
    pos.inSpin = true := by
  cases pos <;> first | rfl | cases h

namespace OnlyIsolatedExecutor

variable {s s' : OnlyIsolatedExecutor} {g n c : Nat}

/-! ## The children -/

/-- **The children**: a child that was spawned goes on until it is cancelled or a signal comes. -/
structure Lives (s : OnlyIsolatedExecutor) : Prop where
  beyond : ∀ c, s.children ≤ c → (s.child c).stage = .finished
  started : ∀ c, (s.child c).stage = .started → (s.child c).spinning = false
  cancelled : .cancel ∈ s.calls ∨ .cancelling ∈ s.calls → s.cancelRequested = true
  live : s.spin.scanning = true → s.ok = true → s.cancelRequested = false → ∀ c < s.children,
    (s.child c).stage ≠ .finished ∧ (s.child c).cancelRequested = false ∧
      ((s.child c).stage = .looping → (s.child c).spinning = true)

theorem Lives.fresh : Lives fresh :=
  ⟨fun _ _ => rfl, nofun, fun h => h.elim nofun nofun, nofun⟩

/-- The children are left alone. -/
theorem Lives.of_same (hlive : Lives s) (hchildren : s'.children = s.children)
    (hchild : s'.child = s.child)
    (hcalls : .cancel ∈ s'.calls ∨ .cancelling ∈ s'.calls → s'.cancelRequested = true)
    (hok : s'.ok = true → s.ok = true)
    (hrequest : s'.cancelRequested = false → s.cancelRequested = false)
    (hspin : s'.spin.scanning = true → s.spin.scanning = true ∨ s.children = 0) : Lives s' where
  beyond := hchildren ▸ hchild ▸ hlive.beyond
  started := hchild ▸ hlive.started
  cancelled := hcalls
  live hscan hok' hrequest' c hc := by
    rw [hchildren] at hc
    rw [hchild]
    rcases hspin hscan with hscan | hnone
    · exact hlive.live hscan (hok hok') (hrequest hrequest') c hc
    · exact absurd (hnone ▸ hc) (Nat.not_lt_zero c)

/-- **Cancelling children** ends none of them at once. -/
theorem cancelChildren_eq (s : OnlyIsolatedExecutor) :
    ∃ child, s.cancelChildren = { s with child := child } ∧
      ∀ c, (child c).group = (s.child c).group ∧ (child c).stage = (s.child c).stage ∧
        ((child c).spinning = true → (s.child c).spinning = true) := by
  have hall (l : List Nat) (s : OnlyIsolatedExecutor) :
      ∃ child, l.foldl cancelChild s = { s with child := child } ∧
        ∀ c, (child c).group = (s.child c).group ∧ (child c).stage = (s.child c).stage ∧
          ((child c).spinning = true → (s.child c).spinning = true) := by
    induction l generalizing s with
    | nil => exact ⟨s.child, rfl, fun c => ⟨rfl, rfl, id⟩⟩
    | cons c l ih =>
      obtain ⟨child, heq, hchild⟩ := ih (s.cancelChild c)
      have hfirst (c' : Nat) : ((s.cancelChild c).child c').group = (s.child c').group ∧
          ((s.cancelChild c).child c').stage = (s.child c').stage ∧
          (((s.cancelChild c).child c').spinning = true → (s.child c').spinning = true) := by
        unfold cancelChild
        split
        · exact ⟨rfl, rfl, id⟩
        · rw [setChild_child]
          split
          · next h => exact h ▸ ⟨rfl, rfl, nofun⟩
          · exact ⟨rfl, rfl, id⟩
      refine ⟨child, ?_, fun c' => ⟨(hchild c').1.trans (hfirst c').1,
        (hchild c').2.1.trans (hfirst c').2.1, fun h => (hfirst c').2.2 ((hchild c').2.2 h)⟩⟩
      rw [List.foldl_cons, heq]
      unfold cancelChild
      split <;> rfl
  exact hall s.weakChildExecutors s

/-- Cancelling the children once that is asked for, or after the loop. -/
theorem Lives.cancelChildren (hlive : Lives s) (hspin : s'.spin.scanning = true →
      s.cancelRequested = true) (hchildren : s'.children = s.children)
    (hchild : s'.child = s.cancelChildren.child)
    (hcalls : ∀ call ∈ s'.calls, call ∈ s.calls)
    (hrequest : s'.cancelRequested = s.cancelRequested) : Lives s' := by
  obtain ⟨child, heq, hsame⟩ := cancelChildren_eq s
  rw [heq] at hchild
  refine ⟨fun c hc => ?_, fun c hc => ?_, fun h => ?_, fun hscan _ hfree => ?_⟩
  · rw [hchild]
    exact (hsame c).2.1.trans (hlive.beyond c (hchildren ▸ hc))
  · rw [hchild] at hc ⊢
    refine Bool.eq_false_iff.mpr fun h => ?_
    have hidle := hlive.started c ((hsame c).2.1.symm.trans hc)
    exact absurd ((hsame c).2.2 h) (Bool.eq_false_iff.mp hidle)
  · rw [hrequest]
    exact hlive.cancelled (h.imp (hcalls _) (hcalls _))
  · rw [hrequest, hspin hscan] at hfree
    cases hfree

/-- One child changes. -/
theorem Lives.setChild (hlive : Lives s) {x : OnlyChild}
    (hbeyond : s.children ≤ c → x.stage = .finished)
    (hstarted : x.stage = .started → x.spinning = false)
    (hlooping : s.spin.scanning = true → s.ok = true → s.cancelRequested = false → c < s.children →
      x.stage ≠ .finished ∧ x.cancelRequested = false ∧
        (x.stage = .looping → x.spinning = true)) : Lives (s.setChild c x) := by
  refine ⟨fun c' hc' => ?_, fun c' hstage => ?_, hlive.cancelled, fun hscan hok hfree c' hc' => ?_⟩
  · rw [setChild_child]
    split
    · next heq => exact hbeyond (heq ▸ hc')
    · exact hlive.beyond c' hc'
  · rw [setChild_child] at hstage ⊢
    split at hstage
    · next heq =>
      rw [if_pos heq]
      exact hstarted hstage
    · next hne =>
      rw [if_neg hne]
      exact hlive.started c' hstage
  · rw [setChild_child]
    split
    · next heq => exact hlooping hscan hok hfree (heq ▸ hc')
    · exact hlive.live hscan hok hfree c' hc'

theorem Lives.setGroup (hlive : Lives s) {x : OnlyGroup} : Lives (s.setGroup g x) :=
  hlive.of_same rfl rfl hlive.cancelled id id .inl

theorem Lives.addNode (hlive : Lives s) : Lives (s.addNode n) := by
  unfold OnlyIsolatedExecutor.addNode
  split
  · exact hlive.of_same rfl rfl hlive.cancelled id id .inl
  split <;> exact hlive.of_same rfl rfl hlive.cancelled id id .inl

theorem Lives.addCallbackGroup (hlive : Lives s) : Lives (s.addCallbackGroup g n) := by
  unfold OnlyIsolatedExecutor.addCallbackGroup
  split
  · exact hlive.of_same rfl rfl hlive.cancelled id id .inl
  have hcall {call : OnlyCall} (hne : call ≠ .addCallbackGroup g n)
      (hmem : call ∈ s.calls ++ [.addCallbackGroup g n]) : call ∈ s.calls :=
    (List.mem_append.mp hmem).resolve_right fun h => hne (List.mem_singleton.mp h)
  exact hlive.of_same rfl rfl (fun h => hlive.cancelled (h.imp (hcall nofun) (hcall nofun))) id id .inl

theorem Lives.removeCallbackGroup (hlive : Lives s) : Lives (s.removeCallbackGroup g) := by
  unfold OnlyIsolatedExecutor.removeCallbackGroup
  split
  · exact hlive.of_same rfl rfl hlive.cancelled id id .inl
  split <;> exact hlive.of_same rfl rfl hlive.cancelled id id .inl

theorem Lives.childStep (hlive : Lives s) (c : Nat) : Lives (s.childStep c) := by
  unfold OnlyIsolatedExecutor.childStep
  split
  · next hstage =>
    rw [if_neg (Bool.eq_false_iff.mp (hlive.started c hstage))]
    refine hlive.setChild (fun hc => ?_) (by rintro ⟨⟩) fun hscan hok hfree hc =>
      ⟨by rintro ⟨⟩, (hlive.live hscan hok hfree c hc).2.1, fun _ => rfl⟩
    rw [hlive.beyond c hc] at hstage
    cases hstage
  · next hstage =>
    split
    · exact hlive
    next hend =>
    refine (hlive.setChild (fun _ => rfl) (by rintro ⟨⟩) fun hscan hok hfree hc => ?_).setGroup
    -- it goes on as long as `spin` does
    obtain ⟨_, hrequest, hspinning⟩ := hlive.live hscan hok hfree c hc
    exact absurd (by simp [hrequest, hspinning hstage, hok]) hend
  · exact hlive

theorem Lives.spawnChildExecutor (hlive : Lives s) {monitor : Bool} {left : List Nat}
    (hfree : (s.group g).associated = false) (hspin : s.spin.scanning = true) :
    Lives (s.spawnChildExecutor monitor g left) := by
  rw [spawnChildExecutor_eq hfree]
  refine ⟨fun c hc => ?_, fun c hstage => ?_, hlive.cancelled, fun _ hok hfree' c hc => ?_⟩
  · have hne : c ≠ s.children := Nat.ne_of_gt hc
    show (Function.update s.child s.children _ c).stage = _
    rw [Function.update_of_ne hne]
    exact hlive.beyond c (Nat.le_of_succ_le hc)
  · change (Function.update s.child s.children _ c).stage = _ at hstage
    show (Function.update s.child s.children _ c).spinning = _
    rw [Function.update_apply] at hstage ⊢
    split at hstage
    · next heq => rw [if_pos heq]
    · next hne =>
      rw [if_neg hne]
      exact hlive.started c hstage
  · show (Function.update s.child s.children _ c).stage ≠ _ ∧ 
      (Function.update s.child s.children _ c).cancelRequested = _ ∧ 
      ((Function.update s.child s.children _ c).stage = _ → 
        (Function.update s.child s.children _ c).spinning = _)
    rw [Function.update_apply]
    split
    · exact ⟨nofun, rfl, nofun⟩
    · next hne =>
      exact hlive.live hspin hok hfree' c (Nat.lt_of_le_of_ne (Nat.le_of_lt_succ hc) hne)

/-! ## The thread in `spin` -/

/-- **The thread in `spin`**: while it runs nothing is added by hand, and what it has collected is taken
in with its node; before the loop, nothing is collected twice. -/
structure Spinning (s : OnlyIsolatedExecutor) : Prop where
  idle : s.spin = .idle → s.spinning = false
  alone : s.spin.inSpin = true → ∀ g, (s.group g).alive = true →
    ¬(s.isManual g = true ∨ s.isBeingAdded g = true)
  early : s.spin.early = true → s.children = 0
  pending : ∀ g ∈ s.spin.groups, (s.group g).alive = true ∧ s.Through g
  first : s.spin.first = true →
    s.spin.groups.Nodup ∧ ∀ g ∈ s.spin.groups, ∀ c, ¬s.Serves c g
  nodes : s.spin.nodesLeft.Nodup ∧ ∀ n ∈ s.spin.nodesLeft, n ∈ s.weakNodes
  apart : ∀ g ∈ s.spin.groups, (s.group g).node ∉ s.spin.nodesLeft
  spawn : ∀ monitor g left, s.spin = .spawn monitor g left → (s.group g).associated = false

theorem Spinning.fresh : Spinning fresh :=
  ⟨fun _ => rfl, nofun, fun _ => rfl, nofun, nofun, ⟨List.nodup_nil, nofun⟩, nofun, nofun⟩

/-- **The scans**: a group that was there when the scan began is served, or collected, or its node is
still to come. -/
structure Served (s : OnlyIsolatedExecutor) : Prop where
  dueLt : ∀ g ∈ s.due, g < s.groups
  dueThrough : ∀ g ∈ s.due, (s.group g).alive = true → s.Through g
  covered : s.spin.scanning = true → s.ok = true → s.cancelRequested = false →
    ∀ g ∈ s.due, s.isAdded g = true →
      (∃ c, s.Serves c g) ∨ g ∈ s.spin.groups ∨ (s.group g).node ∈ s.spin.nodesLeft

theorem Served.fresh : Served fresh :=
  ⟨nofun, nofun, nofun⟩

/-- A flag that is set while `spin` runs has been set for a child. -/
theorem Spinning.served (hspin : Spinning s) (hreg : Registered s) (hin : s.spin.inSpin = true)
    (halive : (s.group g).alive = true) (hset : (s.group g).associated = true) :
    ∃ c, s.Serves c g := by
  have halone := hspin.alone hin g halive
  rcases hreg.flag g halive hset with h | h | h
  · exact absurd (.inl h) halone
  · exact absurd (.inr h) halone
  · exact h

/-! ## What the other threads do -/

/-- The other threads leave `spin` where it is, take nothing that it holds, and add nothing by hand
while it runs. -/
structure Around (s s' : OnlyIsolatedExecutor) : Prop where
  spin : s'.spin = s.spin
  due : s'.due = s.due
  children : s'.children = s.children
  spinning : s'.spinning = true → s.spinning = true
  ok : s'.ok = true → s.ok = true
  cancelRequested : s'.cancelRequested = false → s.cancelRequested = false
  groups : s.groups ≤ s'.groups
  weakNodes : ∀ n ∈ s.weakNodes, n ∈ s'.weakNodes
  node : ∀ g < s.groups, (s'.group g).node = (s.group g).node
  auto : ∀ g < s.groups, (s'.group g).automaticallyAddToExecutorWithNode =
    (s.group g).automaticallyAddToExecutorWithNode
  alive : ∀ g < s.groups, (s'.group g).alive = true → (s.group g).alive = true
  held : ∀ g ∈ s.spin.groups, (s.group g).alive = true → (s'.group g).alive = true
  nodeAlive : ∀ n < s.nodes, s'.nodeAlive n = true → s.nodeAlive n = true
  added : s.spin.inSpin = true → ∀ g, s'.isManual g = true ∨ s'.isBeingAdded g = true →
    s.isManual g = true ∨ s.isBeingAdded g = true
  flag : ∀ g ∈ s.spin.groups, (s.group g).associated = false → (s'.group g).associated = false
  serves : ∀ c g, s'.Serves c g → s.Serves c g
  kept : s.spin.scanning = true → s.ok = true → s.cancelRequested = false →
    ∀ c g, s.Serves c g → s'.Serves c g

theorem Around.refl (s : OnlyIsolatedExecutor) : Around s s :=
  ⟨rfl, rfl, rfl, id, id, id, Nat.le_refl _, fun _ => id, fun _ _ => rfl, fun _ _ => rfl,
    fun _ _ => id, fun _ _ => id, fun _ _ => id, fun _ _ => id, fun _ _ => id, fun _ _ => id,
    fun _ _ _ _ _ => id⟩

theorem Around.through (h : Around s s') (hlt : g < s.groups) (hthru : s.Through g) :
    s'.Through g := by
  refine ⟨(h.auto g hlt).trans hthru.1, ?_⟩
  rw [h.node g hlt]
  exact h.weakNodes _ hthru.2

theorem Spinning.around (hspin : Spinning s) (hreg : Registered s) (h : Around s s') :
    Spinning s' := by
  -- the groups on the list are there already
  have hlt {g : Nat} (hg : g ∈ s.spin.groups) : g < s.groups :=
    hreg.groupLt g (hspin.pending g hg).1
  constructor
  case idle =>
    intro hidle
    refine Bool.eq_false_iff.mpr fun hspinning => ?_
    exact absurd (h.spinning hspinning) (Bool.eq_false_iff.mp (hspin.idle (h.spin ▸ hidle)))
  case alone =>
    intro hin g halive hadded
    have hadded' := h.added (h.spin ▸ hin) g hadded
    have hgroup : g < s.groups :=
      hadded'.elim (hreg.manualLt g) fun hbeing => (hreg.beingAdded hbeing).2.2
    exact hspin.alone (h.spin ▸ hin) g (h.alive g hgroup halive) hadded'
  case early => exact h.spin ▸ h.children ▸ hspin.early
  case pending =>
    rw [h.spin]
    intro g hg
    exact ⟨h.held g hg (hspin.pending g hg).1, h.through (hlt hg) (hspin.pending g hg).2⟩
  case first =>
    rw [h.spin]
    intro hfirst
    exact ⟨(hspin.first hfirst).1, fun g hg c hc => (hspin.first hfirst).2 g hg c (h.serves c g hc)⟩
  case nodes =>
    rw [h.spin]
    exact ⟨hspin.nodes.1, fun n hn => h.weakNodes n (hspin.nodes.2 n hn)⟩
  case apart =>
    rw [h.spin]
    intro g hg
    rw [h.node g (hlt hg)]
    exact hspin.apart g hg
  case spawn =>
    intro monitor g left hpos
    rw [h.spin] at hpos
    refine h.flag g ?_ (hspin.spawn monitor g left hpos)
    rw [hpos]
    exact List.mem_cons_self

theorem Served.around (hserved : Served s) (hspin : Spinning s) (hreg : Registered s)
    (h : Around s s') : Served s' := by
  have hdue {g : Nat} (hg : g ∈ s'.due) : g ∈ s.due := h.due ▸ hg
  have hlt {g : Nat} (hg : g ∈ s'.due) : g < s.groups := hserved.dueLt g (hdue hg)
  constructor
  case dueLt => exact fun g hg => Nat.lt_of_lt_of_le (hlt hg) h.groups
  case dueThrough =>
    intro g hg halive
    exact h.through (hlt hg) (hserved.dueThrough g (hdue hg) (h.alive g (hlt hg) halive))
  case covered =>
    intro hscan hok hfree g hg hadded
    rw [h.spin] at hscan ⊢
    have hin := OnlySpinPos.inSpin_of_scanning hscan
    obtain ⟨halive', hadded⟩ := isAdded_iff.mp hadded
    have halive := h.alive g (hlt hg) halive'
    -- it is added through its node, which was there before
    have hthru := hserved.dueThrough g (hdue hg) halive
    have hnode : s.nodeAlive (s.group g).node = true := by
      rcases hadded with hmanual | ⟨_, hnode⟩
      · exact absurd (h.added hin g (.inl hmanual)) (hspin.alone hin g halive)
      · rw [h.node g (hlt hg)] at hnode
        exact h.nodeAlive _ (hreg.groupNode g halive) hnode
    rw [h.node g (hlt hg)]
    refine (hserved.covered hscan (h.ok hok) (h.cancelRequested hfree) g (hdue hg)
      (isAdded_iff.mpr ⟨halive, .inr ⟨hthru, hnode⟩⟩)).imp_left ?_
    rintro ⟨c, hc⟩
    exact ⟨c, h.kept hscan (h.ok hok) (h.cancelRequested hfree) c g hc⟩

namespace Around

theorem of_same (h : SameRegistry s s') (hspin : s'.spin = s.spin) (hdue : s'.due = s.due)
    (hchildren : s'.children = s.children) (hspinning : s'.spinning = true → s.spinning = true)
    (hok : s'.ok = true → s.ok = true)
    (hrequest : s'.cancelRequested = false → s.cancelRequested = false) : Around s s' where
  spin := hspin
  due := hdue
  children := hchildren
  spinning := hspinning
  ok := hok
  cancelRequested := hrequest
  groups := Nat.le_of_eq h.groups.symm
  weakNodes _ := h.weakNodes ▸ id
  node _ _ := h.group ▸ rfl
  auto _ _ := h.group ▸ rfl
  alive _ _ := h.group ▸ id
  held _ _ := h.group ▸ id
  nodeAlive _ _ := h.nodeAlive ▸ id
  added _ g := by
    rw [h.isManual, h.isBeingAdded]
    exact id
  flag _ _ := h.group ▸ id
  serves c g := (h.serves c g).mp
  kept _ _ _ c g := (h.serves c g).mpr

theorem createNode : Around s (s.move .createNode) :=
  { refl s with
    nodeAlive := fun n hn h => by
      change Function.update s.nodeAlive s.nodes true n = true at h
      rwa [Function.update_of_ne (Nat.ne_of_lt hn)] at h }

theorem createCallbackGroup (hreg : Registered s) (hspin : Spinning s) {auto : Bool} :
    Around s (s.move (.createCallbackGroup n auto)) := by
  have hold (g : Nat) (h : g < s.groups) :
      (s.move (.createCallbackGroup n auto)).group g = s.group g :=
    Function.update_of_ne (Nat.ne_of_lt h) ..
  have hheld (g : Nat) (hg : g ∈ s.spin.groups) :
      (s.move (.createCallbackGroup n auto)).group g = s.group g :=
    hold g (hreg.groupLt g (hspin.pending g hg).1)
  exact { refl s with
    groups := Nat.le_succ _
    node := fun g h => congrArg OnlyGroup.node (hold g h)
    auto := fun g h => congrArg OnlyGroup.automaticallyAddToExecutorWithNode (hold g h)
    alive := fun g h => hold g h ▸ id
    held := fun g h => hheld g h ▸ id
    flag := fun g h => hheld g h ▸ id }

theorem expireNode : Around s (s.move (.expireNode n)) := by
  show Around s (if s.holdsNode n then s else _)
  split
  · exact refl s
  · exact { refl s with
      nodeAlive := fun m _ h => by
        change Function.update s.nodeAlive n false m = true at h
        rw [Function.update_apply] at h
        split at h
        · cases h
        · exact h }

theorem expireGroup : Around s (s.move (.expireGroup g)) := by
  show Around s (if s.holdsGroup g then s else s.setGroup g { s.group g with alive := false })
  split
  · exact refl s
  next hheld =>
  have hget (g' : Nat) : (s.setGroup g { s.group g with alive := false }).group g' =
      if g' = g then { s.group g with alive := false } else s.group g' := setGroup_group
  exact { refl s with
    node := fun g' _ => by
      rw [hget]
      split
      · next h => rw [h]
      · rfl
    auto := fun g' _ => by
      rw [hget]
      split
      · next h => rw [h]
      · rfl
    alive := fun g' _ h => by
      rw [hget] at h
      split at h
      · cases h
      · exact h
    held := fun g' hg' h => by
      -- `spin` holds what it has collected
      have hne : g' ≠ g := by
        rintro rfl
        refine hheld ?_
        unfold holdsGroup
        rw [Bool.or_eq_true]
        exact .inl (decide_eq_true hg')
      rw [hget, if_neg hne]
      exact h
    flag := fun g' _ h => by
      rw [hget]
      split
      · next heq => exact heq ▸ h
      · exact h }

theorem addNode (hnot : (s.addNode n).exited = false) : Around s (s.addNode n) := by
  unfold OnlyIsolatedExecutor.addNode at hnot ⊢
  split
  · next h =>
    rw [if_pos h] at hnot
    cases hnot
  split
  · next h h' =>
    rw [if_neg h, if_pos h'] at hnot
    cases hnot
  · exact { refl s with weakNodes := fun m hm => List.mem_append_left _ hm }

/-- A flag is cleared, or it is not that of a group that `spin` has collected. -/
theorem setAssociated {b : Bool} (hflag : b = true → g ∉ s.spin.groups) :
    Around s (s.setAssociated g b) :=
  { refl s with
    node := fun _ _ => setAssociated_node
    auto := fun _ _ => setAssociated_auto
    alive := fun _ _ h => setAssociated_alive.symm.trans h
    held := fun _ _ h => setAssociated_alive.trans h
    flag := fun g' hg' h => by
      rw [setAssociated_associated]
      split
      · next heq =>
        refine Bool.eq_false_iff.mpr fun hb => ?_
        exact hflag hb (heq ▸ hg')
      · exact h }

theorem addCallbackGroup (havoids : s.avoids (.addCallbackGroup g n) = true)
    (hnot : (s.addCallbackGroup g n).exited = false) : Around s (s.addCallbackGroup g n) := by
  obtain ⟨hgroups, hin⟩ : s.spin.groups = [] ∧ s.spin.inSpin = false := by
    have hpos : s.spin = .idle ∨ s.spin = .returned := by simpa [avoids] using havoids
    rcases hpos with h | h <;> rw [h] <;> exact ⟨rfl, rfl⟩
  unfold OnlyIsolatedExecutor.addCallbackGroup at hnot ⊢
  split
  · next h =>
    rw [if_pos h] at hnot
    cases hnot
  · exact { (setAssociated (s := s) (g := g) (b := true) fun _ => by simp [hgroups]) with
      added := fun hin' => by
        rw [hin] at hin'
        cases hin' }

theorem removeCallbackGroup (hnot : (s.removeCallbackGroup g).exited = false) :
    Around s (s.removeCallbackGroup g) := by
  unfold OnlyIsolatedExecutor.removeCallbackGroup at hnot ⊢
  split
  · next h =>
    rw [h] at hnot
    cases hnot
  next e hfind =>
  rw [hfind] at hnot
  dsimp only at hnot
  split
  · next h =>
    rw [if_pos h] at hnot
    cases hnot
  · exact { (setAssociated (s := s) (g := g) (b := false) nofun) with
      added := fun _ g' h => by
        refine h.imp_left fun hmanual => ?_
        obtain ⟨e, he, heq⟩ := isManual_iff.mp hmanual
        exact isManual_iff.mpr ⟨e, (List.mem_filter.mp he).1, heq⟩ }

theorem advance_add (hreg : Registered s) {k : Nat}
    (hk : s.calls[k]? = some (.addCallbackGroup g n)) : Around s (s.advance k) := by
  have hcall : OnlyCall.addCallbackGroup g n ∈ s.calls := List.mem_of_getElem? hk
  have hmanual := (hreg.callOk g n hcall).2.2
  unfold OnlyIsolatedExecutor.advance
  rw [hk]
  dsimp only
  split
  · exact refl s
  rw [if_neg (Bool.eq_false_iff.mp hmanual)]
  exact { refl s with
    added := fun _ g' h => by
      rcases h with h | h
      · obtain ⟨e, he, rfl⟩ := isManual_iff.mp h
        rcases List.mem_append.mp he with he | he
        · exact .inl (isManual_iff.mpr ⟨e, he, rfl⟩)
        · rw [List.mem_singleton.mp he]
          exact .inr (isBeingAdded_iff.mpr (mem_addedGroup.mpr ⟨n, hcall⟩))
      · obtain ⟨n', hmem⟩ := mem_addedGroup.mp (isBeingAdded_iff.mp h)
        exact .inr (isBeingAdded_iff.mpr
          (mem_addedGroup.mpr ⟨n', (List.eraseIdx_sublist ..).subset hmem⟩)) }

theorem childStep (hlive : Lives s) (c : Nat) : Around s (s.childStep c) := by
  unfold OnlyIsolatedExecutor.childStep
  split
  · next hstage =>
    rw [if_neg (Bool.eq_false_iff.mp (hlive.started c hstage))]
    exact of_same (.setChild rfl (by simp [hstage])) rfl rfl rfl id id id
  · next hstage =>
    split
    · exact refl s
    next hend =>
    have hserves (c' g : Nat) : ((s.setChild c { s.child c with
        stage := .finished, spinning := false }).setAssociated
          (s.child c).group false).Serves c' g ↔ s.Serves c' g ∧ c' ≠ c :=
      serves_setAssociated.trans (serves_finish rfl)
    exact { (setAssociated (s := s) (g := (s.child c).group) (b := false) nofun) with
      serves := fun c' g h => ((hserves c' g).mp h).1
      kept := fun hscan hok hfree c' g h => (hserves c' g).mpr ⟨h, by
        rintro rfl
        obtain ⟨_, hrequest, hspinning⟩ := hlive.live hscan hok hfree c' h.1
        exact hend (by simp [hrequest, hspinning hstage, hok])⟩ }
  · exact refl s

end Around

end OnlyIsolatedExecutor

end Agnocast
