import Agnocast.Agnocastlib.OnlyIsolatedSpin

/-!
# The client library — when the executor without ROS 2 accepts its own API

* `Sound`              — the invariant, with one lemma for each step of `spin`.
* `accepts_its_api`    — **over every run that keeps clear of the inherited operations, the executor
  does not terminate the process, and serves what a scan has found**.
* `refuses_its_api`    — what it does when it is called in other ways.
-/

namespace Agnocast

open Transition

namespace OnlyIsolatedExecutor

variable {s s' : OnlyIsolatedExecutor} {g n c : Nat} {monitor : Bool}

/-- **The invariant of the executor.** -/
structure Sound (s : OnlyIsolatedExecutor) : Prop where
  registered : Registered s
  lives : Lives s
  spinning : Spinning s
  served : Served s

theorem Sound.fresh : Sound fresh :=
  ⟨.fresh, .fresh, .fresh, .fresh⟩

/-- A step of another thread. -/
theorem Sound.around (h : Sound s) (hreg : Registered s') (hlive : Lives s') (haround : Around s s') :
    Sound s' :=
  ⟨hreg, hlive, h.spinning.around h.registered haround,
    h.served.around h.spinning h.registered haround⟩

/-! ## Steps of `spin` that change its place only -/

theorem SameRegistry.goto {pos : OnlySpinPos} : SameRegistry s (s.goto pos) :=
  ⟨rfl, rfl, rfl, rfl, rfl, rfl, rfl, rfl, fun _ h => .inl h, fun _ _ => .rfl⟩

/-- `spin` goes on and drops only groups that are served. -/
theorem Sound.goto (h : Sound s) {pos : OnlySpinPos} (hin : s.spin.inSpin = true)
    (hidle : pos ≠ .idle) (hearly : pos.early = true → s.spin.early = true)
    (hsub : pos.groups.Sublist s.spin.groups) (hfirst : pos.first = true → s.spin.first = true)
    (hleft : pos.nodesLeft = [])
    (hspawn : ∀ monitor g left, pos = .spawn monitor g left → (s.group g).associated = false)
    (hscan : pos.scanning = true → s.spin.scanning = true ∧ s.spin.nodesLeft = [] ∧
      ∀ g ∈ s.spin.groups, g ∈ pos.groups ∨ ∃ c, s.Serves c g) : Sound (s.goto pos) where
  registered := h.registered.of_same .goto
  lives := h.lives.of_same rfl rfl h.lives.cancelled id id fun hpos => .inl (hscan hpos).1
  spinning :=
    { idle := fun hpos => absurd hpos hidle
      alone := fun _ => h.spinning.alone hin
      early := fun hpos => h.spinning.early (hearly hpos)
      pending := fun g hg => h.spinning.pending g (hsub.subset hg)
      first := fun hpos => ⟨hsub.nodup (h.spinning.first (hfirst hpos)).1,
        fun g hg => (h.spinning.first (hfirst hpos)).2 g (hsub.subset hg)⟩
      nodes := by
        show pos.nodesLeft.Nodup ∧ ∀ n ∈ pos.nodesLeft, n ∈ s.weakNodes
        rw [hleft]
        exact ⟨List.nodup_nil, nofun⟩
      apart := fun g hg => by
        show (s.group g).node ∉ pos.nodesLeft
        rw [hleft]
        exact List.not_mem_nil
      spawn := hspawn }
  served :=
    { h.served with
      covered := fun hpos hok hfree g hg hadded => by
        obtain ⟨hscanning, hnone, hgroups⟩ := hscan hpos
        rcases h.served.covered hscanning hok hfree g hg hadded with hc | hmem | hnode
        · exact .inl hc
        · exact (hgroups g hmem).symm.imp_right .inl
        · rw [hnone] at hnode
          cases hnode }

/-- `spinning_` is cleared. -/
theorem Sound.halt (h : Sound s) : Sound { s with spinning := false } :=
  h.around
    (h.registered.of_same ⟨rfl, rfl, rfl, rfl, rfl, rfl, rfl, rfl, fun _ h => .inl h, fun _ _ => .rfl⟩)
    (h.lives.of_same rfl rfl h.lives.cancelled id id .inl)
    { Around.refl s with spinning := nofun }

theorem Sound.leave (h : Sound s) (hin : s.spin.inSpin = true) : Sound s.leave :=
  Sound.halt (s := s.goto .returned)
    (h.goto hin nofun nofun (List.nil_sublist _) nofun rfl nofun nofun)

/-! ## Collecting -/

/-- Nothing has been added by hand, so the collection begins with nothing. -/
theorem startCollecting_eq (hspin : Spinning s) (hin : s.spin.inSpin = true) :
    s.startCollecting monitor =
      { s with
        spin := .collecting monitor s.weakNodes []
        due := (List.range s.groups).filter s.isAdded } := by
  have hnone : s.weakGroupsAssociatedWithExecutorToNodes.filter (fun e =>
      (s.group e.1).alive && s.nodeAlive e.2) = [] := by
    refine List.filter_eq_nil_iff.mpr fun e he hlive => ?_
    rw [Bool.and_eq_true] at hlive
    exact hspin.alone hin e.1 hlive.1 (.inl (isManual_iff.mpr ⟨e, he, rfl⟩))
  unfold startCollecting
  rw [hnone]
  cases monitor <;> rfl

theorem Sound.startCollecting (h : Sound s) (hin : s.spin.inSpin = true)
    (hmonitor : if monitor then s.spin.scanning = true else s.spin.early = true) :
    Sound (s.startCollecting monitor) := by
  have hthru {g : Nat} (hadded : s.isAdded g = true) : s.Through g := by
    obtain ⟨halive, hadded⟩ := isAdded_iff.mp hadded
    exact hadded.elim (fun hmanual => absurd (.inl hmanual) (h.spinning.alone hin g halive)) And.left
  have hdue {g : Nat} (hg : g ∈ (List.range s.groups).filter s.isAdded) :
      g < s.groups ∧ s.isAdded g = true := by
    rw [List.mem_filter, List.mem_range] at hg
    exact hg
  rw [startCollecting_eq h.spinning hin]
  exact
    { registered := h.registered.of_same
        ⟨rfl, rfl, rfl, rfl, rfl, rfl, rfl, rfl, fun _ h => .inl h, fun _ _ => .rfl⟩
      lives := h.lives.of_same rfl rfl h.lives.cancelled id id fun _ => by
        cases monitor with
        | false => exact .inr (h.spinning.early hmonitor)
        | true => exact .inl hmonitor
      spinning :=
        { idle := nofun
          alone := fun _ => h.spinning.alone hin
          early := fun hearly => by
            cases monitor with
            | false => exact h.spinning.early hmonitor
            | true => cases hearly
          pending := nofun
          first := fun _ => ⟨List.nodup_nil, nofun⟩
          nodes := ⟨h.registered.nodesNodup, fun _ => id⟩
          apart := nofun
          spawn := nofun }
      served :=
        { dueLt := fun g hg => (hdue hg).1
          dueThrough := fun g hg _ => hthru (hdue hg).2
          covered := fun _ _ _ g hg _ => .inr (.inr (hthru (hdue hg).2).2) } }

/-- What is found in a node is there, and taken in with the node. -/
theorem mem_collect : g ∈ s.collect monitor n ↔ s.nodeAlive n = true ∧ g < s.groups ∧
    (s.group g).alive = true ∧ (s.group g).node = n ∧
    (s.group g).automaticallyAddToExecutorWithNode = true ∧
    ¬(monitor = true ∧ (s.group g).associated = true) := by
  unfold collect groupsOfNode
  split
  · next hnode =>
    rw [List.mem_filter, List.mem_filter, List.mem_range]
    cases monitor <;> simp [hnode] <;> tauto
  · next hnode => simp [hnode]

theorem nodup_collect : (s.collect monitor n).Nodup := by
  unfold collect groupsOfNode
  split
  · exact (List.nodup_range.filter _).filter _
  · exact List.nodup_nil

/-- **One node of a collection.** -/
theorem Sound.collect (h : Sound s) {nodes found : List Nat}
    (hpos : s.spin = .collecting monitor (n :: nodes) found) :
    Sound (s.goto (.collecting monitor nodes (found ++ s.collect monitor n))) := by
  have hin : s.spin.inSpin = true := by rw [hpos]; rfl
  have hscan : s.spin.scanning = true := by rw [hpos]; rfl
  obtain ⟨hidle, halone, hearly, hpending, hfirst, hnodes, hapart, _⟩ := h.spinning
  rw [hpos] at hearly hpending hfirst hnodes hapart
  obtain ⟨hnew, hnodup⟩ := List.nodup_cons.mp hnodes.1
  refine ⟨h.registered.of_same .goto, h.lives.of_same rfl rfl h.lives.cancelled id id
    fun _ => .inl hscan, ⟨nofun, fun _ => halone hin, hearly, fun g hg => ?_, fun hm => ?_,
      ⟨hnodup, fun m hm => hnodes.2 m (List.mem_cons_of_mem _ hm)⟩, fun g hg hmem => ?_, nofun⟩,
    { h.served with covered := fun _ hok hfree g hg hadded => ?_ }⟩
  · rcases List.mem_append.mp hg with hg | hg
    · exact hpending g hg
    · obtain ⟨_, _, halive, hnode, hauto, _⟩ := mem_collect.mp hg
      exact ⟨halive, hauto, hnode ▸ hnodes.2 n List.mem_cons_self⟩
  · -- nothing is found twice, and there are no children yet
    have hnone := hearly hm
    refine ⟨List.nodup_append.mpr ⟨(hfirst hm).1, nodup_collect, fun g hg g' hg' heq => ?_⟩,
      fun g _ c hc => absurd (hnone ▸ hc.1) (Nat.not_lt_zero c)⟩
    exact hapart g hg (List.mem_cons.mpr (.inl (heq ▸ (mem_collect.mp hg').2.2.2.1)))
  · rcases List.mem_append.mp hg with hg | hg
    · exact hapart g hg (List.mem_cons_of_mem _ hmem)
    · exact hnew ((mem_collect.mp hg).2.2.2.1 ▸ hmem)
  · rcases h.served.covered hscan hok hfree g hg hadded with hc | hmem | hnode
    · exact .inl hc
    · rw [hpos] at hmem
      exact .inr (.inl (List.mem_append_left _ hmem))
    · rw [hpos] at hnode
      rcases List.mem_cons.mp hnode with hnode | hnode
      · obtain ⟨halive, hadded⟩ := isAdded_iff.mp hadded
        have hthru := h.served.dueThrough g hg halive
        have hnodeAlive : s.nodeAlive n = true := by
          rcases hadded with hmanual | ⟨_, hnodeAlive⟩
          · exact absurd (.inl hmanual) (halone hin g halive)
          · exact hnode ▸ hnodeAlive
        by_cases hset : monitor = true ∧ (s.group g).associated = true
        -- the monitor leaves it out because it is served
        · exact .inl (h.spinning.served h.registered hin halive hset.2)
        · exact .inr (.inl (List.mem_append_right _ (mem_collect.mpr
            ⟨hnodeAlive, h.served.dueLt g hg, halive, hnode, hthru.1, hset⟩)))
      · exact .inr (.inr hnode)

/-! ## Spawning -/

/-- **One child is spawned.** -/
theorem Sound.spawnChildExecutor (h : Sound s) {left : List Nat}
    (hpos : s.spin = .spawn monitor g left) : Sound (s.spawnChildExecutor monitor g left) := by
  have hin : s.spin.inSpin = true := by rw [hpos]; rfl
  have hscan : s.spin.scanning = true := by rw [hpos]; rfl
  have hfree := h.spinning.spawn monitor g left hpos
  obtain ⟨_, halone, _, hpending, hfirst, _, _, _⟩ := h.spinning
  rw [hpos] at hpending hfirst
  obtain ⟨halive, hthru⟩ := hpending g List.mem_cons_self
  -- the new child serves the group, and all others serve what they served
  have hserves {c g' : Nat} : (s.spawnChildExecutor monitor g left).Serves c g' ↔
      s.Serves c g' ∨ c = s.children ∧ g' = g := serves_spawn hfree
  refine ⟨h.registered.spawnChildExecutor halive hthru hfree,
    h.lives.spawnChildExecutor hfree hscan, ?_, ?_⟩
  · rw [spawnChildExecutor_eq hfree] at hserves ⊢
    refine ⟨nofun, fun _ g' halive' => halone hin g' (setAssociated_alive.symm.trans halive'), nofun,
      fun g' hg' => ?_, fun hm => ?_, ⟨List.nodup_nil, nofun⟩, fun _ _ => List.not_mem_nil, nofun⟩
    · obtain ⟨halive', hthru'⟩ := hpending g' (List.mem_cons_of_mem _ hg')
      exact ⟨setAssociated_alive.trans halive', setAssociated_through.mpr hthru'⟩
    · obtain ⟨hnodup, hnone⟩ := hfirst hm
      obtain ⟨hnew, hnodup⟩ := List.nodup_cons.mp hnodup
      refine ⟨hnodup, fun g' hg' c hc => ?_⟩
      rcases hserves.mp hc with hc | ⟨_, rfl⟩
      · exact hnone g' (List.mem_cons_of_mem _ hg') c hc
      · exact hnew hg'
  · rw [spawnChildExecutor_eq hfree] at hserves ⊢
    refine ⟨h.served.dueLt, fun g' hg' halive' => ?_, fun _ hok hfree' g' hg' hadded => ?_⟩
    · exact setAssociated_through.mpr
        (h.served.dueThrough g' hg' (setAssociated_alive.symm.trans halive'))
    -- it was added before
    · have hadded' : s.isAdded g' = true := by
        obtain ⟨halive', hadded⟩ := isAdded_iff.mp hadded
        refine isAdded_iff.mpr ⟨setAssociated_alive.symm.trans halive', hadded.imp_right ?_⟩
        rintro ⟨hthru', hnode⟩
        exact ⟨setAssociated_through.mp hthru', setAssociated_node (s := s) ▸ hnode⟩
      rcases h.served.covered hscan hok hfree' g' hg' hadded' with ⟨c, hc⟩ | hmem | hnode
      · exact .inl ⟨c, hserves.mpr (.inl hc)⟩
      · rw [hpos] at hmem
        rcases List.mem_cons.mp hmem with rfl | hmem
        · exact .inl ⟨s.children, hserves.mpr (.inr ⟨rfl, rfl⟩)⟩
        · exact .inr (.inl hmem)
      · rw [hpos] at hnode
        cases hnode

/-- After the loop the children are cancelled. -/
theorem Sound.broken (h : Sound s) (hpos : s.spin = .broken) : Sound { s.cancelChildren with
    spin := .joining s.childThreads, childThreads := [], weakChildExecutors := [] } := by
  have hin : s.spin.inSpin = true := by rw [hpos]; rfl
  obtain ⟨child, heq, hsame⟩ := cancelChildren_eq s
  have hserves (c g : Nat) : OnlyIsolatedExecutor.Serves { s with
      child := child, spin := .joining s.childThreads, childThreads := [],
      weakChildExecutors := [] } c g ↔ s.Serves c g := by
    unfold Serves
    rw [(hsame c).1, (hsame c).2.1]
  have hlives : Lives { s.cancelChildren with
      spin := .joining s.childThreads, childThreads := [], weakChildExecutors := [] } := by
    refine h.lives.cancelChildren nofun ?_ rfl ?_ ?_ <;> rw [heq]
    exact fun _ => id
  rw [heq] at hlives ⊢
  exact ⟨h.registered.of_same ⟨rfl, rfl, rfl, rfl, rfl, rfl, rfl, rfl, fun _ h => .inl h, hserves⟩,
    hlives, ⟨nofun, fun _ => h.spinning.alone hin, nofun, nofun, nofun, ⟨List.nodup_nil, nofun⟩, nofun,
      nofun⟩, { h.served with covered := nofun }⟩

/-- **The thread in `spin`** keeps the invariant in each of its steps. -/
theorem Sound.spinStep (h : Sound s) : Sound s.spinStep := by
  unfold OnlyIsolatedExecutor.spinStep
  split
  · exact h
  · -- `spin` begins
    next hpos =>
    have hin : s.spin.inSpin = true := by rw [hpos]; rfl
    split
    · exact h.leave hin
    · refine h.startCollecting hin ?_
      rw [hpos]
      rfl
  · next hpos => exact h.collect hpos
  · -- everything has been looked at
    next monitor found hpos =>
    have hin : s.spin.inSpin = true := by rw [hpos]; rfl
    split
    · next hnone =>
      obtain ⟨rfl, rfl⟩ : monitor = true ∧ found = [] := by simpa using hnone
      refine h.goto hin nofun nofun (List.nil_sublist _) nofun rfl nofun fun _ => ?_
      rw [hpos]
      exact ⟨rfl, rfl, nofun⟩
    · refine h.goto hin nofun ?_ ?_ ?_ rfl nofun fun _ => ?_ <;> rw [hpos]
      · exact id
      · exact .refl _
      · exact id
      · exact ⟨rfl, rfl, fun _ => .inl⟩
  · -- what has been found
    next monitor found hpos =>
    have hin : s.spin.inSpin = true := by rw [hpos]; rfl
    split
    · refine h.goto hin nofun nofun ?_ ?_ rfl nofun fun _ => ?_ <;> rw [hpos]
      · exact .refl _
      · exact id
      · exact ⟨rfl, rfl, fun _ => .inl⟩
    split
    · exact h.goto hin nofun nofun (List.nil_sublist _) nofun rfl nofun nofun
    · exact h.leave hin
  · -- all groups are served
    next hpos =>
    have hin : s.spin.inSpin = true := by rw [hpos]; rfl
    refine h.goto hin nofun nofun (List.nil_sublist _) nofun rfl nofun fun _ => ?_
    rw [hpos]
    exact ⟨rfl, rfl, nofun⟩
  · -- the next group that was found
    next monitor g left hpos =>
    have hin : s.spin.inSpin = true := by rw [hpos]; rfl
    have hpending := h.spinning.pending g (by rw [hpos]; exact List.mem_cons_self)
    split
    · next hset =>
      -- it is served by now
      rw [Bool.and_eq_true] at hset
      have hserved := h.spinning.served h.registered hin hpending.1 hset.2
      refine h.goto hin nofun nofun ?_ ?_ rfl nofun fun _ => ?_ <;> rw [hpos]
      · exact List.sublist_cons_self ..
      · exact id
      · refine ⟨rfl, rfl, fun g' hg' => ?_⟩
        exact (List.mem_cons.mp hg').elim (fun heq => .inr (heq ▸ hserved)) .inl
    · next hset =>
      refine h.goto hin nofun nofun ?_ ?_ rfl (fun monitor' g' left' heq => ?_) fun _ => ?_
      · rw [hpos]
        exact .refl _
      · rw [hpos]
        exact id
      · cases heq
        refine Bool.eq_false_iff.mpr fun hassociated => ?_
        obtain ⟨c, hc⟩ := h.spinning.served h.registered hin hpending.1 hassociated
        have hfirst : s.spin.first = true := by
          rw [hpos]
          rw [hassociated, Bool.and_true, Bool.not_eq_true] at hset
          rw [hset]
          rfl
        refine (h.spinning.first hfirst).2 g ?_ c hc
        rw [hpos]
        exact List.mem_cons_self
      · rw [hpos]
        exact ⟨rfl, rfl, fun _ => .inl⟩
  · next hpos => exact h.spawnChildExecutor hpos
  · -- the head of the loop
    next hpos =>
    have hin : s.spin.inSpin = true := by rw [hpos]; rfl
    split
    · refine h.goto hin nofun nofun (List.nil_sublist _) nofun rfl nofun fun _ => ?_
      rw [hpos]
      exact ⟨rfl, rfl, nofun⟩
    · exact h.goto hin nofun nofun (List.nil_sublist _) nofun rfl nofun nofun
  · -- after the wait
    next hpos =>
    have hin : s.spin.inSpin = true := by rw [hpos]; rfl
    split
    · refine h.startCollecting hin ?_
      rw [hpos]
      rfl
    · exact h.goto hin nofun nofun (List.nil_sublist _) nofun rfl nofun nofun
  · next hpos => exact h.broken hpos
  · -- the next child is joined
    next hpos =>
    have hin : s.spin.inSpin = true := by rw [hpos]; rfl
    split
    · exact h.goto hin nofun nofun (List.nil_sublist _) nofun rfl nofun nofun
    · exact h
  · -- `spin` returns
    next hpos =>
    have hin : s.spin.inSpin = true := by rw [hpos]; rfl
    exact h.leave hin
  · exact h

/-! ## Calls -/

/-- **`spin` is called** when nothing that was added by hand is left. -/
theorem Sound.callSpin (h : Sound s) (hallowed : s.allowed .callSpin = true)
    (havoids : s.avoids .callSpin = true) : Sound s.callSpin := by
  have hidle : s.spin = .idle := of_decide_eq_true hallowed
  obtain ⟨hdead, hcalls⟩ : (∀ e ∈ s.weakGroupsAssociatedWithExecutorToNodes,
      (s.group e.1).alive = false) ∧ ∀ call ∈ s.calls, call.addedGroup = none := by
    simpa [avoids] using havoids
  unfold OnlyIsolatedExecutor.callSpin
  rw [if_neg (Bool.eq_false_iff.mp (h.spinning.idle hidle))]
  refine ⟨h.registered.of_same
    ⟨rfl, rfl, rfl, rfl, rfl, rfl, rfl, rfl, fun _ h => .inl h, fun _ _ => .rfl⟩,
    h.lives.of_same rfl rfl h.lives.cancelled id id (by rintro ⟨⟩),
    ⟨by rintro ⟨⟩, fun _ g halive hadded => ?_, fun _ => h.spinning.early (by rw [hidle]; rfl),
      List.forall_mem_nil _, by rintro ⟨⟩, ⟨List.nodup_nil, List.forall_mem_nil _⟩,
      List.forall_mem_nil _, by rintro _ _ _ ⟨⟩⟩, { h.served with covered := by rintro ⟨⟩ }⟩
  rcases hadded with hmanual | hbeing
  · obtain ⟨e, he, rfl⟩ := isManual_iff.mp hmanual
    exact absurd halive (Bool.eq_false_iff.mp (hdead e he))
  · obtain ⟨n, hmem⟩ := mem_addedGroup.mp (isBeingAdded_iff.mp hbeing)
    cases hcalls _ hmem

/-- `cancel()` sets `cancel_requested_`. -/
theorem Sound.cancel (h : Sound s) : Sound (s.move .cancel) := by
  have hsame : SameRegistry s (s.move .cancel) := by
    refine ⟨rfl, rfl, rfl, rfl, rfl, rfl, rfl, ?_, fun call hmem => ?_, fun _ _ => .rfl⟩
    · exact List.filterMap_append.trans (List.append_nil _)
    · exact (List.mem_append.mp hmem).imp_right fun hcall => .inl (List.mem_singleton.mp hcall)
  exact h.around (h.registered.of_same hsame)
    (h.lives.of_same rfl rfl (fun _ => rfl) id nofun .inl)
    (.of_same hsame rfl rfl rfl id id nofun)

/-- The place of a call in which it clears `spinning_`. -/
theorem filterMap_set_cancelling {l : List OnlyCall} {k : Nat} (hk : l[k]? = some .cancel) :
    (l.set k .cancelling).filterMap OnlyCall.addedGroup = l.filterMap OnlyCall.addedGroup := by
  induction l generalizing k with
  | nil => cases hk
  | cons call l ih =>
    cases k with
    | zero =>
      cases Option.some.inj hk
      rfl
    | succ k =>
      rw [List.set_cons_succ, List.filterMap_cons, List.filterMap_cons, ih hk]

/-- A call of `cancel()` returns. -/
theorem filterMap_eraseIdx_cancelling {l : List OnlyCall} {k : Nat} (hk : l[k]? = some .cancelling) :
    (l.eraseIdx k).filterMap OnlyCall.addedGroup = l.filterMap OnlyCall.addedGroup := by
  induction l generalizing k with
  | nil => cases hk
  | cons call l ih =>
    cases k with
    | zero =>
      cases Option.some.inj hk
      rfl
    | succ k =>
      rw [List.eraseIdx_cons_succ, List.filterMap_cons, List.filterMap_cons, ih hk]

theorem Sound.advance (h : Sound s) (k : Nat) : Sound (s.advance k) := by
  have hcalls {call : OnlyCall} (hmem : call ∈ s.calls.eraseIdx k) : call ∈ s.calls :=
    (List.eraseIdx_sublist ..).subset hmem
  match hk : s.calls[k]? with
  | none =>
    unfold OnlyIsolatedExecutor.advance
    rw [hk]
    exact h
  | some (.addCallbackGroup g n) =>
    refine h.around (h.registered.advance_add hk) ?_ (.advance_add h.registered hk)
    unfold OnlyIsolatedExecutor.advance
    rw [hk]
    dsimp only
    split
    · exact h.lives
    split
    · exact h.lives.of_same rfl rfl h.lives.cancelled id id .inl
    · exact h.lives.of_same rfl rfl (fun hc => h.lives.cancelled (hc.imp hcalls hcalls)) id id .inl
  | some (.removeNode n) => exact absurd (List.mem_of_getElem? hk) (h.registered.noRemove n)
  | some .cancel =>
    have hmem : OnlyCall.cancel ∈ s.calls := List.mem_of_getElem? hk
    unfold OnlyIsolatedExecutor.advance
    rw [hk]
    have hsame : SameRegistry s { s with
        spinning := false, calls := s.calls.set k .cancelling } := by
      refine ⟨rfl, rfl, rfl, rfl, rfl, rfl, rfl, filterMap_set_cancelling hk, fun call hcall => ?_,
        fun _ _ => .rfl⟩
      exact (List.mem_or_eq_of_mem_set hcall).imp_right .inr
    exact h.around (h.registered.of_same hsame)
      (h.lives.of_same rfl rfl (fun _ => h.lives.cancelled (.inl hmem)) id id .inl)
      (.of_same hsame rfl rfl rfl nofun id id)
  | some .cancelling =>
    have hmem : OnlyCall.cancelling ∈ s.calls := List.mem_of_getElem? hk
    unfold OnlyIsolatedExecutor.advance
    rw [hk]
    dsimp only
    split
    · exact h
    -- cancelling changes the flags of the children, not whom they serve
    obtain ⟨child, heq, hchild⟩ := cancelChildren_eq s
    have hsame : SameRegistry s { s.cancelChildren with calls := s.calls.eraseIdx k } := by
      rw [heq]
      refine ⟨rfl, rfl, rfl, rfl, rfl, rfl, rfl, filterMap_eraseIdx_cancelling hk, fun _ h => .inl (hcalls h), fun c g => ?_⟩
      unfold Serves
      rw [(hchild c).1, (hchild c).2.1]
    have hlives : Lives { s.cancelChildren with calls := s.calls.eraseIdx k } := by
      refine h.lives.cancelChildren (fun _ => h.lives.cancelled (.inr hmem)) ?_ rfl ?_ ?_ <;>
        rw [heq]
      exact fun _ => hcalls
    refine h.around (h.registered.of_same hsame) hlives (.of_same hsame ?_ ?_ ?_ ?_ ?_ ?_) <;>
      rw [heq] <;> exact id

/-- **Every step that keeps clear** keeps the invariant. -/
theorem Sound.move (h : Sound s) {i : OnlyInput} (hallowed : s.allowed i = true)
    (havoids : s.avoids i = true) : Sound (s.move i) := by
  have hreg := h.registered
  have hlive := h.lives
  cases i with
  | createNode =>
    exact h.around hreg.createNode (hlive.of_same rfl rfl hlive.cancelled id id .inl) .createNode
  | createCallbackGroup n automaticallyAdd =>
    exact h.around (hreg.createCallbackGroup hallowed)
      (hlive.of_same rfl rfl hlive.cancelled id id .inl) (.createCallbackGroup hreg h.spinning)
  | expireNode n =>
    refine h.around (hreg.expireNode hallowed) ?_ .expireNode
    -- a node that somebody holds does not expire
    show Lives (if s.holdsNode n then s else _)
    split
    · exact hlive
    · exact hlive.of_same rfl rfl hlive.cancelled id id .inl
  | expireGroup g =>
    refine h.around hreg.expireGroup ?_ .expireGroup
    show Lives (if s.holdsGroup g then s else _)
    split
    · exact hlive
    · exact hlive.setGroup
  | addNode n =>
    -- the call waits while the mutex is taken
    show Sound (if s.mutexFree then s.addNode n else s)
    split
    · have hreg' := hreg.addNode hallowed
      exact h.around hreg' hlive.addNode (.addNode hreg'.exited)
    · exact h
  -- this is what a run keeps clear of
  | removeNode n => cases havoids
  | addCallbackGroup g n =>
    have hreg' := hreg.addCallbackGroup hallowed
    exact h.around hreg' hlive.addCallbackGroup (.addCallbackGroup havoids hreg'.exited)
  | removeCallbackGroup g =>
    show Sound (if s.mutexFree then s.removeCallbackGroup g else s)
    split
    · have hreg' := hreg.removeCallbackGroup hallowed
      exact h.around hreg' hlive.removeCallbackGroup (.removeCallbackGroup hreg'.exited)
    · exact h
  | cancel => exact h.cancel
  | advance k => exact h.advance k
  | callSpin => exact h.callSpin hallowed havoids
  | spinStep => exact h.spinStep
  | childStep c =>
    exact h.around (hreg.childStep hlive.started hlive.beyond c) (hlive.childStep c)
      (.childStep hlive c)
  | shutdown =>
    have hsame : SameRegistry s (s.move .shutdown) :=
      ⟨rfl, rfl, rfl, rfl, rfl, rfl, rfl, rfl, fun _ h => .inl h, fun _ _ => .rfl⟩
    exact h.around (hreg.of_same hsame) (hlive.of_same rfl rfl hlive.cancelled nofun id .inl)
      (.of_same hsame rfl rfl rfl id nofun id)

theorem onlyIsolatedExecutor_step (s : OnlyIsolatedExecutor) (i : OnlyInput) :
    (onlyIsolatedExecutor.step s i).2 = if s.exited then s else s.move i := rfl

/-- What the invariant is for. -/
theorem Sound.acceptsItsApi (h : Sound s) : s.AcceptsItsApi where
  exited := h.registered.exited
  once := h.registered.once
  served := by
    rintro ⟨hpos, hok, hfree⟩ g hg hadded
    obtain ⟨hscan, hgroups, hnodes⟩ :
        s.spin.scanning = true ∧ s.spin.groups = [] ∧ s.spin.nodesLeft = [] := by
      rcases hpos with h | h <;> rw [h] <;> exact ⟨rfl, rfl, rfl⟩
    rcases h.served.covered hscan hok hfree g hg hadded with hserves | hmem | hmem
    · exact hserves
    · rw [hgroups] at hmem
      cases hmem
    · rw [hnodes] at hmem
      cases hmem

end OnlyIsolatedExecutor

/-- **The executor accepts its own API** over every run in which no node is removed, and groups are
added by hand only while it does not spin, and are gone when it does: it does not terminate the
process, no group has two children, and once a scan has been made every group that was there and is
added has one. -/
theorem accepts_its_api {tr : List (Event OnlyIsolatedExecutor OnlyInput Unit)}
    {s : OnlyIsolatedExecutor}
    (hr : Run onlyIsolatedExecutor (fun s i => s.allowed i = true ∧ s.avoids i = true) tr s) :
    s.AcceptsItsApi := by
  have hok : s.Sound := by
    refine hr.invariant (P := OnlyIsolatedExecutor.Sound) ?_ fun s i h hi => ?_
    · rintro s rfl
      exact .fresh
    rw [OnlyIsolatedExecutor.onlyIsolatedExecutor_step,
      if_neg (Bool.eq_false_iff.mp h.registered.exited)]
    exact h.move hi.1 hi.2
  exact hok.acceptsItsApi

/-- A node is added with two groups, a third group comes while the executor spins, and a group that had
been added by hand is removed before. -/
theorem accepts_its_api_of_node :
    let s := (onlyIsolatedExecutor.exec .fresh [] [.createNode, .createCallbackGroup 0 true,
      .createCallbackGroup 0 true, .createCallbackGroup 0 false, .addCallbackGroup 2 0, .advance 0,
      .removeCallbackGroup 2, .addNode 0, .callSpin, .spinStep, .spinStep, .spinStep, .spinStep,
      .spinStep, .spinStep, .spinStep, .childStep 0, .spinStep, .spinStep, .createCallbackGroup 0 true,
      .childStep 1, .spinStep, .spinStep, .spinStep, .spinStep, .spinStep, .spinStep, .spinStep,
      .spinStep, .childStep 2]).2
    s.Scanned ∧ s.due = [0, 1, 3] ∧ s.AcceptsItsApi := by
  refine ⟨⟨.inl (by decide), by decide, by decide⟩, by decide, ?_⟩
  exact accepts_its_api ((Run.init rfl).exec (show onlyIsolatedExecutor.Guarded _ _ _ by decide))

/-! ## Where it does not -/

/-- A group is added by hand, and then `spin` is called: the child is given a group whose flag is set. -/
def spunByHand : List OnlyInput :=
  [.createNode, .createCallbackGroup 0 true, .addCallbackGroup 0 0, .advance 0, .callSpin, .spinStep,
    .spinStep, .spinStep, .spinStep, .spinStep]

/-- A node is added and removed: `add_node` has not set the flag that `remove_node` tests. -/
def addedAndRemoved : List OnlyInput :=
  [.createNode, .createCallbackGroup 0 true, .addNode 0, .removeNode 0]

/-- A group is added by hand while the executor spins, and the monitor scans the nodes. -/
def addedWhileSpinning : List OnlyInput :=
  [.createNode, .createCallbackGroup 0 true, .callSpin, .spinStep, .spinStep, .spinStep, .spinStep,
    .addCallbackGroup 0 0, .advance 0, .spinStep, .spinStep, .spinStep]

/-- **The executor refuses its own API**: it terminates the process when it spawns a group that was
added by hand and when an added node is removed, and it does not serve what is added by hand while it
spins. -/
theorem refuses_its_api :
    let final (is : List OnlyInput) := (onlyIsolatedExecutor.exec .fresh [] is).2
    let allowed (is : List OnlyInput) :=
      onlyIsolatedExecutor.Guarded (fun s i => s.allowed i = true) .fresh is
    (allowed spunByHand ∧ (final spunByHand).exited = true) ∧
    (allowed addedAndRemoved ∧ (final addedAndRemoved).exited = true) ∧
    (allowed addedWhileSpinning ∧ (final addedWhileSpinning).Scanned ∧
      0 ∈ (final addedWhileSpinning).due ∧ (final addedWhileSpinning).isAdded 0 = true ∧
      ∀ c, ¬(final addedWhileSpinning).Serves c 0) ∧
    ¬ ∀ tr s, Run onlyIsolatedExecutor (fun s i => s.allowed i = true) tr s → s.AcceptsItsApi := by
  have hguarded : onlyIsolatedExecutor.Guarded (fun s i => s.allowed i = true) .fresh
      spunByHand := by decide
  refine ⟨⟨hguarded, by decide⟩, ⟨by decide, by decide⟩,
    ⟨by decide, ⟨.inl (by decide), by decide, by decide⟩, by decide, by decide, ?_⟩, fun h => ?_⟩
  · exact fun c hc => absurd hc.1 (Nat.not_lt_zero c)
  · have hexited := (h _ _ ((Run.init rfl).exec hguarded)).exited
    exact absurd hexited (by decide)

end Agnocast
