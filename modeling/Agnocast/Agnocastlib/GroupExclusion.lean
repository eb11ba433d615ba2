import Agnocast.Agnocastlib.ReadyExecutables

/-!
# The library — exclusion of callback groups

A thread takes the flag of a mutually exclusive group before it takes the executable, and
gives it back when the executable has finished, so no two of a group are under way. The
list is in the order of queueing and is scanned from the front; what the scan has passed
was blocked when it was passed.

* `ScanOk`         — the invariant of the scan under way.
* `ReadyOk`        — the invariant of the executor.
* `groups_exclude` — exclusion, the flags, conservation and order over every run.
* `younger_taken_first` — a group that becomes free during a scan.
-/

namespace Agnocast

variable {exclusive : Nat → Bool} {tr : List ReadyEvent} {x y : ReadyExecutables}

/-! ## The scan -/

/-- What the scan has passed was blocked, and still is unless it was freed since; and once a
group is found associated, what was passed of it is busy. -/
structure ScanOk (exclusive : Nat → Bool) (tr : List ReadyEvent) (x : ReadyExecutables) : Prop where
  passed : ∀ e, Passed x e → Blocked exclusive x e.group ∨ FreedAfterPassing tr e
  found : ∀ k e, x.scan = some (.associated k) → x.ready[k]? = some e →
    ∀ e' ∈ x.ready.take k, e'.group = e.group → Busy exclusive x e.group ∨ FreedAfterPassing tr e'

theorem ScanOk.of_none (hscan : x.scan = none) : ScanOk exclusive tr x where
  passed := fun e ⟨pc, hpc, _⟩ => by
    rw [hscan] at hpc
    cases hpc
  found := fun k e hk => by
    rw [hscan] at hk
    cases hk

theorem duringScan_cons {ev : ReadyEvent} (hscan : ev.pre.scan.isSome) :
    duringScan (ev :: tr) = ev :: duringScan tr := List.takeWhile_cons_of_pos hscan

theorem FreedAfterPassing.cons {e : Executable} {ev : ReadyEvent} (h : FreedAfterPassing tr e)
    (hscan : ev.pre.scan.isSome) : FreedAfterPassing (ev :: tr) e := by
  obtain ⟨ev', hev', hfree⟩ := h
  refine ⟨ev', ?_, hfree⟩
  rw [duringScan_cons hscan]
  exact List.mem_cons_of_mem _ hev'

/-- A step that frees the group of a passed executable. -/
theorem FreedAfterPassing.now {e : Executable} {ev : ReadyEvent} (hfree : FreesGroup e.group ev)
    (hpassed : Passed ev.pre e) : FreedAfterPassing (ev :: tr) e := by
  obtain ⟨pc, hpc, he⟩ := hpassed
  refine ⟨ev, ?_, hfree, pc, hpc, he⟩
  rw [duringScan_cons (by simp [hpc])]
  exact List.mem_cons_self

/-- Steps that leave the list and the scan alone: what they unblock they free. -/
theorem ScanOk.keep (h : ScanOk exclusive tr x) {ev : ReadyEvent} (hpre : ev.pre = x)
    (hready : y.ready = x.ready) (hscan : y.scan = x.scan)
    (hblocked : ∀ g, Blocked exclusive x g → Blocked exclusive y g ∨ FreesGroup g ev)
    (hbusy : ∀ g, Busy exclusive x g → Busy exclusive y g ∨ FreesGroup g ev) :
    ScanOk exclusive (ev :: tr) y := by
  subst hpre
  constructor
  · rintro e ⟨pc, hpc, he⟩
    rw [hscan] at hpc
    rw [hready] at he
    have hpassed : Passed ev.pre e := ⟨pc, hpc, he⟩
    rcases h.passed e hpassed with hb | hf
    · exact (hblocked _ hb).imp id fun hfree => .now hfree hpassed
    · exact .inr (hf.cons (by simp [hpc]))
  · intro k e hk he e' he' hgroup
    rw [hscan] at hk
    rw [hready] at he he'
    rcases h.found k e hk he e' he' hgroup with hb | hf
    · exact (hbusy _ hb).imp id fun hfree => .now (hgroup ▸ hfree) ⟨_, hk, he'⟩
    · exact .inr (hf.cons (by simp [hk]))

theorem mem_take_succ {l : List Executable} {k : Nat} {e e' : Executable} (hk : l[k]? = some e)
    (he' : e' ∈ l.take (k + 1)) : e' ∈ l.take k ∨ e' = e := by
  rw [List.take_add_one, hk] at he'
  simpa using he'

/-- The scan goes on behind an executable that is blocked. -/
theorem ScanOk.skip (h : ScanOk exclusive tr x) {ev : ReadyEvent} (hpre : ev.pre = x)
    {pc : ScanPos} {e : Executable} (hpc : x.scan = some pc) (he : x.ready[pc.index]? = some e)
    (hblocked : Blocked exclusive x e.group) :
    ScanOk exclusive (ev :: tr) { x with scan := some (.visit (pc.index + 1)) } := by
  subst hpre
  constructor
  · rintro e' ⟨pc', hpc', he'⟩
    obtain rfl := Option.some.inj hpc'
    rcases mem_take_succ he he' with he' | rfl
    · exact (h.passed e' ⟨pc, hpc, he'⟩).imp id fun hf => hf.cons (by simp [hpc])
    · exact .inl hblocked
  · intro k e' hk
    cases hk

theorem ScanOk.step_scan (h : ScanOk exclusive tr x) {pc : ScanPos} (hpc : x.scan = some pc)
    (ev : ReadyEvent) (hpre : ev.pre = x) : ScanOk exclusive (ev :: tr) (x.scanStep exclusive pc).2 := by
  have hsome : ev.pre.scan.isSome := by simp [hpre, hpc]
  cases pc with
  | visit k =>
    simp only [ReadyExecutables.scanStep]
    split
    · exact .of_none rfl
    next e he =>
      by_cases hassoc : x.associated e.group = true
      · simp only [if_pos hassoc]
        constructor
        · rintro e' ⟨pc', hpc', he'⟩
          obtain rfl := Option.some.inj hpc'
          exact (h.passed e' ⟨_, hpc, he'⟩).imp id fun hf => hf.cons hsome
        · intro k' e₁ hk' he₁ e' he' hgroup
          cases hk'
          obtain rfl := Option.some.inj (he.symm.trans he₁)
          -- the group is associated now, so what was passed of it is busy
          refine (h.passed e' ⟨_, hpc, he'⟩).imp (fun hb => ?_) fun hf => hf.cons hsome
          rcases hb with hnot | hbusy
          · rw [hgroup, hassoc] at hnot
            cases hnot
          · exact hgroup ▸ hbusy
      · simp only [if_neg hassoc]
        exact h.skip hpre hpc he (.inl (by simpa using hassoc))
  | associated k =>
    simp only [ReadyExecutables.scanStep]
    split
    · exact h.keep hpre rfl rfl (fun _ => .inl) (fun _ => .inl)
    next e he =>
      split
      next hbusy => exact h.skip hpre hpc he (.inr (by simpa [Busy] using hbusy))
      · exact .of_none rfl

theorem ScanOk.step (h : ScanOk exclusive tr x) (i : ReadyInput) :
    ScanOk exclusive (⟨x, i, (x.step exclusive i).1⟩ :: tr) (x.step exclusive i).2 := by
  have hsame : ∀ ev : ReadyEvent, ev.pre = x → ScanOk exclusive (ev :: tr) x := fun ev hpre =>
    h.keep hpre rfl rfl (fun _ => .inl) (fun _ => .inl)
  cases i with
  | enqueue group =>
    simp only [ReadyExecutables.step]
    split
    next hnone => exact .of_none hnone
    · exact hsame _ rfl
  | associate group b =>
    refine h.keep rfl rfl rfl (fun g hb => ?_) fun _ => .inl
    by_cases hg : g = group
    · subst hg
      cases b with
      | true => exact .inr (.inr rfl)
      | false => exact .inl (.inl (Function.update_self ..))
    · exact .inl (hb.imp (fun hnot => (Function.update_of_ne hg ..).trans hnot) id)
  | startScan =>
    simp only [ReadyExecutables.step]
    split
    · -- nothing is passed yet
      constructor
      · rintro e ⟨pc, hpc, he⟩
        obtain rfl := Option.some.inj hpc
        cases he
      · intro k e hk
        cases hk
    · exact hsame _ rfl
  | scan =>
    simp only [ReadyExecutables.step]
    split
    next hnone => exact .of_none hnone
    next pc hpc => exact h.step_scan hpc _ rfl
  | finish e =>
    simp only [ReadyExecutables.step]
    split
    next hmem =>
      -- a callback that is finished frees its own group and no other
      have hbusy : ∀ g, Busy exclusive x g → Busy exclusive
          { x with
            executing := x.executing.erase e
            canBeTakenFrom := x.setFlag exclusive e.group true } g ∨
          FreesGroup g ⟨x, .finish e, some (.finished e)⟩ := by
        intro g hb
        by_cases hg : e.group = g
        · exact .inr (.inl ⟨e, rfl, hg⟩)
        · refine .inl ⟨hb.1, ?_⟩
          simp only [ReadyExecutables.setFlag]
          split
          · exact (Function.update_of_ne (Ne.symm hg) ..).trans hb.2
          · exact hb.2
      refine h.keep rfl rfl rfl (fun g hb => ?_) hbusy
      rcases hb with hnot | hb
      · exact .inl (.inl hnot)
      · exact (hbusy g hb).imp .inr id
    · exact hsame _ rfl

/-! ## The executor -/

/-- The invariant; the list is in the order of queueing. -/
structure ReadyOk (exclusive : Nat → Bool) (tr : List ReadyEvent) (x : ReadyExecutables) : Prop where
  exclusion : ∀ g, exclusive g = true → x.executing.countP (·.group = g) ≤ 1
  flag : ∀ g, exclusive g = true →
    (x.canBeTakenFrom g = true ↔ ∀ e ∈ x.executing, e.group ≠ g)
  conserved : (((finished tr ++ x.executing) ++ x.ready).map Executable.id).Perm
    (List.range x.queued)
  sorted : x.ready.Pairwise fun e e' => e.id < e'.id
  scan : ScanOk exclusive tr x

theorem finished_cons (ev : ReadyEvent) (tr : List ReadyEvent) (h : ∀ e, ev.output ≠ some (.finished e)) :
    finished (ev :: tr) = finished tr := by
  unfold finished
  rw [List.filterMap_cons]
  split
  · rfl
  next e he =>
    split at he
    next e' ho => exact absurd ho (h e')
    · cases he

theorem finished_cons_finished {ev : ReadyEvent} {e : Executable} (tr : List ReadyEvent)
    (h : ev.output = some (.finished e)) : finished (ev :: tr) = e :: finished tr := by
  unfold finished
  rw [List.filterMap_cons, h]

/-- The ids in the list were given out. -/
theorem ReadyOk.id_lt (h : ReadyOk exclusive tr x) {e : Executable} (he : e ∈ x.ready) :
    e.id < x.queued :=
  List.mem_range.mp (h.conserved.mem_iff.mp
    (List.mem_map_of_mem (List.mem_append_right _ he)))

/-- Steps that move no executable and no flag. -/
theorem ReadyOk.keep (h : ReadyOk exclusive tr x) {ev : ReadyEvent}
    (ho : ∀ e, ev.output ≠ some (.finished e)) (hready : y.ready = x.ready)
    (hexec : y.executing = x.executing) (hflag : y.canBeTakenFrom = x.canBeTakenFrom)
    (hqueued : y.queued = x.queued) (hscan : ScanOk exclusive (ev :: tr) y) :
    ReadyOk exclusive (ev :: tr) y := by
  refine ⟨?_, ?_, ?_, ?_, hscan⟩
  · rw [hexec]
    exact h.exclusion
  · rw [hexec, hflag]
    exact h.flag
  · rw [finished_cons ev tr ho, hexec, hready, hqueued]
    exact h.conserved
  · rw [hready]
    exact h.sorted

/-- Queueing at the end keeps the order. -/
theorem ReadyOk.enqueue (h : ReadyOk exclusive tr x) {group : Nat} {ev : ReadyEvent}
    (ho : ∀ e, ev.output ≠ some (.finished e)) (hnone : x.scan = none) :
    ReadyOk exclusive (ev :: tr)
      { x with ready := x.ready ++ [⟨x.queued, group⟩], queued := x.queued + 1 } where
  exclusion := h.exclusion
  flag := h.flag
  conserved := by
    rw [finished_cons ev tr ho, ← List.append_assoc, List.map_append, List.range_succ]
    exact h.conserved.append_right _
  sorted := List.pairwise_append.mpr ⟨h.sorted, List.pairwise_singleton _ _, fun e he e' he' => by
    obtain rfl := List.mem_singleton.mp he'
    exact h.id_lt he⟩
  scan := .of_none hnone

/-- Taking an executable whose group is free. -/
theorem ReadyOk.take (h : ReadyOk exclusive tr x) {ev : ReadyEvent}
    (ho : ∀ e, ev.output ≠ some (.finished e)) {k : Nat} {e : Executable} (he : x.ready[k]? = some e)
    (hfree : ¬ Busy exclusive x e.group) :
    ReadyOk exclusive (ev :: tr)
      { x with
        ready := x.ready.eraseIdx k
        executing := e :: x.executing
        canBeTakenFrom := x.setFlag exclusive e.group false
        scan := none } := by
  -- a free group has nothing under way
  have hnone : exclusive e.group = true → ∀ e' ∈ x.executing, e'.group ≠ e.group := fun hex =>
    (h.flag _ hex).mp (by simpa [Busy, hex] using hfree)
  obtain ⟨hk, hget⟩ := List.getElem?_eq_some_iff.mp he
  have hperm : x.ready.Perm (e :: x.ready.eraseIdx k) := by
    rw [← hget]
    exact (List.getElem_cons_eraseIdx_perm hk).symm
  refine ⟨fun g hg => ?_, fun g hg => ?_, ?_, h.sorted.sublist (List.eraseIdx_sublist _ _),
    .of_none rfl⟩
  · by_cases heq : e.group = g
    · subst heq
      have hzero : x.executing.countP (·.group = e.group) = 0 :=
        List.countP_eq_zero.mpr fun e' he' => by simpa using hnone hg e' he'
      rw [List.countP_cons_of_pos (by simp), hzero]
    · rw [List.countP_cons_of_neg (by simpa using heq)]
      exact h.exclusion g hg
  · simp only [ReadyExecutables.setFlag]
    by_cases heq : g = e.group
    · subst heq
      rw [if_pos hg, Function.update_self]
      simp
    · have hsame : (if exclusive e.group then Function.update x.canBeTakenFrom e.group false
          else x.canBeTakenFrom) g = x.canBeTakenFrom g := by
        split
        · exact Function.update_of_ne heq ..
        · rfl
      rw [hsame, h.flag g hg, List.forall_mem_cons]
      exact ⟨fun hall => ⟨Ne.symm heq, hall⟩, And.right⟩
  · rw [finished_cons ev tr ho]
    refine List.Perm.trans (List.Perm.map _ ?_) h.conserved
    have hmid : (finished tr ++ e :: x.executing).Perm (e :: (finished tr ++ x.executing)) :=
      List.perm_middle
    exact (hmid.append_right _).trans
      ((List.perm_middle.symm).trans (hperm.symm.append_left _))

/-- Finishing an executable gives its group back. -/
theorem ReadyOk.finish (h : ReadyOk exclusive tr x) {e : Executable} (he : e ∈ x.executing)
    {ev : ReadyEvent} (ho : ev.output = some (.finished e))
    (hscan : ScanOk exclusive (ev :: tr)
      { x with
        executing := x.executing.erase e
        canBeTakenFrom := x.setFlag exclusive e.group true }) :
    ReadyOk exclusive (ev :: tr)
      { x with
        executing := x.executing.erase e
        canBeTakenFrom := x.setFlag exclusive e.group true } := by
  have hperm := List.perm_cons_erase he
  refine ⟨fun g hg => ?_, fun g hg => ?_, ?_, h.sorted, hscan⟩
  · exact le_trans (List.Sublist.countP_le List.erase_sublist) (h.exclusion g hg)
  · simp only [ReadyExecutables.setFlag]
    by_cases heq : g = e.group
    · subst heq
      -- it was the only one of its group
      have hzero : (x.executing.erase e).countP (·.group = e.group) = 0 := by
        have hone := h.exclusion _ hg
        rw [hperm.countP_eq, List.countP_cons_of_pos (by simp)] at hone
        omega
      rw [if_pos hg, Function.update_self]
      exact ⟨fun _ e' he' => by simpa using List.countP_eq_zero.mp hzero e' he', fun _ => rfl⟩
    · have hsame : (if exclusive e.group then Function.update x.canBeTakenFrom e.group true
          else x.canBeTakenFrom) g = x.canBeTakenFrom g := by
        split
        · exact Function.update_of_ne heq ..
        · rfl
      rw [hsame, h.flag g hg]
      constructor
      · exact fun hall e' he' => hall e' (List.mem_of_mem_erase he')
      · intro hall e' he'
        rcases List.mem_cons.mp (hperm.mem_iff.mp he') with rfl | he'
        · exact Ne.symm heq
        · exact hall e' he'
  · rw [finished_cons_finished tr ho]
    refine List.Perm.trans (List.Perm.map _ ?_) h.conserved
    have hmid : (finished tr ++ e :: x.executing.erase e).Perm
        (e :: (finished tr ++ x.executing.erase e)) := List.perm_middle
    exact (hmid.symm.trans (hperm.symm.append_left _)).append_right _

theorem ReadyOk.step (h : ReadyOk exclusive tr x) (i : ReadyInput) :
    ReadyOk exclusive (⟨x, i, (x.step exclusive i).1⟩ :: tr) (x.step exclusive i).2 := by
  have hscan := h.scan.step i
  cases i with
  | enqueue group =>
    simp only [ReadyExecutables.step] at hscan ⊢
    split
    next hnone => exact h.enqueue (by simp) hnone
    · exact h.keep (by simp) rfl rfl rfl rfl (by simpa [*] using hscan)
  | associate group b => exact h.keep (by simp [ReadyExecutables.step]) rfl rfl rfl rfl hscan
  | startScan =>
    simp only [ReadyExecutables.step] at hscan ⊢
    split
    next hnone => exact h.keep (by simp) rfl rfl rfl rfl (by simpa [hnone] using hscan)
    next hsome => exact h.keep (by simp) rfl rfl rfl rfl (by simpa [hsome] using hscan)
  | scan =>
    simp only [ReadyExecutables.step] at hscan ⊢
    cases hpc : x.scan with
    | none => exact h.keep (by simp) rfl rfl rfl rfl (by simpa [hpc] using hscan)
    | some pc =>
      simp only [hpc] at hscan ⊢
      cases pc with
      | visit k =>
        simp only [ReadyExecutables.scanStep] at hscan ⊢
        cases he : x.ready[k]? with
        | none => exact h.keep (by simp) rfl rfl rfl rfl (by simpa [he] using hscan)
        | some e => exact h.keep (by simp) rfl rfl rfl rfl (by simpa [he] using hscan)
      | associated k =>
        simp only [ReadyExecutables.scanStep] at hscan ⊢
        cases he : x.ready[k]? with
        | none => exact h.keep (by simp) rfl rfl rfl rfl (by simpa [he] using hscan)
        | some e =>
          -- a busy group is passed over
          by_cases hbusy : (exclusive e.group && !x.canBeTakenFrom e.group) = true
          · simp only [he, if_pos hbusy] at hscan ⊢
            exact h.keep (by simp) rfl rfl rfl rfl hscan
          · simp only [if_neg hbusy]
            exact h.take (by simp) he (by simpa [Busy] using hbusy)
  | finish e =>
    simp only [ReadyExecutables.step] at hscan ⊢
    by_cases he : e ∈ x.executing
    · simp only [if_pos he] at hscan ⊢
      exact h.finish he rfl hscan
    · simp only [if_neg he] at hscan ⊢
      exact h.keep (by simp) rfl rfl rfl rfl hscan

/-! ## Runs -/

/-- In a list in the order of queueing, what is older than the `k`-th stands before it. -/
theorem mem_take_of_id_lt {l : List Executable} (hsorted : l.Pairwise fun e e' => e.id < e'.id)
    {k : Nat} {e e' : Executable} (he : l[k]? = some e) (he' : e' ∈ l) (hid : e'.id < e.id) :
    e' ∈ l.take k := by
  obtain ⟨hk, rfl⟩ := List.getElem?_eq_some_iff.mp he
  rw [← List.take_append_drop k l, List.mem_append] at he'
  refine he'.resolve_right fun hdrop => ?_
  rw [List.drop_eq_getElem_cons hk] at hdrop
  have hrest := hsorted.sublist (List.drop_sublist k l)
  rw [List.drop_eq_getElem_cons hk, List.pairwise_cons] at hrest
  rcases List.mem_cons.mp hdrop with rfl | hdrop
  · exact hid.false
  · exact hid.asymm (hrest.1 e' hdrop)

theorem ReadyOk.answers (h : ReadyOk exclusive tr x) (i : ReadyInput) :
    AnswersInOrder exclusive tr x (x.step exclusive i).1 := by
  cases i with
  | enqueue group => trivial
  | associate group b => trivial
  | startScan => trivial
  | finish e =>
    simp only [ReadyExecutables.step]
    split <;> trivial
  | scan =>
    simp only [ReadyExecutables.step]
    split
    · trivial
    next pc hpc =>
      cases pc with
      | visit k =>
        simp only [ReadyExecutables.scanStep]
        split
        next hend =>
          -- the scan has passed the whole list
          intro e he
          have hall : x.ready.take k = x.ready :=
            List.take_of_length_le (List.getElem?_eq_none_iff.mp hend)
          exact h.scan.passed e ⟨_, hpc, by simpa [ScanPos.index, hall] using he⟩
        · trivial
      | associated k =>
        simp only [ReadyExecutables.scanStep]
        split
        · trivial
        next e he =>
          split
          · trivial
          next hfree =>
            intro e' he' hgroup hid
            refine (h.scan.found k e hpc he e' (mem_take_of_id_lt h.sorted he he' hid)
              hgroup).resolve_left fun hbusy => hfree ?_
            simpa [Busy] using hbusy

theorem run_readyOk
    (hrun : Transition.Run (readyExecutables exclusive) Transition.anyStep tr x) :
    ReadyOk exclusive tr x ∧ TakenInOrder exclusive tr := by
  refine hrun.history (P := fun tr x => ReadyOk exclusive tr x ∧ TakenInOrder exclusive tr) ?_
    fun tr s i _ ⟨hok, horder⟩ _ => ⟨hok.step i, horder, hok.answers i⟩
  rintro s ⟨hready, hexec, hflag, hscan, hqueued⟩
  refine ⟨⟨fun g _ => ?_, fun g _ => ?_, ?_, ?_, .of_none hscan⟩, trivial⟩
  · rw [hexec]
    exact Nat.zero_le _
  · rw [hexec]
    simp [hflag g]
  · rw [hexec, hready, hqueued]
    exact .refl _
  · rw [hready]
    exact .nil

/-- **Exclusion of callback groups.** Over every run of any number of threads, at most one
executable of a mutually exclusive group is taken and not finished, `can_be_taken_from` tells
whether there is one, no executable is dropped or executed twice, and executables are taken
in the order of their group's queue, unless the group becomes available behind the scan. -/
theorem groups_exclude
    (hrun : Transition.Run (readyExecutables exclusive) Transition.anyStep tr x) :
    GroupsExclude exclusive tr x := by
  obtain ⟨hok, horder⟩ := run_readyOk hrun
  exact ⟨hok.exclusion, hok.flag, hok.conserved, horder⟩

/-- An executor with all groups associated. -/
def idleExecutor : ReadyExecutables where
  ready := []
  executing := []
  canBeTakenFrom := fun _ => true
  associated := fun _ => true
  scan := none
  queued := 0

private theorem idleExecutor_init (exclusive : Nat → Bool) :
    (readyExecutables exclusive).init idleExecutor := ⟨rfl, rfl, fun _ => rfl, rfl, rfl⟩

/-- Two executables of different groups, the second finished first. -/
theorem groups_exclude_of_two :
    GroupsExclude (fun _ => true)
      ((readyExecutables fun _ => true).exec idleExecutor [] [.enqueue 0, .enqueue 1, .startScan,
        .scan, .scan, .startScan, .scan, .scan, .finish ⟨1, 1⟩, .finish ⟨0, 0⟩]).1
      ((readyExecutables fun _ => true).exec idleExecutor [] [.enqueue 0, .enqueue 1, .startScan,
        .scan, .scan, .startScan, .scan, .scan, .finish ⟨1, 1⟩, .finish ⟨0, 0⟩]).2 :=
  groups_exclude ((Transition.Run.init (idleExecutor_init _)).exec
    (Transition.System.guarded_anyStep _ _ _))

/-- **What a group that becomes free during a scan does**: the scan has passed the older
executable of the group as busy when the group is given back, and takes the younger one. -/
theorem younger_taken_first : ∃ tr x,
    Transition.Run (readyExecutables fun _ => true) Transition.anyStep tr x ∧
      ∃ ev ∈ tr, ev.output = some (.took ⟨2, 0⟩) ∧ (⟨1, 0⟩ : Executable) ∈ ev.pre.ready := by
  let inputs : List ReadyInput := [.enqueue 0, .startScan, .scan, .scan, .enqueue 0, .enqueue 0,
    .startScan, .scan, .scan, .finish ⟨0, 0⟩, .scan, .scan]
  exact ⟨_, _, (Transition.Run.init (idleExecutor_init _)).exec
    (Transition.System.guarded_anyStep _ _ inputs), _, List.mem_cons_self, rfl, by decide⟩

end Agnocast
