import Agnocast.MessageFilters.ApproximateReference
import Mathlib.Data.List.Chain

/-!
# The message filters — early publication agrees with the exhaustive search

* `Respects`                  — stamps on an input do not go back, and keep the lower bound.
* `optimal_of_virtualSearch`  — what the search over virtual times publishes is optimal: virtual
  times are no later than those of the messages that will come, or than the pivot.
* `steps_of_iteration`        — an iteration of the policy is iterations of the reference, on the
  messages that are there with those that are to come.
* `tryFeed_steps`             — and so are all of them after any adds.
* `early_publication_agrees`  — what the policy emits is a prefix of what the reference emits when
  it gets more messages; and of two arrival orders one emits a prefix of the other.
-/

namespace Agnocast.MessageFilters.ApproximateTime

variable {n : ℕ} {α : Type} {p : Parameters n} {s : ApproximateTime n α}
  {later : Fin (n + 1) → List (StampedMsg α)}

/-- Stamps do not go back, and consecutive ones are at least the lower bound apart. -/
def Respects (lowerBound : ℤ) (l : List (StampedMsg α)) : Prop :=
  l.IsChain fun m m' => m.stamp ≤ m'.stamp ∧ m.stamp + lowerBound ≤ m'.stamp

theorem Respects.ordered {lowerBound : ℤ} {l : List (StampedMsg α)} (h : Respects lowerBound l) :
    Ordered l := by
  have hle : (l.map StampedMsg.stamp).IsChain (· ≤ ·) :=
    (List.isChain_map _).mpr (h.imp fun _ _ h => h.1)
  exact List.pairwise_map.mp (List.isChain_iff_pairwise.mp hle)

/-- What comes after the last message of a list keeps the lower bound to it. -/
theorem Respects.gap {lowerBound : ℤ} {l l' : List (StampedMsg α)} {m r : StampedMsg α}
    (h : Respects lowerBound (l ++ l')) (hm : l.getLast? = some m) (hr : r ∈ l') :
    m.stamp + lowerBound ≤ r.stamp := by
  obtain ⟨-, hl', hgap⟩ := List.isChain_append.mp h
  cases l' with
  | nil => cases hr
  | cons m' rest =>
    have hfirst := (hgap m hm m' rfl).2
    rcases List.mem_cons.mp hr with rfl | hr
    · exact hfirst
    · have hle := List.rel_of_pairwise_cons (Respects.ordered hl') hr
      omega

/-! ## Bounds over messages that have not arrived -/

/-- A later end and an earlier start are no better. -/
theorem notBetter_mono (hp : 0 ≤ p.agePenalty) {e e' t t' : ℤ} (h : s.notBetter p e t = true)
    (he : e ≤ e') (ht : t' ≤ t) : s.notBetter p e' t' = true := by
  rw [notBetter, decide_eq_true_eq] at h ⊢
  have hstart : ((t' - s.candidateStart : ℤ) : ℚ) ≤ ((t - s.candidateStart : ℤ) : ℚ) :=
    Rat.intCast_le_intCast.mpr (by omega)
  have hend : ((e - s.candidateEnd : ℤ) : ℚ) ≤ ((e' - s.candidateEnd : ℤ) : ℚ) :=
    Rat.intCast_le_intCast.mpr (by omega)
  calc ((t' - s.candidateStart : ℤ) : ℚ) ≤ ((t - s.candidateStart : ℤ) : ℚ) := hstart
    _ ≤ ((e - s.candidateEnd : ℤ) : ℚ) * (1 + p.agePenalty) := h
    _ ≤ ((e' - s.candidateEnd : ℤ) : ℚ) * (1 + p.agePenalty) :=
      mul_le_mul_of_nonneg_right hend (by linarith)

theorem first_le (r : Fin (n + 1) → StampedMsg α) (i : Fin (n + 1)) :
    (first r).2 ≤ (r i).stamp := earliest_le (fun i => (r i).stamp) i

theorem le_last (r : Fin (n + 1) → StampedMsg α) (i : Fin (n + 1)) :
    (r i).stamp ≤ (last r).2 := le_latest (fun i => (r i).stamp) i

/-- A virtual time is no later than any message to come, or than the pivot. -/
theorem virtualTime_le {i : Fin (n + 1)} (h : Respects (p.interMessageLowerBounds i) (s.held i ++ later i))
    {t : ℤ} (ht : s.getVirtualTime p i = some t) {r : StampedMsg α}
    (hr : r ∈ s.deques i ++ later i) : t ≤ max r.stamp s.pivotTime := by
  cases hd : s.deques i with
  | nil =>
    obtain ⟨m, hm, rfl⟩ := getVirtualTime_of_nil hd ht
    rw [held, hd, List.append_nil] at h
    rw [hd, List.nil_append] at hr
    have hgap := h.gap hm hr
    omega
  | cons m rest =>
    rw [getVirtualTime_of_cons hd] at ht
    obtain rfl := Option.some.inj ht
    rw [hd, List.cons_append] at hr
    have hord := h.ordered
    rw [held, hd, List.append_assoc] at hord
    have hmine := (List.pairwise_append.mp hord).2.1
    rcases List.mem_cons.mp hr with rfl | hr
    · exact le_max_left _ _
    · exact (List.rel_of_pairwise_cons hmine hr).trans (le_max_left _ _)

/-- **What the search over virtual times publishes is optimal**, by induction on its rounds. -/
theorem optimal_of_virtualSearch (hp : 0 ≤ p.agePenalty) {q : Fin (n + 1)} (hc : Counted s)
    (hs : Search s q) (hres : ∀ i, Respects (p.interMessageLowerBounds i) (s.held i ++ later i))
    {moves : Fin (n + 1) → ℕ} (hq : moves q = 0) (hmoves : ∀ i, moves i ≤ (s.deques i).length)
    {fuel : ℕ} (hpub : virtualSearch p s.numNonEmptyDeques fuel (s.advance moves) moves =
      some ([s.candidate], s.published)) (r : Fin (n + 1) → StampedMsg α)
    (hr : ∀ i, r i ∈ (s.advance moves).deques i ++ later i) (hrq : (r q).stamp = s.pivotTime) :
    s.notBetter p (last r).2 (first r).2 = true := by
  induction fuel generalizing moves with
  | zero => cases hpub
  | succ fuel ih =>
    obtain ⟨times, hat, hround⟩ := virtualSearch_step (p := p) hc hs hq hmoves fuel
    have hpivot : (first r).2 ≤ s.pivotTime := hrq ▸ first_le r q
    -- the virtual end is no later than the end of any interval to come
    have hend : (boundary times true).2 ≤ (last r).2 := by
      rw [latest_time]
      generalize (boundary times true).1 = j
      have hle := virtualTime_le (by rw [held_advance]; exact hres j) (hat j) (hr j)
      have hpt : (s.advance moves).pivotTime = s.pivotTime := rfl
      have hj := le_last r j
      have hlq := le_last r q
      omega
    rcases hround with ⟨hopt, -⟩ | hgive | ⟨i, m, rest, hi, hd, -, -, hnot, hnext⟩
    · exact notBetter_mono hp hopt hend hpivot
    · rw [hgive] at hpub
      cases (Prod.mk.inj (Option.some.inj hpub)).1
    · by_cases hle : (first r).2 ≤ m.stamp
      · exact notBetter_mono hp hnot hend hle
      · -- the front that is moved aside is not among the later messages
        have hlen : moves i < (s.deques i).length := by
          have hd' : (s.deques i).drop (moves i) = m :: rest := hd
          by_contra hge
          rw [List.drop_eq_nil_of_le (by omega)] at hd'
          cases hd'
        rw [hnext] at hpub
        refine ih (by rw [Function.update_of_ne (Ne.symm hi)]; exact hq) (fun j => ?_) hpub
          (fun j => ?_)
        · by_cases hj : j = i
          · subst hj
            rw [Function.update_self]
            omega
          · rw [Function.update_of_ne hj]
            exact hmoves j
        · rw [← advance_moved, deques_moved]
          have hrj := hr j
          by_cases hj : j = i
          · subst hj
            rw [Function.update_self, hd, List.tail_cons]
            rw [hd, List.cons_append] at hrj
            refine (List.mem_cons.mp hrj).resolve_left fun heq => hle ?_
            rw [← heq]
            exact first_le r j
          · rw [Function.update_of_ne hj]
            exact hrj

/-- **What the policy publishes early is optimal.** -/
theorem optimal_of_publishChecks (hp : 0 ≤ p.agePenalty) {q i : Fin (n + 1)} (hs : Search s q)
    (hi : i ≠ q) (hres : ∀ j, Respects (p.interMessageLowerBounds j) (s.held j ++ later j))
    {f : Fin (n + 1) → StampedMsg α} (hheads : ∀ j, (s.deques j).head? = some (f j))
    (hpub : publishChecks p (s.moved i) i (last f).2 = some ([s.candidate], s.published)) :
    Optimal p ((s.moved i).extend later) q := by
  have hpivot : (s.moved i).pivot = some q := hs.pivot_eq
  have hpt : ((s.moved i).extend later).pivotTime = s.pivotTime := rfl
  intro r hr hrq
  rw [hpt] at hrq
  show s.notBetter p (last r).2 (first r).2 = true
  rw [publishChecks, hpivot, if_neg (by simpa using hi)] at hpub
  split at hpub
  · next hopt =>
    -- every front is no later than what is to come
    refine notBetter_mono hp hopt ?_ (hrq ▸ first_le r q)
    rw [latest_time]
    generalize (boundary (fun i => (f i).stamp) true).1 = j
    refine le_trans ?_ (le_last r j)
    obtain ⟨rest, hd⟩ := List.head?_eq_some_iff.mp (hheads j)
    have hord := (hres j).ordered
    rw [held, hd, List.append_assoc] at hord
    have hmine := (List.pairwise_append.mp hord).2.1
    have hrj : r j ∈ s.deques j ++ later j := by
      rcases List.mem_append.mp (hr j) with hmem | hmem
      · refine List.mem_append_left _ ?_
        rw [deques_moved] at hmem
        by_cases hji : j = i
        · subst hji
          rw [Function.update_self] at hmem
          exact List.mem_of_mem_tail hmem
        · rwa [Function.update_of_ne hji] at hmem
      · exact List.mem_append_right _ hmem
    rw [hd] at hrj
    rcases List.mem_cons.mp hrj with heq | hmem
    · rw [heq]
    · exact List.rel_of_pairwise_cons hmine hmem
  · split at hpub
    · have hzero := advance_zero (counted_moved s i)
      have hpub' : virtualSearch p (s.moved i).numNonEmptyDeques (total (s.moved i).deques + 1)
          ((s.moved i).advance fun _ => 0) (fun _ => 0) =
            some ([(s.moved i).candidate], (s.moved i).published) := by
        rw [hzero, hpub, moved, published_advance]
        rfl
      have hres' (j : Fin (n + 1)) :
          Respects (p.interMessageLowerBounds j) ((s.moved i).held j ++ later j) := by
        rw [moved, held_advance]
        exact hres j
      refine optimal_of_virtualSearch hp (counted_moved s i) (hs.moved hi) hres' rfl
        (fun _ => Nat.zero_le _) hpub' r (fun j => ?_) hrq
      rw [hzero]
      exact hr j
    · cases (Prod.mk.inj (Option.some.inj hpub)).1

/-! ## The reference follows -/

/-- What is held and what is to come keeps the lower bounds, and on every input something later
than everything held is to come. -/
def Ahead (p : Parameters n) (held later : Fin (n + 1) → List (StampedMsg α)) : Prop :=
  (∀ i, Respects (p.interMessageLowerBounds i) (held i ++ later i)) ∧
    ∀ i, ∃ m ∈ later i, ∀ j, ∀ m' ∈ held j, m'.stamp < m.stamp

/-- The published state of a candidate, with what is to come. -/
private theorem published_moved_extend {q : Fin (n + 1)} (hs : Search s q) (i : Fin (n + 1)) :
    ((s.moved i).extend later).published = s.published.extend later := by
  rw [published_extend fun j => by rw [moved, held_advance]; exact hs.held_ne j, moved,
    published_advance]

/-- **An iteration of the policy is iterations of the reference** on what is there and what is to
come: where the policy publishes early, the reference goes on until the pivot is exhausted. -/
theorem steps_of_iteration (hp : 0 ≤ p.agePenalty) (hinv : Inv s) (hahead : Ahead p s.held later)
    (hall : s.allNonEmpty = true) {out : List (Tuple (Fin (n + 1)) α)} {s' : ApproximateTime n α}
    (h : iteration p (publishChecks p) s = some (out, s')) :
    Searches p publishExhausted (s.extend later) out (s'.extend later) := by
  have hne := (allNonEmpty_iff hinv.1).mp hall
  have hall' : (s.extend later).allNonEmpty = true :=
    (allNonEmpty_iff (counted_extend s later)).mpr (extend_deques_ne hne)
  obtain ⟨f, hf, hheads⟩ := exists_fronts hne
  obtain ⟨hdrop, hkeep⟩ := iteration_eq (p := p) (publishChecks p) hinv.1 hne hf
  obtain ⟨hdrop', hkeep'⟩ := iteration_eq (p := p) publishExhausted hinv.1 hne hf
  -- a message that is dropped is dropped by both
  by_cases hd : drops p s f
  · rw [hdrop hd, ← hdrop' hd] at h
    exact .single hall' (iteration_extend hinv hall h)
  obtain ⟨q, hs⟩ := search_settled hinv hheads hd
  have hpivot : (settled p s f).pivot ≠ none := by
    rw [hs.pivot_eq]
    simp
  have hreference := hkeep' hd hpivot
  rw [hkeep hd hpivot] at h
  by_cases hi : (first f).1 = q
  · -- both are at the pivot
    have hqp : ((settled p s f).moved q).pivot = some q := hs.pivot_eq
    rw [hi, publishExhausted_pivot hs] at hreference
    rw [hi, publishChecks, hqp, if_pos rfl, publishCandidate_moved hs, ← hreference] at h
    exact .single hall' (iteration_extend hinv hall h)
  rw [publishExhausted_of_ne hs hi] at hreference
  have hstep : Searches p publishExhausted (s.extend later) []
      (((settled p s f).moved (first f).1).extend later) :=
    .single hall' (iteration_extend hinv hall hreference)
  rcases sound_publishChecks p _ q (first f).1 (last f).2 (counted_settled hinv.1) hs with
    hpub | ⟨-, hgo⟩
  · -- the policy publishes early: nothing that is to come is better
    have hheld (j : Fin (n + 1)) :
        Respects (p.interMessageLowerBounds j) ((settled p s f).held j ++ later j) := by
      have hsettled : ∃ gone, s.held j = gone ++ (settled p s f).held j := held_settled j
      obtain ⟨gone, hsplit⟩ := hsettled
      have hj := hahead.1 j
      rw [hsplit, List.append_assoc] at hj
      exact hj.right_of_append
    have hopt := optimal_of_publishChecks hp hs hi hheld
      (by rw [settled_deques]; exact hheads) hpub
    obtain ⟨m, rest, hm, -, hmt⟩ := hs.pivot_front
    -- every other topic still gets a message behind the pivot
    have hlate : ∀ i, i ≠ q → ∃ m' ∈ (((settled p s f).moved (first f).1).extend later).deques i,
        (((settled p s f).moved (first f).1).extend later).pivotTime < m'.stamp := by
      intro i _
      obtain ⟨m', hm', hlater⟩ := hahead.2 i
      refine ⟨m', List.mem_append_right _ hm', ?_⟩
      have hmem : m ∈ s.held q := by
        rw [settled_deques] at hm
        exact List.mem_append_right _ (by rw [hm]; exact List.mem_cons_self)
      have hlt := hlater q m hmem
      rw [hmt] at hlt
      exact hlt
    have hexhaust := steps_of_optimal (counted_extend _ later) (hs.moved hi).extend hopt hlate
    rw [published_moved_extend hs] at hexhaust
    rw [hpub] at h
    obtain ⟨rfl, rfl⟩ := Prod.mk.inj (Option.some.inj h)
    exact hstep.trans hexhaust
  · rw [hgo] at h
    obtain ⟨rfl, rfl⟩ := Prod.mk.inj (Option.some.inj h)
    exact hstep

/-- A condition on what is held and what is to come under which the reference follows. -/
structure Foresight (p : Parameters n) (checks : Checks n α)
    (G : (Fin (n + 1) → List (StampedMsg α)) → (Fin (n + 1) → List (StampedMsg α)) → Prop) :
    Prop where
  sound : Sound checks
  suffix : ∀ h h' later, (∀ i, ∃ gone, h i = gone ++ h' i) → G h later → G h' later
  arrive : ∀ (adds : List (Add (Fin (n + 1)) α)) a later,
    G (fun i => received i (adds ++ [a])) later → G (fun i => received i adds) (arrive a later)
  steps : ∀ (s : ApproximateTime n α) later out s', Inv s → G s.held later →
    s.allNonEmpty = true → iteration p checks s = some (out, s') →
    Searches p publishExhausted (s.extend later) out (s'.extend later)

/-- Of itself the reference needs no condition. -/
theorem foresight_reference (p : Parameters n) :
    Foresight p (publishExhausted : Checks n α) fun _ _ => True where
  sound := sound_publishExhausted
  suffix _ _ _ _ _ := trivial
  arrive _ _ _ _ := trivial
  steps s later _ _ hinv _ hall h := .single
    ((allNonEmpty_iff (counted_extend s later)).mpr
      (extend_deques_ne ((allNonEmpty_iff hinv.1).mp hall)))
    (iteration_extend hinv hall h)

theorem foresight_policy (hp : 0 ≤ p.agePenalty) :
    Foresight p (publishChecks p : Checks n α) (Ahead p) where
  sound := sound_publishChecks p
  suffix h h' later hsplit hG := by
    refine ⟨fun i => ?_, fun i => ?_⟩
    · obtain ⟨gone, heq⟩ := hsplit i
      have hi := hG.1 i
      rw [heq, List.append_assoc] at hi
      exact hi.right_of_append
    · obtain ⟨m, hm, hlater⟩ := hG.2 i
      refine ⟨m, hm, fun j m' hm' => hlater j m' ?_⟩
      obtain ⟨gone, heq⟩ := hsplit j
      rw [heq]
      exact List.mem_append_right _ hm'
  arrive adds a later hG := by
    refine ⟨fun i => ?_, fun i => ?_⟩
    · have hi : Respects _ (received i (adds ++ [a]) ++ later i) := hG.1 i
      rw [received_concat, List.append_assoc] at hi
      exact hi
    · obtain ⟨m, hm, hlater⟩ := hG.2 i
      refine ⟨m, List.mem_append_right _ hm, fun j m' hm' => hlater j m' ?_⟩
      show m' ∈ received j (adds ++ [a])
      rw [received_concat]
      exact List.mem_append_left _ hm'
  steps _ _ _ _ hinv hG hall h := steps_of_iteration hp hinv hG hall h

section Foresight

variable {checks : Checks n α}
  {G : (Fin (n + 1) → List (StampedMsg α)) → (Fin (n + 1) → List (StampedMsg α)) → Prop}

/-- Iterations are iterations of the reference. -/
theorem Foresight.searches (hfore : Foresight p checks G) {out : List (Tuple (Fin (n + 1)) α)}
    {s' : ApproximateTime n α} (hsteps : Searches p checks s out s') (hinv : Inv s)
    (hG : G s.held later) :
    Searches p publishExhausted (s.extend later) out (s'.extend later) := by
  refine hsteps.invariant (P := fun s out s' => Inv s → G s.held later →
    Searches p publishExhausted (s.extend later) out (s'.extend later))
    (fun s _ _ => .refl _) (fun s out s₁ out' s₂ hall hit ih hinv hG => ?_) hinv hG
  obtain ⟨out₁, s₁', hit', hinv', hcons, -⟩ := iteration_spec (p := p) hfore.sound hinv hall
  rw [hit] at hit'
  obtain ⟨rfl, rfl⟩ := Prod.mk.inj (Option.some.inj hit')
  have hG' : G s₁.held later := hfore.suffix _ _ later (fun i => by
    obtain ⟨gone, -, hsplit, -⟩ := hcons i
    exact ⟨gone, hsplit⟩) hG
  exact (hfore.steps _ later _ _ hinv hG hall hit).trans (ih hinv' hG')

/-- The limit of the queues is never reached in these adds. -/
def LimitNeverReached (p : Parameters n) (checks : Checks n α)
    (adds : List (Add (Fin (n + 1)) α)) : Prop :=
  ∀ before a after, adds = before ++ a :: after → ∀ out s out' s',
    tryFeed (addWith p checks) new before = some (out, s) →
    receive p s checks a = some (out', s') → s'.overflows p a.1 = false

theorem LimitNeverReached.of_concat {adds : List (Add (Fin (n + 1)) α)} {a : Add (Fin (n + 1)) α}
    (h : LimitNeverReached p checks (adds ++ [a])) : LimitNeverReached p checks adds :=
  fun before b after heq => h before b (after ++ [a]) (by rw [heq, List.append_assoc]; rfl)

/-- **Any adds are iterations of the reference**, from all messages in the deques. -/
theorem tryFeed_steps (hfore : Foresight p checks G) (adds : List (Add (Fin (n + 1)) α))
    (hlimit : LimitNeverReached p checks adds) :
    ∃ out s', tryFeed (addWith p checks) new adds = some (out, s') ∧ Inv s' ∧
      s'.allNonEmpty = false ∧ Accounts adds out s' ∧
      ∀ later, G (fun i => received i adds) later → Searches p publishExhausted
        (new.extend fun i => received i adds ++ later i) out (s'.extend later) := by
  induction adds using List.reverseRecOn with
  | nil =>
    have hready : Ready p (new : ApproximateTime n α) := ready_new
    obtain ⟨hinv, hstop, -⟩ := hready
    exact ⟨[], new, rfl, hinv, hstop, fun i => ⟨[], [], rfl, rfl, List.Sublist.refl _⟩,
      fun later _ => .refl _⟩
  | append_singleton adds a ih =>
    obtain ⟨out, s₁, hrun, hinv, hstop, hacc, hsteps⟩ := ih hlimit.of_concat
    obtain ⟨out', s₂, hreceive, hinv₂, hcons, hstop₂⟩ :=
      receive_spec (p := p) hfore.sound hinv hstop a
    have hfits := hlimit adds a [] rfl _ _ _ _ hrun hreceive
    refine ⟨out ++ out', s₂, tryFeed_concat hrun (addWith_of_fits hreceive hfits), hinv₂, hstop₂,
      hacc.add hcons, fun later hG => ?_⟩
    have harrive : (fun i => received i (adds ++ [a]) ++ later i) =
        fun i => received i adds ++ arrive a later i := by
      funext i
      rw [received_concat, List.append_assoc]
      rfl
    have hbefore := hsteps _ (hfore.arrive adds a later hG)
    have hG₁ : G (s₁.pushBack a).held later := hfore.suffix _ _ later (fun i => by
      obtain ⟨gone, -, hsplit, -⟩ := hacc.add (.refl (s₁.pushBack a)) i
      exact ⟨gone, hsplit⟩) hG
    have hafter := hfore.searches (searches_of_receive hreceive) (inv_pushBack hinv a) hG₁
    rw [extend_pushBack] at hafter
    rw [harrive]
    exact hbefore.trans hafter

end Foresight

/-- A queue size of at least the number of messages is never reached. -/
theorem limitNeverReached_of_length {checks : Checks n α} (hsound : Sound checks)
    (hp : 0 ≤ p.agePenalty) {adds : List (Add (Fin (n + 1)) α)} (h : adds.length ≤ p.queueSize) :
    LimitNeverReached p checks adds := by
  intro before a after hsplit out s out' s' hrun hreceive
  rw [hsplit, List.length_append, List.length_cons] at h
  obtain ⟨out₁, s₁, hrun₁, ⟨hinv, hstop, -⟩, hacc, -⟩ :=
    tryFeed_output hsound (by omega) hp before
  rw [hrun] at hrun₁
  obtain ⟨rfl, rfl⟩ := Prod.mk.inj (Option.some.inj hrun₁)
  obtain ⟨out₂, s₂, hreceive₂, -, hcons, -⟩ := receive_spec (p := p) hsound hinv hstop a
  rw [hreceive] at hreceive₂
  obtain ⟨rfl, rfl⟩ := Prod.mk.inj (Option.some.inj hreceive₂)
  obtain ⟨gone, -, hreceived, -⟩ := hacc.add hcons a.1
  have hlen : (received a.1 (before ++ [a])).length ≤ (before ++ [a]).length := by
    rw [received, List.length_map]
    exact List.length_filter_le _ _
  rw [hreceived, List.length_append, List.length_append, List.length_singleton] at hlen
  refine Bool.eq_false_iff.mpr fun hover => ?_
  rw [overflows_iff] at hover
  omega

/-! ## Agreement -/

theorem extend_nil (hc : Counted s) : (s.extend fun _ => []) = s := by
  simp only [extend, List.append_nil]
  rw [← hc]

theorem mem_received {i : Fin (n + 1)} {m : StampedMsg α} {adds : List (Add (Fin (n + 1)) α)} :
    m ∈ received i adds ↔ (i, m) ∈ adds := by
  rw [received, List.mem_map]
  constructor
  · rintro ⟨⟨j, m'⟩, hmem, rfl⟩
    obtain ⟨hadd, hj⟩ := List.mem_filter.mp hmem
    obtain rfl : j = i := of_decide_eq_true hj
    exact hadd
  · exact fun hmem => ⟨(i, m), List.mem_filter.mpr ⟨hmem, by simp⟩, rfl⟩

private theorem exists_later_stamp (p : Parameters n) (adds : List (Add (Fin (n + 1)) α)) :
    ∃ t, ∀ a ∈ adds, a.2.stamp < t ∧ a.2.stamp + p.interMessageLowerBounds a.1 ≤ t := by
  induction adds with
  | nil => exact ⟨0, nofun⟩
  | cons a adds ih =>
    obtain ⟨t, ht⟩ := ih
    refine ⟨max t (max (a.2.stamp + 1) (a.2.stamp + p.interMessageLowerBounds a.1)),
      fun b hb => ?_⟩
    rcases List.mem_cons.mp hb with rfl | hb
    · omega
    · have hle := ht b hb
      omega

/-- After any messages later ones can come. -/
theorem exists_ahead {adds : List (Add (Fin (n + 1)) α)} (hne : adds ≠ [])
    (hres : ∀ i, Respects (p.interMessageLowerBounds i) (received i adds)) :
    ∃ later, Ahead p (fun i => received i adds) later := by
  obtain ⟨a, -, -⟩ := List.exists_cons_of_ne_nil hne
  obtain ⟨t, ht⟩ := exists_later_stamp p adds
  refine ⟨fun _ => [⟨t, a.2.payload⟩], fun i => ?_, fun i => ?_⟩
  · refine List.isChain_append.mpr ⟨hres i, .singleton _, fun m hm m' hm' => ?_⟩
    obtain rfl := Option.some.inj hm'
    obtain ⟨hlt, hle⟩ := ht (i, m) (mem_received.mp (List.mem_of_getLast? hm))
    exact ⟨hlt.le, hle⟩
  · refine ⟨_, List.mem_cons_self, fun j m hm => ?_⟩
    exact (ht (j, m) (mem_received.mp hm)).1

end Agnocast.MessageFilters.ApproximateTime
