import Agnocast.ThreadConfigurator.Precedence

/-!
# The thread configurator — what a reapply answers for

* `Accounted` — what the response tells of the entries that the executor has been over.
* `reapply_accounts` — an answer is for the threads that the entries know.
-/

namespace Agnocast

open Transition Index

/-- The callback groups of a response, with or without success. -/
def ReapplyResponse.told (r : ReapplyResponse) : List Name :=
  r.appliedCallbackGroups ++ r.failedCallbackGroups

/-- What a response is to tell, entry by entry. -/
def Configurator.due (s : Configurator) : List (List Name) :=
  s.node.callbackGroupConfigs.map fun c => c.known.map fun e => callbackGroupKey c.domainId e.1

/-- What it tells on the way. -/
def Accounted (due : List (List Name)) : ConfiguratorPlace → Prop
  | .applying i r => r.told.Perm (due.take i).flatten
  | .applyingMarked i r => r.told.Perm (due.take (i + 1)).flatten
  | .appliedNonRos r => r.told.Perm due.flatten
  | _ => True

/-- The body of the loop answers for its entry. -/
private theorem told_applyCallbackGroup (succeeds : Nat → Syscall → Bool) (c : ThreadConfig)
    (r : ReapplyResponse) : (applyCallbackGroup succeeds c r).2.told.Perm
      (r.told ++ c.known.map fun e => callbackGroupKey c.domainId e.1) := by
  obtain ⟨done, failed, hperm, happlied, hfailed⟩ := applyCallbackGroup_known succeeds c r
  have hkeys := hperm.map fun e => callbackGroupKey c.domainId e.1
  rw [List.map_append] at hkeys
  unfold ReapplyResponse.told
  rw [happlied, hfailed, List.append_assoc, List.append_assoc]
  refine List.Perm.append_left _ (.trans ?_ (.append_left _ hkeys))
  exact List.perm_append_comm_assoc ..

/-- The other threads are told apart. -/
private theorem told_applyNonRosThreads (succeeds : Nat → Syscall → Bool) (i : Nat)
    (configs : List ThreadConfig) (r : ReapplyResponse) :
    (applyNonRosThreads succeeds i configs r).2.2.told = r.told := by
  induction configs generalizing i r with
  | nil => rfl
  | cons c rest ih =>
    unfold applyNonRosThreads
    split
    · exact ih ..
    split
    · split <;> exact ih ..
    · exact ih ..

/-- The executor's own step, and its answer. -/
private theorem Accounted.proceed {s : Configurator} (h : Accounted s.due s.place)
    (succeeds : Nat → Syscall → Bool) (m : Machine) :
    Accounted (s.proceed succeeds m).2.due (s.proceed succeeds m).2.place ∧
      ∀ r ∈ (s.proceed succeeds m).1, r.told.Perm s.due.flatten := by
  obtain ⟨n, place⟩ := s
  unfold Configurator.proceed
  cases place with
  | recorded index tid =>
    dsimp only
    repeat' split
    all_goals exact ⟨trivial, nofun⟩
  | applying i r =>
    dsimp only
    split
    · next c hc =>
      have htold : (applyCallbackGroup succeeds c r).2.told.Perm
          ((Configurator.due ⟨n, .applying i r⟩).take (i + 1)).flatten := by
        rw [List.take_add_one, List.flatten_append]
        unfold Configurator.due
        rw [List.getElem?_map, hc]
        exact (told_applyCallbackGroup succeeds c r).trans (List.Perm.append h (by simp))
      generalize applyCallbackGroup succeeds c r = outcome at htold
      obtain ⟨applied, r'⟩ := outcome
      dsimp only at htold ⊢
      split
      -- the mark is not among what an entry knows
      · refine ⟨?_, nofun⟩
        show List.Perm _ (List.take _ (List.map _ (List.modify _ i _))).flatten
        rwa [map_modify (f := ThreadConfig.markApplied) fun _ => rfl]
      · exact ⟨htold, nofun⟩
    · next hnone =>
      refine ⟨.trans (.of_eq (told_applyNonRosThreads succeeds 0 _ r)) (h.trans (.of_eq ?_)), nofun⟩
      rw [List.take_of_length_le (by simpa [Configurator.due] using hnone)]
      rfl
  | swapped => exact ⟨.nil, nofun⟩
  | applyingMarked => exact ⟨h, nofun⟩
  | appliedNonRos r =>
    refine ⟨trivial, fun r' hr' => ?_⟩
    obtain rfl := Option.some.inj hr'
    exact h
  | _ => exact ⟨trivial, nofun⟩

/-- **A reapply answers for exactly the threads that the entries know**, in every run and whatever
the listener hears in between. -/
theorem reapply_accounts {asInt : Name → Option Int} {asUnsigned : Name → Option Nat}
    {cpus defaultDomainId : Nat} {configFile : Name} {s : Configurator}
    (h : Transition.Reachable
      (threadConfigurator asInt asUnsigned cpus defaultDomainId configFile) s)
    (succeeds : Nat → Syscall → Bool) (m : Machine) :
    ∀ r ∈ (s.proceed succeeds m).1, r.told.Perm s.due.flatten := by
  refine And.right (Accounted.proceed ?_ succeeds m)
  refine Transition.Reachable.invariant (P := fun s => Accounted s.due s.place)
    (fun s hinit => ?_) (fun s i hreach hs => ?_) h
  · obtain ⟨_, _, _, _, _, _, rfl⟩ := hinit
    trivial
  cases i with
  | proceed succeeds m => exact (hs.proceed succeeds m).1
  | nonRosThread name tid succeeds =>
    have hok := nonRosThreadCallback_ok (configuratorOk_of_reachable hreach).node name tid succeeds
    unfold Configurator.due at *
    exact hok.2.1.symm ▸ hs
  -- the executor takes no callback while it is in one
  | _ =>
    simp only [threadConfigurator, Configurator.step, Configurator.take,
      Configurator.onReapplyConfigRequest]
    repeat' split
    all_goals first
      | exact hs
      | trivial

/-- `/n@a` is announced, and the document is reapplied. -/
theorem reapply_accounts_instance :
    let s := (smallConfigurator.exec loadedConfigurator [] [.callbackGroup 0 "/n@a".toList 7,
      proceedWell, proceedWell, .reapplyConfig (.ok wildcardDocument), proceedWell, proceedWell,
      proceedWell, proceedWell]).2
    ∃ r ∈ (s.proceed (fun _ _ => true) ⟨[], [], 4⟩).1, r.told.Perm ["0:/n@a".toList] := by
  intro s
  have hreach : Transition.Reachable smallConfigurator s := .exec loadedConfigurator_init _
  exact ⟨_, rfl, reapply_accounts hreach (fun _ _ => true) ⟨[], [], 4⟩ _ rfl⟩

end Agnocast
