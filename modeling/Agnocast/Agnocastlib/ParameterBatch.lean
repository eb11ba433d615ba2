import Agnocast.Agnocastlib.ParameterStore

/-!
# Node parameters — a batch and its elements in order

`set_parameters_atomically` declares, sets and undeclares in three phases, whatever the order of
the elements. `set_parameters` applies the elements one after another.

* `setParametersAtomicallyAsserted` — the batch with its assertions; `none` is one that fails.
* `NodeParameters.setParameters` — the elements in order.
* `stageParameters_eq`, `count_parametersToBeUndeclared`, `get_applyParameters` — what each phase
  does, told by the values that the batch has for a name.
* `commitAsserted_eq_some` — when no assertion fails.
* `foldl_element_of_no_value`, `foldl_element_of_set` — what elements do in order.
* `step_accepted`, `setParameters_get` — what either makes of a name.
* `batch_in_order` — when both are the same and no assertion fails.
-/

namespace Agnocast

open Transition

variable {typeName : ParameterType → Name} {lock : LockHandle}
  {nested : NodeParameters → ParameterCall → ParameterResponse × NodeParameters}

/-! ## The assertions -/

/-- The first of the two last loops: the parameter is there, with the value of the declaration. -/
def assertStaged (infos : ParameterMap) (change : Name × ParameterInfo) : Option ParameterMap :=
  match Dict.get infos change.1 with
  | none => none
  | some info =>
    if info.value == change.2.value then some (Dict.set infos change.1 change.2) else none

/-- The second: the parameter to be undeclared is there. -/
def assertUndeclared (infos : ParameterMap) (name : Name) : Option ParameterMap :=
  if (Dict.get infos name).isSome then some (Dict.erase infos name) else none

/-- The two last loops of `set_parameters_atomically`, with their assertions. -/
def commitAsserted (staged : ParameterMap) (undeclared : List Name) (infos : ParameterMap) :
    Option ParameterMap := do
  let infos ← staged.foldlM assertStaged infos
  undeclared.foldlM assertUndeclared infos

/-- `set_parameters_atomically`, behind its guard, with its assertions. -/
def setParametersAtomicallyAsserted (typeName : ParameterType → Name) (lock : LockHandle)
    (nested : NodeParameters → ParameterCall → ParameterResponse × NodeParameters)
    (parameters : List Parameter) (s : NodeParameters) :
    Option (ParameterResponse × NodeParameters) :=
  match parametersToBeDeclared s parameters with
  | .error response => some (response, s)
  | .ok toBeDeclared =>
    match stageParameters typeName lock nested toBeDeclared [] s with
    | (.error response, s) => some (response, s)
    | (.ok staged, s) =>
      let toBeSet := parametersToBeSet parameters staged
      match parametersToBeUndeclared s toBeSet with
      | .error response => some (response, s)
      | .ok undeclared =>
        match setParametersAtomicallyCommon typeName lock nested toBeSet true s.allowUndeclared
          ⟨s, none⟩ with
        | (.error e, w) => some (.threw e, w.store)
        | (.ok result, w) =>
          if !result.successful then some (.result result, w.store)
          else
            (commitAsserted staged undeclared w.store.parameters).map fun infos =>
              (.result result, { w.store with parameters := infos })

/-- The call with its assertions. -/
def NodeParameters.setAsserted (typeName : ParameterType → Name) (lock : LockHandle)
    (s : NodeParameters) (parameters : List Parameter) :
    Option (ParameterResponse × NodeParameters) :=
  if !s.parameterModificationEnabled then some (.threw .parameterModifiedInCallback, s)
  else
    (setParametersAtomicallyAsserted typeName lock
      (fun s call => s.call typeName lock nestedTwice call) parameters
      { s with parameterModificationEnabled := false }).map fun outcome =>
        (outcome.1, { outcome.2 with parameterModificationEnabled := true })

/-- `set_parameters`: one call for each element, until one throws. -/
def NodeParameters.setParameters (typeName : ParameterType → Name) (lock : LockHandle)
    (s : NodeParameters) : List Parameter → List ParameterResponse × NodeParameters
  | [] => ([], s)
  | parameter :: rest =>
    match s.step typeName ⟨.setParametersAtomically [parameter], lock⟩ with
    | (.threw e, s) => ([.threw e], s)
    | (response, s) =>
      (response :: (s.setParameters typeName lock rest).1, (s.setParameters typeName lock rest).2)

/-- A call that returned success. -/
def ParameterResponse.accepted : ParameterResponse → Bool
  | .result r => r.successful
  | _ => false

/-! ## The values of a name -/

/-- The values that a batch has for a name. -/
def valuesOf (name : Name) (parameters : List Parameter) : List ParameterValue :=
  (parameters.filter fun parameter => parameter.name = name).map Parameter.value

theorem valuesOf_cons (name : Name) (p : Parameter) (rest : List Parameter) :
    valuesOf name (p :: rest) =
      (if p.name = name then [p.value] else []) ++ valuesOf name rest := by
  unfold valuesOf
  rw [List.filter_cons]
  by_cases hname : p.name = name <;> simp [hname]

theorem valuesOf_eq_nil {name : Name} {parameters : List Parameter} :
    valuesOf name parameters = [] ↔ name ∉ parameters.map Parameter.name := by
  simp [valuesOf, List.filter_eq_nil_iff]

/-- What a parameter that is declared implicitly is before it has a value. -/
def implicitBlank : ParameterInfo :=
  ⟨.notSet, { ParameterDescriptor.blank with dynamicTyping := true }⟩

/-- A value that is not set. -/
def ParameterValue.unset (value : ParameterValue) : Bool := decide (value.getType = .notSet)

theorem ParameterValue.eq_notSet {value : ParameterValue} (h : value.getType = .notSet) :
    value = .notSet := by
  cases value <;> first | rfl | cases h

/-- The last value of a name is the one that is set. -/
theorem get_applyParameters (parameters : List Parameter) (infos : ParameterMap) (name : Name) :
    Dict.get (applyParameters parameters infos) name =
      ((valuesOf name parameters).getLast?.map fun v =>
        ((Dict.get infos name).getD .blank).assign ⟨name, v⟩).or (Dict.get infos name) := by
  induction parameters generalizing infos with
  | nil => rfl
  | cons p rest ih =>
    have hsub : (subscript infos p.name).1 = (Dict.get infos p.name).getD .blank := by
      unfold subscript
      cases Dict.get infos p.name <;> rfl
    rw [applyParameters_cons, ih, Dict.get_set, valuesOf_cons, List.getLast?_append, hsub]
    by_cases hname : p.name = name
    · subst hname
      cases (valuesOf p.name rest).getLast? <;> simp [ParameterInfo.assign]
    · simp [hname, Ne.symm hname]

/-! ## Staging -/

private theorem get_singleton (name : Name) (info : ParameterInfo) :
    Dict.get [(name, info)] name = some info := by
  rw [Dict.get_cons, if_pos rfl, Option.some_or]

/-- A dynamically typed descriptor without ranges lets every value through. -/
private theorem checkParameters_implicit (name : Name) (value : ParameterValue) :
    checkParameters typeName false [⟨name, value⟩] [(name, implicitBlank)] =
      (.success, [(name, implicitBlank)]) := by
  have hdescriptor : descriptorToCheck [(name, implicitBlank)] name false =
      (implicitBlank.descriptor, [(name, implicitBlank)]) := by
    unfold descriptorToCheck subscript
    rw [get_singleton]
    rfl
  have hcheck : checkParameter typeName implicitBlank.descriptor ⟨name, value⟩ = .success := rfl
  unfold checkParameters
  dsimp only
  rw [hdescriptor, hcheck]
  rfl

/-- **An implicit declaration** is never refused. -/
theorem declareParameterCommon_implicit (name : Name) (value : ParameterValue)
    (s : NodeParameters) :
    declareParameterCommon typeName lock nested name value implicitBlank.descriptor false true s =
      (.ok (.success, some (implicitBlank.assign ⟨name, value⟩)), s) := by
  unfold declareParameterCommon
  dsimp only
  rw [if_pos rfl]
  by_cases hunset : value.getType = .notSet
  · rw [if_pos hunset, ParameterValue.eq_notSet hunset]
    rfl
  · have happly : applyParameters [⟨name, value⟩] [(name, implicitBlank)] =
        Dict.set [(name, implicitBlank)] name (implicitBlank.assign ⟨name, value⟩) := by
      show Dict.set _ name ((subscript _ name).1.assign ⟨name, value⟩) = _
      unfold subscript
      rw [get_singleton]
    have hcommon : setParametersAtomicallyCommon typeName lock nested [⟨name, value⟩] false false
        ⟨s, some [(name, implicitBlank)]⟩ = (.ok .success, ⟨s, some (Dict.set
          [(name, implicitBlank)] name (implicitBlank.assign ⟨name, value⟩))⟩) := by
      have hinfos : ParameterWork.infos ⟨s, some [(name, implicitBlank)]⟩ =
          [(name, implicitBlank)] := rfl
      unfold setParametersAtomicallyCommon
      rw [hinfos, checkParameters_implicit, ← happly]
      rfl
    have hget : Dict.get (ParameterWork.infos ⟨s, some (Dict.set [(name, implicitBlank)] name
        (implicitBlank.assign ⟨name, value⟩))⟩) name =
          some (implicitBlank.assign ⟨name, value⟩) := by
      show Dict.get (Dict.set _ name _) name = _
      rw [Dict.get_set, if_pos rfl]
    have hblank : (⟨.notSet, implicitBlank.descriptor⟩ : ParameterInfo) = implicitBlank := rfl
    rw [if_neg hunset, hblank, hcommon]
    dsimp only
    rw [hget]
    rfl

/-- `staged_parameter_changes`, when `toBeDeclared` has been staged. -/
def stagedChanges (toBeDeclared : List Parameter) (staged : ParameterMap) : ParameterMap :=
  toBeDeclared.foldl
    (fun staged p => Dict.set staged p.name (implicitBlank.assign ⟨p.name, p.value⟩)) staged

/-- **Staging** changes nothing and is never refused. -/
theorem stageParameters_eq (toBeDeclared : List Parameter) (staged : ParameterMap)
    (s : NodeParameters) :
    stageParameters typeName lock nested toBeDeclared staged s =
      (.ok (stagedChanges toBeDeclared staged), s) := by
  induction toBeDeclared generalizing staged with
  | nil => rfl
  | cons p rest ih =>
    have hdeclare : declareParameterCommon typeName lock nested p.name p.value
        implicitBlank.descriptor false true s = _ :=
      declareParameterCommon_implicit p.name p.value s
    unfold stageParameters
    rw [show ({ ParameterDescriptor.blank with dynamicTyping := true } : ParameterDescriptor) =
      implicitBlank.descriptor from rfl, hdeclare]
    exact ih _

theorem get_stagedChanges (toBeDeclared : List Parameter) (staged : ParameterMap) (name : Name) :
    Dict.get (stagedChanges toBeDeclared staged) name =
      ((valuesOf name toBeDeclared).getLast?.map fun v => implicitBlank.assign ⟨name, v⟩).or
        (Dict.get staged name) := by
  induction toBeDeclared generalizing staged with
  | nil => rfl
  | cons p rest ih =>
    show Dict.get (stagedChanges rest (Dict.set staged p.name _)) name = _
    rw [ih, Dict.get_set, valuesOf_cons, List.getLast?_append]
    by_cases hname : p.name = name
    · subst hname
      cases (valuesOf p.name rest).getLast? <;> simp
    · simp [hname, Ne.symm hname]

theorem nodup_keys_stagedChanges (toBeDeclared : List Parameter) :
    ((stagedChanges toBeDeclared []).map Prod.fst).Nodup := by
  suffices hall : ∀ staged : ParameterMap, (staged.map Prod.fst).Nodup →
      ((stagedChanges toBeDeclared staged).map Prod.fst).Nodup from hall [] List.nodup_nil
  induction toBeDeclared with
  | nil => exact fun staged h => h
  | cons p rest ih => exact fun staged h => ih _ (Dict.nodup_keys_set h)

/-- The first pass collects what is not declared. -/
theorem parametersToBeDeclared_eq {s : NodeParameters} {parameters toBeDeclared : List Parameter}
    (h : parametersToBeDeclared s parameters = .ok toBeDeclared) :
    toBeDeclared = parameters.filter fun p => (Dict.get s.parameters p.name).isNone := by
  induction parameters generalizing toBeDeclared with
  | nil =>
    cases h
    rfl
  | cons p rest ih =>
    unfold parametersToBeDeclared at h
    split at h
    · cases h
    split at h
    · next hnone =>
      rw [List.filter_cons, if_pos (by rw [hnone]; rfl)]
      split at h
      · cases hrest : parametersToBeDeclared s rest with
        | error response =>
          rw [hrest] at h
          cases h
        | ok l =>
          rw [hrest] at h
          cases h
          rw [← ih hrest]
      · cases h
    · next info hinfo =>
      rw [List.filter_cons, if_neg (by rw [hinfo]; simp)]
      split at h
      · cases h
      · exact ih h

theorem valuesOf_toBeDeclared {s : NodeParameters} {parameters toBeDeclared : List Parameter}
    (h : parametersToBeDeclared s parameters = .ok toBeDeclared) (name : Name) :
    valuesOf name toBeDeclared =
      if Dict.get s.parameters name = none then valuesOf name parameters else [] := by
  rw [parametersToBeDeclared_eq h]
  unfold valuesOf
  rw [List.filter_filter]
  split
  · next hnone =>
    congr 1
    refine List.filter_congr fun p _ => ?_
    by_cases hname : p.name = name
    · simp [hname, hnone]
    · simp [hname]
  · next hsome =>
    rw [List.map_eq_nil_iff, List.filter_eq_nil_iff]
    intro p _ hp
    simp only [Bool.and_eq_true, decide_eq_true_eq, Option.isNone_iff_eq_none] at hp
    exact hsome (hp.1 ▸ hp.2)

/-! ## What is set and what is undeclared -/

private theorem valuesOf_assignFirst_ne {name name' : Name} (hname : name' ≠ name)
    (value : ParameterValue) (parameters : List Parameter) :
    valuesOf name (assignFirst name' value parameters) = valuesOf name parameters := by
  induction parameters with
  | nil => rfl
  | cons p rest ih =>
    unfold assignFirst
    split
    · next heq => rw [valuesOf_cons, valuesOf_cons, heq, if_neg hname, if_neg hname]
    · rw [valuesOf_cons, valuesOf_cons, ih]

/-- Whoever assigns the last value to the first parameter of a name does not change the last. -/
private theorem getLast?_assignFirst {name : Name} {value : ParameterValue}
    {parameters : List Parameter} (h : (valuesOf name parameters).getLast? = some value) :
    (valuesOf name (assignFirst name value parameters)).getLast? = some value := by
  induction parameters with
  | nil => cases h
  | cons p rest ih =>
    rw [valuesOf_cons, List.getLast?_append] at h
    unfold assignFirst
    split
    · rw [valuesOf_cons, List.getLast?_append, if_pos rfl]
      cases hrest : (valuesOf name rest).getLast? with
      | none => rfl
      | some w =>
        rw [hrest] at h
        exact h
    · next hne =>
      rw [if_neg hne, List.getLast?_nil, Option.or_none] at h
      rw [valuesOf_cons, if_neg hne, List.nil_append, ih h]

private theorem getLast?_foldl_assignFirst {parameters : List Parameter} {staged : ParameterMap}
    (hstaged : ∀ e ∈ staged, (valuesOf e.1 parameters).getLast? = some e.2.value)
    {copy : List Parameter}
    (hcopy : ∀ name, (valuesOf name copy).getLast? = (valuesOf name parameters).getLast?)
    (name : Name) :
    (valuesOf name (staged.foldl (fun copy change => assignFirst change.1 change.2.value copy)
      copy)).getLast? = (valuesOf name parameters).getLast? := by
  induction staged generalizing copy with
  | nil => exact hcopy name
  | cons e staged ih =>
    refine ih (fun e he => hstaged e (List.mem_cons_of_mem _ he)) fun name' => ?_
    have hvalue := hstaged e List.mem_cons_self
    by_cases hname : e.1 = name'
    · subst hname
      rw [getLast?_assignFirst ((hcopy e.1).trans hvalue), hvalue]
    · rw [valuesOf_assignFirst_ne hname, hcopy]

private theorem valuesOf_foldl_assignFirst {staged : ParameterMap} {name : Name}
    (hname : name ∉ staged.map Prod.fst) (copy : List Parameter) :
    valuesOf name (staged.foldl (fun copy change => assignFirst change.1 change.2.value copy)
      copy) = valuesOf name copy := by
  induction staged generalizing copy with
  | nil => rfl
  | cons e staged ih =>
    rw [List.map_cons, List.mem_cons, not_or] at hname
    rw [List.foldl_cons, ih hname.2, valuesOf_assignFirst_ne (Ne.symm hname.1)]

/-- The copy of the batch keeps the last values. -/
theorem getLast?_parametersToBeSet {parameters : List Parameter} {staged : ParameterMap}
    (hstaged : ∀ e ∈ staged, (valuesOf e.1 parameters).getLast? = some e.2.value) (name : Name) :
    (valuesOf name (parametersToBeSet parameters staged)).getLast? =
      (valuesOf name parameters).getLast? := by
  unfold parametersToBeSet
  dsimp only
  split
  · exact getLast?_foldl_assignFirst hstaged (fun name => rfl) name
  · rfl

/-- It keeps all values of what is not staged. -/
theorem valuesOf_parametersToBeSet {staged : ParameterMap} {name : Name}
    (hname : name ∉ staged.map Prod.fst) (parameters : List Parameter) :
    valuesOf name (parametersToBeSet parameters staged) = valuesOf name parameters := by
  unfold parametersToBeSet
  dsimp only
  split
  · exact valuesOf_foldl_assignFirst hname parameters
  · rfl

/-- A parameter that is declared and has a value. -/
def holdsValue (info? : Option ParameterInfo) : Bool := info?.any fun info => !info.value.unset

/-- A name is to be undeclared as often as the batch unsets it, if it has a value. -/
theorem count_parametersToBeUndeclared {s : NodeParameters} {parameters : List Parameter}
    {undeclared : List Name} (h : parametersToBeUndeclared s parameters = .ok undeclared)
    (name : Name) :
    undeclared.count name = if holdsValue (Dict.get s.parameters name) then
      (valuesOf name parameters).countP ParameterValue.unset else 0 := by
  induction parameters generalizing undeclared with
  | nil =>
    cases h
    split <;> rfl
  | cons p rest ih =>
    rw [valuesOf_cons, List.countP_append]
    -- a parameter that is not collected counts for nothing
    have hskip (hp : holdsValue (Dict.get s.parameters p.name) = false ∨ p.value.unset = false)
        (hrest : parametersToBeUndeclared s rest = .ok undeclared) :
        undeclared.count name = if holdsValue (Dict.get s.parameters name) then
          (if p.name = name then [p.value] else []).countP ParameterValue.unset +
            (valuesOf name rest).countP ParameterValue.unset else 0 := by
      rw [ih hrest]
      split
      · next hholds =>
        split
        · next heq =>
          rcases hp with hp | hp
          · rw [heq, hholds] at hp
            cases hp
          · rw [List.countP_singleton, if_neg (by simp [hp]), Nat.zero_add]
        · rw [List.countP_nil, Nat.zero_add]
      · rfl
    unfold parametersToBeUndeclared at h
    split at h
    · next hunset =>
      split at h
      · next hnone => exact hskip (.inl (by rw [hnone]; rfl)) h
      next info hinfo =>
      split at h
      · next hinfounset =>
        refine hskip (.inl ?_) h
        rw [hinfo]
        simp [holdsValue, ParameterValue.unset, hinfounset]
      next hset =>
      split at h
      · cases h
      · cases hl : parametersToBeUndeclared s rest with
        | error response =>
          rw [hl] at h
          cases h
        | ok l =>
          rw [hl] at h
          cases h
          have hholds : holdsValue (Dict.get s.parameters p.name) = true := by
            rw [hinfo]
            simp [holdsValue, ParameterValue.unset, hset]
          rw [List.count_cons, ih hl]
          by_cases hname : p.name = name
          · subst hname
            have hone : p.value.unset = true := by simp [ParameterValue.unset, hunset]
            rw [if_pos hholds, if_pos hholds, if_pos rfl, if_pos (by simp),
              List.countP_singleton, if_pos hone, Nat.add_comm]
          · have hne : ¬(p.name == name) = true := by simpa using hname
            rw [if_neg hname, if_neg hne, List.countP_nil, Nat.zero_add, Nat.add_zero]
    · next hset => exact hskip (.inr (by simp [ParameterValue.unset, hset])) h

/-! ## The last two loops -/

theorem foldlM_assertStaged {staged : ParameterMap} (hnd : (staged.map Prod.fst).Nodup)
    {infos outcome : ParameterMap} :
    staged.foldlM assertStaged infos = some outcome ↔
      (∀ e ∈ staged, ∃ info, Dict.get infos e.1 = some info ∧
        (info.value == e.2.value) = true) ∧
      outcome = staged.foldl (fun infos change => Dict.set infos change.1 change.2) infos := by
  induction staged generalizing infos with
  | nil =>
    exact ⟨fun h => ⟨fun e he => absurd he List.not_mem_nil, (Option.some.inj h).symm⟩,
      fun h => congrArg some h.2.symm⟩
  | cons e staged ih =>
    rw [List.map_cons, List.nodup_cons] at hnd
    -- the assignment to this entry is not one to a later one
    have hlater : (∀ e' ∈ staged, ∃ info, Dict.get (Dict.set infos e.1 e.2) e'.1 = some info ∧
        (info.value == e'.2.value) = true) ↔
        ∀ e' ∈ staged, ∃ info, Dict.get infos e'.1 = some info ∧
          (info.value == e'.2.value) = true := by
      refine forall₂_congr fun e' he' => ?_
      rw [Dict.get_set, if_neg]
      intro heq
      exact hnd.1 (heq ▸ List.mem_map_of_mem he')
    rw [List.foldlM_cons, List.forall_mem_cons, List.foldl_cons, and_assoc]
    unfold assertStaged
    cases hinfo : Dict.get infos e.1 with
    | none => simp
    | some info =>
      dsimp only
      split
      · next heq =>
        show staged.foldlM assertStaged _ = some outcome ↔ _
        rw [ih hnd.2, hlater]
        simp [heq]
      · next hne => simp [hne]

theorem foldlM_assertUndeclared {undeclared : List Name} {infos outcome : ParameterMap} :
    undeclared.foldlM assertUndeclared infos = some outcome ↔
      undeclared.Nodup ∧ (∀ name ∈ undeclared, (Dict.get infos name).isSome = true) ∧
      outcome = undeclared.foldl Dict.erase infos := by
  induction undeclared generalizing infos with
  | nil =>
    exact ⟨fun h => ⟨List.nodup_nil, fun name hname => absurd hname List.not_mem_nil,
      (Option.some.inj h).symm⟩, fun h => congrArg some h.2.2.symm⟩
  | cons name undeclared ih =>
    rw [List.foldlM_cons, List.forall_mem_cons, List.foldl_cons, List.nodup_cons]
    unfold assertUndeclared
    split
    · next hsome =>
      have hlater : (∀ name' ∈ undeclared, (Dict.get (Dict.erase infos name) name').isSome = true) ↔
          name ∉ undeclared ∧ ∀ name' ∈ undeclared, (Dict.get infos name').isSome = true := by
        constructor
        · intro hall
          refine ⟨fun hmem => ?_, fun name' hname' => ?_⟩
          · have := hall name hmem
            rw [Dict.get_erase, if_pos rfl] at this
            cases this
          · have := hall name' hname'
            rw [Dict.get_erase] at this
            split at this
            · cases this
            · exact this
        · rintro ⟨hnot, hall⟩ name' hname'
          rw [Dict.get_erase, if_neg]
          · exact hall name' hname'
          · rintro rfl
            exact hnot hname'
      show undeclared.foldlM assertUndeclared _ = some outcome ↔ _
      rw [ih, hlater]
      tauto
    · next hnone => simp [hnone]

/-- **No assertion fails**: what was set of a staged parameter equals what was staged, and nothing
is undeclared twice. -/
theorem commitAsserted_eq_some {staged : ParameterMap} (hnd : (staged.map Prod.fst).Nodup)
    {undeclared : List Name} {infos outcome : ParameterMap} :
    commitAsserted staged undeclared infos = some outcome ↔
      (∀ e ∈ staged, ∃ info, Dict.get infos e.1 = some info ∧
        (info.value == e.2.value) = true) ∧
      undeclared.Nodup ∧
      (∀ name ∈ undeclared, ((Dict.get staged name).or (Dict.get infos name)).isSome = true) ∧
      outcome = commitStaged staged undeclared infos := by
  unfold commitAsserted commitStaged
  rw [Option.bind_eq_bind, Option.bind_eq_some_iff]
  constructor
  · rintro ⟨infos', hstaged, hundeclared⟩
    obtain ⟨hall, rfl⟩ := (foldlM_assertStaged hnd).mp hstaged
    obtain ⟨hnodup, hsome, rfl⟩ := foldlM_assertUndeclared.mp hundeclared
    refine ⟨hall, hnodup, fun name hname => ?_, rfl⟩
    rw [← Dict.get_foldl_set_of_nodup hnd]
    exact hsome name hname
  · rintro ⟨hall, hnodup, hsome, rfl⟩
    refine ⟨_, (foldlM_assertStaged hnd).mpr ⟨hall, rfl⟩,
      foldlM_assertUndeclared.mpr ⟨hnodup, fun name hname => ?_, rfl⟩⟩
    rw [Dict.get_foldl_set_of_nodup hnd]
    exact hsome name hname

/-! ## A name in a batch and in order -/

/-- What one element makes of its name. -/
def element (name : Name) (info? : Option ParameterInfo) (v : ParameterValue) :
    Option ParameterInfo :=
  if holdsValue info? && v.unset then none
  else some ((info?.getD implicitBlank).assign ⟨name, v⟩)

/-- What a batch with these values makes of a name. -/
def together (name : Name) (info? : Option ParameterInfo) (vs : List ParameterValue) :
    Option ParameterInfo :=
  match vs.getLast? with
  | none => info?
  | some v =>
    if holdsValue info? && vs.any ParameterValue.unset then none
    else some ((info?.getD implicitBlank).assign ⟨name, v⟩)

/-- What the assertions say of a name. -/
def Asserted (info? : Option ParameterInfo) (vs : List ParameterValue) : Prop :=
  (info? = none → ∀ v, vs.getLast? = some v → (v == v) = true) ∧
    (holdsValue info? = true → vs.countP ParameterValue.unset ≤ 1)

/-- A set value is followed by an unset one. -/
def SetThenUnset (vs : List ParameterValue) : Prop :=
  ∃ before u v after, vs = before ++ u :: v :: after ∧ u.unset = false ∧ v.unset = true

/-- The last value is unset, the one before it is set. -/
def EndsUnset (vs : List ParameterValue) : Prop :=
  ∃ before u v, vs = before ++ [u, v] ∧ u.unset = false ∧ v.unset = true

/-- A descriptor up to the name and the type. -/
def ParameterDescriptor.rest (d : ParameterDescriptor) : ParameterDescriptor :=
  { d with name := [], type := .notSet }

/-- A batch with these values does to a name what its elements do in order. -/
def BatchCondition : Option ParameterInfo → List ParameterValue → Prop
  -- the name is not declared
  | none, vs => ¬EndsUnset vs ∧ ∀ v, vs.getLast? = some v → (v == v) = true
  | some info, vs =>
    if info.value.unset then
      ¬EndsUnset vs ∧ (SetThenUnset vs → info.descriptor.rest = implicitBlank.descriptor)
    else ∀ v ∈ vs.dropLast, v.unset = false

theorem EndsUnset.setThenUnset {vs : List ParameterValue} (h : EndsUnset vs) :
    SetThenUnset vs := by
  obtain ⟨before, u, v, rfl, hu, hv⟩ := h
  exact ⟨before, u, v, [], rfl, hu, hv⟩

theorem endsUnset_append_singleton {vs : List ParameterValue} {v : ParameterValue} :
    EndsUnset (vs ++ [v]) ↔ v.unset = true ∧ ∃ u, vs.getLast? = some u ∧ u.unset = false := by
  constructor
  · rintro ⟨before, u, v', heq, hu, hv⟩
    rw [List.append_cons before u [v']] at heq
    obtain ⟨rfl, hlast⟩ := List.append_inj' heq rfl
    obtain rfl := List.singleton_inj.mp hlast
    exact ⟨hv, u, by simp, hu⟩
  · rintro ⟨hv, u, hlast, hu⟩
    obtain ⟨before, rfl⟩ := List.getLast?_eq_some_iff.mp hlast
    exact ⟨before, u, v, by simp, hu, hv⟩

theorem setThenUnset_append_singleton {vs : List ParameterValue} {v : ParameterValue} :
    SetThenUnset (vs ++ [v]) ↔ SetThenUnset vs ∨ EndsUnset (vs ++ [v]) := by
  constructor
  · rintro ⟨before, u, v', after, heq, hu, hv⟩
    rcases List.eq_nil_or_concat after with rfl | ⟨after, w, rfl⟩
    · exact .inr ⟨before, u, v', heq, hu, hv⟩
    · refine .inl ⟨before, u, v', after, ?_, hu, hv⟩
      have heq' : vs ++ [v] = (before ++ u :: v' :: after) ++ [w] := by simpa using heq
      exact (List.append_inj' heq' rfl).1
  · rintro (⟨before, u, v', after, rfl, hu, hv⟩ | h)
    · exact ⟨before, u, v', after ++ [v], by simp, hu, hv⟩
    · exact h.setThenUnset

theorem holdsValue_assign (info : ParameterInfo) (name : Name) (v : ParameterValue) :
    holdsValue (some (info.assign ⟨name, v⟩)) = !v.unset := rfl

/-- What setting an entry makes of it depends on the descriptor but for the name and the type. -/
theorem assign_inj {info info' : ParameterInfo} {p : Parameter} :
    info.assign p = info'.assign p ↔ info.descriptor.rest = info'.descriptor.rest := by
  simp [ParameterInfo.assign, ParameterDescriptor.rest]

/-- **In order, from a name without a value**: it ends undeclared if the last two values say so,
and starts over with an implicit declaration if any two of them in a row have. -/
theorem foldl_element_of_no_value {info? : Option ParameterInfo} (hinfo : holdsValue info? = false)
    (name : Name) (vs : List ParameterValue) :
    (EndsUnset vs → vs.foldl (element name) info? = none) ∧
    (¬EndsUnset vs → ∀ v, vs.getLast? = some v → ∃ base,
      vs.foldl (element name) info? = some (base.assign ⟨name, v⟩) ∧
      (SetThenUnset vs → base = implicitBlank) ∧
      (¬SetThenUnset vs → base = info?.getD implicitBlank)) := by
  -- the last value decides, so the induction is from the end
  induction vs using List.reverseRecOn with
  | nil =>
    constructor
    · rintro ⟨before, u, v, heq, -⟩
      simp at heq
    · rintro - v hv
      cases hv
  | append_singleton vs v ih =>
    rw [List.foldl_append, List.foldl_cons, List.foldl_nil, setThenUnset_append_singleton,
      List.getLast?_append, List.getLast?_singleton, Option.some_or]
    cases hlast : vs.getLast? with
    | none =>
      obtain rfl := List.getLast?_eq_none_iff.mp hlast
      have hnot : ¬EndsUnset ([] ++ [v]) := by
        rw [endsUnset_append_singleton]
        rintro ⟨-, u, hu, -⟩
        cases hu
      have hnone : ¬SetThenUnset [] := by
        rintro ⟨before, u, v, after, heq, -⟩
        simp at heq
      refine ⟨fun h => absurd h hnot, ?_⟩
      rintro - w ⟨⟩
      refine ⟨info?.getD implicitBlank, ?_, fun h => absurd h (not_or.mpr ⟨hnone, hnot⟩),
        fun _ => rfl⟩
      show element name info? v = _
      unfold element
      rw [hinfo]
      rfl
    | some u =>
      have hends : EndsUnset (vs ++ [v]) ↔ v.unset = true ∧ u.unset = false := by
        rw [endsUnset_append_singleton, hlast]
        simp
      rw [hends]
      by_cases hbefore : EndsUnset vs
      · -- it is undeclared, and declared again
        rw [ih.1 hbefore]
        have hu : u.unset = true := by
          obtain ⟨before, u', v', rfl, -, hv'⟩ := hbefore
          have : some v' = some u := by simpa using hlast
          exact Option.some.inj this ▸ hv'
        refine ⟨fun h => absurd h.2 (by simp [hu]), ?_⟩
        rintro - w ⟨⟩
        exact ⟨implicitBlank, rfl, fun _ => rfl,
          fun h => absurd (.inl hbefore.setThenUnset) h⟩
      -- it has a value, and this one may take it away again
      · obtain ⟨base, hbase, hstart, hstay⟩ := ih.2 hbefore u hlast
        rw [hbase]
        unfold element
        rw [holdsValue_assign]
        constructor
        · rintro ⟨hv, hu⟩
          simp [hv, hu]
        · rintro hnot w ⟨⟩
          have hcond : ¬(!u.unset && v.unset) = true := by
            intro h
            rw [Bool.and_eq_true, Bool.not_eq_true'] at h
            exact hnot h.symm
          refine ⟨base, ?_, fun h => hstart (h.resolve_right hnot),
            fun h => hstay fun hset => h (.inl hset)⟩
          rw [if_neg hcond]
          rfl

/-- **In order, from a declared name**, when no value is unset. -/
theorem foldl_element_of_set (info : ParameterInfo) (name : Name) {vs : List ParameterValue}
    (hvs : ∀ v ∈ vs, v.unset = false) :
    vs.foldl (element name) (some info) =
      some (match vs.getLast? with | none => info | some v => info.assign ⟨name, v⟩) := by
  induction vs using List.reverseRecOn with
  | nil => rfl
  | append_singleton vs v ih =>
    have hv : v.unset = false := hvs v (by simp)
    rw [List.foldl_append, List.foldl_cons, List.foldl_nil, ih fun w hw => hvs w (by simp [hw]),
      List.getLast?_append, List.getLast?_singleton, Option.some_or]
    unfold element
    rw [hv, Bool.and_false, if_neg (by simp)]
    cases vs.getLast? <;> rfl

private theorem foldl_element_isSome {name : Name} {info? : Option ParameterInfo}
    {vs : List ParameterValue} {v : ParameterValue} (hv : v.unset = false) :
    (vs ++ [v]).foldl (element name) info? ≠ none := by
  rw [List.foldl_append, List.foldl_cons, List.foldl_nil]
  unfold element
  simp [hv]

private theorem together_eq_of_no_value {info? : Option ParameterInfo}
    (hinfo : holdsValue info? = false) (name : Name) (vs : List ParameterValue) :
    together name info? vs = vs.foldl (element name) info? ↔
      ¬EndsUnset vs ∧ (SetThenUnset vs →
        (info?.getD implicitBlank).descriptor.rest = implicitBlank.descriptor) := by
  obtain ⟨hends, hother⟩ := foldl_element_of_no_value hinfo name vs
  unfold together
  cases hlast : vs.getLast? with
  | none =>
    obtain rfl := List.getLast?_eq_none_iff.mp hlast
    have hnot : ¬SetThenUnset [] := by
      rintro ⟨before, u, v, after, heq, -⟩
      simp at heq
    exact ⟨fun _ => ⟨fun h => hnot h.setThenUnset, fun h => absurd h hnot⟩, fun _ => rfl⟩
  | some v =>
    dsimp only
    rw [hinfo, Bool.false_and, if_neg (by simp)]
    by_cases hunset : EndsUnset vs
    · rw [hends hunset]
      exact ⟨fun h => (by cases h), fun h => absurd hunset h.1⟩
    · obtain ⟨base, hbase, hstart, hstay⟩ := hother hunset v hlast
      rw [hbase, Option.some_inj, assign_inj]
      by_cases hset : SetThenUnset vs
      · rw [hstart hset]
        exact ⟨fun h => ⟨hunset, fun _ => h⟩, fun h => h.2 hset⟩
      · rw [hstay hset]
        exact ⟨fun _ => ⟨hunset, fun h => absurd h hset⟩, fun _ => rfl⟩

private theorem asserted_together_of_value {info : ParameterInfo}
    (hinfo : info.value.unset = false) (name : Name) (vs : List ParameterValue) :
    vs.countP ParameterValue.unset ≤ 1 ∧
        together name (some info) vs = vs.foldl (element name) (some info) ↔
      ∀ v ∈ vs.dropLast, v.unset = false := by
  have hholds : holdsValue (some info) = true := by simp [holdsValue, hinfo]
  rcases List.eq_nil_or_concat vs with rfl | ⟨ws, v, rfl⟩
  · exact ⟨fun _ w hw => (by cases hw), fun _ => ⟨Nat.zero_le _, rfl⟩⟩
  have htogether : together name (some info) (ws ++ [v]) =
      if (ws ++ [v]).any ParameterValue.unset then none else some (info.assign ⟨name, v⟩) := by
    unfold together
    rw [List.getLast?_append, List.getLast?_singleton, Option.some_or]
    dsimp only
    rw [hholds, Bool.true_and]
    rfl
  rw [List.concat_eq_append, List.dropLast_concat, htogether, List.countP_append]
  constructor
  · rintro ⟨hcount, heq⟩ u hu
    by_contra hunset
    rw [Bool.not_eq_false] at hunset
    -- then the batch undeclares the name, and the last element sets it
    have hone : 0 < ws.countP ParameterValue.unset := List.countP_pos_iff.mpr ⟨u, hu, hunset⟩
    have hv : v.unset = false := by
      by_contra h
      rw [Bool.not_eq_false] at h
      rw [List.countP_singleton, if_pos h] at hcount
      omega
    have hany : (ws ++ [v]).any ParameterValue.unset = true :=
      List.any_eq_true.mpr ⟨u, List.mem_append_left _ hu, hunset⟩
    rw [if_pos hany] at heq
    exact foldl_element_isSome hv heq.symm
  · intro hws
    have hzero : ws.countP ParameterValue.unset = 0 :=
      List.countP_eq_zero.mpr fun u hu => by simp [hws u hu]
    have hany : (ws ++ [v]).any ParameterValue.unset = v.unset := by
      rw [List.any_append, List.any_eq_false.mpr fun u hu => by simp [hws u hu], Bool.false_or]
      simp
    refine ⟨?_, ?_⟩
    · rw [hzero, Nat.zero_add]
      exact List.countP_le_length
    · rw [hany, List.foldl_append, List.foldl_cons, List.foldl_nil,
        foldl_element_of_set info name hws]
      unfold element
      cases hlast : ws.getLast? with
      | none =>
        dsimp only
        rw [hholds, Bool.true_and]
        rfl
      | some u =>
        dsimp only
        rw [holdsValue_assign, hws u (List.mem_of_getLast? hlast), Bool.not_false, Bool.true_and]
        rfl

/-- **One name**: a batch keeps its assertions and does what its elements do. -/
theorem batchCondition_iff (name : Name) (info? : Option ParameterInfo)
    (vs : List ParameterValue) :
    Asserted info? vs ∧ together name info? vs = vs.foldl (element name) info? ↔
      BatchCondition info? vs := by
  unfold Asserted BatchCondition
  cases info? with
  | none =>
    have hnone : holdsValue none = false := rfl
    rw [together_eq_of_no_value hnone, hnone]
    dsimp only
    constructor
    · exact fun h => ⟨h.2.1, h.1.1 rfl⟩
    · exact fun h => ⟨⟨fun _ => h.2, fun hholds => (by cases hholds)⟩, h.1, fun _ => rfl⟩
  | some info =>
    dsimp only
    cases hunset : info.value.unset with
    | true =>
      have hno : holdsValue (some info) = false := by simp [holdsValue, hunset]
      rw [together_eq_of_no_value hno, hno, if_pos rfl]
      constructor
      · exact fun h => h.2
      · exact fun h => ⟨⟨fun hnone => (by cases hnone), fun hholds => (by cases hholds)⟩, h⟩
    | false =>
      have hholds : holdsValue (some info) = true := by simp [holdsValue, hunset]
      rw [← asserted_together_of_value hunset name vs, hholds, if_neg (by simp)]
      constructor
      · exact fun h => ⟨h.1.2 rfl, h.2⟩
      · exact fun h => ⟨⟨fun hnone => (by cases hnone), fun _ => h.1⟩, h.2⟩

/-! ## An accepted batch -/

section

variable {s : NodeParameters} {parameters toBeDeclared : List Parameter} {undeclared : List Name}

theorem not_accepted_of_parametersToBeDeclared {response : ParameterResponse}
    (h : parametersToBeDeclared s parameters = .error response) : response.accepted = false := by
  induction parameters with
  | nil => cases h
  | cons p rest ih =>
    unfold parametersToBeDeclared at h
    split at h
    · cases h
      rfl
    split at h
    · split at h
      · cases hrest : parametersToBeDeclared s rest with
        | error response' =>
          rw [hrest] at h
          cases h
          exact ih hrest
        | ok l =>
          rw [hrest] at h
          cases h
      · cases h
        rfl
    · split at h
      · cases h
        rfl
      · exact ih h

theorem not_accepted_of_parametersToBeUndeclared {response : ParameterResponse}
    (h : parametersToBeUndeclared s parameters = .error response) : response.accepted = false := by
  induction parameters with
  | nil => cases h
  | cons p rest ih =>
    unfold parametersToBeUndeclared at h
    split at h
    · split at h
      · exact ih h
      split at h
      · exact ih h
      split at h
      · cases h
        rfl
      · cases hrest : parametersToBeUndeclared s rest with
        | error response' =>
          rw [hrest] at h
          cases h
          exact ih hrest
        | ok l =>
          rw [hrest] at h
          cases h
    · exact ih h

/-- **An accepted batch** has come through all phases. -/
theorem setParametersAtomically_accepted (h : Inert nested)
    (hs : s.parameterModificationEnabled = false)
    (hacc : (setParametersAtomically typeName lock nested parameters s).1.accepted = true) :
    ∃ (toBeDeclared : List Parameter) (undeclared : List Name) (result : SetParametersResult)
      (s' : NodeParameters), parametersToBeDeclared s parameters = .ok toBeDeclared ∧
      parametersToBeUndeclared s
        (parametersToBeSet parameters (stagedChanges toBeDeclared [])) = .ok undeclared ∧
      setParametersAtomically typeName lock nested parameters s = (.result result,
        { s' with
          parameters := commitStaged (stagedChanges toBeDeclared []) undeclared
            (applyParameters (parametersToBeSet parameters (stagedChanges toBeDeclared []))
              s.parameters) }) ∧
      setParametersAtomicallyAsserted typeName lock nested parameters s =
        (commitAsserted (stagedChanges toBeDeclared []) undeclared
          (applyParameters (parametersToBeSet parameters (stagedChanges toBeDeclared []))
            s.parameters)).map fun infos => (.result result, { s' with parameters := infos }) := by
  unfold setParametersAtomicallyAsserted
  unfold setParametersAtomically at hacc ⊢
  cases hdeclare : parametersToBeDeclared s parameters with
  | error response =>
    rw [hdeclare] at hacc
    dsimp only at hacc
    -- a phase that fails answers with a result that is not accepted
    rw [not_accepted_of_parametersToBeDeclared hdeclare] at hacc
    cases hacc
  | ok toBeDeclared =>
    rw [hdeclare] at hacc
    dsimp only at hacc ⊢
    rw [stageParameters_eq] at hacc ⊢
    dsimp only at hacc ⊢
    have hnames := parametersToBeSet_names parameters (stagedChanges toBeDeclared [])
    generalize htoBeSet : parametersToBeSet parameters (stagedChanges toBeDeclared []) = toBeSet
      at hacc hnames
    cases hundeclare : parametersToBeUndeclared s toBeSet with
    | error response =>
      rw [hundeclare] at hacc
      dsimp only at hacc
      rw [not_accepted_of_parametersToBeUndeclared hundeclare] at hacc
      cases hacc
    | ok undeclared =>
      rw [hundeclare] at hacc
      dsimp only at hacc ⊢
      -- what is set is declared, or has just been staged
      have hdeclared : Declared s.allowUndeclared s.parameters toBeSet := by
        by_cases hallow : s.allowUndeclared = true
        · exact .inl hallow
        · refine .inr fun q hq => ?_
          obtain ⟨p, hp, hname⟩ := List.mem_map.mp (hnames ▸ List.mem_map_of_mem hq)
          rcases (parametersToBeDeclared_ok hdeclare).1 p hp with ⟨_, hallow', _⟩ | ⟨info, hinfo, _⟩
          · exact absurd hallow' hallow
          · rw [← hname, hinfo]
            rfl
      have hcommon : CommonOutcome toBeSet ⟨s, none⟩ (setParametersAtomicallyCommon typeName lock
          nested toBeSet true s.allowUndeclared ⟨s, none⟩) :=
        setParametersAtomicallyCommon_outcome h hs hdeclared true
      generalize setParametersAtomicallyCommon typeName lock nested toBeSet true s.allowUndeclared
        ⟨s, none⟩ = outcome at hacc hcommon
      -- of the ways in which the common part ends only one accepts
      cases hcommon with
      | threw e hs' => cases hacc
      | rejected hresult hs' =>
        dsimp only at hacc
        rw [hresult] at hacc
        dsimp only [ParameterResponse.accepted] at hacc
        simp [hresult] at hacc
      | @set result hresult s' hs' hmay =>
        refine ⟨toBeDeclared, undeclared, result, s', rfl, htoBeSet ▸ hundeclare, ?_, ?_⟩
        · rw [htoBeSet]
          dsimp only
          rw [hresult]
          rfl
        · rw [htoBeSet]
          dsimp only
          rw [hresult]
          rfl

section

variable (hdeclare : parametersToBeDeclared s parameters = .ok toBeDeclared)
include hdeclare

private theorem get_staged (name : Name) :
    Dict.get (stagedChanges toBeDeclared []) name =
      if Dict.get s.parameters name = none then
        (valuesOf name parameters).getLast?.map fun v => implicitBlank.assign ⟨name, v⟩
      else none := by
  rw [get_stagedChanges, valuesOf_toBeDeclared hdeclare, Dict.get_nil, Option.or_none]
  split <;> rfl

private theorem getLast?_toBeSet (name : Name) :
    (valuesOf name (parametersToBeSet parameters (stagedChanges toBeDeclared []))).getLast? =
      (valuesOf name parameters).getLast? := by
  refine getLast?_parametersToBeSet (fun e he => ?_) name
  have hget := (Dict.get_eq_some_iff (nodup_keys_stagedChanges toBeDeclared)).mpr he
  rw [get_staged hdeclare] at hget
  split at hget
  · obtain ⟨v, hv, heq⟩ := Option.map_eq_some_iff.mp hget
    rw [hv, ← heq]
    rfl
  · cases hget

private theorem get_applied (name : Name) :
    Dict.get (applyParameters (parametersToBeSet parameters (stagedChanges toBeDeclared []))
      s.parameters) name = ((valuesOf name parameters).getLast?.map fun v =>
        ((Dict.get s.parameters name).getD .blank).assign ⟨name, v⟩).or
          (Dict.get s.parameters name) := by
  rw [get_applyParameters, getLast?_toBeSet hdeclare]

variable (hundeclare : parametersToBeUndeclared s
  (parametersToBeSet parameters (stagedChanges toBeDeclared [])) = .ok undeclared)
include hundeclare

private theorem count_undeclared (name : Name) :
    undeclared.count name = if holdsValue (Dict.get s.parameters name) then
      (valuesOf name parameters).countP ParameterValue.unset else 0 := by
  rw [count_parametersToBeUndeclared hundeclare]
  split
  · next hholds =>
    have hnot : name ∉ (stagedChanges toBeDeclared []).map Prod.fst := by
      rw [← Dict.get_eq_none_iff, get_staged hdeclare, if_neg]
      intro hnone
      rw [hnone] at hholds
      cases hholds
    rw [valuesOf_parametersToBeSet hnot]
  · rfl

private theorem mem_undeclared (name : Name) :
    name ∈ undeclared ↔ (holdsValue (Dict.get s.parameters name) &&
      (valuesOf name parameters).any ParameterValue.unset) = true := by
  rw [← List.count_pos_iff, count_undeclared hdeclare hundeclare]
  split
  · next hholds => rw [hholds, Bool.true_and, List.any_eq_true, List.countP_pos_iff]
  · next hholds => simp [hholds]

/-- What an accepted batch makes of a name. -/
private theorem get_committed (name : Name) :
    Dict.get (commitStaged (stagedChanges toBeDeclared []) undeclared
      (applyParameters (parametersToBeSet parameters (stagedChanges toBeDeclared []))
        s.parameters)) name =
      together name (Dict.get s.parameters name) (valuesOf name parameters) := by
  have hundeclared := mem_undeclared hdeclare hundeclare name
  unfold commitStaged together
  rw [Dict.get_foldl_erase, Dict.get_foldl_set_of_nodup (nodup_keys_stagedChanges toBeDeclared),
    get_staged hdeclare, get_applied hdeclare]
  simp only [hundeclared]
  cases hlast : (valuesOf name parameters).getLast? with
  | none =>
    rw [List.getLast?_eq_none_iff.mp hlast, List.any_nil, Bool.and_false, if_neg (by simp)]
    split <;> rfl
  | some v =>
    cases Dict.get s.parameters name with
    | none => rfl
    | some info => rfl

/-- When no assertion of an accepted batch fails. -/
private theorem commitAsserted_iff {outcome : ParameterMap} :
    commitAsserted (stagedChanges toBeDeclared []) undeclared
        (applyParameters (parametersToBeSet parameters (stagedChanges toBeDeclared []))
          s.parameters) = some outcome ↔
      (∀ name, Asserted (Dict.get s.parameters name) (valuesOf name parameters)) ∧
      outcome = commitStaged (stagedChanges toBeDeclared []) undeclared
        (applyParameters (parametersToBeSet parameters (stagedChanges toBeDeclared []))
          s.parameters) := by
  have hnd := nodup_keys_stagedChanges toBeDeclared
  -- the assertion of the first loop is about the names that were not declared
  have hstaged : (∀ e ∈ stagedChanges toBeDeclared [], ∃ info,
      Dict.get (applyParameters (parametersToBeSet parameters (stagedChanges toBeDeclared []))
        s.parameters) e.1 = some info ∧ (info.value == e.2.value) = true) ↔
      ∀ name, Dict.get s.parameters name = none →
        ∀ v, (valuesOf name parameters).getLast? = some v → (v == v) = true := by
    constructor
    · intro hall name hnone v hlast
      have hget : Dict.get (stagedChanges toBeDeclared []) name =
          some (implicitBlank.assign ⟨name, v⟩) := by
        rw [get_staged hdeclare, if_pos hnone, hlast]
        rfl
      obtain ⟨info, hinfo, heq⟩ := hall _ ((Dict.get_eq_some_iff hnd).mp hget)
      rw [get_applied hdeclare, hlast, hnone] at hinfo
      cases hinfo
      exact heq
    · intro hall e he
      have hget := (Dict.get_eq_some_iff hnd).mpr he
      rw [get_staged hdeclare] at hget
      split at hget
      · next hnone =>
        obtain ⟨v, hlast, heq⟩ := Option.map_eq_some_iff.mp hget
        refine ⟨ParameterInfo.blank.assign ⟨e.1, v⟩, ?_, ?_⟩
        · rw [get_applied hdeclare, hlast, hnone]
          rfl
        · rw [← heq]
          exact hall e.1 hnone v hlast
      · cases hget
  have hnodup : undeclared.Nodup ↔ ∀ name, holdsValue (Dict.get s.parameters name) = true →
      (valuesOf name parameters).countP ParameterValue.unset ≤ 1 := by
    rw [List.nodup_iff_count_le_one]
    refine forall_congr' fun name => ?_
    rw [count_undeclared hdeclare hundeclare]
    split
    · next hholds => simp [hholds]
    · next hholds => simp [hholds]
  have hthere : ∀ name ∈ undeclared, ((Dict.get (stagedChanges toBeDeclared []) name).or
      (Dict.get (applyParameters (parametersToBeSet parameters (stagedChanges toBeDeclared []))
        s.parameters) name)).isSome = true := by
    intro name hname
    have hholds := (mem_undeclared hdeclare hundeclare name).mp hname
    rw [get_applied hdeclare, Option.isSome_or, Bool.or_eq_true, Option.isSome_or, Bool.or_eq_true]
    cases hinfo : Dict.get s.parameters name with
    | none =>
      rw [hinfo] at hholds
      cases hholds
    | some info => exact .inr (.inr rfl)
  rw [commitAsserted_eq_some hnd, hstaged, hnodup]
  unfold Asserted
  rw [forall_and]
  exact ⟨fun h => ⟨⟨h.1, h.2.1⟩, h.2.2.2⟩, fun h => ⟨h.1.1, h.1.2, hthere, h.2⟩⟩

end

/-- **What an accepted batch does** to each name, and when no assertion fails. -/
theorem step_accepted {s : NodeParameters} (hs : StoreOk s) {parameters : List Parameter}
    (hacc : (s.step typeName ⟨.setParametersAtomically parameters, lock⟩).1.accepted = true) :
    (∀ name, Dict.get (s.step typeName ⟨.setParametersAtomically parameters, lock⟩).2.parameters
        name = together name (Dict.get s.parameters name) (valuesOf name parameters)) ∧
      ∀ outcome, s.setAsserted typeName lock parameters = some outcome ↔
        (∀ name, Asserted (Dict.get s.parameters name) (valuesOf name parameters)) ∧
          outcome = s.step typeName ⟨.setParametersAtomically parameters, lock⟩ := by
  have hopen : ¬(!s.parameterModificationEnabled) = true := by simp [hs.enabled]
  have hstep : s.step typeName ⟨.setParametersAtomically parameters, lock⟩ =
      ((setParametersAtomically typeName lock (fun s call => s.call typeName lock nestedTwice call)
          parameters { s with parameterModificationEnabled := false }).1,
        { (setParametersAtomically typeName lock
            (fun s call => s.call typeName lock nestedTwice call) parameters
            { s with parameterModificationEnabled := false }).2 with
          parameterModificationEnabled := true }) := by
    unfold NodeParameters.step NodeParameters.call withRecursionGuard
    rw [if_neg hopen]
    rfl
  rw [hstep] at hacc ⊢
  obtain ⟨toBeDeclared, undeclared, result, s', hdeclare, hundeclare, hplain, hasserted⟩ :=
    setParametersAtomically_accepted (s := { s with parameterModificationEnabled := false })
      (inert_call typeName lock nestedTwice) rfl hacc
  unfold NodeParameters.setAsserted
  rw [if_neg hopen, hplain, hasserted]
  refine ⟨fun name => get_committed hdeclare hundeclare name, fun outcome => ?_⟩
  rw [Option.map_map, Option.map_eq_some_iff]
  constructor
  · rintro ⟨infos, hinfos, rfl⟩
    obtain ⟨hall, rfl⟩ := (commitAsserted_iff hdeclare hundeclare).mp hinfos
    exact ⟨hall, rfl⟩
  · rintro ⟨hall, rfl⟩
    exact ⟨_, (commitAsserted_iff hdeclare hundeclare).mpr ⟨hall, rfl⟩, rfl⟩

end

/-! ## The elements in order -/

theorem together_singleton (name : Name) (info? : Option ParameterInfo) (v : ParameterValue) :
    together name info? [v] = element name info? v := by
  unfold together element
  simp

/-- **Elements in order**, if all of them are accepted. -/
theorem setParameters_get {s : NodeParameters} (hs : StoreOk s) {parameters : List Parameter}
    (hacc : ∀ response ∈ (s.setParameters typeName lock parameters).1, response.accepted = true)
    (name : Name) :
    Dict.get (s.setParameters typeName lock parameters).2.parameters name =
      (valuesOf name parameters).foldl (element name) (Dict.get s.parameters name) := by
  induction parameters generalizing s with
  | nil => rfl
  | cons p rest ih =>
    have hnext : StoreOk (s.step typeName ⟨.setParametersAtomically [p], lock⟩).2 :=
      hs.step ⟨.setParametersAtomically [p], lock⟩
    have hfirst (h : (s.step typeName ⟨.setParametersAtomically [p], lock⟩).1.accepted = true) :
        Dict.get (s.step typeName ⟨.setParametersAtomically [p], lock⟩).2.parameters name =
          (valuesOf name [p]).foldl (element name) (Dict.get s.parameters name) := by
      rw [(step_accepted hs h).1 name, valuesOf_cons]
      split
      · exact together_singleton name _ p.value
      · rfl
    unfold NodeParameters.setParameters at hacc ⊢
    generalize s.step typeName ⟨.setParametersAtomically [p], lock⟩ = outcome at hacc hnext hfirst ⊢
    obtain ⟨response, s'⟩ := outcome
    cases response with
    | threw e =>
      have hthrew := hacc (.threw e) List.mem_cons_self
      cases hthrew
    | value v =>
      have hvalue := hacc (.value v) List.mem_cons_self
      cases hvalue
    | done =>
      have hdone := hacc .done List.mem_cons_self
      cases hdone
    | result r =>
      dsimp only at hacc hnext hfirst ⊢
      rw [ih hnext fun response hmem => hacc response (List.mem_cons_of_mem _ hmem),
        hfirst (hacc (.result r) List.mem_cons_self), valuesOf_cons, valuesOf_cons,
        List.foldl_append, List.foldl_append]
      rfl

/-- **A batch and its elements in order** have the same outcome, and no assertion fails, if and only
if for each name: if it is not declared, the values of the batch do not end with a set and an unset
one, and the last equals itself; if it is declared without a value, they do not end so either, and
if they have a set and then an unset one anywhere, its descriptor is one of an implicit declaration;
if it is declared with a value, none but the last is unset. -/
theorem batch_in_order (typeName : ParameterType → Name) (lock : LockHandle)
    (s : NodeParameters) (hreach : Reachable (nodeParameters typeName) s)
    (parameters : List Parameter)
    (hbatch : (s.step typeName ⟨.setParametersAtomically parameters, lock⟩).1.accepted = true)
    (helements : ∀ response ∈ (s.setParameters typeName lock parameters).1,
      response.accepted = true) :
    (∃ outcome, s.setAsserted typeName lock parameters = some outcome ∧
      ∀ name, Dict.get outcome.2.parameters name =
        Dict.get (s.setParameters typeName lock parameters).2.parameters name) ↔
      ∀ name, BatchCondition (Dict.get s.parameters name) (valuesOf name parameters) := by
  have hs : StoreOk s := storeOk_of_reachable hreach
  obtain ⟨hget, hasserted⟩ := step_accepted hs hbatch
  have hname (name : Name) := batchCondition_iff name (Dict.get s.parameters name)
    (valuesOf name parameters)
  constructor
  · rintro ⟨outcome, houtcome, hsame⟩ name
    obtain ⟨hall, rfl⟩ := (hasserted outcome).mp houtcome
    refine (hname name).mp ⟨hall name, ?_⟩
    rw [← hget, hsame, setParameters_get hs helements]
  · intro hcond
    refine ⟨_, (hasserted _).mpr ⟨fun name => ((hname name).mpr (hcond name)).1, rfl⟩,
      fun name => ?_⟩
    rw [hget, setParameters_get hs helements, ((hname name).mpr (hcond name)).2]

/-- The store once an `m` that nobody declared is 1. -/
def storeOfM : NodeParameters :=
  ((nodeParameters parameterTypeName).exec emptyStore []
    [⟨.setParametersAtomically [⟨['m'], .integer 1⟩], fun _ => none⟩]).2

/-- A batch that sets `m` twice and then unsets it. -/
theorem batch_in_order_of_m :
    let lock : LockHandle := fun _ => none
    let parameters : List Parameter := [⟨['m'], .integer 2⟩, ⟨['m'], .bool true⟩, ⟨['m'], .notSet⟩]
    ∃ outcome, storeOfM.setAsserted parameterTypeName lock parameters = some outcome ∧
      ∀ name, Dict.get outcome.2.parameters name =
        Dict.get (storeOfM.setParameters parameterTypeName lock parameters).2.parameters name := by
  intro lock parameters
  have hinit : (nodeParameters parameterTypeName).init emptyStore := ⟨rfl, rfl, rfl⟩
  have hresponses : (storeOfM.setParameters parameterTypeName lock parameters).1 =
      [.result .success, .result .success, .result .success] := rfl
  refine (batch_in_order parameterTypeName lock storeOfM (.exec hinit _) parameters rfl
    fun response hmem => ?_).mpr fun name => ?_
  · rw [hresponses] at hmem
    simp only [List.mem_cons, List.not_mem_nil, or_false, or_self] at hmem
    rw [hmem]
    rfl
  · by_cases hname : name = ['m']
    · subst hname
      show ∀ v ∈ [ParameterValue.integer 2, .bool true], v.unset = false
      simp [ParameterValue.unset, ParameterValue.getType]
    · have hnil : valuesOf name parameters = [] := by
        rw [valuesOf_eq_nil]
        simp [parameters, hname]
      have hnone : Dict.get storeOfM.parameters name = none := by
        rw [Dict.get_eq_none_iff]
        show name ∉ [['m']]
        simp [hname]
      rw [hnil, hnone]
      refine ⟨?_, fun v hv => by cases hv⟩
      rintro ⟨before, u, v, heq, -⟩
      simp at heq

/-- A batch that unsets `m` twice fails the assertion that a parameter to be undeclared is there. In
order, the first element undeclares it and the second declares it without a value. -/
theorem batch_out_of_order :
    ¬∀ (typeName : ParameterType → Name) (lock : LockHandle) (s : NodeParameters),
      Reachable (nodeParameters typeName) s → s.parameterOverrides = [] →
      s.onParametersSetCallbackContainer = [] → ∀ parameters : List Parameter,
        (s.step typeName ⟨.setParametersAtomically parameters, lock⟩).1.accepted = true →
        (∀ response ∈ (s.setParameters typeName lock parameters).1, response.accepted = true) →
        ∃ outcome, s.setAsserted typeName lock parameters = some outcome ∧
          ∀ name, Dict.get outcome.2.parameters name =
            Dict.get (s.setParameters typeName lock parameters).2.parameters name := by
  intro hall
  have hinit : (nodeParameters parameterTypeName).init emptyStore := ⟨rfl, rfl, rfl⟩
  have hresponses : (storeOfM.setParameters parameterTypeName (fun _ => none)
      [⟨['m'], .notSet⟩, ⟨['m'], .notSet⟩]).1 = [.result .success, .result .success] := rfl
  obtain ⟨outcome, houtcome, -⟩ := hall parameterTypeName (fun _ => none) storeOfM
    (.exec hinit _) rfl rfl [⟨['m'], .notSet⟩, ⟨['m'], .notSet⟩] rfl fun response hmem => by
      rw [hresponses] at hmem
      simp only [List.mem_cons, List.not_mem_nil, or_false, or_self] at hmem
      rw [hmem]
      rfl
  have hfails : storeOfM.setAsserted parameterTypeName (fun _ => none)
      [⟨['m'], .notSet⟩, ⟨['m'], .notSet⟩] = none := rfl
  cases hfails.symm.trans houtcome

end Agnocast
