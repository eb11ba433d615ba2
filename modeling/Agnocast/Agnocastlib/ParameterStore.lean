import Agnocast.Agnocastlib.ParameterSafety

/-!
# Node parameters — batches and runs

* `commit_evolves`, `setParametersAtomically_outcome` — a batch: all of it or nothing.
* `step_outcome`, `step_declared` — one call, and what it has declared.
* `exec_evolves` — what calls make of the parameters, however many follow.
* `parameter_store` — what holds in every state that calls reach.
-/

namespace Agnocast

open Transition

variable {typeName : ParameterType → Name} {lock : LockHandle}
  {nested : NodeParameters → ParameterCall → ParameterResponse × NodeParameters}

/-! ## A batch -/

/-- The first pass lets no read-only parameter through, and undeclared ones only if they are
allowed and then on to the staging area. -/
theorem parametersToBeDeclared_ok {s : NodeParameters} {parameters toBeDeclared : List Parameter}
    (h : parametersToBeDeclared s parameters = .ok toBeDeclared) :
    (∀ p ∈ parameters, (Dict.get s.parameters p.name = none ∧ s.allowUndeclared = true ∧
        p ∈ toBeDeclared) ∨
      ∃ info, Dict.get s.parameters p.name = some info ∧ info.descriptor.readOnly = false) ∧
    ∀ p ∈ toBeDeclared, Dict.get s.parameters p.name = none := by
  induction parameters generalizing toBeDeclared with
  | nil =>
    cases h
    exact ⟨fun p hp => (nomatch hp), fun p hp => (nomatch hp)⟩
  | cons p rest ih =>
    unfold parametersToBeDeclared at h
    split at h
    · cases h
    split at h
    -- an undeclared parameter goes on to the staging area, when undeclared ones are allowed
    · next hnone =>
      split at h
      · next hallow =>
        cases hrest : parametersToBeDeclared s rest with
        | error response =>
          rw [hrest] at h
          cases h
        | ok l =>
          rw [hrest] at h
          cases h
          obtain ⟨hall, hnew⟩ := ih hrest
          refine ⟨fun q hq => ?_, fun q hq => ?_⟩
          · rcases List.mem_cons.mp hq with rfl | hq
            · exact .inl ⟨hnone, hallow, List.mem_cons_self⟩
            · exact (hall q hq).imp_left fun hq => ⟨hq.1, hq.2.1, List.mem_cons_of_mem _ hq.2.2⟩
          · rcases List.mem_cons.mp hq with rfl | hq
            · exact hnone
            · exact hnew q hq
      · cases h
    -- a declared one must not be read-only
    · next info hinfo =>
      split at h
      · cases h
      · next hwritable =>
        obtain ⟨hall, hnew⟩ := ih h
        refine ⟨fun q hq => ?_, hnew⟩
        rcases List.mem_cons.mp hq with rfl | hq
        · exact .inr ⟨info, hinfo, by simpa using hwritable⟩
        · exact hall q hq

/-- What staging does: the store is as it was, and every parameter is staged if nothing fails. -/
inductive StageOutcome (parameters : List Parameter) (staged : ParameterMap) (s : NodeParameters) :
    Except ParameterResponse ParameterMap × NodeParameters → Prop
  | failed (response : ParameterResponse) {s' : NodeParameters} (hs : OnlyCallbacks s s') :
      StageOutcome parameters staged s (.error response, s')
  | staged {staged' : ParameterMap} {s' : NodeParameters} (hs : OnlyCallbacks s s')
      (hentry : ∀ e ∈ staged', e ∈ staged ∨ (EntryOk e.1 e.2 ∧ ∃ p ∈ parameters, p.name = e.1))
      (hkeys : ∀ name, name ∈ staged.map Prod.fst ∨ name ∈ parameters.map Parameter.name →
        name ∈ staged'.map Prod.fst) :
      StageOutcome parameters staged s (.ok staged', s')

private theorem mem_keys_set {infos : ParameterMap} {name name' : Name} {info : ParameterInfo} :
    name' ∈ (Dict.set infos name info).map Prod.fst ↔ name' = name ∨ name' ∈ infos.map Prod.fst := by
  have hnone (d : ParameterMap) : name' ∈ d.map Prod.fst ↔ Dict.get d name' ≠ none := by
    rw [ne_eq, Dict.get_eq_none_iff, not_not]
  rw [hnone, hnone, Dict.get_set]
  by_cases heq : name' = name <;> simp [heq]

theorem stageParameters_outcome (h : Inert nested) {s : NodeParameters}
    (hs : s.parameterModificationEnabled = false) (parameters : List Parameter)
    (staged : ParameterMap) :
    StageOutcome parameters staged s (stageParameters typeName lock nested parameters staged s) := by
  induction parameters generalizing staged s with
  | nil =>
    refine .staged (.refl s) (fun e he => .inl he) fun name hname => ?_
    rcases hname with hname | hname
    · exact hname
    · cases hname
  | cons p rest ih =>
    unfold stageParameters
    have houtcome : DeclareOutcome p.name { ParameterDescriptor.blank with dynamicTyping := true } s
        (declareParameterCommon typeName lock nested p.name p.value
          { ParameterDescriptor.blank with dynamicTyping := true } false true s) :=
      declareParameterCommon_outcome h hs ..
    generalize declareParameterCommon typeName lock nested p.name p.value
      { ParameterDescriptor.blank with dynamicTyping := true } false true s = outcome at houtcome
    cases houtcome with
    | threw e hs' => exact .failed _ hs'
    | rejected hresult hs' => exact .failed _ hs'
    | @declared result info s' hs' hentry hkept =>
      dsimp only
      have hrest := ih (hs'.enabled.trans hs) (Dict.set staged p.name info)
      generalize stageParameters typeName lock nested rest (Dict.set staged p.name info) s' = outcome
        at hrest
      cases hrest with
      | failed response hs'' => exact .failed response (hs'.trans hs'')
      | staged hs'' hentries hkeys =>
        refine .staged (hs'.trans hs'') (fun e he => ?_) fun name hname => hkeys name ?_
        · rcases hentries e he with hold | ⟨hok, q, hq, hname⟩
          · rcases Dict.mem_set hold with hold | rfl
            · exact .inl hold
            · exact .inr ⟨hentry, p, List.mem_cons_self, rfl⟩
          · exact .inr ⟨hok, q, List.mem_cons_of_mem _ hq, hname⟩
        · rw [mem_keys_set]
          rw [List.map_cons, List.mem_cons] at hname
          rcases hname with hname | hname | hname
          · exact .inl (.inr hname)
          · exact .inl (.inl hname)
          · exact .inr hname

private theorem assignFirst_names (name : Name) (value : ParameterValue)
    (parameters : List Parameter) :
    (assignFirst name value parameters).map Parameter.name = parameters.map Parameter.name := by
  induction parameters with
  | nil => rfl
  | cons p rest ih =>
    unfold assignFirst
    split
    · next heq => rw [List.map_cons, List.map_cons, heq]
    · rw [List.map_cons, ih, List.map_cons]

private theorem foldl_assignFirst_names (staged : ParameterMap) (copy : List Parameter) :
    (staged.foldl (fun copy change => assignFirst change.1 change.2.value copy) copy).map
      Parameter.name = copy.map Parameter.name := by
  induction staged generalizing copy with
  | nil => rfl
  | cons change staged ih => rw [List.foldl_cons, ih, assignFirst_names]

/-- The copy of the batch has the names of the batch. -/
theorem parametersToBeSet_names (parameters : List Parameter) (staged : ParameterMap) :
    (parametersToBeSet parameters staged).map Parameter.name = parameters.map Parameter.name := by
  unfold parametersToBeSet
  dsimp only
  split
  · exact foldl_assignFirst_names staged parameters
  · rfl

/-- Only parameters of the batch are undeclared, and only dynamically typed ones. -/
theorem parametersToBeUndeclared_ok {s : NodeParameters} {parameters : List Parameter}
    {undeclared : List Name} (h : parametersToBeUndeclared s parameters = .ok undeclared) :
    ∀ name ∈ undeclared, name ∈ parameters.map Parameter.name ∧
      ∃ info, Dict.get s.parameters name = some info ∧ info.descriptor.dynamicTyping = true := by
  induction parameters generalizing undeclared with
  | nil =>
    cases h
    exact fun name hname => nomatch hname
  | cons p rest ih =>
    have hrest {l : List Name} (hl : parametersToBeUndeclared s rest = .ok l) :
        ∀ name ∈ l, name ∈ (p :: rest).map Parameter.name ∧
          ∃ info, Dict.get s.parameters name = some info ∧ info.descriptor.dynamicTyping = true :=
      fun name hname => (ih hl name hname).imp_left fun hmem => List.mem_cons_of_mem _ hmem
    unfold parametersToBeUndeclared at h
    split at h
    · split at h
      · exact hrest h
      next info hinfo =>
      split at h
      · exact hrest h
      split at h
      · cases h
      · next hdynamic =>
        cases hl : parametersToBeUndeclared s rest with
        | error response =>
          rw [hl] at h
          cases h
        | ok l =>
          rw [hl] at h
          cases h
          intro name hname
          rcases List.mem_cons.mp hname with rfl | hname
          · exact ⟨List.mem_cons_self, info, hinfo, by simpa using hdynamic⟩
          · exact hrest hl name hname
    · exact hrest h

/-- The entry that the last two loops leave: the staged one, unless it is undeclared. -/
theorem get_commitStaged (staged : ParameterMap) (undeclared : List Name) (infos : ParameterMap)
    (name : Name) :
    Dict.get (commitStaged staged undeclared infos) name =
      if name ∈ undeclared then none
      else (((staged.filter fun e => e.1 = name).getLast?).map Prod.snd).or (Dict.get infos name) := by
  unfold commitStaged
  rw [Dict.get_foldl_erase, Dict.get_foldl_set_last]
  by_cases hmem : name ∈ undeclared
  · rw [if_pos hmem, if_pos hmem]
  · rw [if_neg hmem, if_neg hmem]

section

variable {infos staged : ParameterMap} {toBeSet : List Parameter} {undeclared : List Name}

/-- **All of a batch**: what is set, staged and undeclared, when the checks have let it through. -/
theorem commit_evolves (hok : MapOk infos)
    (hmay : ∀ p ∈ toBeSet, ∀ info, Dict.get infos p.name = some info →
      MaySet info.descriptor p.value)
    (hset : ∀ p ∈ toBeSet, ∀ info, Dict.get infos p.name = some info →
      info.descriptor.readOnly = false)
    (hnew : ∀ p ∈ toBeSet, Dict.get infos p.name = none → p.name ∈ staged.map Prod.fst)
    (hstaged : ∀ e ∈ staged, EntryOk e.1 e.2 ∧ Dict.get infos e.1 = none)
    (hundeclared : ∀ name ∈ undeclared, ∃ info, Dict.get infos name = some info ∧
      info.descriptor.readOnly = false ∧ info.descriptor.dynamicTyping = true) :
    MapEvolves infos (commitStaged staged undeclared (applyParameters toBeSet infos)) := by
  have hof_staged {name : Name} {info : ParameterInfo}
      (h : ((staged.filter fun e => e.1 = name).getLast?).map Prod.snd = some info) :
      EntryOk name info ∧ Dict.get infos name = none := by
    obtain ⟨e, he, rfl⟩ := Option.map_eq_some_iff.mp h
    obtain ⟨hmem, hname⟩ := List.mem_filter.mp (List.mem_of_getLast? he)
    obtain rfl : e.1 = name := by simpa using hname
    exact hstaged e hmem
  -- an entry that was there is not staged, and what is set of it complies
  have hold {name : Name} {info : ParameterInfo} (h : Dict.get infos name = some info) :
      ((staged.filter fun e => e.1 = name).getLast?).map Prod.snd = none ∧
        ∃ info', Dict.get (applyParameters toBeSet infos) name = some info' ∧
          EntryOk name info' ∧ Kept info.descriptor info'.descriptor := by
    constructor
    · rw [Option.eq_none_iff_forall_ne_some]
      intro info' hinfo'
      rw [(hof_staged hinfo').2] at h
      cases h
    · exact applyParameters_get h (hok name info h) fun p hp hname =>
        hmay p hp info (hname.symm ▸ h)
  constructor
  · intro name info hget
    rw [get_commitStaged] at hget
    split at hget
    · cases hget
    cases hlast : ((staged.filter fun e => e.1 = name).getLast?).map Prod.snd with
    | some info' =>
      rw [hlast] at hget
      obtain rfl : info' = info := Option.some.inj hget
      exact (hof_staged hlast).1
    | none =>
      rw [hlast, Option.none_or] at hget
      cases hinfo : Dict.get infos name with
      | some info' =>
        obtain ⟨_, info'', hget', hok', _⟩ := hold hinfo
        obtain rfl := Option.some.inj (hget'.symm.trans hget)
        exact hok'
      | none =>
        -- what was set and not there before has been staged
        have hnot : ∀ p ∈ toBeSet, p.name ≠ name := by
          rintro p hp rfl
          obtain ⟨e, he, hname⟩ := List.mem_map.mp (hnew p hp hinfo)
          have hmem : e ∈ staged.filter fun e => e.1 = p.name :=
            List.mem_filter.mpr ⟨he, by simpa using hname⟩
          rw [Option.map_eq_none_iff, List.getLast?_eq_none_iff] at hlast
          rw [hlast] at hmem
          cases hmem
        rw [applyParameters_of_not_mem hnot, hinfo] at hget
        cases hget
  · intro name info hinfo hfixed
    obtain ⟨hlast, info', hget, _, hkept⟩ := hold hinfo
    have hstays : name ∉ undeclared := by
      intro hmem
      obtain ⟨info'', hinfo'', hwritable, hdynamic⟩ := hundeclared name hmem
      obtain rfl := Option.some.inj (hinfo.symm.trans hinfo'')
      rcases hfixed with hread | hstatic
      · rw [hwritable] at hread
        cases hread
      · rw [hdynamic] at hstatic
        cases hstatic
    refine ⟨info', ?_, hkept, fun hread => ?_⟩
    · rw [get_commitStaged, if_neg hstays, hlast, Option.none_or, hget]
    · have hnot : ∀ p ∈ toBeSet, p.name ≠ name := by
        rintro p hp rfl
        rw [hset p hp info hinfo] at hread
        cases hread
      rw [applyParameters_of_not_mem hnot, hinfo] at hget
      exact (Option.some.inj hget).symm

end

theorem setParametersAtomically_outcome (h : Inert nested) {s : NodeParameters}
    (hs : s.parameterModificationEnabled = false) (hok : MapOk s.parameters)
    (parameters : List Parameter) :
    CallOutcome s (setParametersAtomically typeName lock nested parameters s) := by
  unfold setParametersAtomically
  split
  · exact .of_only hok (.refl s) _
  next toBeDeclared hdeclare =>
  obtain ⟨hall, hnew⟩ := parametersToBeDeclared_ok hdeclare
  have hstage : StageOutcome toBeDeclared [] s
      (stageParameters typeName lock nested toBeDeclared [] s) := stageParameters_outcome h hs ..
  generalize stageParameters typeName lock nested toBeDeclared [] s = outcome at hstage
  cases hstage with
  | failed response hs' => exact .of_only hok hs' _
  | @staged staged s' hs' hentry hkeys =>
    dsimp only
    have hnames := parametersToBeSet_names parameters staged
    generalize parametersToBeSet parameters staged = toBeSet at hnames
    -- what is known of a parameter of the batch is known of those that are set
    have hsame {name : Name} (hname : name ∈ toBeSet.map Parameter.name) :
        ∃ p ∈ parameters, p.name = name := List.mem_map.mp (hnames ▸ hname)
    split
    · exact .of_only hok hs' _
    next undeclared hundeclare =>
    have hundeclared := parametersToBeUndeclared_ok hundeclare
    have hdeclared : Declared s'.allowUndeclared s'.parameters toBeSet := by
      rw [hs'.allowUndeclared, hs'.parameters]
      by_cases hallow : s.allowUndeclared = true
      · exact .inl hallow
      · refine .inr fun q hq => ?_
        obtain ⟨p, hp, hname⟩ := hsame (List.mem_map_of_mem hq)
        rcases hall p hp with ⟨_, hallow', _⟩ | ⟨info, hinfo, _⟩
        · exact absurd hallow' hallow
        · rw [← hname, hinfo]
          rfl
    have hcommon : CommonOutcome toBeSet ⟨s', none⟩ (setParametersAtomicallyCommon typeName lock
        nested toBeSet true s'.allowUndeclared ⟨s', none⟩) :=
      setParametersAtomicallyCommon_outcome h (hs'.enabled.trans hs) hdeclared true
    generalize setParametersAtomicallyCommon typeName lock nested toBeSet true s'.allowUndeclared
      ⟨s', none⟩ = outcome at hcommon
    cases hcommon with
    | threw e hs'' => exact .of_only hok (hs'.trans hs'') _
    | rejected hresult hs'' =>
      dsimp only
      rw [hresult]
      exact .of_only hok (hs'.trans hs'') _
    | @set result hresult s'' hs'' hmay =>
      dsimp only
      rw [hresult]
      refine ⟨fun hfailed => ?_, ?_⟩
      · change (!result.successful) = true at hfailed
        rw [hresult] at hfailed
        cases hfailed
      show MapEvolves s.parameters
        (commitStaged staged undeclared (applyParameters toBeSet s'.parameters))
      change ∀ p ∈ toBeSet, ∀ info, Dict.get s'.parameters p.name = some info → _ at hmay
      rw [hs'.parameters] at hmay hundeclared ⊢
      refine commit_evolves hok hmay (fun q hq info hinfo => ?_) (fun q hq hnone => ?_)
        (fun e he => ?_) fun name hname => ?_
      · obtain ⟨p, hp, hname⟩ := hsame (List.mem_map_of_mem hq)
        rcases hall p hp with ⟨hnone, _⟩ | ⟨info', hinfo', hwritable⟩
        · rw [hname, hinfo] at hnone
          cases hnone
        · rw [hname, hinfo] at hinfo'
          exact Option.some.inj hinfo' ▸ hwritable
      · obtain ⟨p, hp, hname⟩ := hsame (List.mem_map_of_mem hq)
        rcases hall p hp with ⟨_, _, hmem⟩ | ⟨info, hinfo, _⟩
        · exact hname ▸ hkeys p.name (.inr (List.mem_map_of_mem hmem))
        · rw [hname, hnone] at hinfo
          cases hinfo
      · rcases hentry e he with hnil | ⟨hentry, p, hp, hname⟩
        · cases hnil
        · exact ⟨hentry, hname ▸ hnew p hp⟩
      · obtain ⟨hmem, info, hinfo, hdynamic⟩ := hundeclared name hname
        refine ⟨info, hinfo, ?_, hdynamic⟩
        obtain ⟨p, hp, hpname⟩ := hsame hmem
        rcases hall p hp with ⟨hnone, _⟩ | ⟨info', hinfo', hwritable⟩
        · rw [hpname, hinfo] at hnone
          cases hnone
        · rw [hpname, hinfo] at hinfo'
          exact Option.some.inj hinfo' ▸ hwritable

/-! ## Calls and runs -/

theorem callBody_outcome (h : Inert nested) {s : NodeParameters}
    (hs : s.parameterModificationEnabled = false) (hok : MapOk s.parameters) (call : ParameterCall) :
    CallOutcome s (callBody typeName lock nested s call) := by
  cases call with
  | declareParameter name defaultValue descriptor ignoreOverride =>
    exact declareParameterHelper_outcome h hs hok ..
  | declareTypedParameter name type descriptor ignoreOverride =>
    show CallOutcome s (if type = .notSet then _ else _)
    split
    · exact .of_only hok (.refl s) _
    split
    · exact .of_only hok (.refl s) _
    · exact declareParameterHelper_outcome h hs hok ..
  | undeclareParameter name => exact undeclareParameter_outcome hok name
  | setParametersAtomically parameters => exact setParametersAtomically_outcome h hs hok parameters
  | addOnSetParametersCallback handle => exact .of_only hok ⟨_, rfl⟩ _
  | removeOnSetParametersCallback handle =>
    show CallOutcome s (if _ then _ else _)
    split <;> exact .of_only hok ⟨_, rfl⟩ _

/-- What holds between two calls. -/
structure StoreOk (s : NodeParameters) : Prop where
  entries : MapOk s.parameters
  enabled : s.parameterModificationEnabled = true

/-- **One call**: all or nothing, and the guard is open again after it. -/
theorem step_outcome {s : NodeParameters} (hs : StoreOk s) (i : ParameterInput) :
    CallOutcome s (s.step typeName i) ∧ (s.step typeName i).2.parameterModificationEnabled = true := by
  have hopen : ¬(!s.parameterModificationEnabled) = true := by simp [hs.enabled]
  have hbody : CallOutcome { s with parameterModificationEnabled := false }
      (callBody typeName i.lock (fun s call => s.call typeName i.lock nestedTwice call)
        { s with parameterModificationEnabled := false } i.call) :=
    callBody_outcome (s := { s with parameterModificationEnabled := false })
      (inert_call typeName i.lock nestedTwice) rfl hs.entries i.call
  unfold NodeParameters.step NodeParameters.call withRecursionGuard
  rw [if_neg hopen]
  exact ⟨⟨hbody.failed, hbody.evolves⟩, rfl⟩

theorem StoreOk.step {s : NodeParameters} (hs : StoreOk s) (i : ParameterInput) :
    StoreOk ((nodeParameters typeName).step s i).2 :=
  ⟨(step_outcome hs i).1.evolves.ok, (step_outcome hs i).2⟩

theorem storeOk_of_reachable {s : NodeParameters} (h : Reachable (nodeParameters typeName) s) :
    StoreOk s := by
  refine h.invariant (fun s hinit => ⟨?_, hinit.2.1⟩) fun s i _ hs => hs.step i
  rw [hinit.1]
  exact fun name info hinfo => nomatch hinfo

theorem MapEvolves.trans {a b c : ParameterMap} (h : MapEvolves a b) (h' : MapEvolves b c) :
    MapEvolves a c := by
  refine ⟨h'.ok, fun name info hinfo hfixed => ?_⟩
  obtain ⟨info', hinfo', hkept, hread⟩ := h.fixed name info hinfo hfixed
  obtain ⟨info'', hinfo'', hkept', hread'⟩ := h'.fixed name info' hinfo' (by
    rwa [hkept.readOnly, hkept.dynamicTyping])
  refine ⟨info'', hinfo'', hkept.trans hkept', fun hro => ?_⟩
  rw [hread' (hkept.readOnly.trans hro), hread hro]

/-- **A run**: what calls make of the parameters, however many follow. -/
theorem exec_evolves {s : NodeParameters} (hs : StoreOk s)
    (tr : List (Event NodeParameters ParameterInput ParameterResponse)) (is : List ParameterInput) :
    MapEvolves s.parameters ((nodeParameters typeName).exec s tr is).2.parameters := by
  induction is generalizing s tr with
  | nil => exact hs.entries.evolves
  | cons i is ih => exact (step_outcome hs i).1.evolves.trans (ih (hs.step i) _)

/-- What a call declares: the name, the descriptor and the type. -/
def ParameterCall.declares : ParameterCall → Option (Name × ParameterDescriptor × ParameterType)
  | .declareParameter name defaultValue descriptor _ => some (name, descriptor, defaultValue.getType)
  | .declareTypedParameter name type descriptor _ => some (name, descriptor, type)
  | _ => none

/-- **What has been declared** is there, with its type. -/
theorem step_declared {s : NodeParameters} (hs : StoreOk s) {i : ParameterInput} {name : Name}
    {descriptor : ParameterDescriptor} {type : ParameterType}
    (hi : i.call.declares = some (name, descriptor, type))
    (hdone : (s.step typeName i).1.failed = false) :
    ∃ info, Dict.get (s.step typeName i).2.parameters name = some info ∧
      info.descriptor.readOnly = descriptor.readOnly ∧
      info.descriptor.dynamicTyping = descriptor.dynamicTyping ∧
      (descriptor.dynamicTyping = false → info.descriptor.type = type) := by
  have hopen : ¬(!s.parameterModificationEnabled) = true := by simp [hs.enabled]
  have hinert := inert_call typeName i.lock nestedTwice
  unfold NodeParameters.step NodeParameters.call withRecursionGuard at hdone ⊢
  rw [if_neg hopen] at hdone ⊢
  obtain ⟨call, lock⟩ := i
  cases call with
  | declareParameter name' defaultValue descriptor' ignoreOverride =>
    cases hi
    exact declareParameterHelper_declared hinert rfl rfl hdone
  | declareTypedParameter name' type' descriptor' ignoreOverride =>
    cases hi
    simp only [callBody] at hdone ⊢
    split at hdone
    · cases hdone
    next htype =>
    split at hdone
    · cases hdone
    next hstatic =>
    rw [if_neg htype, if_neg hstatic]
    obtain ⟨info, hinfo, hread, hdynamic, hof⟩ := declareParameterHelper_declared hinert rfl rfl hdone
    exact ⟨info, hinfo, hread, hdynamic, fun h => (hof h).trans (if_neg htype)⟩
  | undeclareParameter name' => cases hi
  | setParametersAtomically parameters => cases hi
  | addOnSetParametersCallback handle => cases hi
  | removeOnSetParametersCallback handle => cases hi

/-- What the parameter store promises in a state. -/
structure ParameterStoreSound (typeName : ParameterType → Name) (s : NodeParameters) : Prop where
  /-- a call that throws or is not successful leaves the parameters alone -/
  failed : ∀ i, ((nodeParameters typeName).step s i).1.failed = true →
    ((nodeParameters typeName).step s i).2.parameters = s.parameters
  /-- an entry goes by the name in its descriptor -/
  name : ∀ name info, Dict.get s.parameters name = some info → info.descriptor.name = name
  /-- the value of a statically typed parameter is unset or has its type -/
  typed : ∀ name info, Dict.get s.parameters name = some info →
    info.descriptor.dynamicTyping = false →
    info.value.getType = .notSet ∨ info.value.getType = info.descriptor.type
  /-- integers comply with their range -/
  integer : ∀ name info range ranges v, Dict.get s.parameters name = some info →
    info.descriptor.integerRange = range :: ranges → info.value = .integer v →
    integerInRange range v = true
  /-- what has been declared is there, read-only and statically typed as it was asked for -/
  declared : ∀ i name descriptor type, i.call.declares = some (name, descriptor, type) →
    ((nodeParameters typeName).step s i).1.failed = false →
    ∃ info, Dict.get ((nodeParameters typeName).step s i).2.parameters name = some info ∧
      info.descriptor.readOnly = descriptor.readOnly ∧
      info.descriptor.dynamicTyping = descriptor.dynamicTyping ∧
      (descriptor.dynamicTyping = false → info.descriptor.type = type)
  /-- a statically typed parameter stays, with the type it was declared with -/
  stays : ∀ name info is, Dict.get s.parameters name = some info →
    info.descriptor.dynamicTyping = false →
    ∃ info', Dict.get ((nodeParameters typeName).exec s [] is).2.parameters name = some info' ∧
      info'.descriptor.dynamicTyping = false ∧ info'.descriptor.type = info.descriptor.type
  /-- a read-only parameter stays what it is -/
  readOnly : ∀ name info is, Dict.get s.parameters name = some info →
    info.descriptor.readOnly = true →
    Dict.get ((nodeParameters typeName).exec s [] is).2.parameters name = some info

/-- **The parameter store** in every state that calls can reach: batches are all or nothing, entries
are in order, and read-only parameters stay what they are. -/
theorem parameter_store (typeName : ParameterType → Name) :
    ∀ s, Reachable (nodeParameters typeName) s → ParameterStoreSound typeName s := by
  intro s hreach
  have hs : StoreOk s := storeOk_of_reachable hreach
  refine ⟨fun i => (step_outcome hs i).1.failed,
    fun name info hinfo => (hs.entries name info hinfo).name,
    fun name info hinfo => (hs.entries name info hinfo).typed, ?_,
    fun i name descriptor type hi hdone => step_declared hs hi hdone, ?_, ?_⟩
  · intro name info range ranges v hinfo hrange hvalue
    have hin := (hs.entries name info hinfo).range
    unfold InRange checkParameterValueInRange at hin
    rw [hrange, hvalue] at hin
    dsimp only at hin
    split at hin
    · assumption
    · cases hin
  · intro name info is hinfo hstatic
    obtain ⟨info', hinfo', hkept, _⟩ := (exec_evolves hs [] is).fixed name info hinfo (.inr hstatic)
    exact ⟨info', hinfo', hkept.dynamicTyping.trans hstatic, hkept.type hstatic⟩
  · intro name info is hinfo hread
    obtain ⟨info', hinfo', _, hsame⟩ := (exec_evolves hs [] is).fixed name info hinfo (.inl hread)
    rw [hinfo', hsame hread]

/-! ## A read-only parameter -/

/-- `rclcpp::to_string` of a type. -/
def parameterTypeName : ParameterType → Name
  | .notSet => "not set".toList
  | .bool => "bool".toList
  | .integer => "integer".toList
  | .double => "double".toList
  | .string => "string".toList
  | .byteArray => "byte_array".toList
  | .boolArray => "bool_array".toList
  | .integerArray => "integer_array".toList
  | .doubleArray => "double_array".toList
  | .stringArray => "string_array".toList

/-- A store that allows undeclared parameters and has none. -/
def emptyStore : NodeParameters := ⟨[], [], true, [], true⟩

/-- A read-only descriptor of the integers from 0 to 10. -/
def smallIntegers : ParameterDescriptor :=
  { ParameterDescriptor.blank with readOnly := true, integerRange := [⟨0, 10, 1⟩] }

/-- The store once a read-only `n` is 4. -/
def storeOfFour : NodeParameters :=
  ((nodeParameters parameterTypeName).exec emptyStore []
    [⟨.declareParameter ['n'] (.integer 4) smallIntegers false, fun _ => none⟩]).2

/-- A batch that would make `m` before it comes to `n` changes nothing. -/
theorem parameter_store_of_four :
    let i : ParameterInput :=
      ⟨.setParametersAtomically [⟨['m'], .integer 1⟩, ⟨['n'], .integer 5⟩], fun _ => none⟩
    Dict.get storeOfFour.parameters ['n'] = some ⟨.integer 4,
        { smallIntegers with name := ['n'], type := .integer }⟩ ∧
      ((nodeParameters parameterTypeName).step storeOfFour i).2.parameters =
        storeOfFour.parameters := by
  have hinit : (nodeParameters parameterTypeName).init emptyStore := ⟨rfl, rfl, rfl⟩
  exact ⟨rfl, (parameter_store parameterTypeName storeOfFour (.exec hinit _)).failed _ rfl⟩

end Agnocast
