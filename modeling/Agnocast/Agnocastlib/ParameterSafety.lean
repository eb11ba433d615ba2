import Agnocast.Agnocastlib.NodeParameters

/-!
# Node parameters — what a call may change

* `inert_call` — what a callback can do: while a call runs, the calls of its callbacks do nothing.
* `EntryOk`, `Kept` — the invariant of an entry, and what setting leaves of a descriptor.
* `setParametersAtomicallyCommon_outcome`, `declareParameterCommon_outcome` — checking and calling
  back come before the first write; a new entry is in order.
* `CallOutcome` — what a call may do: it fails and changes no parameter, or the parameters evolve.
-/

namespace Agnocast

open Transition

variable {typeName : ParameterType → Name} {lock : LockHandle}
  {nested : NodeParameters → ParameterCall → ParameterResponse × NodeParameters}

/-! ## Callbacks -/

/-- While a call runs, calls do nothing. -/
def Inert (nested : NodeParameters → ParameterCall → ParameterResponse × NodeParameters) : Prop :=
  ∀ s call, s.parameterModificationEnabled = false → (nested s call).2 = s

/-- **The guard**: a call that a callback makes does nothing, whatever its own callbacks would do. -/
theorem inert_call (typeName : ParameterType → Name) (lock : LockHandle)
    (nested : NodeParameters → ParameterCall → ParameterResponse × NodeParameters) :
    Inert fun s call => s.call typeName lock nested call := by
  intro s call hs
  have hstop : (!s.parameterModificationEnabled) = true := by rw [hs]; rfl
  show (s.call typeName lock nested call).2 = s
  unfold NodeParameters.call withRecursionGuard
  rw [if_pos hstop]

/-- Nothing changed but the container of the callbacks. -/
def OnlyCallbacks (s s' : NodeParameters) : Prop :=
  ∃ container, s' = { s with onParametersSetCallbackContainer := container }

theorem OnlyCallbacks.refl (s : NodeParameters) : OnlyCallbacks s s := ⟨_, rfl⟩

theorem OnlyCallbacks.trans {s s' s'' : NodeParameters} (h : OnlyCallbacks s s')
    (h' : OnlyCallbacks s' s'') : OnlyCallbacks s s'' := by
  obtain ⟨_, rfl⟩ := h
  obtain ⟨_, rfl⟩ := h'
  exact ⟨_, rfl⟩

theorem OnlyCallbacks.parameters {s s' : NodeParameters} (h : OnlyCallbacks s s') :
    s'.parameters = s.parameters := by
  obtain ⟨_, rfl⟩ := h
  rfl

theorem OnlyCallbacks.enabled {s s' : NodeParameters} (h : OnlyCallbacks s s') :
    s'.parameterModificationEnabled = s.parameterModificationEnabled := by
  obtain ⟨_, rfl⟩ := h
  rfl

theorem OnlyCallbacks.allowUndeclared {s s' : NodeParameters} (h : OnlyCallbacks s s') :
    s'.allowUndeclared = s.allowUndeclared := by
  obtain ⟨_, rfl⟩ := h
  rfl

theorem runCallback_eq (h : Inert nested) {s : NodeParameters}
    (hs : s.parameterModificationEnabled = false) (run : CallbackRun) :
    (runCallback nested run s).2 = s := by
  induction run with
  | returns result => rfl
  | throws what => rfl
  | looks next ih => exact ih s.parameters
  | calls call next ih =>
    unfold runCallback
    rw [h s call hs]
    exact ih _

private theorem callCallbacks_only (h : Inert nested) {s : NodeParameters}
    (hs : s.parameterModificationEnabled = false) (parameters : List Parameter)
    (before handles : List Nat) (result : SetParametersResult) :
    OnlyCallbacks s (callCallbacks lock nested parameters before handles result s).2 := by
  induction handles generalizing before result with
  | nil => exact ⟨_, rfl⟩
  | cons handle rest ih =>
    unfold callCallbacks
    split
    · exact ih before result
    · next callback _ =>
      have hrun := runCallback_eq h hs (callback parameters)
      dsimp only
      split
      · next e s' heq =>
        rw [heq] at hrun
        obtain rfl : s' = s := hrun
        exact ⟨_, rfl⟩
      · next result' s' heq =>
        rw [heq] at hrun
        obtain rfl : s' = s := hrun
        split
        · exact ih _ result'
        · exact ⟨_, rfl⟩

/-- **User callbacks** leave the parameters alone. -/
theorem callOnParametersSetCallbacks_only (h : Inert nested) {s : NodeParameters}
    (hs : s.parameterModificationEnabled = false) (parameters : List Parameter) :
    OnlyCallbacks s (callOnParametersSetCallbacks lock nested parameters s).2 :=
  callCallbacks_only h hs ..

/-! ## Entries -/

/-- The value complies with the ranges of the descriptor. -/
def InRange (descriptor : ParameterDescriptor) (value : ParameterValue) : Prop :=
  (checkParameterValueInRange descriptor value).successful = true

/-- The invariant of an entry. -/
structure EntryOk (name : Name) (info : ParameterInfo) : Prop where
  name : info.descriptor.name = name
  typed : info.descriptor.dynamicTyping = false →
    info.value.getType = .notSet ∨ info.value.getType = info.descriptor.type
  range : InRange info.descriptor info.value

/-- What setting a value leaves of a descriptor. -/
structure Kept (d d' : ParameterDescriptor) : Prop where
  readOnly : d'.readOnly = d.readOnly
  dynamicTyping : d'.dynamicTyping = d.dynamicTyping
  integerRange : d'.integerRange = d.integerRange
  floatingPointRange : d'.floatingPointRange = d.floatingPointRange
  type : d.dynamicTyping = false → d'.type = d.type

theorem Kept.refl (d : ParameterDescriptor) : Kept d d := ⟨rfl, rfl, rfl, rfl, fun _ => rfl⟩

theorem Kept.trans {d d' d'' : ParameterDescriptor} (h : Kept d d') (h' : Kept d' d'') :
    Kept d d'' where
  readOnly := h'.readOnly.trans h.readOnly
  dynamicTyping := h'.dynamicTyping.trans h.dynamicTyping
  integerRange := h'.integerRange.trans h.integerRange
  floatingPointRange := h'.floatingPointRange.trans h.floatingPointRange
  type hd := (h'.type (h.dynamicTyping.trans hd)).trans (h.type hd)

/-- The check looks at nothing of the descriptor but its ranges. -/
theorem inRange_congr {d d' : ParameterDescriptor} {value : ParameterValue}
    (hint : d'.integerRange = d.integerRange)
    (hfp : d'.floatingPointRange = d.floatingPointRange) : InRange d' value ↔ InRange d value := by
  unfold InRange checkParameterValueInRange
  rw [hint, hfp]
  split
  · split <;> rfl
  · split <;> rfl
  · rfl

/-- An unset value is in every range. -/
theorem inRange_notSet (d : ParameterDescriptor) : InRange d .notSet := by
  unfold InRange checkParameterValueInRange
  split
  · next h => cases h
  · next h => cases h
  · rfl

/-- The value may be set under this descriptor. -/
def MaySet (d : ParameterDescriptor) (value : ParameterValue) : Prop :=
  (d.dynamicTyping = true ∨ d.type = value.getType) ∧ InRange d value

theorem Kept.maySet_iff {d d' : ParameterDescriptor} (h : Kept d d') (value : ParameterValue) :
    MaySet d' value ↔ MaySet d value := by
  unfold MaySet
  rw [inRange_congr h.integerRange h.floatingPointRange, h.dynamicTyping]
  cases hd : d.dynamicTyping with
  | true => simp
  | false => rw [h.type hd]

theorem checkParameter_successful {d : ParameterDescriptor} {parameter : Parameter} :
    (checkParameter typeName d parameter).successful = true ↔ MaySet d parameter.value := by
  -- the name that the check may put in matters to its messages only
  obtain ⟨d', hd', hdyn, htype, hint, hfp⟩ : ∃ d', (if d.name.isEmpty = true then
      { d with name := parameter.name } else d) = d' ∧ d'.dynamicTyping = d.dynamicTyping ∧
      d'.type = d.type ∧ d'.integerRange = d.integerRange ∧
      d'.floatingPointRange = d.floatingPointRange := by
    split <;> exact ⟨_, rfl, rfl, rfl, rfl, rfl⟩
  unfold checkParameter MaySet
  rw [hd', ← inRange_congr hint hfp, ← hdyn, ← htype]
  dsimp only
  split
  · next h => exact ⟨fun hin => ⟨by simpa using h, hin⟩, fun hacc => hacc.2⟩
  · next h => exact ⟨nofun, fun hacc => absurd (by simpa using hacc.1) h⟩

/-- An entry whose value has been replaced by one that may be set. -/
theorem EntryOk.assign {info : ParameterInfo} {parameter : Parameter}
    (h : MaySet info.descriptor parameter.value) :
    EntryOk parameter.name (info.assign parameter) ∧
      Kept info.descriptor (info.assign parameter).descriptor := by
  have hrange : InRange (info.assign parameter).descriptor parameter.value ↔
      InRange info.descriptor parameter.value := inRange_congr rfl rfl
  refine ⟨⟨rfl, fun _ => .inr rfl, hrange.mpr h.2⟩, rfl, rfl, rfl, rfl, fun hstatic => ?_⟩
  rcases h.1 with hdyn | htype
  · rw [hstatic] at hdyn
    cases hdyn
  · exact htype.symm

/-! ## Checking and setting -/

section

variable {parameters : List Parameter} {infos : ParameterMap} {allow : Bool}

/-- Names that are declared, unless they need not be. -/
def Declared (allow : Bool) (infos : ParameterMap) (parameters : List Parameter) : Prop :=
  allow = true ∨ ∀ p ∈ parameters, (Dict.get infos p.name).isSome = true

/-- **No entry is made** by looking at what is declared. -/
private theorem descriptorToCheck_infos {name : Name}
    (h : allow = true ∨ (Dict.get infos name).isSome = true) :
    (descriptorToCheck infos name allow).2 = infos := by
  unfold descriptorToCheck
  split
  · split <;> rfl
  · next hallow =>
    obtain ⟨info, hinfo⟩ := Option.isSome_iff_exists.mp (h.resolve_left hallow)
    unfold subscript
    rw [hinfo]

theorem checkParameters_infos (h : Declared allow infos parameters) :
    (checkParameters typeName allow parameters infos).2 = infos := by
  induction parameters with
  | nil => rfl
  | cons p rest ih =>
    have hp := descriptorToCheck_infos (h.imp_right fun hall => hall p List.mem_cons_self)
    unfold checkParameters
    dsimp only
    split
    · rw [hp]
      exact ih (h.imp_right fun hall q hq => hall q (List.mem_cons_of_mem _ hq))
    · exact hp

/-- The check has accepted every parameter under the descriptor of its entry. -/
theorem checkParameters_maySet (h : Declared allow infos parameters)
    (hok : (checkParameters typeName allow parameters infos).1.successful = true) :
    ∀ p ∈ parameters, ∀ info, Dict.get infos p.name = some info →
      MaySet info.descriptor p.value := by
  induction parameters with
  | nil => exact fun p hp => nomatch hp
  | cons p rest ih =>
    have hp := descriptorToCheck_infos (h.imp_right fun hall => hall p List.mem_cons_self)
    unfold checkParameters at hok
    dsimp only at hok
    split at hok
    · next hfirst =>
      rw [hp] at hok
      intro q hq info hinfo
      rcases List.mem_cons.mp hq with rfl | hq
      · have hdescriptor : (descriptorToCheck infos q.name allow).1 = info.descriptor := by
          unfold descriptorToCheck subscript
          rw [hinfo]
          split <;> rfl
        rw [hdescriptor] at hfirst
        exact checkParameter_successful.mp hfirst
      · exact ih (h.imp_right fun hall q hq => hall q (List.mem_cons_of_mem _ hq)) hok q hq info hinfo
    · next hfirst => exact absurd hok hfirst

theorem applyParameters_cons (p : Parameter) (rest : List Parameter) (infos : ParameterMap) :
    applyParameters (p :: rest) infos = applyParameters rest (Dict.set infos p.name
      ((subscript infos p.name).1.assign p)) := rfl

/-- A name that is not set keeps its entry. -/
theorem applyParameters_of_not_mem {name : Name} (h : ∀ p ∈ parameters, p.name ≠ name) :
    Dict.get (applyParameters parameters infos) name = Dict.get infos name := by
  induction parameters generalizing infos with
  | nil => rfl
  | cons p rest ih =>
    rw [applyParameters_cons, ih fun q hq => h q (List.mem_cons_of_mem _ hq), Dict.get_set,
      if_neg (Ne.symm (h p List.mem_cons_self))]

/-- **An entry that is set** stays in order. -/
theorem applyParameters_get {name : Name} {info : ParameterInfo} (hinfo : Dict.get infos name = some info)
    (hok : EntryOk name info)
    (hmay : ∀ p ∈ parameters, p.name = name → MaySet info.descriptor p.value) :
    ∃ info', Dict.get (applyParameters parameters infos) name = some info' ∧ EntryOk name info' ∧
      Kept info.descriptor info'.descriptor := by
  induction parameters generalizing infos info with
  | nil => exact ⟨info, hinfo, hok, .refl _⟩
  | cons p rest ih =>
    rw [applyParameters_cons]
    by_cases hname : name = p.name
    · subst hname
      obtain ⟨hassigned, hkept⟩ :=
        EntryOk.assign (hmay p List.mem_cons_self rfl)
      have hsub : (subscript infos p.name).1 = info := by
        unfold subscript
        rw [hinfo]
      rw [hsub]
      have hset : Dict.get (Dict.set infos p.name (info.assign p)) p.name = some (info.assign p) := by
        rw [Dict.get_set, if_pos rfl]
      obtain ⟨info', hget, hok', hkept'⟩ := ih hset hassigned
        fun q hq hqname => (hkept.maySet_iff _).mpr
          (hmay q (List.mem_cons_of_mem _ hq) hqname)
      exact ⟨info', hget, hok', hkept.trans hkept'⟩
    · exact ih (by rw [Dict.get_set, if_neg hname, hinfo]) hok
        fun q hq => hmay q (List.mem_cons_of_mem _ hq)

end

/-- What `set_parameters_atomically_common` makes of the map it works on, and of the store. -/
inductive CommonOutcome (parameters : List Parameter) (w : ParameterWork) :
    Except ParameterException SetParametersResult × ParameterWork → Prop
  | threw (e : ParameterException) {s' : NodeParameters} (hs : OnlyCallbacks w.store s') :
      CommonOutcome parameters w (.error e, { w with store := s' })
  | rejected {result : SetParametersResult} (hresult : result.successful = false)
      {s' : NodeParameters} (hs : OnlyCallbacks w.store s') :
      CommonOutcome parameters w (.ok result, { w with store := s' })
  | set {result : SetParametersResult} (hresult : result.successful = true)
      {s' : NodeParameters} (hs : OnlyCallbacks w.store s')
      (hmay : ∀ p ∈ parameters, ∀ info, Dict.get w.infos p.name = some info →
        MaySet info.descriptor p.value) :
      CommonOutcome parameters w
        (.ok result, ParameterWork.setInfos { w with store := s' } (applyParameters parameters w.infos))

private theorem setInfos_infos (w : ParameterWork) : w.setInfos w.infos = w := by
  obtain ⟨s, scratch⟩ := w
  cases scratch <;> rfl

private theorem infos_of_onlyCallbacks {w : ParameterWork} {s' : NodeParameters}
    (hs : OnlyCallbacks w.store s') : ParameterWork.infos { w with store := s' } = w.infos := by
  unfold ParameterWork.infos
  rw [hs.parameters]

/-- **Checking and calling back come before the first write.** -/
theorem setParametersAtomicallyCommon_outcome (h : Inert nested) {w : ParameterWork}
    (hs : w.store.parameterModificationEnabled = false) {parameters : List Parameter}
    {allow : Bool} (hdeclared : Declared allow w.infos parameters) (useCallbacks : Bool) :
    CommonOutcome parameters w (setParametersAtomicallyCommon typeName lock nested parameters
      useCallbacks allow w) := by
  have hinfos : (checkParameters typeName allow parameters w.infos).2 = w.infos :=
    checkParameters_infos hdeclared
  unfold setParametersAtomicallyCommon
  dsimp only
  rw [hinfos, setInfos_infos]
  split
  · next hfail => exact .rejected (by simpa using hfail) (.refl _)
  next hok =>
  have hcalls : OnlyCallbacks w.store (if useCallbacks then
      callOnParametersSetCallbacks lock nested parameters w.store
      else (.ok .success, w.store)).2 := by
    split
    · exact callOnParametersSetCallbacks_only h hs parameters
    · exact .refl _
  split
  · next e s' heq =>
    rw [heq] at hcalls
    exact .threw e hcalls
  · next result s' heq =>
    rw [heq] at hcalls
    split
    · next hfail => exact .rejected (by simpa using hfail) hcalls
    · next hsuccess =>
      rw [infos_of_onlyCallbacks hcalls]
      exact .set (by simpa using hsuccess) hcalls
        (checkParameters_maySet hdeclared (by simpa using hok))

/-! ## Declaring -/

/-- What `declare_parameter_common` does: it has an entry to store, or says why not. -/
inductive DeclareOutcome (name : Name) (descriptor : ParameterDescriptor) (s : NodeParameters) :
    Except ParameterException (SetParametersResult × Option ParameterInfo) × NodeParameters → Prop
  | threw (e : ParameterException) {s' : NodeParameters} (hs : OnlyCallbacks s s') :
      DeclareOutcome name descriptor s (.error e, s')
  | rejected {result : SetParametersResult} (hresult : result.successful = false)
      {s' : NodeParameters} (hs : OnlyCallbacks s s') :
      DeclareOutcome name descriptor s (.ok (result, none), s')
  | declared (result : SetParametersResult) {info : ParameterInfo} {s' : NodeParameters}
      (hs : OnlyCallbacks s s') (hok : EntryOk name info) (hkept : Kept descriptor info.descriptor) :
      DeclareOutcome name descriptor s (.ok (result, some info), s')

/-- **A new entry** is in order. -/
theorem declareParameterCommon_outcome (h : Inert nested) {s : NodeParameters}
    (hs : s.parameterModificationEnabled = false) (name : Name) (defaultValue : ParameterValue)
    (descriptor : ParameterDescriptor) (useCallbacks ignoreOverride : Bool) :
    DeclareOutcome name descriptor s (declareParameterCommon typeName lock nested name defaultValue
      descriptor useCallbacks ignoreOverride s) := by
  unfold declareParameterCommon
  dsimp only
  generalize (if ignoreOverride then defaultValue
    else (Dict.get s.parameterOverrides name).getD defaultValue) = initialValue
  split
  -- there is nothing to store
  · refine .declared _ (.refl s) ⟨rfl, fun _ => .inl rfl, inRange_notSet _⟩
      ⟨rfl, rfl, rfl, rfl, fun hstatic => ?_⟩
    exact if_neg (by rw [hstatic]; exact Bool.false_ne_true)
  -- the new entry is alone in a table of its own until it is accepted
  · let w : ParameterWork := ⟨s, some [(name, ⟨.notSet, descriptor⟩)]⟩
    have hget : Dict.get w.infos name = some ⟨.notSet, descriptor⟩ := by
      show Dict.get [(name, _)] name = _
      rw [Dict.get_cons, if_pos rfl, Option.some_or]
    have hdeclared : Declared false w.infos [⟨name, initialValue⟩] := .inr fun p hp => by
      rw [List.mem_singleton.mp hp, hget]
      rfl
    have hcommon : CommonOutcome [⟨name, initialValue⟩] w (setParametersAtomicallyCommon typeName
        lock nested [⟨name, initialValue⟩] useCallbacks false w) :=
      setParametersAtomicallyCommon_outcome h hs hdeclared useCallbacks
    generalize setParametersAtomicallyCommon typeName lock nested [⟨name, initialValue⟩] useCallbacks
      false w = outcome at hcommon
    cases hcommon with
    | threw e hs' => exact .threw e hs'
    | rejected hresult hs' =>
      dsimp only
      rw [hresult]
      exact .rejected hresult hs'
    | @set result hresult s' hs' hmay =>
      have hassigned := EntryOk.assign (hmay ⟨name, initialValue⟩ (List.mem_singleton_self _) _ hget)
      have hstored : Dict.get (ParameterWork.infos (ParameterWork.setInfos { w with store := s' }
          (applyParameters [⟨name, initialValue⟩] w.infos))) name =
          some (ParameterInfo.assign ⟨.notSet, descriptor⟩ ⟨name, initialValue⟩) := by
        show Dict.get (applyParameters [⟨name, initialValue⟩] w.infos) name = _
        have hsub : (subscript w.infos name).1 = ⟨.notSet, descriptor⟩ := by
          unfold subscript
          rw [hget]
        rw [applyParameters_cons]
        show Dict.get (Dict.set w.infos name _) name = _
        rw [Dict.get_set, if_pos rfl, hsub]
      dsimp only
      rw [hresult, if_pos rfl, hstored]
      exact .declared result hs' hassigned.1 hassigned.2

/-! ## What a call may make of the parameters -/

/-- Every entry is in order. -/
def MapOk (infos : ParameterMap) : Prop :=
  ∀ name info, Dict.get infos name = some info → EntryOk name info

/-- Every entry is in order; read-only entries are what they were, and statically typed ones are
there with their type. -/
structure MapEvolves (infos infos' : ParameterMap) : Prop where
  ok : MapOk infos'
  fixed : ∀ name info, Dict.get infos name = some info →
    info.descriptor.readOnly = true ∨ info.descriptor.dynamicTyping = false →
    ∃ info', Dict.get infos' name = some info' ∧ Kept info.descriptor info'.descriptor ∧
      (info.descriptor.readOnly = true → info' = info)

theorem MapOk.evolves {infos : ParameterMap} (h : MapOk infos) : MapEvolves infos infos :=
  ⟨h, fun _ info hinfo _ => ⟨info, hinfo, .refl _, fun _ => rfl⟩⟩

/-- What a call does: it fails and changes no parameter, or the parameters evolve. -/
structure CallOutcome (s : NodeParameters) (outcome : ParameterResponse × NodeParameters) : Prop where
  failed : outcome.1.failed = true → outcome.2.parameters = s.parameters
  evolves : MapEvolves s.parameters outcome.2.parameters

theorem CallOutcome.of_only {s s' : NodeParameters} (hok : MapOk s.parameters)
    (hs : OnlyCallbacks s s') (response : ParameterResponse) : CallOutcome s (response, s') :=
  ⟨fun _ => hs.parameters, hs.parameters.symm ▸ hok.evolves⟩

/-- A new entry. -/
private theorem MapOk.declare {infos : ParameterMap} (h : MapOk infos) {name : Name}
    {info : ParameterInfo} (hnew : Dict.get infos name = none) (hok : EntryOk name info) :
    MapEvolves infos (Dict.set infos name info) := by
  refine ⟨fun name' info' hinfo' => ?_, fun name' info' hinfo' _ => ?_⟩
  · rw [Dict.get_set] at hinfo'
    split at hinfo'
    · next heq =>
      cases hinfo'
      exact heq ▸ hok
    · exact h name' info' hinfo'
  · refine ⟨info', ?_, .refl _, fun _ => rfl⟩
    rw [Dict.get_set, if_neg, hinfo']
    rintro rfl
    rw [hnew] at hinfo'
    cases hinfo'

theorem declareParameterHelper_outcome (h : Inert nested) {s : NodeParameters}
    (hs : s.parameterModificationEnabled = false) (hok : MapOk s.parameters) (name : Name)
    (type : ParameterType) (defaultValue : ParameterValue) (descriptor : ParameterDescriptor)
    (ignoreOverride : Bool) :
    CallOutcome s (declareParameterHelper typeName lock nested name type defaultValue descriptor
      ignoreOverride s) := by
  unfold declareParameterHelper
  split
  · exact .of_only hok (.refl s) _
  split
  · exact .of_only hok (.refl s) _
  next hnew =>
  have hnone : Dict.get s.parameters name = none := by simpa using hnew
  split
  · exact .of_only hok (.refl s) _
  next descriptor' _ =>
  have houtcome : DeclareOutcome name descriptor' s (declareParameterCommon typeName lock nested name
      defaultValue descriptor' true ignoreOverride s) :=
    declareParameterCommon_outcome h hs ..
  generalize declareParameterCommon typeName lock nested name defaultValue descriptor' true
    ignoreOverride s = outcome at houtcome
  cases houtcome with
  | threw e hs' => exact .of_only hok hs' _
  | rejected hresult hs' =>
    dsimp only
    split <;> exact .of_only hok hs' _
  | @declared result info s' hs' hentry hkept =>
    refine ⟨by rintro ⟨⟩, ?_⟩
    show MapEvolves s.parameters (Dict.set s'.parameters name info)
    rw [hs'.parameters]
    exact hok.declare hnone hentry

/-- What is declared has the type it is declared with, and is read-only if that is asked for. -/
theorem declareParameterHelper_declared (h : Inert nested) {s : NodeParameters}
    (hs : s.parameterModificationEnabled = false) {name : Name} {type : ParameterType}
    {defaultValue : ParameterValue} {descriptor : ParameterDescriptor} {ignoreOverride : Bool}
    {outcome : ParameterResponse × NodeParameters}
    (houtcome : declareParameterHelper typeName lock nested name type defaultValue descriptor
      ignoreOverride s = outcome) (hdone : outcome.1.failed = false) :
    ∃ info, Dict.get outcome.2.parameters name = some info ∧
      info.descriptor.readOnly = descriptor.readOnly ∧
      info.descriptor.dynamicTyping = descriptor.dynamicTyping ∧
      (descriptor.dynamicTyping = false → info.descriptor.type =
        if type = .notSet then defaultValue.getType else type) := by
  unfold declareParameterHelper at houtcome
  split at houtcome
  · subst houtcome
    cases hdone
  split at houtcome
  · subst houtcome
    cases hdone
  split at houtcome
  · subst houtcome
    cases hdone
  next descriptor' htyped =>
  -- the descriptor that is declared with differs in its type only
  have hkept' : descriptor'.readOnly = descriptor.readOnly ∧
      descriptor'.dynamicTyping = descriptor.dynamicTyping ∧
      (descriptor.dynamicTyping = false → descriptor'.type =
        if type = .notSet then defaultValue.getType else type) := by
    unfold typedDescriptor at htyped
    split at htyped
    · next hdynamic =>
      cases htyped
      exact ⟨rfl, rfl, fun hstatic => by rw [hstatic] at hdynamic; cases hdynamic⟩
    · dsimp only at htyped
      generalize (if type = .notSet then defaultValue.getType else type) = type' at htyped ⊢
      split at htyped
      · cases htyped
      · cases htyped
        exact ⟨rfl, rfl, fun _ => rfl⟩
  have hdeclare : DeclareOutcome name descriptor' s (declareParameterCommon typeName lock nested name
      defaultValue descriptor' true ignoreOverride s) :=
    declareParameterCommon_outcome h hs ..
  generalize declareParameterCommon typeName lock nested name defaultValue descriptor' true
    ignoreOverride s = common at hdeclare houtcome
  cases hdeclare with
  | threw e hs' =>
    subst houtcome
    cases hdone
  | rejected hresult hs' =>
    dsimp only at houtcome
    split at houtcome <;>
    · subst houtcome
      cases hdone
  | @declared result info s' hs' hentry hkept =>
    subst houtcome
    refine ⟨info, ?_, hkept.readOnly.trans hkept'.1, hkept.dynamicTyping.trans hkept'.2.1,
      fun hstatic => (hkept.type (hkept'.2.1.trans hstatic)).trans (hkept'.2.2 hstatic)⟩
    show Dict.get (Dict.set s'.parameters name info) name = some info
    rw [Dict.get_set, if_pos rfl]

theorem undeclareParameter_outcome {s : NodeParameters} (hok : MapOk s.parameters) (name : Name) :
    CallOutcome s (undeclareParameter name s) := by
  unfold undeclareParameter
  split
  · exact .of_only hok (.refl s) _
  next info hinfo =>
  split
  · exact .of_only hok (.refl s) _
  next hwritable =>
  split
  · exact .of_only hok (.refl s) _
  next hdynamic =>
  have hdynamic : info.descriptor.dynamicTyping = true := by simpa using hdynamic
  refine ⟨nofun, fun name' info' hinfo' => ?_, fun name' info' hinfo' hfixed => ?_⟩
  · rw [Dict.get_erase] at hinfo'
    split at hinfo'
    · cases hinfo'
    · exact hok name' info' hinfo'
  · refine ⟨info', ?_, .refl _, fun _ => rfl⟩
    rw [Dict.get_erase, if_neg, hinfo']
    -- neither a read-only nor a statically typed entry comes so far
    rintro rfl
    obtain rfl := Option.some.inj (hinfo.symm.trans hinfo')
    rcases hfixed with hread | hstatic
    · exact hwritable hread
    · rw [hdynamic] at hstatic
      cases hstatic

end Agnocast
