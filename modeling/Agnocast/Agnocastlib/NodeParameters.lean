import Agnocast.Kmod.Basic
import Agnocast.Lib.Dict
import Agnocast.Lib.Transition

/-!
# Node parameters

`node_parameters.cpp`: the parameter map of a node, and the calls that declare, undeclare and set
parameters. Calls hold a recursive mutex, so one call is one step; what a user callback does inside
of a call, the calls it makes itself included, is a tree (`CallbackRun`).

Representation:

* **Maps** are dictionaries in the order of insertion; no loop over one depends on its order.
* **References.** `parameter_infos` of `set_parameters_atomically_common` stands for a local map or
  for `parameters_` (`ParameterWork`). What `declare_parameter_common` stores in `parameters_out`
  it returns.
* **The type** of a descriptor is an enumerator from the start; a descriptor that comes with another
  number gets its type before it is stored.
* Parts of a descriptor that nothing reads, events and assertions are left out. How `rclcpp` spells
  a type is a parameter.
-/

namespace Agnocast

/-! ## Values and descriptors -/

/-- `rclcpp::ParameterType`. -/
inductive ParameterType
  | notSet | bool | integer | double | string
  | byteArray | boolArray | integerArray | doubleArray | stringArray
  deriving DecidableEq, Repr

/-- `rclcpp::ParameterValue`. -/
inductive ParameterValue
  | notSet
  | bool (value : Bool)
  | integer (value : Int64)
  | double (value : Float)
  | string (value : Name)
  | byteArray (value : List UInt8)
  | boolArray (value : List Bool)
  | integerArray (value : List Int64)
  | doubleArray (value : List Float)
  | stringArray (value : List Name)
  deriving BEq

/-- `get_type`. -/
def ParameterValue.getType : ParameterValue → ParameterType
  | .notSet => .notSet
  | .bool _ => .bool
  | .integer _ => .integer
  | .double _ => .double
  | .string _ => .string
  | .byteArray _ => .byteArray
  | .boolArray _ => .boolArray
  | .integerArray _ => .integerArray
  | .doubleArray _ => .doubleArray
  | .stringArray _ => .stringArray

/-- `IntegerRange`. -/
structure IntegerRange where
  fromValue : Int64
  toValue : Int64
  step : UInt64

/-- `FloatingPointRange`. -/
structure FloatingPointRange where
  fromValue : Float
  toValue : Float
  step : Float

/-- `ParameterDescriptor`. -/
structure ParameterDescriptor where
  name : Name
  type : ParameterType
  readOnly : Bool
  dynamicTyping : Bool
  floatingPointRange : List FloatingPointRange
  integerRange : List IntegerRange

/-- `ParameterDescriptor()`. -/
def ParameterDescriptor.blank : ParameterDescriptor where
  name := []
  type := .notSet
  readOnly := false
  dynamicTyping := false
  floatingPointRange := []
  integerRange := []

/-- `ParameterInfo`. -/
structure ParameterInfo where
  value : ParameterValue
  descriptor : ParameterDescriptor

/-- `ParameterInfo()`. -/
def ParameterInfo.blank : ParameterInfo := ⟨.notSet, .blank⟩

abbrev ParameterMap := List (Name × ParameterInfo)

/-- `rclcpp::Parameter`. -/
structure Parameter where
  name : Name
  value : ParameterValue

/-- `SetParametersResult`. -/
structure SetParametersResult where
  successful : Bool
  reason : Name
  deriving DecidableEq, Repr

/-- `result.successful = true`. -/
def SetParametersResult.success : SetParametersResult := ⟨true, []⟩

/-- What is thrown. -/
inductive ParameterException
  | invalidParameters (what : Name)
  | parameterAlreadyDeclared (what : Name)
  | invalidParameterType (name what : Name)
  | invalidParameterValue (what : Name)
  | parameterNotDeclared (what : Name)
  | parameterImmutable (what : Name)
  | parameterModifiedInCallback
  | invalidArgument (what : Name)
  | runtimeError (what : Name)
  | user (what : Name)
  deriving DecidableEq, Repr

/-! ## Checks -/

/-- `are_doubles_equal`. -/
def areDoublesEqual (x y : Float) : Bool :=
  (x - y).abs ≤ 2.220446049250313e-16 * (x + y).abs * 100.0

/-- `format_range_reason`. -/
def formatRangeReason (name rangeType : Name) : Name :=
  "Parameter \x7b".toList ++ name ++ "\x7d doesn't comply with ".toList ++ rangeType ++ " range.".toList

/-- The integer part of `check_parameter_value_in_range`. The difference is taken as an unsigned
number, as the step is one. -/
def integerInRange (range : IntegerRange) (v : Int64) : Bool :=
  if v = range.fromValue ∨ v = range.toValue then true
  else if v < range.fromValue ∨ v > range.toValue then false
  else if range.step = 0 then true
  else (v - range.fromValue).toUInt64 % range.step = 0

/-- The floating point part of `check_parameter_value_in_range`. -/
def doubleInRange (range : FloatingPointRange) (v : Float) : Bool :=
  if areDoublesEqual v range.fromValue || areDoublesEqual v range.toValue then true
  else if v < range.fromValue ∨ v > range.toValue then false
  else if range.step == 0.0 then true
  else
    let roundedDiv := ((v - range.fromValue) / range.step).round
    areDoublesEqual v (range.fromValue + roundedDiv * range.step)

/-- `check_parameter_value_in_range`. -/
def checkParameterValueInRange (descriptor : ParameterDescriptor) (value : ParameterValue) :
    SetParametersResult :=
  match descriptor.integerRange, descriptor.floatingPointRange, value with
  | range :: _, _, .integer v =>
    if integerInRange range v then .success
    else ⟨false, formatRangeReason descriptor.name "integer".toList⟩
  | _, range :: _, .double v =>
    if doubleInRange range v then .success
    else ⟨false, formatRangeReason descriptor.name "floating point".toList⟩
  | _, _, _ => .success

section

-- `rclcpp::to_string` of a type
variable (typeName : ParameterType → Name)

/-- The beginning that tells type errors from others. -/
def typeErrorMsgStart : Name := "Wrong parameter type".toList

/-- `format_type_reason`. -/
def formatTypeReason (name oldType newType : Name) : Name :=
  typeErrorMsgStart ++ ", parameter \x7b".toList ++ name ++ "\x7d is of type \x7b".toList ++ oldType ++
    "\x7d, setting it to \x7b".toList ++ newType ++ "\x7d is not allowed.".toList

/-- `parameter_infos[name]`: a missing entry is made. -/
def subscript (infos : ParameterMap) (name : Name) : ParameterInfo × ParameterMap :=
  match Dict.get infos name with
  | some info => (info, infos)
  | none => (.blank, Dict.set infos name .blank)

/-- The descriptor that `check_parameters` looks at. -/
def descriptorToCheck (infos : ParameterMap) (name : Name) (allowUndeclared : Bool) :
    ParameterDescriptor × ParameterMap :=
  if allowUndeclared then
    match Dict.get infos name with
    | some info => (info.descriptor, infos)
    -- implicitly declared parameters are dynamically typed
    | none => ({ ParameterDescriptor.blank with dynamicTyping := true }, infos)
  else ((subscript infos name).1.descriptor, (subscript infos name).2)

/-- The body of the loop of `check_parameters`, once there is a descriptor. -/
def checkParameter (descriptor : ParameterDescriptor) (parameter : Parameter) :
    SetParametersResult :=
  let descriptor :=
    if descriptor.name.isEmpty then { descriptor with name := parameter.name } else descriptor
  if descriptor.dynamicTyping || descriptor.type = parameter.value.getType then
    checkParameterValueInRange descriptor parameter.value
  else
    ⟨false, formatTypeReason parameter.name (typeName descriptor.type)
      (typeName parameter.value.getType)⟩

/-- `check_parameters`. -/
def checkParameters (allowUndeclared : Bool) :
    List Parameter → ParameterMap → SetParametersResult × ParameterMap
  | [], infos => (.success, infos)
  | parameter :: rest, infos =>
    let (descriptor, infos) := descriptorToCheck infos parameter.name allowUndeclared
    let result := checkParameter typeName descriptor parameter
    if result.successful then checkParameters allowUndeclared rest infos else (result, infos)

/-- The three assignments that set a value. -/
def ParameterInfo.assign (info : ParameterInfo) (parameter : Parameter) : ParameterInfo where
  value := parameter.value
  descriptor :=
    { info.descriptor with name := parameter.name, type := parameter.value.getType }

/-- The loop that sets the values. -/
def applyParameters (parameters : List Parameter) (infos : ParameterMap) : ParameterMap :=
  parameters.foldl
    (fun infos parameter =>
      Dict.set infos parameter.name ((subscript infos parameter.name).1.assign parameter))
    infos

/-! ## The store and the callbacks -/

/-- The members of `NodeParameters`. A callback handle is a number. -/
structure NodeParameters where
  parameters : ParameterMap
  parameterOverrides : List (Name × ParameterValue)
  parameterModificationEnabled : Bool
  onParametersSetCallbackContainer : List Nat
  allowUndeclared : Bool

/-- The calls that change something. -/
inductive ParameterCall
  | declareParameter (name : Name) (defaultValue : ParameterValue)
      (descriptor : ParameterDescriptor) (ignoreOverride : Bool)
  | declareTypedParameter (name : Name) (type : ParameterType)
      (descriptor : ParameterDescriptor) (ignoreOverride : Bool)
  | undeclareParameter (name : Name)
  | setParametersAtomically (parameters : List Parameter)
  | addOnSetParametersCallback (handle : Nat)
  | removeOnSetParametersCallback (handle : Nat)

/-- What a call returns or throws. -/
inductive ParameterResponse
  | value (value : ParameterValue)
  | done
  | result (result : SetParametersResult)
  | threw (e : ParameterException)

/-- The call threw, or returned that it was not successful. -/
def ParameterResponse.failed : ParameterResponse → Bool
  | .threw _ => true
  | .result r => !r.successful
  | _ => false

/-- What a user callback does: it reads parameters and tries to change them as often as it likes,
and then returns or throws. -/
inductive CallbackRun
  | returns (result : SetParametersResult)
  | throws (what : Name)
  | looks (next : ParameterMap → CallbackRun)
  | calls (call : ParameterCall) (next : ParameterResponse → CallbackRun)

/-- What `lock()` of a handle finds: nothing, or the callback. -/
abbrev LockHandle := Nat → Option (List Parameter → CallbackRun)

variable (lock : LockHandle)
-- a call that a callback makes
variable (nested : NodeParameters → ParameterCall → ParameterResponse × NodeParameters)

/-- One callback. -/
def runCallback : CallbackRun → NodeParameters →
    Except ParameterException SetParametersResult × NodeParameters
  | .returns result, s => (.ok result, s)
  | .throws what, s => (.error (.user what), s)
  | .looks next, s => runCallback (next s.parameters) s
  | .calls call next, s => runCallback (next (nested s call).1) (nested s call).2

/-- The loop of `call_on_parameters_set_callbacks`, with the handles before the iterator, those
from it on and the last result. -/
def callCallbacks (parameters : List Parameter) : List Nat → List Nat → SetParametersResult →
    NodeParameters → Except ParameterException SetParametersResult × NodeParameters
  | before, [], result, s => (.ok result, { s with onParametersSetCallbackContainer := before })
  | before, handle :: rest, result, s =>
    match lock handle with
    -- a callback whose handle has expired is erased
    | none => callCallbacks parameters before rest result s
    | some callback =>
      let all := before ++ handle :: rest
      match runCallback nested (callback parameters) s with
      | (.error e, s) => (.error e, { s with onParametersSetCallbackContainer := all })
      | (.ok result, s) =>
        if result.successful then callCallbacks parameters (before ++ [handle]) rest result s
        else (.ok result, { s with onParametersSetCallbackContainer := all })

/-- `call_on_parameters_set_callbacks`. -/
def callOnParametersSetCallbacks (parameters : List Parameter) (s : NodeParameters) :
    Except ParameterException SetParametersResult × NodeParameters :=
  callCallbacks lock nested parameters [] s.onParametersSetCallbackContainer .success s

/-! ## Setting and declaring -/

/-- The store, and the local map that `parameter_infos` stands for, if it is not `parameters_`. -/
structure ParameterWork where
  store : NodeParameters
  scratch : Option ParameterMap

/-- `parameter_infos`. -/
def ParameterWork.infos (w : ParameterWork) : ParameterMap := w.scratch.getD w.store.parameters

/-- A change of `parameter_infos`. -/
def ParameterWork.setInfos (w : ParameterWork) (infos : ParameterMap) : ParameterWork :=
  match w.scratch with
  | none => { w with store := { w.store with parameters := infos } }
  | some _ => { w with scratch := some infos }

/-- `set_parameters_atomically_common`, with the callbacks of the store or with none. -/
def setParametersAtomicallyCommon (parameters : List Parameter) (useCallbacks allowUndeclared : Bool)
    (w : ParameterWork) : Except ParameterException SetParametersResult × ParameterWork :=
  let (result, infos) := checkParameters typeName allowUndeclared parameters w.infos
  let w := w.setInfos infos
  -- the checks come before the callbacks
  if !result.successful then (.ok result, w)
  else
    match (if useCallbacks then callOnParametersSetCallbacks lock nested parameters w.store
      else (.ok .success, w.store)) with
    | (.error e, store) => (.error e, { w with store := store })
    | (.ok result, store) =>
      let w := { w with store := store }
      if !result.successful then (.ok result, w)
      else (.ok result, w.setInfos (applyParameters parameters w.infos))

/-- `declare_parameter_common`, with what it stores in `parameters_out[name]`. -/
def declareParameterCommon (name : Name) (defaultValue : ParameterValue)
    (descriptor : ParameterDescriptor) (useCallbacks ignoreOverride : Bool) (s : NodeParameters) :
    Except ParameterException (SetParametersResult × Option ParameterInfo) × NodeParameters :=
  let initialValue :=
    if ignoreOverride then defaultValue
    else (Dict.get s.parameterOverrides name).getD defaultValue
  if initialValue.getType = .notSet then
    let type := if descriptor.dynamicTyping then .notSet else descriptor.type
    (.ok (.success, some ⟨.notSet, { descriptor with name := name, type := type }⟩), s)
  else
    match setParametersAtomicallyCommon typeName lock nested [⟨name, initialValue⟩] useCallbacks
      false ⟨s, some [(name, ⟨.notSet, descriptor⟩)]⟩ with
    | (.error e, w) => (.error e, w.store)
    | (.ok result, w) =>
      (.ok (result, if result.successful then Dict.get w.infos name else none), w.store)

/-- The descriptor with its type, in `declare_parameter_helper`. -/
def typedDescriptor (name : Name) (type : ParameterType) (defaultValue : ParameterValue)
    (descriptor : ParameterDescriptor) : Except ParameterException ParameterDescriptor :=
  if descriptor.dynamicTyping then .ok descriptor
  else
    let type := if type = .notSet then defaultValue.getType else type
    if type = .notSet then
      .error (.invalidParameterType name
        "cannot declare a statically typed parameter with an uninitialized value".toList)
    else .ok { descriptor with type := type }

/-- `declare_parameter_helper`. -/
def declareParameterHelper (name : Name) (type : ParameterType) (defaultValue : ParameterValue)
    (descriptor : ParameterDescriptor) (ignoreOverride : Bool) (s : NodeParameters) :
    ParameterResponse × NodeParameters :=
  if name.isEmpty then
    (.threw (.invalidParameters "parameter name must not be empty".toList), s)
  else if (Dict.get s.parameters name).isSome then
    (.threw (.parameterAlreadyDeclared
      ("parameter '".toList ++ name ++ "' has already been declared".toList)), s)
  else
    match typedDescriptor name type defaultValue descriptor with
    | .error e => (.threw e, s)
    | .ok descriptor =>
      match declareParameterCommon typeName lock nested name defaultValue descriptor true
        ignoreOverride s with
      | (.error e, s) => (.threw e, s)
      | (.ok (_, some info), s) =>
        (.value info.value, { s with parameters := Dict.set s.parameters name info })
      | (.ok (result, none), s) =>
        -- which exception it is is read off the text of the reason
        if typeErrorMsgStart.isPrefixOf result.reason then
          (.threw (.invalidParameterType name result.reason), s)
        else
          (.threw (.invalidParameterValue
            ("parameter '".toList ++ name ++ "' could not be set: ".toList ++ result.reason)), s)

/-! ## Setting a batch -/

/-- The first loop of `set_parameters_atomically`: an early exit, or the parameters that have to be
declared. -/
def parametersToBeDeclared (s : NodeParameters) :
    List Parameter → Except ParameterResponse (List Parameter)
  | [] => .ok []
  | parameter :: rest =>
    if parameter.name.isEmpty then
      .error (.threw (.invalidParameters "parameter name must not be empty".toList))
    else
      match Dict.get s.parameters parameter.name with
      | none =>
        if s.allowUndeclared then (parametersToBeDeclared s rest).map (parameter :: ·)
        else
          .error (.threw (.parameterNotDeclared ("parameter '".toList ++ parameter.name ++
            "' cannot be set because it was not declared".toList)))
      | some info =>
        if info.descriptor.readOnly then
          .error (.result ⟨false, "parameter '".toList ++ parameter.name ++
            "' cannot be set because it is read-only".toList⟩)
        else parametersToBeDeclared s rest

/-- The loop that fills `staged_parameter_changes`. -/
def stageParameters : List Parameter → ParameterMap → NodeParameters →
    Except ParameterResponse ParameterMap × NodeParameters
  | [], staged, s => (.ok staged, s)
  | parameter :: rest, staged, s =>
    match declareParameterCommon typeName lock nested parameter.name parameter.value
      { ParameterDescriptor.blank with dynamicTyping := true } false true s with
    | (.error e, s) => (.error (.threw e), s)
    | (.ok (_, some info), s) => stageParameters rest (Dict.set staged parameter.name info) s
    | (.ok (result, none), s) => (.error (.result result), s)

/-- Assign to the first parameter of a name. -/
def assignFirst (name : Name) (value : ParameterValue) : List Parameter → List Parameter
  | [] => []
  | parameter :: rest =>
    if parameter.name = name then ⟨name, value⟩ :: rest
    else parameter :: assignFirst name value rest

/-- `*parameters_to_be_set`: the batch, with the staged values if one of them differs. -/
def parametersToBeSet (parameters : List Parameter) (staged : ParameterMap) : List Parameter :=
  let differs := staged.any fun change =>
    (parameters.find? fun parameter => parameter.name = change.1).any fun parameter =>
      parameter.value != change.2.value
  if differs then
    staged.foldl (fun copy change => assignFirst change.1 change.2.value copy) parameters
  else parameters

/-- The loop that collects the parameters to be undeclared. -/
def parametersToBeUndeclared (s : NodeParameters) :
    List Parameter → Except ParameterResponse (List Name)
  | [] => .ok []
  | parameter :: rest =>
    if parameter.value.getType = .notSet then
      match Dict.get s.parameters parameter.name with
      | none => parametersToBeUndeclared s rest
      | some info =>
        if info.value.getType = .notSet then parametersToBeUndeclared s rest
        else if !info.descriptor.dynamicTyping then
          .error (.result ⟨false, "cannot undeclare a statically typed parameter".toList⟩)
        else (parametersToBeUndeclared s rest).map (parameter.name :: ·)
    else parametersToBeUndeclared s rest

/-- The two last loops of `set_parameters_atomically`. -/
def commitStaged (staged : ParameterMap) (undeclared : List Name) (infos : ParameterMap) :
    ParameterMap :=
  undeclared.foldl Dict.erase
    (staged.foldl (fun infos change => Dict.set infos change.1 change.2) infos)

/-- `set_parameters_atomically`, behind its guard. -/
def setParametersAtomically (parameters : List Parameter) (s : NodeParameters) :
    ParameterResponse × NodeParameters :=
  match parametersToBeDeclared s parameters with
  | .error response => (response, s)
  | .ok toBeDeclared =>
    -- undeclared parameters are declared in a staging area first
    match stageParameters typeName lock nested toBeDeclared [] s with
    | (.error response, s) => (response, s)
    | (.ok staged, s) =>
      let toBeSet := parametersToBeSet parameters staged
      match parametersToBeUndeclared s toBeSet with
      | .error response => (response, s)
      | .ok undeclared =>
        match setParametersAtomicallyCommon typeName lock nested toBeSet true s.allowUndeclared
          ⟨s, none⟩ with
        | (.error e, w) => (.threw e, w.store)
        | (.ok result, w) =>
          if !result.successful then (.result result, w.store)
          else
            (.result result,
              -- only now what was staged gets into the store
              { w.store with parameters := commitStaged staged undeclared w.store.parameters })

/-! ## The calls -/

/-- `undeclare_parameter`, behind its guard. -/
def undeclareParameter (name : Name) (s : NodeParameters) : ParameterResponse × NodeParameters :=
  match Dict.get s.parameters name with
  | none =>
    (.threw (.parameterNotDeclared ("cannot undeclare parameter '".toList ++ name ++
      "' which has not yet been declared".toList)), s)
  | some info =>
    if info.descriptor.readOnly then
      (.threw (.parameterImmutable ("cannot undeclare parameter '".toList ++ name ++
        "' because it is read-only".toList)), s)
    else if !info.descriptor.dynamicTyping then
      (.threw (.invalidParameterType name "cannot undeclare a statically typed parameter".toList), s)
    else (.done, { s with parameters := Dict.erase s.parameters name })

/-- `ParameterMutationRecursionGuard` around the body of a call. -/
def withRecursionGuard (body : NodeParameters → ParameterResponse × NodeParameters)
    (s : NodeParameters) : ParameterResponse × NodeParameters :=
  if !s.parameterModificationEnabled then (.threw .parameterModifiedInCallback, s)
  else
    let (response, s) := body { s with parameterModificationEnabled := false }
    (response, { s with parameterModificationEnabled := true })

/-- What a call does behind its guard. -/
def callBody (s : NodeParameters) : ParameterCall → ParameterResponse × NodeParameters
  | .declareParameter name defaultValue descriptor ignoreOverride =>
    declareParameterHelper typeName lock nested name .notSet defaultValue descriptor
      ignoreOverride s
  | .declareTypedParameter name type descriptor ignoreOverride =>
    if type = .notSet then
      (.threw (.invalidArgument ("declare_parameter(): the provided parameter type cannot be " ++
        "rclcpp::PARAMETER_NOT_SET").toList), s)
    else if descriptor.dynamicTyping then
      (.threw (.invalidArgument ("declare_parameter(): cannot declare parameter of specific type " ++
        "and pass descriptor with `dynamic_typing=true`").toList), s)
    else declareParameterHelper typeName lock nested name type .notSet descriptor ignoreOverride s
  | .undeclareParameter name => undeclareParameter name s
  | .setParametersAtomically parameters => setParametersAtomically typeName lock nested parameters s
  | .addOnSetParametersCallback handle =>
    (.done, { s with
      onParametersSetCallbackContainer := handle :: s.onParametersSetCallbackContainer })
  | .removeOnSetParametersCallback handle =>
    if handle ∈ s.onParametersSetCallbackContainer ∧ (lock handle).isSome = true then
      (.done, { s with
        onParametersSetCallbackContainer := s.onParametersSetCallbackContainer.erase handle })
    else (.threw (.runtimeError "Callback doesn't exist".toList), s)

/-- A call, when `nested` runs the calls that its callbacks make. -/
def NodeParameters.call (s : NodeParameters) (call : ParameterCall) :
    ParameterResponse × NodeParameters :=
  withRecursionGuard (fun s => callBody typeName lock nested s call) s

end

/-! ## The system -/

/-- A call, and what the handles stand for during it. -/
structure ParameterInput where
  call : ParameterCall
  lock : LockHandle

/-- What stands for a call inside of a callback of a call inside of a callback: the guard lets
nobody come that far. -/
def nestedTwice (s : NodeParameters) (_ : ParameterCall) : ParameterResponse × NodeParameters :=
  (.threw .parameterModifiedInCallback, s)

/-- One call. The calls that its callbacks make are calls, too. -/
def NodeParameters.step (typeName : ParameterType → Name) (s : NodeParameters) (i : ParameterInput) :
    ParameterResponse × NodeParameters :=
  s.call typeName i.lock (fun s call => s.call typeName i.lock nestedTwice call) i.call

/-- The parameters of one node, from the empty store on. -/
def nodeParameters (typeName : ParameterType → Name) :
    Transition.System NodeParameters ParameterInput ParameterResponse where
  init s := s.parameters = [] ∧ s.parameterModificationEnabled = true ∧
    s.onParametersSetCallbackContainer = []
  step := NodeParameters.step typeName

end Agnocast
