import Agnocast.Agnocastlib.NodeParameters
import Agnocast.Lib.CheckedInt

/-!
# Node parameters — integer ranges

`check_parameter_value_in_range` takes the difference of two `int64_t` values and then its
remainder by a `uint64_t`. Where the difference wraps around, its unsigned value is still the
mathematical one; but the subtraction is signed, and its overflow is undefined.

* `integerInRange_iff`   — the check with a subtraction that wraps around.
* `integerInRangeSigned` — the check with a subtraction that may be undefined.
* `integer_range_check`  — when the check is the mathematical one and nothing overflows.
-/

namespace Agnocast

open CheckedInt

/-- What a range asks for: one of its ends, or a value between them that is a number of steps
away from the lower one. -/
def Complies (range : IntegerRange) (v : Int64) : Prop :=
  v = range.fromValue ∨ v = range.toValue ∨
    (range.fromValue.toInt ≤ v.toInt ∧ v.toInt ≤ range.toValue.toInt ∧
      (range.step = 0 ∨ (range.step.toNat : Int) ∣ v.toInt - range.fromValue.toInt))

/-- The unsigned difference of ordered numbers. -/
theorem toNat_sub_of_le {a b : Int64} (h : a.toInt ≤ b.toInt) :
    ((b - a).toUInt64.toNat : Int) = b.toInt - a.toInt := by
  have hsub : (b - a).toUInt64.toNat = (b.toBitVec - a.toBitVec).toNat := rfl
  have ha : a.toInt = a.toBitVec.toInt := rfl
  have hb : b.toInt = b.toBitVec.toInt := rfl
  rw [hsub, ha, hb]
  rw [ha, hb] at h
  generalize a.toBitVec = x at *
  generalize b.toBitVec = y at *
  have hx := x.isLt
  have hy := y.isLt
  rw [BitVec.toNat_sub]
  rw [BitVec.toInt_eq_toNat_cond, BitVec.toInt_eq_toNat_cond] at *
  split at h <;> split at h <;> omega

/-- The remainder of the unsigned difference is the mathematical one. -/
theorem unsigned_mod_eq_zero {range : IntegerRange} {v : Int64}
    (h : range.fromValue.toInt ≤ v.toInt) :
    (v - range.fromValue).toUInt64 % range.step = 0 ↔
      (range.step.toNat : Int) ∣ v.toInt - range.fromValue.toInt := by
  rw [← toNat_sub_of_le h, Int.natCast_dvd_natCast, Nat.dvd_iff_mod_eq_zero, ← UInt64.toNat_inj,
    UInt64.toNat_mod]
  rfl

/-- **The check with a subtraction that wraps around** is the mathematical one. -/
theorem integerInRange_iff (range : IntegerRange) (v : Int64) :
    integerInRange range v = true ↔ Complies range v := by
  unfold integerInRange Complies
  by_cases hend : v = range.fromValue ∨ v = range.toValue
  · rw [if_pos hend]
    simp only [true_iff]
    rcases hend with h | h
    · exact .inl h
    · exact .inr (.inl h)
  · rw [if_neg hend]
    obtain ⟨hfrom, hto⟩ := not_or.mp hend
    simp only [hfrom, hto, false_or]
    by_cases hout : v < range.fromValue ∨ v > range.toValue
    · rw [if_pos hout]
      simp only [gt_iff_lt, Int64.lt_iff_toInt_lt] at hout
      simp only [Bool.false_eq_true, false_iff]
      rintro ⟨hle, hle', -⟩
      omega
    · rw [if_neg hout]
      simp only [gt_iff_lt, Int64.lt_iff_toInt_lt, not_or, not_lt] at hout
      by_cases hstep : range.step = 0
      · simp [hstep, hout.1, hout.2]
      · rw [if_neg hstep, decide_eq_true_eq, unsigned_mod_eq_zero hout.1]
        simp [hstep, hout.1, hout.2]

/-! ## The signed subtraction -/

/-- The integer part of `check_parameter_value_in_range`, with the subtraction as a signed one. -/
def integerInRangeSigned (range : IntegerRange) (v : Int64) : Option Bool :=
  if v = range.fromValue ∨ v = range.toValue then some true
  else if v < range.fromValue ∨ v > range.toValue then some false
  else if range.step = 0 then some true
  else (sub v range.fromValue).map fun difference => difference.toUInt64 % range.step = 0

/-- `check_parameter_value_in_range`, with the signed subtraction. -/
def checkParameterValueInRangeSigned (descriptor : ParameterDescriptor) (value : ParameterValue) :
    Option SetParametersResult :=
  match descriptor.integerRange, value with
  | range :: _, .integer v =>
    (integerInRangeSigned range v).map fun complies =>
      if complies then .success
      else ⟨false, formatRangeReason descriptor.name "integer".toList⟩
  | _, _ => some (checkParameterValueInRange descriptor value)

/-- The difference is taken, and is more than a signed number holds. -/
def DifferenceOverflows (range : IntegerRange) (v : Int64) : Prop :=
  v ≠ range.toValue ∧ v.toInt ≤ range.toValue.toInt ∧ range.step ≠ 0 ∧
    2 ^ 63 ≤ v.toInt - range.fromValue.toInt

/-- A difference that fits is the one that wraps around. -/
theorem sub_eq_of_fits {a b : Int64} (h : Fits (b.toInt - a.toInt)) : sub b a = some (b - a) := by
  rw [sub, checked_eq_some, Int64.toInt_sub]
  obtain ⟨hlower, hupper⟩ := h
  exact Int.bmod_eq_of_le (by omega) (by omega)

theorem integerInRangeSigned_eq {range : IntegerRange} {v : Int64}
    (h : ¬ DifferenceOverflows range v) :
    integerInRangeSigned range v = some (integerInRange range v) := by
  unfold integerInRangeSigned integerInRange
  by_cases hend : v = range.fromValue ∨ v = range.toValue
  · rw [if_pos hend, if_pos hend]
  by_cases hout : v < range.fromValue ∨ v > range.toValue
  · rw [if_neg hend, if_neg hend, if_pos hout, if_pos hout]
  by_cases hstep : range.step = 0
  · rw [if_neg hend, if_neg hend, if_neg hout, if_neg hout, if_pos hstep, if_pos hstep]
  · rw [if_neg hend, if_neg hend, if_neg hout, if_neg hout, if_neg hstep, if_neg hstep]
    simp only [gt_iff_lt, Int64.lt_iff_toInt_lt, not_or, not_lt] at hout
    -- the difference is taken, so it is below the limit
    have hfits : v.toInt - range.fromValue.toInt < 2 ^ 63 := by
      by_contra hlarge
      exact h ⟨fun heq => hend (.inr heq), hout.2, hstep, not_lt.mp hlarge⟩
    rw [sub_eq_of_fits ⟨by omega, hfits⟩]
    rfl

theorem integerInRangeSigned_eq_none {range : IntegerRange} {v : Int64}
    (h : DifferenceOverflows range v) : integerInRangeSigned range v = none := by
  obtain ⟨hto, hle, hstep, hlarge⟩ := h
  have hfrom : v ≠ range.fromValue := by
    rintro rfl
    omega
  have hout : ¬ (v < range.fromValue ∨ v > range.toValue) := by
    simp only [gt_iff_lt, Int64.lt_iff_toInt_lt]
    omega
  have hnone : sub v range.fromValue = none := checked_eq_none.mpr fun hfits => by
    have := hfits.2
    omega
  rw [integerInRangeSigned, if_neg (not_or.mpr ⟨hfrom, hto⟩), if_neg hout, if_neg hstep, hnone]
  rfl

/-- Where nothing overflows, the check is the one that wraps around. -/
theorem checkParameterValueInRangeSigned_eq {descriptor : ParameterDescriptor}
    {value : ParameterValue} {result : SetParametersResult}
    (h : checkParameterValueInRangeSigned descriptor value = some result) :
    checkParameterValueInRange descriptor value = result := by
  unfold checkParameterValueInRangeSigned at h
  split at h
  next range rest v hrange =>
    obtain ⟨complies, hcomplies, rfl⟩ := Option.map_eq_some_iff.mp h
    have hno : ¬ DifferenceOverflows range v := fun hover => by
      rw [integerInRangeSigned_eq_none hover] at hcomplies
      cases hcomplies
    rw [integerInRangeSigned_eq hno] at hcomplies
    obtain rfl := Option.some.inj hcomplies
    simp only [checkParameterValueInRange, hrange]
  · exact Option.some.inj h

/-- **When the check is the mathematical one and nothing overflows**: unless a difference is
taken that is more than a signed number holds. -/
theorem integer_range_check (descriptor : ParameterDescriptor) (range : IntegerRange)
    (rest : List IntegerRange) (v : Int64) :
    (∃ result, checkParameterValueInRangeSigned
        { descriptor with integerRange := range :: rest } (.integer v) = some result ∧
      (result.successful = true ↔ Complies range v)) ↔ ¬ DifferenceOverflows range v := by
  simp only [checkParameterValueInRangeSigned]
  constructor
  · rintro ⟨result, hresult, -⟩ hover
    rw [integerInRangeSigned_eq_none hover] at hresult
    cases hresult
  · intro h
    rw [integerInRangeSigned_eq h, ← integerInRange_iff]
    refine ⟨_, rfl, ?_⟩
    cases integerInRange range v with
    | true => simp [SetParametersResult.success]
    | false => simp

/-- In the range of all numbers with a step of two, the check of one. -/
theorem integer_range_overflow :
    ¬ ∀ (descriptor : ParameterDescriptor) (range : IntegerRange) (rest : List IntegerRange)
      (v : Int64), ∃ result, checkParameterValueInRangeSigned
          { descriptor with integerRange := range :: rest } (.integer v) = some result ∧
        (result.successful = true ↔ Complies range v) := by
  intro h
  obtain ⟨result, hresult, -⟩ := h .blank ⟨Int64.minValue, Int64.maxValue, 2⟩ [] 1
  have hnone : checkParameterValueInRangeSigned
      { ParameterDescriptor.blank with
        integerRange := [⟨Int64.minValue, Int64.maxValue, 2⟩] } (.integer 1) = none := by decide
  rw [hnone] at hresult
  cases hresult

end Agnocast
