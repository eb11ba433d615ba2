import Mathlib.Algebra.Order.Ring.Int
import Mathlib.Data.Int.ModEq
import Mathlib.Order.Bounds.Basic
import Mathlib.Tactic.Ring

/-!
# Signed arithmetic of 64 bits

The signed operations of C and C++ have no result where the mathematical one does not fit. Here
they answer `none` there.

* `checked`            — the 64-bit integer with a given value, if there is one.
* `add`, `sub`, `mul`, `div` — the operations; `div` truncates and has no result for a divisor
  of zero.
* `isLeast_roundUp`    — moving on by whole steps until a bound is reached.
-/

namespace CheckedInt

/-- The values of a signed integer of 64 bits. -/
def Fits (n : Int) : Prop := -2 ^ 63 ≤ n ∧ n < 2 ^ 63

instance (n : Int) : Decidable (Fits n) := inferInstanceAs (Decidable (_ ∧ _))

theorem fits_toInt (x : Int64) : Fits x.toInt := ⟨x.le_toInt, x.toInt_lt⟩

/-- The integer with this value. -/
def checked (n : Int) : Option Int64 := if Fits n then some (Int64.ofInt n) else none

theorem checked_of_fits {n : Int} (h : Fits n) : ∃ x, checked n = some x ∧ x.toInt = n :=
  ⟨Int64.ofInt n, if_pos h, Int64.toInt_ofInt_of_le h.1 h.2⟩

theorem checked_eq_none {n : Int} : checked n = none ↔ ¬ Fits n := by
  unfold checked
  split <;> simp_all

theorem toInt_of_checked {n : Int} {x : Int64} (h : checked n = some x) : x.toInt = n := by
  unfold checked at h
  split at h
  next hfits => exact Option.some.inj h ▸ Int64.toInt_ofInt_of_le hfits.1 hfits.2
  · cases h

theorem checked_eq_some {n : Int} {x : Int64} : checked n = some x ↔ x.toInt = n := by
  refine ⟨toInt_of_checked, fun h => ?_⟩
  obtain ⟨y, hy, heq⟩ := checked_of_fits (h ▸ fits_toInt x)
  rw [hy, Int64.toInt_inj.mp (heq.trans h.symm)]

/-! ## The operations -/

def add (a b : Int64) : Option Int64 := checked (a.toInt + b.toInt)

def sub (a b : Int64) : Option Int64 := checked (a.toInt - b.toInt)

def mul (a b : Int64) : Option Int64 := checked (a.toInt * b.toInt)

/-- The quotient, rounded toward zero. -/
def div (a b : Int64) : Option Int64 := if b = 0 then none else checked (a.toInt.tdiv b.toInt)

theorem add_of_fits {a b : Int64} (h : Fits (a.toInt + b.toInt)) :
    ∃ x, add a b = some x ∧ x.toInt = a.toInt + b.toInt :=
  checked_of_fits h

theorem sub_of_fits {a b : Int64} (h : Fits (a.toInt - b.toInt)) :
    ∃ x, sub a b = some x ∧ x.toInt = a.toInt - b.toInt :=
  checked_of_fits h

theorem mul_of_fits {a b : Int64} (h : Fits (a.toInt * b.toInt)) :
    ∃ x, mul a b = some x ∧ x.toInt = a.toInt * b.toInt :=
  checked_of_fits h

/-- A quotient of numbers that are not negative has a result. -/
theorem div_of_nonneg {a b : Int64} (ha : 0 ≤ a.toInt) (hb : 0 < b.toInt) :
    ∃ x, div a b = some x ∧ x.toInt = a.toInt / b.toInt := by
  have hne : b ≠ 0 := by
    rintro rfl
    exact absurd hb (by decide)
  have hle : a.toInt / b.toInt ≤ a.toInt := Int.ediv_le_self _ ha
  have hnonneg : 0 ≤ a.toInt / b.toInt := Int.ediv_nonneg ha hb.le
  have hlt := a.toInt_lt
  rw [div, if_neg hne, Int.tdiv_eq_ediv_of_nonneg ha]
  exact checked_of_fits ⟨by omega, by omega⟩

/-! ## Rounding up -/

/-- From `start` on by the fewest steps of `p` that reach `bound`. -/
theorem isLeast_roundUp {p start bound : Int} (hp : 0 < p) (hlt : start < bound) :
    IsLeast {n | bound ≤ n ∧ start ≤ n ∧ n ≡ start [ZMOD p]}
      (start + (1 + (bound - start - 1) / p) * p) := by
  -- the rest of the division is below a step
  have hdiv := Int.mul_ediv_add_emod (bound - start - 1) p
  have hrest := Int.emod_lt_of_pos (bound - start - 1) hp
  have hsplit : (1 + (bound - start - 1) / p) * p = p + p * ((bound - start - 1) / p) := by ring
  refine ⟨⟨by omega, ?_, ?_⟩, ?_⟩
  · have := Int.emod_nonneg (bound - start - 1) hp.ne'
    omega
  · exact Int.modEq_iff_dvd.mpr ⟨-(1 + (bound - start - 1) / p), by ring⟩
  · rintro n ⟨hbound, -, hmod⟩
    obtain ⟨k, hk⟩ := Int.modEq_iff_dvd.mp hmod.symm
    -- fewer steps stay below the bound
    have hfew : (bound - start - 1) / p < k := by
      refine Int.ediv_lt_of_lt_mul hp ?_
      rw [mul_comm]
      omega
    have hmul : (1 + (bound - start - 1) / p) * p ≤ k * p :=
      mul_le_mul_of_nonneg_right (by omega) hp.le
    have hcomm : k * p = p * k := mul_comm k p
    omega

/-- The number of steps falls short of the bound by less than one. -/
theorem roundUp_lt (start bound : Int) {p : Int} (hp : 0 < p) :
    start + (1 + (bound - start - 1) / p) * p < bound + p := by
  have hdiv := Int.mul_ediv_add_emod (bound - start - 1) p
  have hnonneg := Int.emod_nonneg (bound - start - 1) hp.ne'
  have hsplit : (1 + (bound - start - 1) / p) * p = p + p * ((bound - start - 1) / p) := by ring
  omega

end CheckedInt
