import Mathlib.Algebra.Group.Nat.Defs
import Mathlib.Logic.Function.Basic
import Mathlib.Data.List.Basic

/-!
# Byte-addressed memory

A memory is a byte for every address. Words are stored in little-endian order.

* `readLE`, `writeLE` — a word of `n` bytes, with its round trip and its frame.
* `copy`              — `memmove`, with its frame.
* `Agrees`            — two memories with the same bytes in a range.
* `and_not_mask`      — clearing the low `k` bits rounds down to a multiple of `2 ^ k`.
-/

namespace Bytes

/-- A byte for every address. -/
abbrev Memory := Nat → UInt8

variable {m m' m'' : Memory} {a n : Nat}

/-- The little-endian word of `n` bytes at `a`. -/
def readLE (m : Memory) : Nat → Nat → Nat
  | _, 0 => 0
  | a, n + 1 => (m a).toNat + 256 * readLE m (a + 1) n

/-- Store the low `n` bytes of a word at `a`. -/
def writeLE : Memory → Nat → Nat → Nat → Memory
  | m, _, 0, _ => m
  | m, a, n + 1, v => writeLE (Function.update m a (UInt8.ofNat v)) (a + 1) n (v / 256)

/-- `memmove` of `n` bytes: every byte is read before the first is written. -/
def copy (m : Memory) (source dest n : Nat) : Memory :=
  fun x => if dest ≤ x ∧ x < dest + n then m (source + (x - dest)) else m x

/-- The same bytes in `[a, a + n)`. -/
def Agrees (a n : Nat) (m m' : Memory) : Prop := ∀ x, a ≤ x → x < a + n → m' x = m x

theorem Agrees.refl (a n : Nat) (m : Memory) : Agrees a n m m := fun _ _ _ => rfl

theorem Agrees.trans (h : Agrees a n m m') (h' : Agrees a n m' m'') : Agrees a n m m'' :=
  fun x hlo hhi => (h' x hlo hhi).trans (h x hlo hhi)

theorem Agrees.mono {b k : Nat} (h : Agrees a n m m') (hlo : a ≤ b) (hhi : b + k ≤ a + n) :
    Agrees b k m m' :=
  fun x hx hx' => h x (by omega) (by omega)

theorem readLE_congr (h : Agrees a n m m') : readLE m' a n = readLE m a n := by
  induction n generalizing a with
  | zero => rfl
  | succ n ih =>
    rw [readLE, readLE, h a (by omega) (by omega), ih (h.mono (by omega) (by omega))]

/-- Bytes outside the word are kept. -/
theorem writeLE_of_outside {x v : Nat} (h : x < a ∨ a + n ≤ x) : writeLE m a n v x = m x := by
  induction n generalizing m a v with
  | zero => rfl
  | succ n ih =>
    rw [writeLE, ih (by omega), Function.update_of_ne (by omega)]

theorem agrees_copy {b k source dest : Nat} (h : b + k ≤ dest ∨ dest + n ≤ b) :
    Agrees b k m (copy m source dest n) :=
  fun x hlo hhi => if_neg (by omega)

/-- **A word reads back as it was stored.** -/
theorem readLE_writeLE {v : Nat} (hv : v < 256 ^ n) : readLE (writeLE m a n v) a n = v := by
  induction n generalizing m a v with
  | zero =>
    rw [Nat.pow_zero] at hv
    rw [readLE, Nat.lt_one_iff.mp hv]
  | succ n ih =>
    have hrest : v / 256 < 256 ^ n := by
      rw [Nat.pow_succ] at hv
      exact Nat.div_lt_of_lt_mul (by rwa [Nat.mul_comm] at hv)
    -- the lowest byte is not touched by the rest of the word
    have hlow : writeLE m a (n + 1) v a = UInt8.ofNat v := by
      rw [writeLE, writeLE_of_outside (.inl (Nat.lt_succ_self a)), Function.update_self]
    rw [readLE, hlow, writeLE, ih hrest, UInt8.toNat_ofNat']
    exact Nat.mod_add_div v 256

/-- Clearing the low bits of a machine word rounds it down. -/
theorem and_not_mask {w k : Nat} (hk : k ≤ w) {x : Nat} (hx : x < 2 ^ w) :
    x &&& (2 ^ w - 1 - (2 ^ k - 1)) = x / 2 ^ k * 2 ^ k := by
  have hmask : 2 ^ w - 1 - (2 ^ k - 1) = 2 ^ k * (2 ^ (w - k) - 1) := by
    have hpos : 0 < 2 ^ k := Nat.two_pow_pos k
    rw [Nat.mul_sub, ← Nat.pow_add, Nat.add_sub_cancel' hk]
    omega
  rw [hmask]
  refine Nat.eq_of_testBit_eq fun i => ?_
  rw [Nat.testBit_and, Nat.mul_comm (x / 2 ^ k), Nat.testBit_two_pow_mul, Nat.testBit_two_pow_mul,
    Nat.testBit_two_pow_sub_one, Nat.testBit_div_two_pow]
  by_cases hi : k ≤ i
  · by_cases hiw : i - k < w - k
    · simp [hi, hiw]
    · -- above the word there is nothing to clear
      have hzero : x.testBit i = false :=
        Nat.testBit_lt_two_pow
          (Nat.lt_of_lt_of_le hx (Nat.pow_le_pow_right (by omega) (by omega)))
      simp [hi, hzero]
  · simp [hi]

end Bytes
