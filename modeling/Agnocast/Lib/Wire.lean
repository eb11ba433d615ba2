import Mathlib.Algebra.Group.Nat.Defs
import Mathlib.Data.List.TakeDrop
import Mathlib.Data.List.TakeWhile

/-!
# Fixed layouts of bytes

A message is a list of bytes with its fields at fixed offsets: words in little-endian order,
texts in fields of fixed size that a NUL ends. Reading a text walks from the start of its
field to the first NUL, wherever that is.

* `value_littleEndian` — a word reads back as it was written.
* `cString_field`      — so does a text that is shorter than its field.
* `cString_length_lt`  — a text ends inside its field exactly when the field holds a NUL.
* `drop_flatten`       — where a field lies in a sequence of fields.
-/

namespace Wire

variable {s rest l : List UInt8} {n k v : ℕ}

/-! ## Words -/

/-- The low `n` bytes of a word, the lowest first. -/
def littleEndian : ℕ → ℕ → List UInt8
  | 0, _ => []
  | n + 1, v => UInt8.ofNat v :: littleEndian n (v / 256)

/-- The word of these bytes. -/
def value : List UInt8 → ℕ
  | [] => 0
  | b :: rest => b.toNat + 256 * value rest

@[simp] theorem length_littleEndian : (littleEndian n v).length = n := by
  induction n generalizing v with
  | zero => rfl
  | succ n ih => rw [littleEndian, List.length_cons, ih]

theorem value_littleEndian (h : v < 256 ^ n) : value (littleEndian n v) = v := by
  induction n generalizing v with
  | zero =>
    rw [Nat.pow_zero] at h
    rw [Nat.lt_one_iff.mp h]
    rfl
  | succ n ih =>
    have hrest : v / 256 < 256 ^ n := by
      rw [Nat.pow_succ] at h
      exact Nat.div_lt_of_lt_mul (by rwa [Nat.mul_comm] at h)
    rw [littleEndian, value, ih hrest, UInt8.toNat_ofNat']
    exact Nat.mod_add_div v 256

/-! ## Texts -/

/-- What a `const char *` shows of these bytes: those before the first NUL. -/
def upToNul (s : List UInt8) : List UInt8 := s.takeWhile (· ≠ 0)

/-- Walk to the first NUL; `none` when there is none. -/
def cString : List UInt8 → Option (List UInt8)
  | [] => none
  | b :: rest => if b = 0 then some [] else (cString rest).map (b :: ·)

theorem upToNul_eq_self (h : 0 ∉ s) : upToNul s = s :=
  List.takeWhile_eq_self_iff.mpr fun b hb => by
    have hne : b ≠ 0 := fun h0 => h (h0 ▸ hb)
    simpa using hne

theorem nul_not_mem_upToNul : 0 ∉ upToNul s := fun h => by
  simpa using List.mem_takeWhile_imp h

theorem length_upToNul_le : (upToNul s).length ≤ s.length := by
  have h := List.takeWhile_prefix (l := s) (· ≠ 0)
  exact h.length_le

theorem cString_append_nul (h : 0 ∉ s) : cString (s ++ 0 :: rest) = some s := by
  induction s with
  | nil => rfl
  | cons b s ih =>
    rw [List.mem_cons, not_or] at h
    rw [List.cons_append, cString, if_neg (Ne.symm h.1), ih h.2, Option.map_some]

/-- A text is what stands before the first NUL. -/
theorem eq_append_of_cString (h : cString l = some s) : 0 ∉ s ∧ ∃ rest, l = s ++ 0 :: rest := by
  induction l generalizing s with
  | nil => cases h
  | cons b l ih =>
    rw [cString] at h
    by_cases hb : b = 0
    · rw [if_pos hb] at h
      obtain rfl := Option.some.inj h
      exact ⟨List.not_mem_nil, l, by rw [hb, List.nil_append]⟩
    · rw [if_neg hb, Option.map_eq_some_iff] at h
      obtain ⟨t, ht, rfl⟩ := h
      obtain ⟨hnul, rest, rfl⟩ := ih ht
      refine ⟨?_, rest, rfl⟩
      rw [List.mem_cons, not_or]
      exact ⟨Ne.symm hb, hnul⟩

theorem cString_upToNul (h : 0 ∈ l) : cString l = some (upToNul l) := by
  induction l with
  | nil => cases h
  | cons b l ih =>
    by_cases hb : b = 0
    · simp [cString, upToNul, hb]
    · have hl : 0 ∈ l := (List.mem_cons.mp h).resolve_left (Ne.symm hb)
      rw [cString, if_neg hb, ih hl, Option.map_some, upToNul, upToNul,
        List.takeWhile_cons_of_pos (by simpa using hb)]

/-- **A text ends inside the first `n` bytes exactly when these hold a NUL.** -/
theorem cString_length_lt (h : cString l = some s) : s.length < n ↔ 0 ∈ l.take n := by
  obtain ⟨hnul, rest, rfl⟩ := eq_append_of_cString h
  constructor
  · intro hlt
    obtain ⟨k, rfl⟩ := Nat.exists_eq_add_of_lt hlt
    rw [Nat.add_assoc, List.take_length_add_append]
    exact List.mem_append_right _ List.mem_cons_self
  · intro hmem
    by_contra hge
    rw [List.take_append_of_le_length (Nat.le_of_not_lt hge)] at hmem
    exact hnul (List.mem_of_mem_take hmem)

/-! ## Fields -/

/-- A text in a field of `n` bytes, filled up with NULs. -/
def padded (n : ℕ) (s : List UInt8) : List UInt8 := s ++ List.replicate (n - s.length) 0

theorem length_padded (h : s.length ≤ n) : (padded n s).length = n := by
  rw [padded, List.length_append, List.length_replicate]
  omega

/-- **A text that is shorter than its field reads back**, up to its first NUL. -/
theorem cString_field (h : s.length < n) : cString (padded n s ++ rest) = some (upToNul s) := by
  obtain ⟨k, hk⟩ : ∃ k, n - s.length = k + 1 := ⟨n - s.length - 1, by omega⟩
  rw [padded, hk, List.replicate_succ, List.append_assoc, List.cons_append]
  by_cases hs : 0 ∈ s
  · obtain ⟨hnul, tail, htail⟩ := eq_append_of_cString (cString_upToNul hs)
    conv_lhs => rw [htail, List.append_assoc, List.cons_append]
    exact cString_append_nul hnul
  · rw [upToNul_eq_self hs]
    exact cString_append_nul hs

/-- Where a chunk of a sequence begins. -/
def start : List (List UInt8) → ℕ → ℕ
  | _, 0 => 0
  | [], _ + 1 => 0
  | chunk :: chunks, k + 1 => chunk.length + start chunks k

/-- **The chunk at its offset**, with what follows it. -/
theorem drop_flatten {chunks : List (List UInt8)} {chunk : List UInt8} {i : ℕ}
    (hk : chunks[k]? = some chunk) (hi : start chunks k = i) :
    ∃ rest, chunks.flatten.drop i = chunk ++ rest := by
  induction chunks generalizing k i with
  | nil => cases hk
  | cons c chunks ih =>
    cases k with
    | zero =>
      obtain rfl := Option.some.inj hk
      exact ⟨chunks.flatten, by rw [← hi, start, List.drop_zero, List.flatten_cons]⟩
    | succ k =>
      obtain ⟨rest, hrest⟩ := ih (k := k) hk rfl
      exact ⟨rest, by rw [← hi, start, List.flatten_cons, List.drop_length_add_append, hrest]⟩

end Wire
