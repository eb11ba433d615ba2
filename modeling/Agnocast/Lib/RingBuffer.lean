import Mathlib.Data.List.Basic
import Mathlib.Logic.Function.Basic

/-!
# Ring buffers

A bounded queue in an array of `size` slots that are used round and round. One slot is
always kept free, so that head and tail tell the empty queue from the full one. Pushing
to a full queue loses the element.

* `push_contents` — a push that is not lost appends.
* `pop_eq_some`   — a pop takes the oldest element.
* `isFull_iff`    — the queue is full with all but one slot used.
-/

/-- Slots, the oldest used one and the next free one. -/
structure RingBuffer (α : Type*) (size : Nat) where
  slots : Nat → α
  head : Nat
  tail : Nat
  head_lt : head < size
  tail_lt : tail < size

namespace RingBuffer

variable {α : Type*} {size : Nat}

/-- The slot after slot `n`. -/
def next (size n : Nat) : Nat := (n + 1) % size

/-- The empty queue. -/
def empty (h : 0 < size) (slots : Nat → α) : RingBuffer α size := ⟨slots, 0, 0, h, h⟩

/-- One more element would make head and tail meet. -/
def isFull (r : RingBuffer α size) : Bool := next size r.tail = r.head

/-- Append an element; it is lost when the queue is full. -/
def push (a : α) (r : RingBuffer α size) : RingBuffer α size :=
  if r.isFull then r
  else
    { r with
      slots := Function.update r.slots r.tail a
      tail := next size r.tail
      tail_lt := Nat.mod_lt _ (Nat.zero_lt_of_lt r.tail_lt) }

/-- Take the oldest element. -/
def pop (r : RingBuffer α size) : Option (α × RingBuffer α size) :=
  if r.head = r.tail then none
  else
    some (r.slots r.head,
      { r with
        head := next size r.head
        head_lt := Nat.mod_lt _ (Nat.zero_lt_of_lt r.head_lt) })

/-- How many elements the queue holds. -/
def length (r : RingBuffer α size) : Nat := (r.tail + size - r.head) % size

/-- The elements, oldest first. -/
def contents (r : RingBuffer α size) : List α :=
  (List.range r.length).map fun k => r.slots ((r.head + k) % size)

@[simp] theorem contents_empty (h : 0 < size) (slots : Nat → α) :
    (empty h slots).contents = [] := by
  simp [contents, length, empty]

theorem length_eq (r : RingBuffer α size) :
    r.length = if r.head ≤ r.tail then r.tail - r.head else r.tail + size - r.head := by
  have hh := r.head_lt
  have ht := r.tail_lt
  unfold length
  split
  · have h : r.tail + size - r.head = r.tail - r.head + size := by omega
    rw [h, Nat.add_mod_right, Nat.mod_eq_of_lt (by omega)]
  · exact Nat.mod_eq_of_lt (by omega)

theorem next_eq {n : Nat} (h : n < size) : next size n = if n + 1 = size then 0 else n + 1 := by
  unfold next
  split
  · next heq => rw [heq, Nat.mod_self]
  · exact Nat.mod_eq_of_lt (by omega)

/-- The slot `k` after slot `n`, where at most one turn is made. -/
theorem turn_eq {n k : Nat} (hn : n < size) (hk : k < size) :
    (n + k) % size = if n + k < size then n + k else n + k - size := by
  split
  · next h => exact Nat.mod_eq_of_lt h
  · next h => rw [Nat.mod_eq_sub_mod (by omega), Nat.mod_eq_of_lt (by omega)]

/-- **A push that is not lost appends.** -/
theorem push_contents {r : RingBuffer α size} (h : r.isFull = false) (a : α) :
    (r.push a).contents = r.contents ++ [a] := by
  have hh := r.head_lt
  have ht := r.tail_lt
  have hnext := next_eq ht
  have hroom : next size r.tail ≠ r.head := by simpa [isFull] using h
  have hlen : (r.push a).length = r.length + 1 := by
    rw [length_eq, length_eq]
    unfold push
    simp only [h, Bool.false_eq_true, if_false]
    split at hnext <;> split <;> split <;> omega
  have hlast : (r.head + r.length) % size = r.tail := by
    have hlength := length_eq r
    rw [turn_eq hh (by split at hlength <;> omega)]
    split at hlength <;> split <;> omega
  unfold contents
  rw [hlen, List.range_succ, List.map_append, List.map_singleton]
  unfold push
  simp only [h, Bool.false_eq_true, if_false]
  rw [hlast, Function.update_self]
  congr 1
  refine List.map_congr_left fun k hk => Function.update_of_ne (fun heq => ?_) _ _
  -- an older element lies before the slot that was free
  have hk := List.mem_range.mp hk
  have hlength := length_eq r
  rw [turn_eq hh (by split at hlength <;> omega)] at heq
  split at hlength <;> split at heq <;> omega

/-- A push adds nothing but its element. -/
theorem mem_push {r : RingBuffer α size} {a b : α} (h : b ∈ (r.push a).contents) :
    b ∈ r.contents ∨ b = a := by
  cases hfull : r.isFull with
  | true =>
    unfold push at h
    rw [if_pos hfull] at h
    exact .inl h
  | false =>
    rw [push_contents hfull] at h
    simpa using h

/-- **A pop takes the oldest element.** -/
theorem pop_eq_some {r r' : RingBuffer α size} {a : α} (h : r.pop = some (a, r')) :
    r.contents = a :: r'.contents := by
  have hh := r.head_lt
  have ht := r.tail_lt
  have hnext := next_eq hh
  unfold pop at h
  split at h
  · cases h
  next hne =>
  obtain ⟨rfl, rfl⟩ := Prod.mk.inj (Option.some.inj h)
  set r' : RingBuffer α size :=
    { r with head := next size r.head, head_lt := Nat.mod_lt _ (Nat.zero_lt_of_lt hh) } with hr'
  have hlen : r.length = r'.length + 1 := by
    rw [length_eq, length_eq]
    simp only [hr']
    split at hnext <;> split <;> split <;> omega
  have hlength := length_eq r
  unfold contents
  rw [hlen, List.range_succ_eq_map, List.map_cons, List.map_map, Nat.add_zero,
    Nat.mod_eq_of_lt hh]
  congr 1
  refine List.map_congr_left fun k hk => congrArg r.slots ?_
  -- both are the slot `k + 1` after the old head
  have hk := List.mem_range.mp hk
  show (r.head + (k + 1)) % size = (next size r.head + k) % size
  unfold next
  rw [Nat.mod_add_mod]
  congr 1
  omega

/-! ## Empty and full -/

theorem length_contents (r : RingBuffer α size) : r.contents.length = r.length := by
  rw [contents, List.length_map, List.length_range]

theorem contents_eq_nil {r : RingBuffer α size} : r.contents = [] ↔ r.head = r.tail := by
  have hh := r.head_lt
  have ht := r.tail_lt
  have hlength := length_eq r
  rw [← List.length_eq_zero_iff, length_contents]
  split at hlength <;> omega

theorem pop_eq_none {r : RingBuffer α size} : r.pop = none ↔ r.contents = [] := by
  rw [contents_eq_nil]
  unfold pop
  split
  · next h => exact ⟨fun _ => h, fun _ => rfl⟩
  · next h => exact ⟨nofun, fun heq => absurd heq h⟩

/-- The one slot that is kept free. -/
theorem isFull_iff {r : RingBuffer α size} : r.isFull = true ↔ r.contents.length = size - 1 := by
  have hh := r.head_lt
  have ht := r.tail_lt
  have hlength := length_eq r
  have hnext := next_eq ht
  rw [length_contents, isFull, decide_eq_true_eq]
  split at hlength <;> split at hnext <;> omega

end RingBuffer
