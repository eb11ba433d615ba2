import Agnocast.Lib.Dict

/-!
# Vectors with an index

A list of records, and a dictionary from the keys of the records to their places in the list. Some
records have no key. The index is made once; then records are changed in place, by changes that
keep the keys.

* `lookup_eq_some_iff` — with distinct keys the record of a key is what the index finds.
* `map_modify`, `countP_modify`, `getElem?_modify_eq_some` — what a change of one record does.
* `lookup_modify` — what the index finds after it.
-/

namespace Index

variable {α β κ : Type*} [DecidableEq κ] {l : List α} {key : α → Option κ} {k : κ} {i j : ℕ}

/-! ## Places -/

/-- The loop of `places`, from an index and a place on. -/
def placesFrom : List (κ × ℕ) → ℕ → List (Option κ) → List (κ × ℕ)
  | d, _, [] => d
  | d, i, none :: keys => placesFrom d (i + 1) keys
  | d, i, some k :: keys => placesFrom (Dict.set d k i) (i + 1) keys

/-- Where each key stands, the last time if it stands there more than once. -/
def places (keys : List (Option κ)) : List (κ × ℕ) := placesFrom [] 0 keys

/-- What an index finds in a list. -/
def lookup (index : List (κ × ℕ)) (l : List α) (k : κ) : Option α :=
  (Dict.get index k).bind fun i => l[i]?

private theorem get_placesFrom {d : List (κ × ℕ)} {keys : List (Option κ)}
    (h : Dict.get (placesFrom d i keys) k = some j) :
    Dict.get d k = some j ∨ ∃ n, j = i + n ∧ keys[n]? = some (some k) := by
  induction keys generalizing d i with
  | nil => exact .inl h
  | cons key keys ih =>
    cases key with
    | none =>
      rcases ih h with h | ⟨n, rfl, hn⟩
      · exact .inl h
      · exact .inr ⟨n + 1, by omega, hn⟩
    | some k' =>
      rcases ih h with hset | ⟨n, rfl, hn⟩
      · rw [Dict.get_set] at hset
        split at hset
        · next hk =>
          subst hk
          exact .inr ⟨0, (Option.some.inj hset).symm, rfl⟩
        · exact .inl hset
      · exact .inr ⟨n + 1, by omega, hn⟩

private theorem get_placesFrom_eq_none {d : List (κ × ℕ)} {keys : List (Option κ)} :
    Dict.get (placesFrom d i keys) k = none ↔ Dict.get d k = none ∧ some k ∉ keys := by
  induction keys generalizing d i with
  | nil => simp [placesFrom]
  | cons key keys ih =>
    cases key with
    | none =>
      show Dict.get (placesFrom d (i + 1) keys) k = none ↔ _
      rw [ih]
      simp
    | some k' =>
      show Dict.get (placesFrom (Dict.set d k' i) (i + 1) keys) k = none ↔ _
      rw [ih, Dict.get_set]
      by_cases hk : k = k' <;> simp [hk]

/-- **An index** finds a record of the key. -/
theorem of_get_places (h : Dict.get (places (l.map key)) k = some i) :
    ∃ a, l[i]? = some a ∧ key a = some k := by
  rcases get_placesFrom h with h | ⟨n, rfl, hn⟩
  · cases h
  · rw [List.getElem?_map, Option.map_eq_some_iff] at hn
    rwa [Nat.zero_add]

/-- It finds every key. -/
theorem get_places_eq_none :
    Dict.get (places (l.map key)) k = none ↔ ∀ a ∈ l, key a ≠ some k := by
  unfold places
  rw [get_placesFrom_eq_none]
  simp

/-- No two records have the same key. -/
def Distinct (key : α → Option κ) (l : List α) : Prop :=
  ∀ (i j : ℕ) (a b : α) (k : κ), l[i]? = some a → l[j]? = some b →
    key a = some k → key b = some k → i = j

/-- With distinct keys a record is what the index finds. -/
theorem get_places_eq_some_iff (hd : Distinct key l) :
    Dict.get (places (l.map key)) k = some i ↔ ∃ a, l[i]? = some a ∧ key a = some k := by
  refine ⟨of_get_places, ?_⟩
  rintro ⟨a, ha, hkey⟩
  cases hget : Dict.get (places (l.map key)) k with
  | none => exact absurd hkey (get_places_eq_none.mp hget a (List.mem_of_getElem? ha))
  | some j =>
    obtain ⟨b, hb, hkey'⟩ := of_get_places hget
    rw [hd j i b a k hb ha hkey' hkey]

theorem lookup_eq_none : lookup (places (l.map key)) l k = none ↔ ∀ a ∈ l, key a ≠ some k := by
  rw [← get_places_eq_none]
  unfold lookup
  cases hget : Dict.get (places (l.map key)) k with
  | none => simp
  | some i =>
    obtain ⟨a, ha, -⟩ := of_get_places hget
    simp [ha]

theorem lookup_eq_some_iff (hd : Distinct key l) {a : α} :
    lookup (places (l.map key)) l k = some a ↔ a ∈ l ∧ key a = some k := by
  unfold lookup
  rw [Option.bind_eq_some_iff]
  constructor
  · rintro ⟨i, hi, ha⟩
    obtain ⟨b, hb, hkey⟩ := of_get_places hi
    obtain rfl := Option.some.inj (hb.symm.trans ha)
    exact ⟨List.mem_of_getElem? ha, hkey⟩
  · rintro ⟨hmem, hkey⟩
    obtain ⟨i, hi⟩ := List.mem_iff_getElem?.mp hmem
    exact ⟨i, (get_places_eq_some_iff hd).mpr ⟨a, hi, hkey⟩, hi⟩

/-! ## Changes -/

section

omit [DecidableEq κ]

variable {f : α → α} {a : α}

/-- A change that keeps what `g` sees. -/
theorem map_modify {g : α → β} (hf : ∀ a, g (f a) = g a) (l : List α) (i : ℕ) :
    (l.modify i f).map g = l.map g := by
  refine List.ext_getElem? fun j => ?_
  rw [List.getElem?_map, List.getElem?_map, List.getElem?_modify]
  split
  · cases l[j]? <;> simp [hf]
  · cases l[j]? <;> rfl

/-- A change takes one record out of a count. -/
theorem countP_modify {p : α → Bool} (ha : l[i]? = some a) (hpa : p a = true)
    (hpf : p (f a) = false) : (l.modify i f).countP p + 1 = l.countP p := by
  induction l generalizing i with
  | nil => cases ha
  | cons b l ih =>
    cases i with
    | zero =>
      obtain rfl := Option.some.inj ha
      rw [List.modify_zero_cons, List.countP_cons_of_neg (by simp [hpf]),
        List.countP_cons_of_pos hpa]
    | succ i =>
      rw [List.modify_succ_cons, List.countP_cons, List.countP_cons, ← ih ha]
      omega

/-- Or it leaves the count as it is. -/
theorem countP_modify_of_eq {p : α → Bool} (hf : ∀ a, p (f a) = p a) (l : List α) (i : ℕ) :
    (l.modify i f).countP p = l.countP p := by
  have hmap : ∀ l : List α, l.countP p = (l.map p).countP id := fun l => by
    rw [List.countP_map]
    rfl
  rw [hmap, hmap, map_modify hf]

/-- A record of the changed list is the changed one or stands elsewhere. -/
theorem getElem?_modify_eq_some (h : (l.modify i f)[j]? = some a) :
    (j ≠ i ∧ l[j]? = some a) ∨ ∃ b, l[j]? = some b ∧ j = i ∧ a = f b := by
  rw [List.getElem?_modify] at h
  split at h
  · next hij =>
    obtain ⟨b, hb, rfl⟩ := Option.map_eq_some_iff.mp h
    exact .inr ⟨b, hb, hij.symm, rfl⟩
  · next hij =>
    obtain ⟨b, hb, rfl⟩ := Option.map_eq_some_iff.mp h
    exact .inl ⟨Ne.symm hij, hb⟩

end

/-! ## Lookups after a change -/

/-- **A change of one record** is seen by whoever looks it up. -/
theorem lookup_modify (index : List (κ × ℕ)) (l : List α) (i : ℕ) (f : α → α) (k : κ) :
    lookup index (l.modify i f) k =
      if Dict.get index k = some i then (lookup index l k).map f else lookup index l k := by
  unfold lookup
  cases hget : Dict.get index k with
  | none => simp
  | some j =>
    rw [Option.bind_some, Option.bind_some, List.getElem?_modify]
    by_cases hij : i = j
    · rw [if_pos (congrArg some hij.symm)]
      cases l[j]? <;> simp [hij]
    · rw [if_neg fun h => hij (Option.some.inj h).symm]
      cases l[j]? <;> simp [hij]

/-- What is seen of a record that is looked up. -/
theorem map_lookup_congr {g : α → β} {l l' : List α} (h : l.map g = l'.map g)
    (index : List (κ × ℕ)) (k : κ) :
    (lookup index l k).map g = (lookup index l' k).map g := by
  unfold lookup
  cases Dict.get index k with
  | none => rfl
  | some i =>
    rw [Option.bind_some, Option.bind_some, ← List.getElem?_map, ← List.getElem?_map, h]

end Index
