import Mathlib.Data.List.Induction
import Mathlib.Data.List.Nodup

/-!
# Dictionaries that keep the order of insertion

A dictionary seen through its items: a list of keys and values whose keys are pairwise
distinct. `setdefault` keeps the first value of a key, assignment the last one. What a
lookup finds does not depend on the order in which keys were inserted.

* `get_setdefaults` — after any number of `setdefault`s the first item of a key counts.
* `get_ofList`      — a comprehension over distinct keys finds what its items say.
* `get_foldl_set_last` — after any number of assignments the last item of a key counts.
* `nodup_keys_setdefaults` — the keys stay distinct.
-/

namespace Dict

variable {κ υ ω : Type*} [DecidableEq κ] {d l : List (κ × υ)} {k k' : κ} {v : υ}

/-- `d.get(k)`. -/
def get (d : List (κ × υ)) (k : κ) : Option υ := (d.find? fun e => k = e.1).map Prod.snd

/-- `d[k] = v`. -/
def set (d : List (κ × υ)) (k : κ) (v : υ) : List (κ × υ) :=
  if k ∈ d.map Prod.fst then d.map fun e => if e.1 = k then (k, v) else e else d ++ [(k, v)]

/-- `{k: v for k, v in l}`. -/
def ofList (l : List (κ × υ)) : List (κ × υ) := l.foldl (fun d e => set d e.1 e.2) []

/-- `d.setdefault(k, v)`. -/
def setdefault (d : List (κ × υ)) (k : κ) (v : υ) : List (κ × υ) :=
  if k ∈ d.map Prod.fst then d else d ++ [(k, v)]

/-- `d.setdefault(k, v)` for each item. -/
def setdefaults (d l : List (κ × υ)) : List (κ × υ) := l.foldl (fun d e => setdefault d e.1 e.2) d

/-- `del d[k]`, if there is such a key. -/
def erase (d : List (κ × υ)) (k : κ) : List (κ × υ) := d.filter fun e => e.1 ≠ k

/-! ## Lookups -/

@[simp] theorem get_nil : get ([] : List (κ × υ)) k = none := rfl

theorem get_cons (e : κ × υ) (l : List (κ × υ)) :
    get (e :: l) k = (if k = e.1 then some e.2 else none).or (get l k) := by
  unfold get
  rw [List.find?_cons]
  by_cases h : k = e.1
  · simp [h]
  · simp [h]

theorem get_append : get (d ++ l) k = (get d k).or (get l k) := by
  induction d with
  | nil => rfl
  | cons e d ih => rw [List.cons_append, get_cons, get_cons, ih, Option.or_assoc]

theorem get_eq_none_iff : get d k = none ↔ k ∉ d.map Prod.fst := by
  induction d with
  | nil => simp
  | cons e d ih =>
    rw [get_cons, Option.or_eq_none_iff, ih, List.map_cons, List.mem_cons, not_or]
    simp

theorem mem_of_get (h : get d k = some v) : (k, v) ∈ d := by
  induction d with
  | nil => cases h
  | cons e d ih =>
    rw [get_cons] at h
    by_cases hk : k = e.1
    · rw [if_pos hk, Option.some_or] at h
      obtain rfl := Option.some.inj h
      exact hk ▸ List.mem_cons_self
    · rw [if_neg hk, Option.none_or] at h
      exact List.mem_cons_of_mem _ (ih h)

/-- With distinct keys an item is what the lookup of its key finds. -/
theorem get_eq_some_iff (hnd : (d.map Prod.fst).Nodup) : get d k = some v ↔ (k, v) ∈ d := by
  refine ⟨mem_of_get, fun hmem => ?_⟩
  cases hget : get d k with
  | none => exact absurd (List.mem_map_of_mem (f := Prod.fst) hmem) (get_eq_none_iff.mp hget)
  | some w =>
    have heq := List.inj_on_of_nodup_map hnd (mem_of_get hget) hmem rfl
    rw [(Prod.mk.inj heq).2]

/-- A lookup goes through a map of the values. -/
theorem get_map (f : υ → ω) : get (d.map fun e => (e.1, f e.2)) k = (get d k).map f := by
  induction d with
  | nil => rfl
  | cons e d ih =>
    rw [List.map_cons, get_cons, get_cons, ih]
    by_cases h : k = e.1
    · simp [h]
    · simp [h]

/-! ## Values that are kept -/

@[simp] theorem setdefaults_nil (d : List (κ × υ)) : setdefaults d [] = d := rfl

theorem setdefaults_append (d l l' : List (κ × υ)) :
    setdefaults d (l ++ l') = setdefaults (setdefaults d l) l' := List.foldl_append

theorem get_setdefault :
    get (setdefault d k v) k' = (get d k').or (if k' = k then some v else none) := by
  unfold setdefault
  split
  · next hmem =>
    by_cases h : k' = k
    · subst h
      have hsome : get d k' ≠ none := fun hnone => get_eq_none_iff.mp hnone hmem
      rw [Option.or_of_isSome (Option.isSome_iff_ne_none.mpr hsome)]
    · rw [if_neg h, Option.or_none]
  · rw [get_append, get_cons, get_nil, Option.or_none]

/-- **The first item of a key counts.** -/
theorem get_setdefaults : get (setdefaults d l) k = (get d k).or (get l k) := by
  induction l generalizing d with
  | nil => simp
  | cons e l ih =>
    show get (setdefaults (setdefault d e.1 e.2) l) k = _
    rw [ih, get_setdefault, Option.or_assoc, ← get_cons]

theorem nodup_keys_setdefault (hnd : (d.map Prod.fst).Nodup) :
    ((setdefault d k v).map Prod.fst).Nodup := by
  unfold setdefault
  split
  · exact hnd
  · next hmem =>
    rw [List.map_append, List.nodup_append']
    refine ⟨hnd, List.nodup_singleton _, ?_⟩
    rw [List.map_singleton, List.disjoint_singleton]
    exact hmem

theorem nodup_keys_setdefaults (hnd : (d.map Prod.fst).Nodup) :
    ((setdefaults d l).map Prod.fst).Nodup := by
  induction l generalizing d with
  | nil => exact hnd
  | cons e l ih => exact ih (nodup_keys_setdefault hnd)

/-- The items of a dictionary come from what was handed in. -/
theorem mem_of_mem_setdefaults {x : κ × υ} (h : x ∈ setdefaults [] l) : x ∈ l := by
  have hnd : ((setdefaults [] l).map Prod.fst).Nodup := nodup_keys_setdefaults List.nodup_nil
  refine mem_of_get ?_
  rw [← (get_eq_some_iff hnd).mpr h, get_setdefaults, get_nil, Option.none_or]

/-- A key has a value as soon as one item has the key. -/
theorem exists_mem_setdefaults : (∃ v, (k, v) ∈ setdefaults [] l) ↔ ∃ v, (k, v) ∈ l := by
  have hnd : ((setdefaults [] l).map Prod.fst).Nodup := nodup_keys_setdefaults List.nodup_nil
  have hget : get (setdefaults [] l) k = get l k := by
    rw [get_setdefaults, get_nil, Option.none_or]
  constructor
  · rintro ⟨v, hv⟩
    exact ⟨v, mem_of_mem_setdefaults hv⟩
  · rintro ⟨v, hv⟩
    cases h : get l k with
    | none => exact absurd (List.mem_map_of_mem (f := Prod.fst) hv) (get_eq_none_iff.mp h)
    | some w => exact ⟨w, (get_eq_some_iff hnd).mp (hget.trans h)⟩

/-! ## Values that are replaced -/

theorem get_set_of_not_mem (h : k ∉ d.map Prod.fst) :
    get (set d k v) k' = (get d k').or (if k' = k then some v else none) := by
  unfold set
  rw [if_neg h, get_append, get_cons, get_nil, Option.or_none]

private theorem get_replace : get (d.map fun e => if e.1 = k then (k, v) else e) k' =
    if k' = k then (get d k).map fun _ => v else get d k' := by
  induction d with
  | nil => simp
  | cons e d ih =>
    rw [List.map_cons, get_cons, ih, get_cons, get_cons]
    by_cases he : e.1 = k
    · by_cases hk : k' = k <;> simp [he, hk]
    · by_cases hk : k' = k
      · simp [he, hk, Ne.symm he]
      · simp [he, hk]

/-- **Assignment replaces.** -/
theorem get_set : get (set d k v) k' = if k' = k then some v else get d k' := by
  by_cases hmem : k ∈ d.map Prod.fst
  · have hsome : (get d k).map (fun _ => v) = some v := by
      cases hget : get d k with
      | none => exact absurd hmem (get_eq_none_iff.mp hget)
      | some w => rfl
    unfold set
    rw [if_pos hmem, get_replace, hsome]
  · rw [get_set_of_not_mem hmem]
    by_cases hk : k' = k
    · rw [if_pos hk, if_pos hk, hk, get_eq_none_iff.mpr hmem, Option.none_or]
    · rw [if_neg hk, if_neg hk, Option.or_none]

/-- What is not the new item is an old one of another key. -/
theorem eq_or_mem_of_mem_set {e : κ × υ} (h : e ∈ set d k v) : e = (k, v) ∨ (e ∈ d ∧ e.1 ≠ k) := by
  unfold set at h
  split at h
  · obtain ⟨e', he', heq⟩ := List.mem_map.mp h
    split at heq
    · exact .inl heq.symm
    · next hne => exact .inr (heq ▸ ⟨he', hne⟩)
  · next hmem =>
    rcases List.mem_append.mp h with h | h
    · exact .inr ⟨h, fun heq => hmem (heq ▸ List.mem_map_of_mem h)⟩
    · exact .inl (List.mem_singleton.mp h)

theorem mem_set {e : κ × υ} (h : e ∈ set d k v) : e ∈ d ∨ e = (k, v) :=
  (eq_or_mem_of_mem_set h).symm.imp_left And.left

theorem get_erase : get (erase d k) k' = if k' = k then none else get d k' := by
  unfold erase
  induction d with
  | nil => simp
  | cons e d ih =>
    rw [List.filter_cons, get_cons]
    by_cases hk : k' = k
    · by_cases he : e.1 = k <;> simp_all [get_cons, Ne.symm]
    · by_cases he : e.1 = k
      · simp_all
      · simp_all [get_cons]

theorem get_foldl_erase {l : List κ} :
    get (l.foldl erase d) k = if k ∈ l then none else get d k := by
  induction l generalizing d with
  | nil => simp
  | cons k' l ih =>
    rw [List.foldl_cons, ih, get_erase]
    by_cases hk : k = k'
    · simp [hk]
    · simp [hk]

/-- **The last item of a key counts.** -/
theorem get_foldl_set_last :
    get (l.foldl (fun d e => set d e.1 e.2) d) k =
      (((l.filter fun e => e.1 = k).getLast?).map Prod.snd).or (get d k) := by
  induction l using List.reverseRecOn with
  | nil => simp
  | append_singleton l e ih =>
    rw [List.foldl_append, List.foldl_cons, List.foldl_nil, get_set, ih, List.filter_append]
    by_cases hk : e.1 = k
    · simp [hk]
    · simp [hk, Ne.symm hk]

theorem keys_set_of_not_mem (h : k ∉ d.map Prod.fst) :
    (set d k v).map Prod.fst = d.map Prod.fst ++ [k] := by
  unfold set
  rw [if_neg h, List.map_append, List.map_singleton]

theorem keys_set_of_mem (h : k ∈ d.map Prod.fst) : (set d k v).map Prod.fst = d.map Prod.fst := by
  unfold set
  rw [if_pos h, List.map_map]
  refine List.map_congr_left fun e _ => ?_
  by_cases hk : e.1 = k <;> simp [hk]

/-- Assignment keeps the keys distinct. -/
theorem nodup_keys_set (hnd : (d.map Prod.fst).Nodup) : ((set d k v).map Prod.fst).Nodup := by
  by_cases hmem : k ∈ d.map Prod.fst
  · rwa [keys_set_of_mem hmem]
  · rw [keys_set_of_not_mem hmem, List.nodup_append']
    exact ⟨hnd, List.nodup_singleton _, List.disjoint_singleton.mpr hmem⟩

/-- With distinct keys an assignment changes one item. -/
theorem exists_split_of_get (hnd : (d.map Prod.fst).Nodup) (h : get d k = some v) :
    ∃ l₁ l₂, d = l₁ ++ (k, v) :: l₂ ∧ ∀ w, set d k w = l₁ ++ (k, w) :: l₂ := by
  obtain ⟨l₁, l₂, rfl⟩ := List.append_of_mem (mem_of_get h)
  refine ⟨l₁, l₂, rfl, fun w => ?_⟩
  rw [List.map_append, List.map_cons, List.nodup_append', List.nodup_cons] at hnd
  obtain ⟨-, ⟨hnot₂, -⟩, hdisj⟩ := hnd
  have hnot₁ : k ∉ l₁.map Prod.fst := fun hmem => hdisj hmem List.mem_cons_self
  have hkeep : ∀ l : List (κ × υ), k ∉ l.map Prod.fst →
      l.map (fun e => if e.1 = k then (k, w) else e) = l := fun l hl => by
    refine (List.map_congr_left fun e he => ?_).trans (List.map_id l)
    have hk : e.1 ≠ k := by
      rintro rfl
      exact hl (List.mem_map_of_mem he)
    exact if_neg hk
  unfold set
  rw [if_pos (by simp), List.map_append, List.map_cons, hkeep l₁ hnot₁, hkeep l₂ hnot₂,
    if_pos rfl]

/-- Assignments of distinct keys. -/
theorem get_foldl_set_of_nodup (hnd : (l.map Prod.fst).Nodup) :
    get (l.foldl (fun d e => set d e.1 e.2) d) k = (get l k).or (get d k) := by
  induction l generalizing d with
  | nil => rfl
  | cons e l ih =>
    rw [List.map_cons, List.nodup_cons] at hnd
    rw [List.foldl_cons, ih hnd.2, get_set, get_cons]
    by_cases hk : k = e.1
    · rw [if_pos hk, if_pos hk, get_eq_none_iff.mpr (hk ▸ hnd.1), Option.none_or, Option.some_or,
        Option.some_or]
    · rw [if_neg hk, if_neg hk, Option.none_or]

/-- **A comprehension over distinct keys.** -/
theorem get_ofList (hnd : (l.map Prod.fst).Nodup) : get (ofList l) k = get l k := by
  unfold ofList
  rw [get_foldl_set_of_nodup hnd, get_nil, Option.or_none]

end Dict
