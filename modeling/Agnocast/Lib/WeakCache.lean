import Mathlib.Logic.Function.Basic
import Agnocast.Lib.Dict

/-!
# A cache of weak pointers

Objects that their owners share are found under a key: the cache has a weak pointer to each, which
does not keep it alive. An owner that drops its object also drops the entry, if the object is gone.

* `Owned`         — every use count is right, and the entries are the objects that are owned.
* `Owned.find`, `Owned.create`, `Owned.release` — what an owner does keeps that.
* `live_iff`      — a key has a live entry while somebody owns an object under it.
-/

/-- The entries, the use count of each object, and the objects made so far. -/
structure WeakCache (κ : Type*) where
  entries : List (κ × ℕ)
  useCount : ℕ → ℕ
  next : ℕ

namespace WeakCache

variable {κ : Type*} [DecidableEq κ] {c : WeakCache κ} {owners owners' : List (κ × ℕ)} {k : κ}
  {n : ℕ}

def empty : WeakCache κ := ⟨[], fun _ => 0, 0⟩

/-- `expired()`. -/
def expired (c : WeakCache κ) (n : ℕ) : Bool := c.useCount n = 0

/-- The object of a key, with one more owner, unless it is gone. -/
def find (c : WeakCache κ) (k : κ) : Option (ℕ × WeakCache κ) :=
  match Dict.get c.entries k with
  | none => none
  | some n =>
    if c.expired n then none
    else some (n, { c with useCount := Function.update c.useCount n (c.useCount n + 1) })

/-- A new object under the key, and its owner. -/
def create (c : WeakCache κ) (k : κ) : ℕ × WeakCache κ :=
  (c.next, ⟨Dict.set c.entries k c.next, Function.update c.useCount c.next 1, c.next + 1⟩)

/-- An owner drops the object. -/
def drop (c : WeakCache κ) (n : ℕ) : WeakCache κ :=
  { c with useCount := Function.update c.useCount n (c.useCount n - 1) }

/-- The entry of the key goes, if its object is gone. -/
def eraseExpired (c : WeakCache κ) (k : κ) : WeakCache κ :=
  match Dict.get c.entries k with
  | none => c
  | some n => if c.expired n then { c with entries := Dict.erase c.entries k } else c

/-- The key has an entry whose object is there. -/
def Live (c : WeakCache κ) (k : κ) : Prop :=
  ∃ n, Dict.get c.entries k = some n ∧ c.expired n = false

/-- `owners` are the keys and objects that are owned, once for each owner. -/
structure Owned (c : WeakCache κ) (owners : List (κ × ℕ)) : Prop where
  useCount : ∀ n, c.useCount n = (owners.map Prod.snd).count n
  entry : ∀ k n, Dict.get c.entries k = some n ↔ (k, n) ∈ owners
  key : ∀ k k' n, (k, n) ∈ owners → (k', n) ∈ owners → k = k'
  made : ∀ e ∈ owners, e.2 < c.next

theorem Owned.empty : (empty : WeakCache κ).Owned [] where
  useCount _ := rfl
  entry _ _ := by simp [WeakCache.empty]
  key _ _ _ h := by cases h
  made _ h := by cases h

/-- The order of the owners does not matter. -/
theorem Owned.perm (h : c.Owned owners) (hp : owners.Perm owners') : c.Owned owners' where
  useCount n := (h.useCount n).trans ((hp.map _).count_eq n)
  entry k n := (h.entry k n).trans hp.mem_iff
  key k k' n hk hk' := h.key k k' n (hp.mem_iff.mpr hk) (hp.mem_iff.mpr hk')
  made e he := h.made e (hp.mem_iff.mpr he)

theorem Owned.expired_eq_false (h : c.Owned owners) (hmem : (k, n) ∈ owners) :
    c.expired n = false := by
  have hcount : 0 < (owners.map Prod.snd).count n :=
    List.count_pos_iff.mpr (List.mem_map_of_mem (f := Prod.snd) hmem)
  rw [← h.useCount] at hcount
  exact decide_eq_false (Nat.ne_of_gt hcount)

/-- **A key has a live entry** while somebody owns an object under it. -/
theorem live_iff (h : c.Owned owners) : c.Live k ↔ ∃ n, (k, n) ∈ owners := by
  constructor
  · rintro ⟨n, hget, -⟩
    exact ⟨n, (h.entry k n).mp hget⟩
  · rintro ⟨n, hmem⟩
    exact ⟨n, (h.entry k n).mpr hmem, h.expired_eq_false hmem⟩

/-- Another owner of an object that is there. -/
theorem Owned.find {c' : WeakCache κ} (h : c.Owned owners) (hfind : c.find k = some (n, c')) :
    c'.Owned ((k, n) :: owners) := by
  unfold WeakCache.find at hfind
  cases hget : Dict.get c.entries k with
  | none => rw [hget] at hfind; cases hfind
  | some m =>
    rw [hget] at hfind
    dsimp only at hfind
    split at hfind
    · cases hfind
    obtain ⟨rfl, rfl⟩ := Prod.mk.inj (Option.some.inj hfind)
    have hmem := (h.entry k m).mp hget
    have hcons : ∀ {e : κ × ℕ}, e ∈ (k, m) :: owners → e ∈ owners := by
      intro e he
      rcases List.mem_cons.mp he with rfl | he
      · exact hmem
      · exact he
    refine ⟨fun n => ?_, fun k' n => ?_, fun k₁ k₂ n h₁ h₂ => h.key k₁ k₂ n (hcons h₁) (hcons h₂),
      fun e he => h.made e (hcons he)⟩
    · rw [List.map_cons, List.count_cons]
      by_cases hn : n = m
      · subst hn
        simp [h.useCount]
      · simp [hn, Ne.symm hn, h.useCount]
    · exact (h.entry k' n).trans ⟨List.mem_cons_of_mem _, hcons⟩

/-- Nobody owns an object that is not found. -/
theorem Owned.not_mem_of_find (h : c.Owned owners) (hfind : c.find k = none) (n : ℕ) :
    (k, n) ∉ owners := by
  intro hmem
  unfold WeakCache.find at hfind
  rw [(h.entry k n).mpr hmem] at hfind
  dsimp only at hfind
  rw [h.expired_eq_false hmem] at hfind
  cases hfind

/-- The owner of a new object, under a key that had none. -/
theorem Owned.create (h : c.Owned owners) (hnew : ∀ n, (k, n) ∉ owners) :
    (c.create k).2.Owned ((k, (c.create k).1) :: owners) := by
  have hfresh : ∀ k', (k', c.next) ∉ owners := fun k' hmem => Nat.lt_irrefl _ (h.made _ hmem)
  have hcount : (owners.map Prod.snd).count c.next = 0 := by
    refine List.count_eq_zero.mpr fun hmem => ?_
    obtain ⟨⟨k', n⟩, hmem, rfl⟩ := List.mem_map.mp hmem
    exact hfresh k' hmem
  refine ⟨fun n => ?_, fun k' n => ?_, fun k₁ k₂ n h₁ h₂ => ?_, fun e he => ?_⟩
  · show Function.update c.useCount c.next 1 n = _
    rw [List.map_cons, List.count_cons, Function.update_apply, h.useCount]
    by_cases hn : n = c.next
    · subst hn
      simp [WeakCache.create, hcount]
    · simp [WeakCache.create, hn, Ne.symm hn]
  · show Dict.get (Dict.set c.entries k c.next) k' = some n ↔ _
    rw [Dict.get_set, List.mem_cons]
    by_cases hk : k' = k
    · subst hk
      simp [WeakCache.create, hnew, eq_comm]
    · simp [hk, h.entry]
  · rcases List.mem_cons.mp h₁ with h₁ | h₁ <;> rcases List.mem_cons.mp h₂ with h₂ | h₂
    · rw [(Prod.mk.inj h₁).1, (Prod.mk.inj h₂).1]
    · rw [(Prod.mk.inj h₁).2] at h₂
      exact absurd h₂ (hfresh k₂)
    · rw [(Prod.mk.inj h₂).2] at h₁
      exact absurd h₁ (hfresh k₁)
    · exact h.key k₁ k₂ n h₁ h₂
  · show e.2 < c.next + 1
    rcases List.mem_cons.mp he with rfl | he
    · exact Nat.lt_succ_self _
    · exact Nat.lt_succ_of_lt (h.made e he)

/-- **An owner leaves**, and the entry with the last one. -/
theorem Owned.release (h : c.Owned ((k, n) :: owners)) :
    ((c.drop n).eraseExpired k).Owned owners := by
  have hget : Dict.get c.entries k = some n := (h.entry k n).mpr List.mem_cons_self
  have hcount : (c.drop n).useCount = fun m => (owners.map Prod.snd).count m := by
    funext m
    show Function.update c.useCount n (c.useCount n - 1) m = _
    rw [Function.update_apply, h.useCount, h.useCount, List.map_cons, List.count_cons,
      List.count_cons]
    by_cases hm : m = n
    · subst hm
      simp
    · simp [hm, Ne.symm hm]
  have hkey : ∀ k₁ k₂ m, (k₁, m) ∈ owners → (k₂, m) ∈ owners → k₁ = k₂ := fun k₁ k₂ m h₁ h₂ =>
    h.key k₁ k₂ m (List.mem_cons_of_mem _ h₁) (List.mem_cons_of_mem _ h₂)
  have hmade : ∀ e ∈ owners, e.2 < c.next := fun e he => h.made e (List.mem_cons_of_mem _ he)
  unfold eraseExpired
  have hdrop : Dict.get (c.drop n).entries k = some n := hget
  rw [hdrop]
  dsimp only
  split
  · next hexpired =>
    have hzero : (owners.map Prod.snd).count n = 0 := by
      have := of_decide_eq_true hexpired
      rwa [hcount] at this
    have hnone : ∀ k', (k', n) ∉ owners := fun k' hmem =>
      List.count_eq_zero.mp hzero (List.mem_map_of_mem (f := Prod.snd) hmem)
    refine ⟨fun m => congrFun hcount m, fun k' m => ?_, hkey, hmade⟩
    show Dict.get (Dict.erase c.entries k) k' = some m ↔ _
    rw [Dict.get_erase]
    by_cases hk : k' = k
    · subst hk
      -- an object under the key is the one that is gone
      refine ⟨fun h => by simp at h, fun hmem => ?_⟩
      have hm := (h.entry k' m).mpr (List.mem_cons_of_mem _ hmem)
      obtain rfl : n = m := Option.some.inj (hget.symm.trans hm)
      exact absurd hmem (hnone k')
    · rw [if_neg hk, h.entry, List.mem_cons]
      exact ⟨fun h => h.resolve_left fun heq => hk (Prod.mk.inj heq).1, .inr⟩
  · next hexpired =>
    have hpos : (owners.map Prod.snd).count n ≠ 0 := by
      intro hzero
      refine hexpired (decide_eq_true ?_)
      rw [hcount]
      exact hzero
    -- somebody else owns it, under the same key
    have hmem : (k, n) ∈ owners := by
      have hn := List.count_pos_iff.mp (Nat.pos_of_ne_zero hpos)
      obtain ⟨⟨k', m⟩, hmem, rfl⟩ := List.mem_map.mp hn
      rwa [h.key k k' m List.mem_cons_self (List.mem_cons_of_mem _ hmem)]
    refine ⟨fun m => congrFun hcount m, fun k' m => ?_, hkey, hmade⟩
    show Dict.get c.entries k' = some m ↔ _
    rw [h.entry, List.mem_cons]
    refine ⟨fun h => ?_, .inr⟩
    rcases h with heq | h
    · rw [(Prod.mk.inj heq).1, (Prod.mk.inj heq).2]
      exact hmem
    · exact h

end WeakCache
