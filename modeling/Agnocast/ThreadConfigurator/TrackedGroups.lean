import Agnocast.ThreadConfigurator.ConfiguratorNode

/-!
# The thread configurator — no callback group is tracked twice

* `CallbackGroupsOk` — the invariant of `callback_group_configs_`.
* `CallbackGroupsOk.tracked_once` — two entries that track a callback group are the same.
* `CallbackGroupsOk.of_tracks` — entries that track no more than others that are in order.
* `CallbackGroupsOk.recordExact`, `CallbackGroupsOk.recordWildcard`, `CallbackGroupsOk.forget`,
  `CallbackGroupsOk.markApplied` — what an announcement does to an entry keeps it.
-/

namespace Agnocast

open Index

/-! ## Keys -/

theorem ThreadConfig.exactKey_eq_some {c : ThreadConfig} {k : Nat × Name} :
    c.exactKey = some k ↔ c.isWildcard = false ∧ c.key = k := by
  unfold ThreadConfig.exactKey ThreadConfig.key
  cases c.isWildcard <;> simp

theorem ThreadConfig.wildcardKey_eq_some {c : ThreadConfig} {k : Nat × Name} :
    c.wildcardKey = some k ↔ c.isWildcard = true ∧ c.key = (k.1, k.2 ++ "/*".toList) := by
  unfold ThreadConfig.wildcardKey ThreadConfig.key
  cases hwild : c.isWildcard with
  | false => simp
  | true =>
    rw [ThreadConfig.threadStr_eq hwild]
    obtain ⟨d, p⟩ := k
    simp

/-- Whether an entry is a wildcard and for which nodes is in its key. -/
theorem ThreadConfig.isWildcard_congr {c c' : ThreadConfig} (h : c.key = c'.key) :
    c.isWildcard = c'.isWildcard ∧ c.wildcardPrefix = c'.wildcardPrefix ∧
      c.domainId = c'.domainId ∧ c.threadStr = c'.threadStr := by
  obtain ⟨hdomain, hstr⟩ := Prod.mk.inj h
  unfold ThreadConfig.isWildcard ThreadConfig.wildcardPrefix
  rw [hstr]
  exact ⟨rfl, rfl, hdomain, rfl⟩

section

variable {l : List ThreadConfig}

private theorem place_unique {β : Type} {g : ThreadConfig → β} (h : (l.map g).Nodup) {i j : Nat}
    {a b : ThreadConfig} (ha : l[i]? = some a) (hb : l[j]? = some b) (heq : g a = g b) : i = j := by
  have hi : i < (l.map g).length := by
    rw [List.length_map]
    exact (List.getElem?_eq_some_iff.mp ha).1
  refine (List.getElem?_inj hi h).mp ?_
  rw [List.getElem?_map, List.getElem?_map, ha, hb, Option.map_some, Option.map_some, heq]

theorem distinct_exactKey (h : (l.map ThreadConfig.key).Nodup) :
    Distinct ThreadConfig.exactKey l := by
  intro i j a b k ha hb hka hkb
  rw [ThreadConfig.exactKey_eq_some] at hka hkb
  exact place_unique h ha hb (hka.2.trans hkb.2.symm)

theorem distinct_wildcardKey (h : (l.map ThreadConfig.key).Nodup) :
    Distinct ThreadConfig.wildcardKey l := by
  intro i j a b k ha hb hka hkb
  rw [ThreadConfig.wildcardKey_eq_some] at hka hkb
  exact place_unique h ha hb (hka.2.trans hkb.2.symm)

theorem distinct_nameKey (h : (l.map ThreadConfig.threadStr).Nodup) :
    Distinct ThreadConfig.nameKey l := by
  intro i j a b k ha hb hka hkb
  exact place_unique h ha hb ((Option.some.inj hka).trans (Option.some.inj hkb).symm)

/-! ## The callback groups -/

/-- The instances of a wildcard entry. -/
def ThreadConfig.instances (c : ThreadConfig) : List Name := c.matchedTids.map Prod.fst

/-- The invariant of `callback_group_configs_`. -/
structure CallbackGroupsOk (l : List ThreadConfig) : Prop where
  keys : (l.map ThreadConfig.key).Nodup
  /-- a wildcard entry tracks groups of its node -/
  prefixes : ∀ w ∈ l, w.isWildcard = true → ∀ id ∈ w.instances, extractNodePart id = w.wildcardPrefix
  /-- what a wildcard entry tracks no exact entry does -/
  exclusive : ∀ c ∈ l, ∀ w ∈ l, c.isWildcard = false → w.isWildcard = true →
    c.domainId = w.domainId → c.threadStr ∈ w.instances → c.threadId = -1

/-- Entries that track no more than others that are in order. -/
theorem CallbackGroupsOk.of_tracks {l' : List ThreadConfig} (h : CallbackGroupsOk l)
    (hkeys : (l'.map ThreadConfig.key).Nodup)
    (hexact : ∀ c ∈ l', c.isWildcard = false → c.threadId = -1 ∨
      ∃ c₀ ∈ l, c₀.key = c.key ∧ c₀.threadId = c.threadId)
    (hwildcard : ∀ w ∈ l', w.isWildcard = true → ∀ id ∈ w.instances,
      ∃ w₀ ∈ l, w₀.key = w.key ∧ id ∈ w₀.instances) : CallbackGroupsOk l' := by
  refine ⟨hkeys, fun w hw hwild id hid => ?_, fun c hc w hw hcw hww hdomain htracks => ?_⟩
  · obtain ⟨w₀, hw₀, hkey, hid₀⟩ := hwildcard w hw hwild id hid
    obtain ⟨hsame, hpart, -, -⟩ := ThreadConfig.isWildcard_congr hkey
    rw [← hpart]
    exact h.prefixes w₀ hw₀ (hsame.trans hwild) id hid₀
  · rcases hexact c hc hcw with hnone | ⟨c₀, hc₀, hkey, htid⟩
    · exact hnone
    · obtain ⟨w₀, hw₀, hwkey, hid₀⟩ := hwildcard w hw hww _ htracks
      obtain ⟨hsame, -, hd, hstr⟩ := ThreadConfig.isWildcard_congr hkey
      obtain ⟨hwsame, -, hwd, -⟩ := ThreadConfig.isWildcard_congr hwkey
      rw [← htid]
      refine h.exclusive c₀ hc₀ w₀ hw₀ (hsame.trans hcw) (hwsame.trans hww) ?_ (hstr ▸ hid₀)
      rw [hd, hwd, hdomain]

/-- **Once is enough**: two entries that track a callback group are the same. -/
theorem CallbackGroupsOk.tracked_once (h : CallbackGroupsOk l) {domainId : Nat} {id : Name}
    {i j : Nat} {a b : ThreadConfig} (ha : l[i]? = some a) (hb : l[j]? = some b)
    (hda : a.domainId = domainId) (hdb : b.domainId = domainId)
    (hta : if a.isWildcard then id ∈ a.instances else a.threadStr = id ∧ a.threadId ≠ -1)
    (htb : if b.isWildcard then id ∈ b.instances else b.threadStr = id ∧ b.threadId ≠ -1) :
    i = j := by
  have hma := List.mem_of_getElem? ha
  have hmb := List.mem_of_getElem? hb
  cases hwa : a.isWildcard with
  | false =>
    rw [hwa, if_neg (by simp)] at hta
    cases hwb : b.isWildcard with
    | false =>
      rw [hwb, if_neg (by simp)] at htb
      refine place_unique h.keys ha hb ?_
      unfold ThreadConfig.key
      rw [hda, hdb, hta.1, htb.1]
    | true =>
      rw [hwb, if_pos rfl] at htb
      exact absurd (h.exclusive a hma b hmb hwa hwb (hda.trans hdb.symm) (hta.1.symm ▸ htb)) hta.2
  | true =>
    rw [hwa, if_pos rfl] at hta
    cases hwb : b.isWildcard with
    | false =>
      rw [hwb, if_neg (by simp)] at htb
      exact absurd (h.exclusive b hmb a hma hwb hwa (hdb.trans hda.symm) (htb.1.symm ▸ hta)) htb.2
    | true =>
      rw [hwb, if_pos rfl] at htb
      refine place_unique h.keys ha hb ?_
      unfold ThreadConfig.key
      rw [hda, hdb, ThreadConfig.threadStr_eq hwa, ThreadConfig.threadStr_eq hwb,
        ← h.prefixes a hma hwa id hta, ← h.prefixes b hmb hwb id htb]

/-! ## Changes of one callback group -/

theorem markApplied_key (c : ThreadConfig) : c.markApplied.key = c.key := rfl

theorem forget_key (id : Name) (c : ThreadConfig) : (c.forget id).key = c.key := rfl

theorem forget_applied (id : Name) (c : ThreadConfig) : (c.forget id).applied = c.applied := rfl

theorem markApplied_threadStr (c : ThreadConfig) : c.markApplied.threadStr = c.threadStr := rfl

theorem setThreadId_threadStr (tid : Int) (c : ThreadConfig) :
    (c.setThreadId tid).threadStr = c.threadStr := rfl

theorem setThreadId_applied (tid : Int) (c : ThreadConfig) :
    (c.setThreadId tid).applied = c.applied := rfl

theorem record_key (id : Name) (tid : Int) (c : ThreadConfig) : (c.record id tid).key = c.key := by
  unfold ThreadConfig.record
  split <;> rfl

theorem record_applied (id : Name) (tid : Int) (c : ThreadConfig) :
    (c.record id tid).applied = c.applied := by
  unfold ThreadConfig.record
  split <;> rfl

theorem CallbackGroupsOk.markApplied (h : CallbackGroupsOk l) (i : Nat) :
    CallbackGroupsOk (l.modify i ThreadConfig.markApplied) := by
  have hof {c : ThreadConfig} (hc : c ∈ l.modify i ThreadConfig.markApplied) :
      ∃ c₀ ∈ l, c₀.key = c.key ∧ c₀.threadId = c.threadId ∧ c₀.instances = c.instances := by
    obtain ⟨j, hj⟩ := List.mem_iff_getElem?.mp hc
    rcases getElem?_modify_eq_some hj with ⟨_, hj'⟩ | ⟨c₀, hj', _, rfl⟩
    · exact ⟨c, List.mem_of_getElem? hj', rfl, rfl, rfl⟩
    · exact ⟨c₀, List.mem_of_getElem? hj', rfl, rfl, rfl⟩
  refine h.of_tracks ?_ (fun c hc _ => ?_) fun w hw _ id hid => ?_
  · rw [map_modify markApplied_key]
    exact h.keys
  · obtain ⟨c₀, hc₀, hkey, htid, _⟩ := hof hc
    exact .inr ⟨c₀, hc₀, hkey, htid⟩
  · obtain ⟨w₀, hw₀, hkey, _, hinstances⟩ := hof hw
    exact ⟨w₀, hw₀, hkey, hinstances ▸ hid⟩

theorem mem_instances_forget {c : ThreadConfig} {id id' : Name} :
    id' ∈ (c.forget id).instances ↔ id' ≠ id ∧ id' ∈ c.instances := by
  unfold ThreadConfig.instances ThreadConfig.forget Dict.erase
  simp only [List.mem_map, List.mem_filter, decide_eq_true_eq]
  constructor
  · rintro ⟨e, ⟨he, hne⟩, rfl⟩
    exact ⟨hne, e, he, rfl⟩
  · rintro ⟨hne, e, he, rfl⟩
    exact ⟨e, ⟨he, hne⟩, rfl⟩

/-- Forgetting an instance: nothing else happens, and that entry does not track it any more. -/
theorem CallbackGroupsOk.forget (h : CallbackGroupsOk l) (i : Nat) (id : Name) :
    CallbackGroupsOk (l.modify i (·.forget id)) := by
  have hof {c : ThreadConfig} (hc : c ∈ l.modify i (·.forget id)) :
      ∃ c₀ ∈ l, c₀.key = c.key ∧ c₀.threadId = c.threadId ∧
        ∀ id' ∈ c.instances, id' ∈ c₀.instances := by
    obtain ⟨j, hj⟩ := List.mem_iff_getElem?.mp hc
    rcases getElem?_modify_eq_some hj with ⟨_, hj'⟩ | ⟨c₀, hj', _, rfl⟩
    · exact ⟨c, List.mem_of_getElem? hj', rfl, rfl, fun id' hid' => hid'⟩
    · exact ⟨c₀, List.mem_of_getElem? hj', rfl, rfl, fun id' hid' => (mem_instances_forget.mp hid').2⟩
  refine h.of_tracks ?_ (fun c hc _ => ?_) fun w hw _ id' hid' => ?_
  · rw [map_modify (forget_key id)]
    exact h.keys
  · obtain ⟨c₀, hc₀, hkey, htid, _⟩ := hof hc
    exact .inr ⟨c₀, hc₀, hkey, htid⟩
  · obtain ⟨w₀, hw₀, hkey, _, hinstances⟩ := hof hw
    exact ⟨w₀, hw₀, hkey, hinstances id' hid'⟩

theorem record_of_isWildcard {c : ThreadConfig} (h : c.isWildcard = true) (id : Name)
    (tid : Int) : c.record id tid = { c with matchedTids := Dict.set c.matchedTids id tid } := by
  unfold ThreadConfig.record
  rw [if_pos h]

theorem record_of_exact {c : ThreadConfig} (h : c.isWildcard = false) (id : Name)
    (tid : Int) : c.record id tid = c.setThreadId tid := by
  unfold ThreadConfig.record
  rw [h, if_neg (by simp)]

/-- **Recording in an exact entry** that no wildcard entry competes with. -/
theorem CallbackGroupsOk.recordExact (h : CallbackGroupsOk l) {i : Nat} {c₀ : ThreadConfig}
    (hi : l[i]? = some c₀) (hexact : c₀.isWildcard = false)
    (hfree : ∀ w ∈ l, w.isWildcard = true → w.domainId = c₀.domainId →
      c₀.threadStr ∉ w.instances) (id : Name) (tid : Int) :
    CallbackGroupsOk (l.modify i (·.record id tid)) := by
  have hkey := record_key id tid
  -- the wildcard entries are as they were
  have hwild {w : ThreadConfig} (hw : w ∈ l.modify i (·.record id tid))
      (hww : w.isWildcard = true) : w ∈ l := by
    obtain ⟨j, hj⟩ := List.mem_iff_getElem?.mp hw
    rcases getElem?_modify_eq_some hj with ⟨_, hj'⟩ | ⟨c, hj', rfl, rfl⟩
    · exact List.mem_of_getElem? hj'
    · obtain rfl := Option.some.inj (hj'.symm.trans hi)
      rw [(ThreadConfig.isWildcard_congr (hkey c)).1, hexact] at hww
      cases hww
  refine ⟨?_, fun w hw hww => h.prefixes w (hwild hw hww) hww,
    fun c hc w hw hcw hww hdomain htracks => ?_⟩
  · rw [map_modify hkey]
    exact h.keys
  · obtain ⟨j, hj⟩ := List.mem_iff_getElem?.mp hc
    rcases getElem?_modify_eq_some hj with ⟨_, hj'⟩ | ⟨c, hj', rfl, rfl⟩
    · exact h.exclusive c (List.mem_of_getElem? hj') w (hwild hw hww) hcw hww hdomain htracks
    · obtain rfl := Option.some.inj (hj'.symm.trans hi)
      obtain ⟨-, -, hd, hstr⟩ := ThreadConfig.isWildcard_congr (hkey c)
      exact absurd (hstr ▸ htracks) (hfree w (hwild hw hww) hww (hdomain.symm.trans hd))

/-- **Recording in a wildcard entry** of a callback group without an exact entry. -/
theorem CallbackGroupsOk.recordWildcard (h : CallbackGroupsOk l) {i : Nat} {w₀ : ThreadConfig}
    (hi : l[i]? = some w₀) (hwild : w₀.isWildcard = true) {id : Name}
    (hpart : extractNodePart id = w₀.wildcardPrefix)
    (hnone : ∀ c ∈ l, c.isWildcard = false → c.domainId = w₀.domainId → c.threadStr ≠ id)
    (tid : Int) : CallbackGroupsOk (l.modify i (·.record id tid)) := by
  have hkey := record_key id tid
  -- an entry of the new list is an old one, or it is `w₀` with this instance
  have hof {c : ThreadConfig} (hc : c ∈ l.modify i (·.record id tid)) :
      ∃ c₀ ∈ l, c₀.key = c.key ∧ (c.isWildcard = false → c₀ = c) ∧
        ∀ id' ∈ c.instances, id' ∈ c₀.instances ∨ (id' = id ∧ c₀ = w₀) := by
    obtain ⟨j, hj⟩ := List.mem_iff_getElem?.mp hc
    rcases getElem?_modify_eq_some hj with ⟨_, hj'⟩ | ⟨c₀, hj', rfl, rfl⟩
    · exact ⟨c, List.mem_of_getElem? hj', rfl, fun _ => rfl, fun id' hid' => .inl hid'⟩
    · obtain rfl := Option.some.inj (hj'.symm.trans hi)
      refine ⟨c₀, List.mem_of_getElem? hj', (hkey c₀).symm, fun hexact => ?_, fun id' hid' => ?_⟩
      · rw [(ThreadConfig.isWildcard_congr (hkey c₀)).1, hwild] at hexact
        cases hexact
      · rw [record_of_isWildcard hwild] at hid'
        obtain ⟨e, he, rfl⟩ := List.mem_map.mp hid'
        rcases Dict.mem_set he with he | rfl
        · exact .inl (List.mem_map_of_mem he)
        · exact .inr ⟨rfl, rfl⟩
  refine ⟨?_, fun w hw hww id' hid' => ?_, fun c hc w hw hcw hww hdomain htracks => ?_⟩
  · rw [map_modify hkey]
    exact h.keys
  · obtain ⟨w', hw', hsame, _, hinstances⟩ := hof hw
    obtain ⟨hw'w, hpre, -, -⟩ := ThreadConfig.isWildcard_congr hsame
    rw [← hpre]
    rcases hinstances id' hid' with hid' | ⟨rfl, rfl⟩
    · exact h.prefixes w' hw' (hw'w.trans hww) id' hid'
    · exact hpart
  · obtain ⟨c', hc', _, hsame, _⟩ := hof hc
    obtain rfl := hsame hcw
    obtain ⟨w', hw', hwkey, _, hinstances⟩ := hof hw
    obtain ⟨hw'w, -, hd, -⟩ := ThreadConfig.isWildcard_congr hwkey
    rcases hinstances _ htracks with htracks | ⟨hid, rfl⟩
    · exact h.exclusive c' hc' w' hw' hcw (hw'w.trans hww) (hdomain.trans hd.symm) htracks
    · exact absurd hid (hnone c' hc' hcw (hdomain.trans hd.symm))

end

end Agnocast
