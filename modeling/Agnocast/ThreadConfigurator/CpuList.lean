import Agnocast.ThreadConfigurator.SystemScan
import Mathlib.Data.List.TakeWhile

/-!
# The thread configurator — CPU lists

`parse_cpu_list` of `system_scan.cpp` as a loop over the rest of the text, with what could throw or
overflow on its way, and the format that it is for.

* `parseCpuListChecked`    — the loop; `parseCpuListChecked_eq`: it comes to `parseCpuList`.
* `CpuListText`            — the format: decimal numbers and ranges of them, between commas.
* `parseCpuToken_eq_some`  — what is accepted as an item: one of the format, or a range whose end
  is a zero with a sign.
* `cpu_lists_correct_iff`  — so the parser is right unless there is such a zero.
* `signed_zero_accepted`   — a text that is accepted.
-/

namespace Agnocast

open SortUnique

/-! ## The loop -/

/-- What the parser must not come to: `std::out_of_range`, or an `int` beyond its bounds. -/
inductive CpuListFault
  | outOfRange
  | overflow
  deriving DecidableEq, Repr

/-- `find` of a character. -/
def findChar (c : Char) (s : Name) : Option Nat := s.findIdx? (· = c)

/-- `substr(0, count)`; there may be no count. -/
def substrTo (s : Name) : Option Nat → Name
  | none => s
  | some count => s.take count

/-- `substr(pos)`. -/
def substrFrom (s : Name) (pos : Nat) : Except CpuListFault Name :=
  if s.length < pos then .error .outOfRange else .ok (s.drop pos)

/-- `cpu++`. -/
def incrementInt (n : Int) : Except CpuListFault Int :=
  if n + 1 > intMax then .error .overflow else .ok (n + 1)

/-- The loop over the CPUs of a range. -/
def pushRange (last cpu : Int) (result : List Int) : Except CpuListFault (List Int) :=
  if cpu ≤ last then
    match incrementInt cpu with
    | .error fault => .error fault
    | .ok _ => pushRange last (cpu + 1) (result ++ [cpu])
  else .ok result
termination_by (last + 1 - cpu).toNat
decreasing_by omega

/-- What the body of the loop does with a token; none if it returns. -/
def pushToken (token : Name) (result : List Int) : Except CpuListFault (Option (List Int)) :=
  match findChar '-' token with
  | none =>
    match toNumber token with
    | none => .ok none
    | some cpu =>
      if cpu < 0 ∨ cpu > kMaxCpuNumber then .ok none else .ok (some (result ++ [cpu]))
  | some dash => do
    let lastText ← substrFrom token (dash + 1)
    match toNumber (substrTo token (some dash)), toNumber lastText with
    | some first, some last =>
      if first < 0 ∨ last < first ∨ last > kMaxCpuNumber then return none
      else return some (← pushRange last first result)
    | _, _ => return none

/-- What is behind the comma, or nothing. -/
def restBehind (rest : Name) : Option Nat → Except CpuListFault Name
  | none => .ok []
  | some comma => substrFrom rest (comma + 1)

theorem length_restBehind_lt {rest tail : Name} {comma : Option Nat} (hne : rest ≠ [])
    (h : restBehind rest comma = .ok tail) : tail.length < rest.length := by
  have hpos := List.length_pos_iff.mpr hne
  cases comma with
  | none =>
    cases h
    exact hpos
  | some comma =>
    change substrFrom rest (comma + 1) = .ok tail at h
    unfold substrFrom at h
    split at h
    · cases h
    · cases h
      rw [List.length_drop]
      omega

/-- The loop over the tokens, with the numbers so far. -/
def parseCpuListLoop (rest : Name) (result : List Int) : Except CpuListFault (Option (List Int)) :=
  if _hne : rest = [] then .ok (some result)
  else
    let comma := findChar ',' rest
    match _htail : restBehind rest comma with
    | .error fault => .error fault
    | .ok tail =>
      -- a comma at the end
      if comma ≠ none ∧ tail = [] then .ok none
      else
        match pushToken (substrTo rest comma) result with
        | .error fault => .error fault
        | .ok none => .ok none
        | .ok (some result) => parseCpuListLoop tail result
termination_by rest.length
decreasing_by exact length_restBehind_lt _hne _htail

/-- `parse_cpu_list`. -/
def parseCpuListChecked (s : Name) : Except CpuListFault (Option (List Int)) :=
  let rest := stripLineEnd s
  if rest.isEmpty then .ok none
  else (parseCpuListLoop rest []).map fun result => result.map sortUnique

/-! ## What the loop comes to -/

theorem pushRange_eq {last : Int} (hlast : last < intMax) (cpu : Int) (result : List Int) :
    pushRange last cpu result =
      .ok (result ++ (List.range (last - cpu + 1).toNat).map fun k : Nat => cpu + k) := by
  induction h : (last + 1 - cpu).toNat generalizing cpu result with
  | zero =>
    have hrange : (last - cpu + 1).toNat = 0 := by omega
    unfold pushRange
    rw [if_neg (by omega), hrange, List.range_zero, List.map_nil, List.append_nil]
  | succ k ih =>
    have hnext : incrementInt cpu = .ok (cpu + 1) := by
      unfold incrementInt
      exact if_neg (by omega)
    have hrange : (last - cpu + 1).toNat = (last - (cpu + 1) + 1).toNat + 1 := by omega
    unfold pushRange
    rw [if_pos (by omega), hnext]
    dsimp only
    rw [ih (cpu + 1) (result ++ [cpu]) (by omega), hrange, List.range_succ_eq_map, List.map_cons,
      List.map_map, List.append_assoc, List.singleton_append]
    -- the numbers behind the first one
    have hshift : ((fun k : Nat => cpu + k) ∘ Nat.succ) = fun k : Nat => cpu + 1 + (k : Int) := by
      funext k
      show cpu + ((k + 1 : Nat) : Int) = cpu + 1 + (k : Int)
      omega
    rw [hshift, Int.natCast_zero, Int.add_zero]

/-- A character is found behind what has none. -/
theorem findChar_eq_some {c : Char} {s : Name} {i : Nat} (h : findChar c s = some i) :
    s.take i = s.takeWhile (· ≠ c) ∧ ∃ tail, s.dropWhile (· ≠ c) = c :: tail ∧
      s.drop (i + 1) = tail ∧ i + 1 ≤ s.length := by
  unfold findChar at h
  induction s generalizing i with
  | nil => cases h
  | cons d s ih =>
    rw [List.findIdx?_cons] at h
    by_cases hd : d = c
    · subst hd
      rw [if_pos (by simp)] at h
      cases h
      refine ⟨by simp, s, by simp, rfl, by simp⟩
    · rw [if_neg (by simpa using hd)] at h
      obtain ⟨j, hj, rfl⟩ := Option.map_eq_some_iff.mp h
      obtain ⟨htake, tail, hdrop, htail, hle⟩ := ih hj
      refine ⟨?_, tail, ?_, ?_, ?_⟩
      · rw [List.take_succ_cons, htake, List.takeWhile_cons_of_pos (by simpa using hd)]
      · rw [List.dropWhile_cons_of_pos (by simpa using hd), hdrop]
      · rwa [List.drop_succ_cons]
      · rw [List.length_cons]
        omega

theorem findChar_eq_none {c : Char} {s : Name} : findChar c s = none ↔ c ∉ s := by
  unfold findChar
  rw [List.findIdx?_eq_none_iff]
  constructor
  · intro h hmem
    exact of_decide_eq_false (h c hmem) rfl
  · intro h d hd
    refine decide_eq_false ?_
    rintro rfl
    exact h hd

theorem substrFrom_of_le {s : Name} {pos : Nat} (h : pos ≤ s.length) :
    substrFrom s pos = .ok (s.drop pos) := if_neg (not_lt.mpr h)

/-- **One token**: no exception, no overflow, and the numbers of the token. -/
theorem pushToken_eq (token : Name) (result : List Int) :
    pushToken token result = .ok ((parseCpuToken token).map (result ++ ·)) := by
  unfold pushToken parseCpuToken
  cases hdash : findChar '-' token with
  | none =>
    rw [if_neg (findChar_eq_none.mp hdash)]
    dsimp only
    cases toNumber token with
    | none => rfl
    | some cpu =>
      dsimp only
      split <;> rfl
  | some dash =>
    obtain ⟨htake, tail, hdrop, htail, hle⟩ := findChar_eq_some hdash
    have hmem : '-' ∈ token := by
      by_contra hnot
      rw [findChar_eq_none.mpr hnot] at hdash
      cases hdash
    rw [if_pos hmem]
    dsimp only
    -- what is behind the dash begins inside the token, so `substr` does not throw
    rw [substrFrom_of_le hle, htail, hdrop]
    show (match toNumber (token.take dash), toNumber tail with
      | some first, some last =>
        if first < 0 ∨ last < first ∨ last > kMaxCpuNumber then .ok none
        else do return some (← pushRange last first result)
      | _, _ => .ok none : Except CpuListFault (Option (List Int))) = _
    rw [htake, List.tail_cons]
    cases toNumber (token.takeWhile (· ≠ '-')) with
    | none => rfl
    | some first =>
      cases toNumber tail with
      | none => rfl
      | some last =>
        dsimp only
        split
        · rfl
        next hbounds =>
        -- the bound on the last number keeps `cpu++` in range
        have hlast : last < intMax := by
          have hmax : kMaxCpuNumber < intMax := by decide
          omega
        rw [pushRange_eq hlast]
        rfl

/-- The rest of a text is a token, or a token with a comma and the rest behind it. -/
theorem restBehind_cases (rest : Name) :
    (restBehind rest (findChar ',' rest) = .ok [] ∧ findChar ',' rest = none ∧
        rest.splitOn ',' = [substrTo rest (findChar ',' rest)]) ∨
      ∃ tail, restBehind rest (findChar ',' rest) = .ok tail ∧ findChar ',' rest ≠ none ∧
        rest.splitOn ',' = substrTo rest (findChar ',' rest) :: tail.splitOn ',' := by
  cases hcomma : findChar ',' rest with
  | none => exact .inl ⟨rfl, rfl, List.splitOn_eq_singleton (findChar_eq_none.mp hcomma)⟩
  | some comma =>
    obtain ⟨htake, tail, hdrop, htail, hle⟩ := findChar_eq_some hcomma
    refine .inr ⟨tail, ?_, by simp, ?_⟩
    · show substrFrom rest (comma + 1) = .ok tail
      rw [substrFrom_of_le hle, htail]
    · have hnot : ',' ∉ rest.takeWhile (· ≠ ',') := fun hmem => by
        simpa using List.mem_takeWhile_imp hmem
      have hrest : rest = rest.takeWhile (· ≠ ',') ++ ',' :: tail := by
        rw [← hdrop, List.takeWhile_append_dropWhile]
      show _ = rest.take comma :: tail.splitOn ','
      rw [htake]
      conv => lhs; rw [hrest]
      exact List.splitOn_append_cons_self_of_not_mem hnot tail

/-- One round of the loop. -/
theorem parseCpuListLoop_of_ne {rest tail : Name} (hne : rest ≠ []) (result : List Int)
    (hbehind : restBehind rest (findChar ',' rest) = .ok tail) :
    parseCpuListLoop rest result =
      if findChar ',' rest ≠ none ∧ tail = [] then .ok none
      else match parseCpuToken (substrTo rest (findChar ',' rest)) with
        | none => .ok none
        | some cpus => parseCpuListLoop tail (result ++ cpus) := by
  conv => lhs; unfold parseCpuListLoop
  rw [dif_neg hne]
  dsimp only
  split
  · next fault herror =>
    rw [hbehind] at herror
    cases herror
  · next tail' htail =>
    rw [hbehind] at htail
    cases htail
    rw [pushToken_eq]
    cases parseCpuToken (substrTo rest (findChar ',' rest)) <;> rfl

/-- **The loop** takes the tokens between the commas one after another. -/
theorem parseCpuListLoop_eq {rest : Name} (hne : rest ≠ []) (result : List Int) :
    parseCpuListLoop rest result =
      .ok ((parseCpuTokens (rest.splitOn ',')).map (result ++ ·)) := by
  induction hlength : rest.length using Nat.strong_induction_on generalizing rest result with
  | _ k ih =>
  rcases restBehind_cases rest with ⟨hbehind, hnone, hsplit⟩ | ⟨tail, hbehind, hsome, hsplit⟩
  · -- the last token
    rw [hsplit, parseCpuListLoop_of_ne hne result hbehind, if_neg (fun h => h.1 hnone)]
    unfold parseCpuTokens parseCpuTokens
    cases parseCpuToken (substrTo rest (findChar ',' rest)) with
    | none => rfl
    | some cpus =>
      unfold parseCpuListLoop
      show Except.ok (some (result ++ cpus)) = .ok (some (result ++ (cpus ++ [])))
      rw [List.append_nil]
  · have hlt := length_restBehind_lt hne hbehind
    rw [hsplit, parseCpuListLoop_of_ne hne result hbehind]
    unfold parseCpuTokens
    by_cases hempty : tail = []
    · -- nothing behind the comma
      subst hempty
      have hnil : parseCpuTokens ([].splitOn ',') = none := by decide
      rw [if_pos ⟨hsome, rfl⟩, hnil]
      cases parseCpuToken (substrTo rest (findChar ',' rest)) <;> rfl
    · rw [if_neg (fun h => hempty h.2)]
      cases parseCpuToken (substrTo rest (findChar ',' rest)) with
      | none => rfl
      | some cpus =>
        dsimp only
        rw [ih tail.length (hlength ▸ hlt) hempty (result ++ cpus) rfl]
        cases parseCpuTokens (tail.splitOn ',') with
        | none => rfl
        | some more =>
          show Except.ok (some ((result ++ cpus) ++ more)) = .ok (some (result ++ (cpus ++ more)))
          rw [List.append_assoc]

/-- **No exception and no overflow**: the loop comes to `parseCpuList`. -/
theorem parseCpuListChecked_eq (s : Name) : parseCpuListChecked s = .ok (parseCpuList s) := by
  unfold parseCpuListChecked parseCpuList
  dsimp only
  split
  · rfl
  next hne =>
  rw [parseCpuListLoop_eq (by simpa using hne)]
  show Except.ok (((parseCpuTokens ((stripLineEnd s).splitOn ',')).map ([] ++ ·)).map sortUnique) =
    .ok ((parseCpuTokens ((stripLineEnd s).splitOn ',')).map sortUnique)
  cases parseCpuTokens ((stripLineEnd s).splitOn ',') <;> rfl

/-! ## The format -/

/-- A number in decimal digits. -/
def IsDecimal (text : Name) (n : Nat) : Prop :=
  text ≠ [] ∧ (∀ c ∈ text, c.isDigit = true) ∧ Nat.ofDigitChars 10 text 0 = n

/-- An item of a list, and the first and the last CPU that it stands for. -/
inductive CpuItem : Name → Nat → Nat → Prop
  | number {text : Name} {n : Nat} : IsDecimal text n → n ≤ 8191 → CpuItem text n n
  | range {first last : Name} {a b : Nat} : IsDecimal first a → IsDecimal last b → a ≤ b →
      b ≤ 8191 → CpuItem (first ++ '-' :: last) a b

/-- A CPU list, with the CPUs that its items stand for. -/
inductive CpuListText : Name → List (Nat × Nat) → Prop
  | item {text : Name} {a b : Nat} : CpuItem text a b → CpuListText text [(a, b)]
  | more {text rest : Name} {a b : Nat} {ranges : List (Nat × Nat)} : CpuItem text a b →
      CpuListText rest ranges → CpuListText (text ++ ',' :: rest) ((a, b) :: ranges)

/-- A range from zero to a zero with a sign. -/
def SignedZeroRange (text : Name) : Prop :=
  ∃ first last, text = first ++ '-' :: '-' :: last ∧ IsDecimal first 0 ∧ IsDecimal last 0

/-- The CPUs from one to another. -/
def cpusFrom (a b : Nat) : List Int := (List.range (b + 1 - a)).map fun k : Nat => (a : Int) + k

theorem mem_cpusFrom {a b : Nat} {cpu : Int} : cpu ∈ cpusFrom a b ↔ a ≤ cpu ∧ cpu ≤ b := by
  unfold cpusFrom
  rw [List.mem_map]
  constructor
  · rintro ⟨k, hk, rfl⟩
    have := List.mem_range.mp hk
    omega
  · rintro ⟨hlo, hhi⟩
    refine ⟨(cpu - a).toNat, List.mem_range.mpr (by omega), by omega⟩

theorem cpusFrom_self (n : Nat) : cpusFrom n n = [(n : Int)] := by
  unfold cpusFrom
  rw [Nat.add_sub_cancel_left, List.range_one, List.map_singleton, Int.natCast_zero, Int.add_zero]

theorem digitsValue_eq_some {s : Name} {n : Nat} : digitsValue s = some n ↔ IsDecimal s n := by
  unfold digitsValue IsDecimal
  by_cases hempty : s = []
  · simp [hempty]
  by_cases hall : s.all Char.isDigit = true
  · have hcond : ¬(s.isEmpty || !s.all Char.isDigit) = true := by simp [hempty, hall]
    rw [if_neg hcond, Option.some_inj]
    exact ⟨fun h => ⟨hempty, List.all_eq_true.mp hall, h⟩, fun h => h.2.2⟩
  · have hcond : (s.isEmpty || !s.all Char.isDigit) = true := by simp [hall]
    rw [if_pos hcond]
    constructor
    · intro h
      cases h
    · intro h
      exact absurd (List.all_eq_true.mpr h.2.1) hall

theorem IsDecimal.not_mem {text : Name} {n : Nat} (h : IsDecimal text n) {c : Char}
    (hc : c.isDigit = false) : c ∉ text := by
  intro hmem
  rw [h.2.1 c hmem] at hc
  cases hc

/-- **What is read as a number that is not negative**: digits, or zeros with a sign. -/
theorem toNumber_eq_some {s : Name} {n : Nat} : toNumber s = some (n : Int) ↔
    (n : Int) ≤ intMax ∧ (IsDecimal s n ∨ n = 0 ∧ ∃ digits, s = '-' :: digits ∧ IsDecimal digits 0) := by
  have hmin : intMin ≤ (n : Int) := by
    have : intMin ≤ 0 := by decide
    omega
  unfold toNumber
  rw [Option.filter_eq_some_iff, decide_eq_true_eq, and_comm (a := intMin ≤ (n : Int)),
    and_iff_left hmin, and_comm]
  refine and_congr_right fun hmax => ?_
  by_cases hsign : s.head? = some '-'
  · rw [if_pos hsign]
    obtain ⟨digits, rfl⟩ : ∃ digits, s = '-' :: digits := by
      cases s with
      | nil => cases hsign
      | cons c digits => exact ⟨digits, by rw [Option.some.inj hsign]⟩
    rw [List.tail_cons, Option.map_eq_some_iff]
    constructor
    · rintro ⟨m, hm, heq⟩
      -- the number is the opposite of itself
      have hzero : m = 0 ∧ n = 0 := by omega
      obtain ⟨rfl, rfl⟩ := hzero
      exact .inr ⟨rfl, digits, rfl, digitsValue_eq_some.mp hm⟩
    · rintro (hdecimal | ⟨rfl, digits', heq, hdecimal⟩)
      · exact absurd List.mem_cons_self (hdecimal.not_mem (by decide))
      · cases heq
        exact ⟨0, digitsValue_eq_some.mpr hdecimal, rfl⟩
  · rw [if_neg hsign, Option.map_eq_some_iff]
    constructor
    · rintro ⟨m, hm, heq⟩
      obtain rfl : m = n := Int.ofNat.inj heq
      exact .inl (digitsValue_eq_some.mp hm)
    · rintro (hdecimal | ⟨rfl, digits, rfl, _⟩)
      · exact ⟨n, digitsValue_eq_some.mpr hdecimal, rfl⟩
      · exact absurd rfl hsign

private theorem intMax_lt_of_le {n : Nat} (h : n ≤ 8191) : (n : Int) ≤ intMax := by
  have : (8191 : Int) ≤ intMax := by decide
  omega

/-- The two parts of a range. -/
private theorem parseCpuToken_range {first last : Name} (hfirst : '-' ∉ first) :
    parseCpuToken (first ++ '-' :: last) =
      match toNumber first, toNumber last with
      | some f, some l =>
        if f < 0 ∨ l < f ∨ l > kMaxCpuNumber then none
        else some ((List.range (l - f + 1).toNat).map fun k : Nat => f + k)
      | _, _ => none := by
  have htake : (first ++ '-' :: last).takeWhile (· ≠ '-') = first := by
    rw [List.takeWhile_append_of_pos fun c hc => by simpa using ne_of_mem_of_not_mem hc hfirst]
    simp
  have hdrop : (first ++ '-' :: last).dropWhile (· ≠ '-') = '-' :: last := by
    rw [List.dropWhile_append_of_pos fun c hc => by simpa using ne_of_mem_of_not_mem hc hfirst]
    simp
  unfold parseCpuToken
  rewrite [if_pos (List.mem_append_right _ List.mem_cons_self), htake, hdrop, List.tail_cons]
  rfl

private theorem range_eq_cpusFrom {a b : Nat} :
    ((List.range ((b : Int) - a + 1).toNat).map fun k : Nat => (a : Int) + k) = cpusFrom a b := by
  unfold cpusFrom
  have : ((b : Int) - a + 1).toNat = b + 1 - a := by omega
  rw [this]

/-- **What is accepted as an item**: an item of the format, or a range to a zero with a sign. -/
theorem parseCpuToken_eq_some {token : Name} {list : List Int} :
    parseCpuToken token = some list ↔
      (∃ a b, CpuItem token a b ∧ list = cpusFrom a b) ∨ (SignedZeroRange token ∧ list = [0]) := by
  constructor
  · intro h
    by_cases hdash : '-' ∈ token
    · obtain ⟨first, last, hfirst, rfl⟩ : ∃ first last, '-' ∉ first ∧ token = first ++ '-' :: last := by
        obtain ⟨first, last, rfl, hfirst⟩ := List.eq_append_cons_of_mem hdash
        exact ⟨first, last, hfirst, rfl⟩
      rw [parseCpuToken_range hfirst] at h
      split at h
      · next f l hf hl =>
        split at h
        · cases h
        next hbounds =>
        cases h
        obtain ⟨a, rfl⟩ := Int.eq_ofNat_of_zero_le (a := f) (by omega)
        obtain ⟨b, rfl⟩ := Int.eq_ofNat_of_zero_le (a := l) (by omega)
        have hmax : kMaxCpuNumber = 8191 := rfl
        rw [range_eq_cpusFrom]
        -- no sign before the first number, for there is no dash in it
        have ha : IsDecimal first a := by
          rcases (toNumber_eq_some.mp hf).2 with ha | ⟨_, digits, rfl, _⟩
          · exact ha
          · exact absurd List.mem_cons_self hfirst
        -- the second may have a sign, but then it is a zero
        rcases (toNumber_eq_some.mp hl).2 with hb | ⟨rfl, digits, rfl, hdigits⟩
        · exact .inl ⟨a, b, .range ha hb (by omega) (by omega), rfl⟩
        · obtain rfl : a = 0 := by omega
          exact .inr ⟨⟨first, digits, rfl, ha, hdigits⟩, cpusFrom_self 0⟩
      · cases h
    · unfold parseCpuToken at h
      rw [if_neg hdash] at h
      split at h
      · next cpu hcpu =>
        split at h
        · cases h
        next hbounds =>
        cases h
        obtain ⟨n, rfl⟩ := Int.eq_ofNat_of_zero_le (a := cpu) (by omega)
        have hmax : kMaxCpuNumber = 8191 := rfl
        rcases (toNumber_eq_some.mp hcpu).2 with hn | ⟨_, digits, rfl, _⟩
        · exact .inl ⟨n, n, .number hn (by omega), (cpusFrom_self n).symm⟩
        · exact absurd List.mem_cons_self hdash
      · cases h
  · have hmax : kMaxCpuNumber = 8191 := rfl
    rintro (⟨a, b, hitem, rfl⟩ | ⟨⟨first, last, rfl, hfirst, hlast⟩, rfl⟩)
    -- the other way the parser is evaluated on the texts
    · cases hitem with
      | @number _ n hn hle =>
        unfold parseCpuToken
        rw [if_neg (hn.not_mem (by decide)), toNumber_eq_some.mpr ⟨intMax_lt_of_le hle, .inl hn⟩]
        dsimp only
        rw [if_neg (by omega), cpusFrom_self]
      | @range first last a b ha hb hab hle =>
        rw [parseCpuToken_range (ha.not_mem (by decide)),
          toNumber_eq_some.mpr ⟨intMax_lt_of_le (hab.trans hle), .inl ha⟩,
          toNumber_eq_some.mpr ⟨intMax_lt_of_le hle, .inl hb⟩]
        dsimp only
        rw [if_neg (by omega), range_eq_cpusFrom]
    · have hzero : toNumber ('-' :: last) = some ((0 : Nat) : Int) :=
        toNumber_eq_some.mpr ⟨by decide, .inr ⟨rfl, last, rfl, hlast⟩⟩
      rw [parseCpuToken_range (hfirst.not_mem (by decide)), hzero,
        toNumber_eq_some.mpr ⟨by decide, .inl hfirst⟩]
      rfl

/-! ## Lists -/

theorem CpuItem.not_mem_comma {text : Name} {a b : Nat} (h : CpuItem text a b) : ',' ∉ text := by
  cases h with
  | number hn _ => exact hn.not_mem (by decide)
  | range ha hb _ _ =>
    intro hmem
    rcases List.mem_append.mp hmem with hmem | hmem
    · exact ha.not_mem (by decide) hmem
    · rcases List.mem_cons.mp hmem with heq | hmem
      · exact absurd heq (by decide)
      · exact hb.not_mem (by decide) hmem

/-- A range to a zero with a sign is no item of the format. -/
theorem SignedZeroRange.not_item {text : Name} (h : SignedZeroRange text) {a b : Nat} :
    ¬CpuItem text a b := by
  obtain ⟨first, last, rfl, -, -⟩ := h
  generalize htext : first ++ '-' :: '-' :: last = text
  intro hitem
  cases hitem with
  | number hn _ =>
    exact hn.not_mem (c := '-') (by decide)
      (htext ▸ List.mem_append_right _ List.mem_cons_self)
  | @range first' last' _ _ ha hb _ _ =>
    -- there is one dash between two numbers
    have hcount := congrArg (List.count '-') htext
    rw [List.count_append, List.count_append, List.count_cons_self, List.count_cons_self,
      List.count_cons_self, List.count_eq_zero.mpr (ha.not_mem (by decide)),
      List.count_eq_zero.mpr (hb.not_mem (by decide))] at hcount
    omega

/-- The format, by the texts between the commas. -/
theorem cpuListText_iff {s : Name} {ranges : List (Nat × Nat)} :
    CpuListText s ranges ↔
      List.Forall₂ (fun text r => CpuItem text r.1 r.2) (s.splitOn ',') ranges := by
  constructor
  · intro h
    induction h with
    | item hitem =>
      rw [List.splitOn_eq_singleton hitem.not_mem_comma]
      exact .cons hitem .nil
    | more hitem _ ih =>
      rw [List.splitOn_append_cons_self_of_not_mem hitem.not_mem_comma]
      exact .cons hitem ih
  · intro h
    have hne : s.splitOn ',' ≠ [] := List.splitOn_ne_nil _ _
    -- a text is what is between its commas, joined again
    have hjoined : [','].intercalate (s.splitOn ',') = s := List.intercalate_splitOn ','
    rw [← hjoined]
    generalize s.splitOn ',' = items at h hne
    induction h with
    | nil => exact absurd rfl hne
    | @cons text r items ranges hitem hrest ih =>
      cases hrest with
      | nil =>
        rw [List.intercalate_singleton]
        exact .item hitem
      | cons hnext hmore =>
        rw [List.intercalate_cons_cons, List.append_assoc, List.singleton_append]
        exact .more hitem (ih (List.cons_ne_nil _ _))

/-- The tokens are accepted if each of them is. -/
theorem parseCpuTokens_eq_some {tokens : List Name} {list : List Int} :
    parseCpuTokens tokens = some list ↔
      ∃ lists, List.Forall₂ (fun token l => parseCpuToken token = some l) tokens lists ∧
        list = lists.flatten := by
  induction tokens generalizing list with
  | nil =>
    constructor
    · intro h
      cases h
      exact ⟨[], .nil, rfl⟩
    · rintro ⟨lists, hall, rfl⟩
      cases hall
      rfl
  | cons token rest ih =>
    unfold parseCpuTokens
    constructor
    · intro h
      split at h
      · next cpus more hcpus hmore =>
        cases h
        obtain ⟨lists, hall, rfl⟩ := ih.mp hmore
        exact ⟨cpus :: lists, .cons hcpus hall, rfl⟩
      · cases h
    · rintro ⟨lists, hall, rfl⟩
      cases hall with
      | cons hcpus hall => rw [hcpus, ih.mpr ⟨_, hall, rfl⟩, List.flatten_cons]

/-- The texts between the commas. -/
def cpuListItems (s : Name) : List Name := (stripLineEnd s).splitOn ','

/-- The items are those of the format but for ranges to a zero with a sign, and there is one. -/
def SignedZeroList (s : Name) : Prop :=
  (∀ text ∈ cpuListItems s, (∃ a b, CpuItem text a b) ∨ SignedZeroRange text) ∧
    ∃ text ∈ cpuListItems s, SignedZeroRange text

/-- What is promised of a text. -/
structure CpuListCorrect (s : Name) : Prop where
  /-- the format is accepted: the CPUs of its items, strictly increasing -/
  accepts : ∀ ranges, CpuListText (stripLineEnd s) ranges →
    ∃ list, parseCpuListChecked s = .ok (some list) ∧ list.Pairwise (· < ·) ∧
      ∀ cpu : Int, cpu ∈ list ↔ ∃ r ∈ ranges, (r.1 : Int) ≤ cpu ∧ cpu ≤ r.2
  /-- every other text is rejected -/
  rejects : (∀ ranges, ¬CpuListText (stripLineEnd s) ranges) → parseCpuListChecked s = .ok none

theorem parseCpuList_eq (s : Name) :
    parseCpuList s = (parseCpuTokens (cpuListItems s)).map sortUnique := by
  unfold parseCpuList cpuListItems
  dsimp only
  split
  · next hempty =>
    rw [List.isEmpty_iff.mp hempty]
    rfl
  · rfl

private theorem exists_forall₂ {α β : Type} {R : α → β → Prop} {l : List α}
    (h : ∀ a ∈ l, ∃ b, R a b) : ∃ bs, List.Forall₂ R l bs := by
  induction l with
  | nil => exact ⟨[], .nil⟩
  | cons a l ih =>
    obtain ⟨b, hb⟩ := h a List.mem_cons_self
    obtain ⟨bs, hbs⟩ := ih fun a ha => h a (List.mem_cons_of_mem _ ha)
    exact ⟨b :: bs, .cons hb hbs⟩

/-- A text of the format is accepted, with the CPUs of its items. -/
theorem parseCpuList_of_text {s : Name} {ranges : List (Nat × Nat)}
    (h : CpuListText (stripLineEnd s) ranges) :
    parseCpuList s = some (sortUnique (ranges.map fun r => cpusFrom r.1 r.2).flatten) := by
  have hitems : List.Forall₂ (fun token l => parseCpuToken token = some l) (cpuListItems s)
      (ranges.map fun r => cpusFrom r.1 r.2) := by
    rw [List.forall₂_map_right_iff]
    exact (cpuListText_iff.mp h).imp fun text r hitem =>
      parseCpuToken_eq_some.mpr (.inl ⟨r.1, r.2, hitem, rfl⟩)
  rw [parseCpuList_eq, parseCpuTokens_eq_some.mpr ⟨_, hitems, rfl⟩, Option.map_some]

/-- **What is accepted at all.** -/
theorem exists_parseCpuList_eq_some {s : Name} : (∃ list, parseCpuList s = some list) ↔
    ∀ text ∈ cpuListItems s, (∃ a b, CpuItem text a b) ∨ SignedZeroRange text := by
  rw [parseCpuList_eq]
  constructor
  · rintro ⟨list, h⟩ text htext
    obtain ⟨all, hall, -⟩ := Option.map_eq_some_iff.mp h
    obtain ⟨lists, hlists, -⟩ := parseCpuTokens_eq_some.mp hall
    obtain ⟨i, hi, rfl⟩ := List.getElem_of_mem htext
    have htoken := hlists.get hi (hlists.length_eq ▸ hi)
    rcases parseCpuToken_eq_some.mp htoken with ⟨a, b, hitem, -⟩ | ⟨hzero, -⟩
    · exact .inl ⟨a, b, hitem⟩
    · exact .inr hzero
  · intro h
    obtain ⟨lists, hlists⟩ : ∃ lists,
        List.Forall₂ (fun token l => parseCpuToken token = some l) (cpuListItems s) lists := by
      refine exists_forall₂ fun text htext => ?_
      rcases h text htext with ⟨a, b, hitem⟩ | hzero
      · exact ⟨_, parseCpuToken_eq_some.mpr (.inl ⟨a, b, hitem, rfl⟩)⟩
      · exact ⟨_, parseCpuToken_eq_some.mpr (.inr ⟨hzero, rfl⟩)⟩
    rw [parseCpuTokens_eq_some.mpr ⟨lists, hlists, rfl⟩]
    exact ⟨_, rfl⟩

/-- **A text is treated right** unless there is a zero with a sign in it. -/
theorem cpuListCorrect_iff (s : Name) : CpuListCorrect s ↔ ¬SignedZeroList s := by
  constructor
  · rintro hcorrect ⟨hall, text, htext, hzero⟩
    obtain ⟨list, hlist⟩ := exists_parseCpuList_eq_some.mpr hall
    -- no text of the format has such an item
    have hnot : ∀ ranges, ¬CpuListText (stripLineEnd s) ranges := by
      intro ranges h
      obtain ⟨i, hi, rfl⟩ := List.getElem_of_mem htext
      have hitems := cpuListText_iff.mp h
      exact hzero.not_item (hitems.get hi (hitems.length_eq ▸ hi))
    have hnone := hcorrect.rejects hnot
    rw [parseCpuListChecked_eq, hlist] at hnone
    cases hnone
  · intro hno
    refine ⟨fun ranges h => ?_, fun hnot => ?_⟩
    · refine ⟨_, by rw [parseCpuListChecked_eq, parseCpuList_of_text h], pairwise_sortUnique,
        fun cpu => ?_⟩
      rw [mem_sortUnique, List.mem_flatten]
      constructor
      · rintro ⟨l, hl, hcpu⟩
        obtain ⟨r, hr, rfl⟩ := List.mem_map.mp hl
        exact ⟨r, hr, mem_cpusFrom.mp hcpu⟩
      · rintro ⟨r, hr, hcpu⟩
        exact ⟨_, List.mem_map_of_mem hr, mem_cpusFrom.mpr hcpu⟩
    · rw [parseCpuListChecked_eq]
      cases hlist : parseCpuList s with
      | none => rfl
      | some list =>
        have hall := exists_parseCpuList_eq_some.mp ⟨list, hlist⟩
        have hitems : ∀ text ∈ cpuListItems s, ∃ r : Nat × Nat, CpuItem text r.1 r.2 := by
          intro text htext
          rcases hall text htext with ⟨a, b, hitem⟩ | hzero
          · exact ⟨(a, b), hitem⟩
          · exact absurd ⟨hall, text, htext, hzero⟩ hno
        obtain ⟨ranges, hranges⟩ := exists_forall₂ hitems
        exact absurd (cpuListText_iff.mpr hranges) (hnot ranges)

/-! ## The round trip -/

/-- Nothing is stripped from a text without line ends and blanks. -/
private theorem stripLineEnd_eq_self {s : Name}
    (h : ∀ c ∈ s, c ≠ '\n' ∧ c ≠ '\r' ∧ c ≠ ' ') : stripLineEnd s = s := by
  unfold stripLineEnd
  have hdrop : (s.reverse.dropWhile fun c => c = '\n' || c = '\r' || c = ' ') = s.reverse := by
    cases hrev : s.reverse with
    | nil => rfl
    | cons c rest =>
      have hc := h c (List.mem_reverse.mp (hrev ▸ List.mem_cons_self))
      exact List.dropWhile_cons_of_neg (by simp [hc])
  rw [hdrop, List.reverse_reverse]

/-- What a CPU is written with. -/
private theorem isDigit_of_mem_cpu {cpu : Int} (h : 0 ≤ cpu) {c : Char} (hc : c ∈ toStdString cpu) :
    c.isDigit = true := by
  obtain ⟨n, rfl⟩ := Int.eq_ofNat_of_zero_le h
  exact isDigit_of_mem_toStdString hc

private theorem mem_intercalate {sep : Char} {texts : List Name} {c : Char}
    (h : c ∈ [sep].intercalate texts) : c = sep ∨ ∃ text ∈ texts, c ∈ text := by
  induction texts with
  | nil => cases h
  | cons text texts ih =>
    cases texts with
    | nil =>
      rw [List.intercalate_singleton] at h
      exact .inr ⟨text, List.mem_cons_self, h⟩
    | cons next rest =>
      rw [List.intercalate_cons_cons, List.mem_append, List.mem_append, List.mem_singleton] at h
      rcases h with (h | h) | h
      · exact .inr ⟨text, List.mem_cons_self, h⟩
      · exact .inl h
      · exact (ih h).imp_right fun ⟨t, ht, hc⟩ => ⟨t, List.mem_cons_of_mem _ ht, hc⟩

/-- **What is formatted is read again.** -/
theorem parseCpuList_formatCpuList {l : List Int} (hne : l ≠ []) (hsorted : l.Pairwise (· < ·))
    (hbounds : ∀ cpu ∈ l, 0 ≤ cpu ∧ cpu ≤ 8191) : parseCpuList (formatCpuList l) = some l := by
  have hdigits : ∀ text ∈ l.map toStdString, ∀ c ∈ text, c.isDigit = true := by
    intro text htext c hc
    obtain ⟨cpu, hcpu, rfl⟩ := List.mem_map.mp htext
    exact isDigit_of_mem_cpu (hbounds cpu hcpu).1 hc
  -- a formatted list ends in a digit
  have hstrip : stripLineEnd (formatCpuList l) = formatCpuList l := by
    refine stripLineEnd_eq_self fun c hc => ?_
    rcases mem_intercalate hc with rfl | ⟨text, htext, hmem⟩
    · decide
    · have hdigit := hdigits text htext c hmem
      refine ⟨?_, ?_, ?_⟩ <;> rintro rfl <;> exact absurd hdigit (by decide)
  -- and splits where it has been joined, as digits are no commas
  have hitems : cpuListItems (formatCpuList l) = l.map toStdString := by
    unfold cpuListItems
    rw [hstrip]
    refine List.splitOn_intercalate ',' (fun text htext hmem => ?_) (by simpa using hne)
    exact absurd (hdigits text htext ',' hmem) (by decide)
  -- each token is a single number
  have htokens : ∀ rest : List Int, (∀ cpu ∈ rest, 0 ≤ cpu ∧ cpu ≤ 8191) →
      parseCpuTokens (rest.map toStdString) = some rest := by
    intro rest
    induction rest with
    | nil => exact fun _ => rfl
    | cons cpu rest ih =>
      intro hrest
      obtain ⟨hlo, hhi⟩ := hrest cpu List.mem_cons_self
      have hdash : '-' ∉ toStdString cpu := fun hmem =>
        absurd (isDigit_of_mem_cpu hlo hmem) (by decide)
      have hmin : intMin ≤ 0 := by decide
      have hmax : (8191 : Int) ≤ intMax := by decide
      have hcpu : parseCpuToken (toStdString cpu) = some [cpu] := by
        have hk : kMaxCpuNumber = 8191 := rfl
        unfold parseCpuToken
        rw [if_neg hdash, toNumber_toStdString (hmin.trans hlo) (hhi.trans hmax)]
        dsimp only
        rw [if_neg (by omega)]
      rw [List.map_cons]
      unfold parseCpuTokens
      rw [hcpu, ih fun cpu h => hrest cpu (List.mem_cons_of_mem _ h)]
      rfl
  rw [parseCpuList_eq, hitems, htokens l hbounds, Option.map_some, sortUnique_eq_self hsorted]

/-! ## CPU lists -/

/-- **CPU lists**: the parser ends without an exception or an overflow, it accepts the texts of the
format with exactly their CPUs and rejects every other text, just in case the text is not a list in
which there is a range to a zero with a sign; and it reads what has been formatted. -/
theorem cpu_lists_correct_iff (s : Name) (l : List Int) :
    (∃ result, parseCpuListChecked s = .ok result) ∧ (CpuListCorrect s ↔ ¬SignedZeroList s) ∧
      (l ≠ [] → l.Pairwise (· < ·) → (∀ cpu ∈ l, 0 ≤ cpu ∧ cpu ≤ 8191) →
        parseCpuListChecked (formatCpuList l) = .ok (some l)) := by
  refine ⟨⟨_, parseCpuListChecked_eq s⟩, cpuListCorrect_iff s, fun hne hsorted hbounds => ?_⟩
  rw [parseCpuListChecked_eq, parseCpuList_formatCpuList hne hsorted hbounds]

/-- What the kernel prints and what is formatted for it. -/
theorem cpu_lists_correct_kernel :
    CpuListCorrect "0-5,8\n".toList ∧
      parseCpuListChecked (formatCpuList [2, 3]) = .ok (some [2, 3]) := by
  obtain ⟨-, hcorrect, hformat⟩ := cpu_lists_correct_iff "0-5,8\n".toList [2, 3]
  refine ⟨hcorrect.mpr ?_, hformat (by decide) (by decide) (by decide)⟩
  rintro ⟨-, text, htext, first, last, rfl, -⟩
  -- no item has two dashes in a row
  have hdashes : ['-', '-'] <:+: first ++ '-' :: '-' :: last := ⟨first, last, by simp⟩
  have hitems : ∀ text ∈ cpuListItems "0-5,8\n".toList, ¬['-', '-'] <:+: text := by decide
  exact hitems _ htext hdashes

/-- `0--0` is accepted, as the list of CPU 0. -/
theorem signed_zero_accepted :
    parseCpuListChecked "0--0".toList = .ok (some [0]) ∧ ¬CpuListCorrect "0--0".toList := by
  refine ⟨by rw [parseCpuListChecked_eq]; decide, ?_⟩
  rw [cpuListCorrect_iff, not_not]
  have hzero : SignedZeroRange "0--0".toList :=
    ⟨['0'], ['0'], rfl, digitsValue_eq_some.mp rfl, digitsValue_eq_some.mp rfl⟩
  have hitems : cpuListItems "0--0".toList = ["0--0".toList] := rfl
  unfold SignedZeroList
  rw [hitems]
  exact ⟨fun text htext => .inr (List.mem_singleton.mp htext ▸ hzero), _, List.mem_singleton_self _,
    hzero⟩

end Agnocast
