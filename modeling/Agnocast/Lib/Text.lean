import Mathlib.Data.List.Basic

/-!
# Text in bytes

UTF-8 as it is written, and as a lenient reader decodes it: what is no character becomes a
replacement character. And the lines of a text.

* `decode_encode_append` — what was written is read back, whatever comes behind it.
* `newline_mem_decode`   — a newline is only read where its byte is.
* `splitLines_line`      — a line without line breaks is split off.
* `splitLines_tail`      — without a newline no piece ends with one.
-/

namespace Text

/-! ## UTF-8 -/

/-- UTF-8. -/
def encode (s : List Char) : List UInt8 := s.flatMap String.utf8EncodeChar

/-- How many bytes have to follow a first byte. -/
def following (b : UInt8) : Nat :=
  if 0xC2 ≤ b ∧ b ≤ 0xDF then 1
  else if 0xE0 ≤ b ∧ b ≤ 0xEF then 2
  else if 0xF0 ≤ b ∧ b ≤ 0xF4 then 3
  else 0

/-- The bytes that may come second; later ones are in the range of the last case. -/
def mayFollow (b c : UInt8) : Bool :=
  if b = 0xE0 then 0xA0 ≤ c ∧ c ≤ 0xBF
  else if b = 0xED then 0x80 ≤ c ∧ c ≤ 0x9F
  else if b = 0xF0 then 0x90 ≤ c ∧ c ≤ 0xBF
  else if b = 0xF4 then 0x80 ≤ c ∧ c ≤ 0x8F
  else 0x80 ≤ c ∧ c ≤ 0xBF

/-- How many bytes one replacement character stands for: a first byte and what could have been the
rest of its character. -/
def brokenLength : List UInt8 → Nat
  | b :: c :: rest =>
    if following b = 0 ∨ !mayFollow b c then 1
    else 2 + ((rest.take (following b - 1)).takeWhile fun d => 0x80 ≤ d ∧ d ≤ 0xBF).length
  | _ => 1

/-- The loop of the decoder, over at most so many characters. -/
def decodeLoop : Nat → List UInt8 → List Char
  | 0, _ => []
  | _ + 1, [] => []
  | fuel + 1, b :: bs =>
    match (b :: bs).toByteArray.utf8DecodeChar? 0 with
    | some c => c :: decodeLoop fuel ((b :: bs).drop c.utf8Size)
    | none => '\uFFFD' :: decodeLoop fuel ((b :: bs).drop (brokenLength (b :: bs)))

/-- Decoding that replaces what is no character. -/
def decode (bs : List UInt8) : List Char := decodeLoop bs.length bs

theorem encode_append (s s' : List Char) : encode (s ++ s') = encode s ++ encode s' :=
  List.flatMap_append

theorem brokenLength_pos (bs : List UInt8) : 0 < brokenLength bs := by
  unfold brokenLength
  split
  · split <;> omega
  · exact Nat.one_pos

/-- More fuel than bytes changes nothing. -/
theorem decodeLoop_eq {fuel : Nat} {bs : List UInt8} (h : bs.length ≤ fuel) :
    decodeLoop fuel bs = decode bs := by
  unfold decode
  induction fuel using Nat.strongRecOn generalizing bs with
  | ind fuel ih =>
    cases bs with
    | nil => cases fuel <;> rfl
    | cons b bs =>
      obtain ⟨fuel, rfl⟩ := Nat.exists_eq_succ_of_ne_zero (Nat.ne_of_gt (Nat.lt_of_lt_of_le
        (Nat.zero_lt_succ _) h))
      have hlen (n : Nat) (hn : 0 < n) : ((b :: bs).drop n).length ≤ bs.length := by
        rw [List.length_drop, List.length_cons]
        omega
      have hfuel : bs.length ≤ fuel := Nat.le_of_succ_le_succ h
      -- both loops go on behind the same bytes
      have hgo (n : Nat) (hn : 0 < n) :
          decodeLoop fuel ((b :: bs).drop n) = decodeLoop bs.length ((b :: bs).drop n) := by
        rcases Nat.lt_or_eq_of_le hfuel with hlt | heq
        · rw [ih fuel (Nat.lt_succ_self _) (Nat.le_trans (hlen n hn) hfuel),
            ih bs.length (Nat.lt_succ_of_lt hlt) (hlen n hn)]
        · rw [heq]
      rw [List.length_cons]
      unfold decodeLoop
      split
      · next c _ => rw [hgo _ c.utf8Size_pos]
      · rw [hgo _ (brokenLength_pos _)]

private theorem toByteArray_append (l l' : List UInt8) :
    (l ++ l').toByteArray = l.toByteArray ++ l'.toByteArray := by
  simp

/-- **A character that was written** is read back. -/
theorem decode_char_append (c : Char) (bs : List UInt8) :
    decode (String.utf8EncodeChar c ++ bs) = c :: decode bs := by
  have hlen : (String.utf8EncodeChar c).length = c.utf8Size := String.length_utf8EncodeChar c
  have hpos := c.utf8Size_pos
  have hread : (String.utf8EncodeChar c ++ bs).toByteArray.utf8DecodeChar? 0 = some c := by
    rw [toByteArray_append]
    exact ByteArray.utf8DecodeChar?_utf8EncodeChar_append
  have hdrop : (String.utf8EncodeChar c ++ bs).drop c.utf8Size = bs := by
    rw [← hlen]
    exact List.drop_left
  have htotal : (String.utf8EncodeChar c ++ bs).length = c.utf8Size + bs.length := by
    rw [List.length_append, hlen]
  generalize String.utf8EncodeChar c ++ bs = all at hread hdrop htotal
  cases all with
  | nil =>
    rw [List.length_nil] at htotal
    omega
  | cons b all =>
    rw [List.length_cons] at htotal
    show decodeLoop (all.length + 1) (b :: all) = _
    unfold decodeLoop
    rw [hread]
    dsimp only
    rw [hdrop, decodeLoop_eq (by omega)]

/-- **What was written is read back**, whatever comes behind it. -/
theorem decode_encode_append (s : List Char) (bs : List UInt8) :
    decode (encode s ++ bs) = s ++ decode bs := by
  induction s with
  | nil => rfl
  | cons c s ih =>
    show decode ((String.utf8EncodeChar c ++ encode s) ++ bs) = _
    rw [List.append_assoc, decode_char_append, ih, List.cons_append]

/-- The bytes of a longer encoding are no ASCII characters. -/
private theorem byte_ne_newline {n high : Nat} (hlow : 0x80 ≤ high) (hhigh : n + high < 0x100) :
    (0x0A : UInt8) ≠ UInt8.ofNat (n + high) := by
  intro h
  have hnat := congrArg UInt8.toNat h
  rw [UInt8.toNat_ofNat', Nat.mod_eq_of_lt hhigh] at hnat
  change 10 = n + high at hnat
  omega

/-- The byte of a newline is in the encoding of no other character. -/
theorem newline_mem_utf8EncodeChar {c : Char} : 0x0A ∈ String.utf8EncodeChar c ↔ c = '\n' := by
  constructor
  · intro h
    unfold String.utf8EncodeChar at h
    dsimp only at h
    split at h
    · next hle =>
      have hnat := congrArg UInt8.toNat (List.mem_singleton.mp h)
      rw [UInt8.toNat_ofNat', Nat.mod_eq_of_lt (by omega)] at hnat
      change 10 = c.val.toNat at hnat
      exact Char.ext (UInt32.toNat_inj.mp hnat.symm)
    split at h
    · simp only [List.mem_cons, List.not_mem_nil, or_false] at h
      rcases h with h | h <;> exact absurd h (byte_ne_newline (by omega) (by omega))
    split at h
    · simp only [List.mem_cons, List.not_mem_nil, or_false] at h
      rcases h with h | h | h <;> exact absurd h (byte_ne_newline (by omega) (by omega))
    · simp only [List.mem_cons, List.not_mem_nil, or_false] at h
      rcases h with h | h | h | h <;> exact absurd h (byte_ne_newline (by omega) (by omega))
  · rintro rfl
    decide

theorem newline_mem_encode {s : List Char} : 0x0A ∈ encode s ↔ '\n' ∈ s := by
  unfold encode
  simp only [List.mem_flatMap, newline_mem_utf8EncodeChar]
  exact ⟨fun ⟨c, hc, heq⟩ => heq ▸ hc, fun h => ⟨_, h, rfl⟩⟩

/-- **A newline is only read** where its byte is. -/
theorem newline_mem_decode {bs : List UInt8} (h : '\n' ∈ decode bs) : 0x0A ∈ bs := by
  unfold decode at h
  generalize bs.length = fuel at h
  induction fuel generalizing bs with
  | zero => cases h
  | succ fuel ih =>
    cases bs with
    | nil => cases h
    | cons b bs =>
      unfold decodeLoop at h
      split at h
      · next c hread =>
        rcases List.mem_cons.mp h with rfl | h
        · -- the bytes begin with the encoding of the newline
          obtain ⟨rest, hrest⟩ := ByteArray.exists_of_utf8DecodeChar?_eq_some hread
          have hbytes := congrArg (fun b : ByteArray => b.data.toList) hrest
          rw [ByteArray.data_append, List.data_toByteArray, List.data_toByteArray,
            Array.toList_append] at hbytes
          change b :: bs = [0x0A] ++ rest.data.toList at hbytes
          rw [hbytes]
          exact List.mem_cons_self
        · exact List.mem_of_mem_drop (ih h)
      · rcases List.mem_cons.mp h with heq | h
        · exact absurd heq (by decide)
        · exact List.mem_of_mem_drop (ih h)

/-! ## Lines -/

/-- The characters at which a line ends. -/
def isLineBreak (c : Char) : Bool :=
  c ∈ ['\n', '\r', '\x0b', '\x0c', '\x1c', '\x1d', '\x1e', '\u0085', '\u2028', '\u2029']

/-- The pieces of a text, behind the beginning of a line. -/
def splitLinesLoop : List Char → List Char → List (List Char)
  | [], [] => []
  | line, [] => [line]
  | line, '\r' :: '\n' :: rest => (line ++ ['\r', '\n']) :: splitLinesLoop [] rest
  | line, c :: rest =>
    if isLineBreak c then (line ++ [c]) :: splitLinesLoop [] rest
    else splitLinesLoop (line ++ [c]) rest

/-- The lines of a text, each with what ends it. -/
def splitLines (s : List Char) : List (List Char) := splitLinesLoop [] s

private theorem splitLinesLoop_of_not_break {c : Char} (h : isLineBreak c = false)
    (line rest : List Char) : splitLinesLoop line (c :: rest) = splitLinesLoop (line ++ [c]) rest := by
  conv_lhs => unfold splitLinesLoop
  split
  · next heq => cases heq
  · next heq => cases heq
  · next heq =>
    obtain ⟨rfl, -⟩ := List.cons.inj heq
    cases h
  · next heq =>
    obtain ⟨rfl, rfl⟩ := List.cons.inj heq
    rw [if_neg (by rw [h]; decide)]

/-- **A line without line breaks** is split off. -/
theorem splitLines_line {l : List Char} (h : ∀ c ∈ l, isLineBreak c = false) (rest : List Char) :
    splitLines (l ++ '\n' :: rest) = (l ++ ['\n']) :: splitLines rest := by
  have hloop : ∀ line, splitLinesLoop line (l ++ '\n' :: rest) =
      (line ++ l ++ ['\n']) :: splitLinesLoop [] rest := by
    induction l with
    | nil =>
      intro line
      rw [List.append_nil, List.nil_append]
      cases line <;> rfl
    | cons c l ih =>
      intro line
      rw [List.cons_append, splitLinesLoop_of_not_break (h c List.mem_cons_self),
        ih (fun c hc => h c (List.mem_cons_of_mem _ hc)), List.append_assoc line [c] l]
      rfl
  exact hloop []

/-- **Without a newline** no piece contains one. -/
theorem splitLines_tail {s : List Char} (h : '\n' ∉ s) : ∀ line ∈ splitLines s, '\n' ∉ line := by
  have hloop : ∀ line, '\n' ∉ line → ∀ piece ∈ splitLinesLoop line s, '\n' ∉ piece := by
    induction s with
    | nil =>
      intro line hline piece hpiece
      cases line with
      | nil => cases hpiece
      | cons c line => exact List.mem_singleton.mp hpiece ▸ hline
    | cons c s ih =>
      intro line hline
      have hc : '\n' ≠ c := fun heq => h (heq ▸ List.mem_cons_self)
      have hs : '\n' ∉ s := fun hmem => h (List.mem_cons_of_mem _ hmem)
      have hlonger : '\n' ∉ line ++ [c] := by
        rw [List.mem_append, List.mem_singleton, not_or]
        exact ⟨hline, hc⟩
      unfold splitLinesLoop
      split
      · next heq => cases heq
      · next heq => cases heq
      · next heq =>
        obtain ⟨-, rfl⟩ := List.cons.inj heq
        exact absurd List.mem_cons_self hs
      · next heq =>
        obtain ⟨rfl, rfl⟩ := List.cons.inj heq
        split
        · intro piece hpiece
          rcases List.mem_cons.mp hpiece with rfl | hpiece
          · exact hlonger
          · exact ih hs [] List.not_mem_nil piece hpiece
        · exact ih hs _ hlonger
  exact hloop [] List.not_mem_nil

end Text
