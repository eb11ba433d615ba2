import Mathlib.Data.List.DropRight
import Mathlib.Data.Nat.Digits.Defs

/-!
# Text as Python reads it

`str.strip`, `str.lower` on letters of ASCII, and `int` of a string. Digits other than those
of ASCII, which `int` takes as well, are left out.
-/

namespace PyText

/-- `str.isspace` of one character. -/
def isSpace (c : Char) : Bool :=
  (0x09 ≤ c.toNat && c.toNat ≤ 0x0D) || (0x1C ≤ c.toNat && c.toNat ≤ 0x20) || c.toNat = 0x85 ||
    c.toNat = 0xA0 || c.toNat = 0x1680 || (0x2000 ≤ c.toNat && c.toNat ≤ 0x200A) ||
    c.toNat = 0x2028 || c.toNat = 0x2029 || c.toNat = 0x202F || c.toNat = 0x205F ||
    c.toNat = 0x3000

/-- `str.strip`. -/
def strip (s : List Char) : List Char := (s.dropWhile isSpace).rdropWhile isSpace

/-- `str.lower`. -/
def lower (s : List Char) : List Char := s.map Char.toLower

/-- Digits with single underscores between them. `afterDigit` tells whether the last
character was a digit. -/
def digitsLoop : List Char → Bool → Nat → Option Nat
  | [], afterDigit, n => if afterDigit then some n else none
  | c :: cs, afterDigit, n =>
    if c = '_' then if afterDigit then digitsLoop cs false n else none
    else if c.isDigit then digitsLoop cs true (10 * n + (c.toNat - '0'.toNat))
    else none

/-- `int(s)`; `none` is a `ValueError`. -/
def pyInt (s : List Char) : Option Int :=
  match strip s with
  | '+' :: digits => (digitsLoop digits false 0).map Int.ofNat
  | '-' :: digits => (digitsLoop digits false 0).map fun n => -(n : Int)
  | digits => (digitsLoop digits false 0).map Int.ofNat

end PyText
