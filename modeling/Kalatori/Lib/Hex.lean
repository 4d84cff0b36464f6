import Mathlib.Data.List.Basic
import Mathlib.Tactic.Common
import Mathlib.Tactic.IntervalCases

/-!
# Hexadecimal strings

Two digits for a byte, the high half first.  Encoding writes small letters;
decoding takes either.

* `encode`, `decode`, `decode_encode`: strings of digits.
-/

namespace Hex

/-- One of the sixteen digits. -/
def digit (n : ℕ) : Char := "0123456789abcdef".toList.getD n '0'

/-- What a digit stands for. -/
def value (c : Char) : Option ℕ :=
  if '0' ≤ c ∧ c ≤ '9' then some (c.toNat - '0'.toNat)
  else if 'a' ≤ c ∧ c ≤ 'f' then some (c.toNat - 'a'.toNat + 10)
  else if 'A' ≤ c ∧ c ≤ 'F' then some (c.toNat - 'A'.toNat + 10)
  else none

def byteDigits (b : UInt8) : List Char := [digit (b.toNat / 16), digit (b.toNat % 16)]

def encode (bytes : List UInt8) : String := String.ofList (bytes.flatMap byteDigits)

def decodeDigits : List Char → Option (List UInt8)
  | [] => some []
  | [_] => none
  | c :: c' :: digits =>
    match value c, value c', decodeDigits digits with
    | some high, some low, some bytes => some (UInt8.ofNat (16 * high + low) :: bytes)
    | _, _, _ => none

def decode (s : String) : Option (List UInt8) := decodeDigits s.toList

theorem value_digit {n : ℕ} (h : n < 16) : value (digit n) = some n := by
  interval_cases n <;> rfl

theorem decodeDigits_byteDigits (bytes : List UInt8) :
    decodeDigits (bytes.flatMap byteDigits) = some bytes := by
  induction bytes with
  | nil => rfl
  | cons b bytes ih =>
    have hb : b.toNat < 256 := b.toNat_lt
    have hhigh : value (digit (b.toNat / 16)) = some (b.toNat / 16) := value_digit (by omega)
    have hlow : value (digit (b.toNat % 16)) = some (b.toNat % 16) := value_digit (by omega)
    have hbyte : UInt8.ofNat (16 * (b.toNat / 16) + b.toNat % 16) = b := by
      rw [Nat.div_add_mod]
      exact UInt8.ofNat_toNat
    rw [List.flatMap_cons, byteDigits, List.cons_append, List.cons_append, List.nil_append,
      decodeDigits, hhigh, hlow, ih]
    simp only [hbyte]

theorem decode_encode (bytes : List UInt8) : decode (encode bytes) = some bytes := by
  rw [decode, encode, String.toList_ofList, decodeDigits_byteDigits]

end Hex
