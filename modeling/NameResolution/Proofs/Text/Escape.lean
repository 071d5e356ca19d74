import Mathlib.Algebra.Group.Nat.Defs
import Mathlib.Data.List.Basic
import NameResolution.Text.Escape

/-!
# Hexadecimal escapes — reading their digits again

A number in a fixed number of hexadecimal digits is read off them again, if it fits into them.

* `hexValue` — the number that some digits write.
* `hexDigits_length`, `hexValue_hexDigits` — the digits of a number, read again.
-/

namespace NameResolution.Text

/-- The value of a hexadecimal digit in lower case. -/
def hexDigitValue (c : Char) : Nat :=
  if c.isDigit then c.toNat - '0'.toNat else c.toNat - 'a'.toNat + 10

/-- The number that hexadecimal digits write, the first being the most significant. -/
def hexValue (digits : List Char) : Nat :=
  digits.foldl (fun value c => 16 * value + hexDigitValue c) 0

/-- A written hexadecimal digit has its value. -/
theorem hexDigitValue_digitChar {d : Nat} (h : d < 16) : hexDigitValue d.digitChar = d := by
  have hAll : ∀ d < 16, hexDigitValue d.digitChar = d := by decide
  exact hAll d h

/-- One digit more multiplies the value by sixteen. -/
theorem hexValue_append (digits : List Char) (c : Char) :
    hexValue (digits ++ [c]) = 16 * hexValue digits + hexDigitValue c := by
  simp [hexValue]

/-- Zeros in front of a number do not change it. -/
theorem hexValue_zeros (n : Nat) (digits : List Char) :
    hexValue (List.replicate n '0' ++ digits) = hexValue digits := by
  induction n with
  | zero => rfl
  | succ n ih =>
    rw [← ih, List.replicate_succ, List.cons_append]
    rfl

/-- Writing a number in base sixteen and reading it gives the number. -/
theorem hexValue_toDigits (n : Nat) : hexValue (Nat.toDigits 16 n) = n := by
  induction n using Nat.strongRecOn with
  | ind n ih =>
    rw [Nat.toDigits_eq_if (by decide)]
    split
    · rename_i hLess
      simp [hexValue, hexDigitValue_digitChar hLess]
    · -- the last digit is the remainder, and the others write the quotient
      have hLess : n / 16 < n := by omega
      rw [hexValue_append, ih (n / 16) hLess, hexDigitValue_digitChar (Nat.mod_lt n (by decide))]
      omega

/-- Zeros in front of a number do not change its value. -/
theorem hexValue_hexDigits (width n : Nat) : hexValue (hexDigits width n) = n := by
  rw [hexDigits, hexValue_zeros, hexValue_toDigits]

/-- A number that fits is written with exactly that many digits. -/
theorem hexDigits_length {width n : Nat} (hWidth : 0 < width) (h : n < 16 ^ width) :
    (hexDigits width n).length = width := by
  have hShort := (Nat.length_toDigits_le_iff (by decide) hWidth).mpr h
  rw [hexDigits, List.length_append, List.length_replicate]
  omega

end NameResolution.Text
