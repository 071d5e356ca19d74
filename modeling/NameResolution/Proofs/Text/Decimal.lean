import Mathlib.Algebra.Group.Nat.Defs
import Mathlib.Data.List.Basic
import Mathlib.Data.List.Induction
import NameResolution.Proofs.Text.Classes

/-!
# Decimal numbers — the usual writing of a number has its value

Whatever the scripts of its digits, a number is written again in the digits of ASCII. That takes no
more digits than it had.

* `decimalValue_lt` — the value of some digits is bounded by their number.
* `decimalValue_toDigits` — the digits that a number is written in have its value.
-/

namespace NameResolution.Text

/-- A digit is less than ten away from the zero of its script. -/
theorem offsetIn_lt {n value : Nat} {firsts : List Nat} (h : offsetIn n firsts = some value) :
    value < 10 := by
  induction firsts with
  | nil => cases h
  | cons first rest ih =>
    rw [offsetIn] at h
    split at h
    · cases h
    · split at h
      · cases h
        omega
      · exact ih h

/-- A digit has a value below ten. -/
theorem digitValue_lt (c : Char) : (digitValue? c).getD 0 < 10 := by
  cases h : digitValue? c with
  | none => decide
  | some value => exact offsetIn_lt h

/-- One digit more multiplies the value by ten. -/
theorem decimalValue_append (digits : List Char) (c : Char) :
    decimalValue (digits ++ [c]) = 10 * decimalValue digits + (digitValue? c).getD 0 := by
  rw [decimalValue, List.foldl_append]
  rfl

/-- A number has no more digits than its value needs. -/
theorem decimalValue_lt (digits : List Char) : decimalValue digits < 10 ^ digits.length := by
  induction digits using List.reverseRecOn with
  | nil => decide
  | append_singleton digits c ih =>
    have hDigit := digitValue_lt c
    rw [decimalValue_append, List.length_append, List.length_singleton, Nat.pow_succ]
    omega

/-- On the digits of ASCII, the value is the usual one. -/
theorem decimalValue_ascii {digits : List Char} (h : ∀ c ∈ digits, c.isDigit = true) :
    decimalValue digits = Nat.ofDigitChars 10 digits 0 := by
  rw [decimalValue, Nat.ofDigitChars]
  -- both are folds, and one step of them is the same on an ASCII digit
  refine List.foldl_ext _ _ 0 fun value c hc => ?_
  obtain ⟨hLow, hHigh⟩ := Char.isDigit_iff_toNat.mp (h c hc)
  rw [isDecimalDigit_ascii hLow hHigh]
  rfl

theorem toDigits_isDigit (n : Nat) : ∀ c ∈ Nat.toDigits 10 n, c.isDigit = true :=
  fun _ hc => Nat.isDigit_of_mem_toDigits (by decide) (by decide) hc

/-- Writing a number and reading it gives the number. -/
theorem decimalValue_toDigits (n : Nat) : decimalValue (Nat.toDigits 10 n) = n := by
  rw [decimalValue_ascii (toDigits_isDigit n), Nat.ofDigitChars_ten_toDigits]

/-- The digits of a written number are decimal digits. -/
theorem toDigits_decimal (n : Nat) : ∀ c ∈ Nat.toDigits 10 n, isDecimalDigit c = true := by
  intro c hc
  obtain ⟨hLow, hHigh⟩ := Char.isDigit_iff_toNat.mp (toDigits_isDigit n c hc)
  rw [isDecimalDigit, isDecimalDigit_ascii hLow hHigh]
  rfl

/-- The digits of ASCII are not more than those that the number was read from. -/
theorem toDigits_length {digits : List Char} {bound : Nat} (hBound : 0 < bound)
    (h : digits.length ≤ bound) : (Nat.toDigits 10 (decimalValue digits)).length ≤ bound := by
  refine (Nat.length_toDigits_le_iff (by decide) hBound).mpr ?_
  calc decimalValue digits < 10 ^ digits.length := decimalValue_lt digits
    _ ≤ 10 ^ bound := Nat.pow_le_pow_right (by decide) h

end NameResolution.Text
