import NameResolution.Grammar.Lexeme

/-!
# Character classes — which characters can stand in which words

Names are made of ASCII letters, ASCII digits and underscores, numbers of the digits of all scripts.
No character of a word or a number is a blank.
-/

namespace NameResolution

open Text Grammar

/-! ## Code points of the classes -/

/-- The characters a name can start with, by their codes. -/
theorem isNameStart_iff (c : Char) : isNameStart c = true ↔
    (65 ≤ c.toNat ∧ c.toNat ≤ 90) ∨ (97 ≤ c.toNat ∧ c.toNat ≤ 122) ∨ c.toNat = 95 := by
  have hUnderscore : c = '_' ↔ c.toNat = 95 := Char.toNat_inj.symm
  have hUpper : c.isUpper = true ↔ c.val ≥ 'A'.val ∧ c.val ≤ 'Z'.val := decide_eq_true_iff
  have hLower : c.isLower = true ↔ c.val ≥ 'a'.val ∧ c.val ≤ 'z'.val := by
    rw [← decide_eq_true_iff (p := c.val ≥ 'a'.val), ← decide_eq_true_iff (p := c.val ≤ 'z'.val)]
    exact Bool.and_eq_true_iff
  have hAlpha : c.isAlpha = true ↔ c.isUpper = true ∨ c.isLower = true := Bool.or_eq_true_iff
  rw [isNameStart, Bool.or_eq_true, beq_iff_eq, hUnderscore, hAlpha, hUpper, hLower]
  simp only [ge_iff_le, UInt32.le_iff_toNat_le, Char.toNat_val, or_assoc]
  rfl

/-- The characters of a name, by their codes. -/
theorem isNameChar_iff (c : Char) : isNameChar c = true ↔
    isNameStart c = true ∨ (48 ≤ c.toNat ∧ c.toNat ≤ 57) := by
  have hDigit : c.isDigit = true ↔ 48 ≤ c.toNat ∧ c.toNat ≤ 57 := Char.isDigit_iff_toNat
  rw [isNameChar, isNameStart, Char.isAlphanum, Bool.or_eq_true, Bool.or_eq_true,
    Bool.or_eq_true, hDigit]
  exact or_right_comm

/-- The ASCII digits come first among the decimal digits. -/
theorem isDecimalDigit_code {c : Char} (h : isDecimalDigit c = true) :
    (48 ≤ c.toNat ∧ c.toNat ≤ 57) ∨ 0x660 ≤ c.toNat := by
  rw [isDecimalDigit, digitValue?, zeroDigits, offsetIn] at h
  split at h
  · cases h
  · split at h
    · omega
    · rw [offsetIn] at h
      split at h
      · cases h
      · omega

/-- The ten usual digits have the value one expects. -/
theorem isDecimalDigit_ascii {c : Char} (hLow : 48 ≤ c.toNat) (hHigh : c.toNat ≤ 57) :
    digitValue? c = some (c.toNat - 48) := by
  rw [digitValue?, zeroDigits, offsetIn, if_neg (by omega), if_pos (by omega)]

/-- The code points of the blanks that are in no ASCII range. -/
def wideBlanks : List Nat :=
  [0x85, 0xa0, 0x1680, 0x2000, 0x2001, 0x2002, 0x2003, 0x2004, 0x2005, 0x2006, 0x2007, 0x2008,
    0x2009, 0x200a, 0x2028, 0x2029, 0x202f, 0x205f, 0x3000]

/-- A blank is a control character, a space or one of the wide blanks. -/
theorem isBlank_code {c : Char} (h : isBlank c = true) : c.toNat ≤ 32 ∨ c.toNat ∈ wideBlanks := by
  have hCode : ∀ d : Char, c = d ↔ c.toNat = d.toNat := fun d => Char.toNat_inj.symm
  simp only [isBlank, Bool.or_eq_true, Bool.and_eq_true, decide_eq_true_eq, Char.le_def,
    UInt32.le_iff_toNat_le, Char.toNat_val, hCode, Char.reduceToNat] at h
  simp only [wideBlanks, List.mem_cons, List.not_mem_nil, or_false]
  omega

/-! ## Words and numbers apart from each other and from blanks -/

/-- Whether a character can start a token. -/
def startsToken (c : Char) : Bool :=
  c != '#' && !isBlank c

/-- A code above that of the number sign that is no wide blank starts a token. -/
theorem startsToken_of_code {c : Char} (hRange : 35 < c.toNat) (hBlank : c.toNat ∉ wideBlanks) :
    startsToken c = true := by
  rw [startsToken, Bool.and_eq_true, bne_iff_ne, Bool.not_eq_true', ← Bool.not_eq_true]
  constructor
  · rintro rfl
    exact absurd hRange (by decide)
  · intro h
    -- the blanks of ASCII are below the range, the others are listed
    rcases isBlank_code h with hLow | hWide
    · omega
    · exact hBlank hWide

/-- A name does not start with a digit. -/
theorem not_digit_of_nameStart {c : Char} (h : isNameStart c = true) :
    isDecimalDigit c = false := by
  rw [isNameStart_iff] at h
  rw [← Bool.not_eq_true]
  intro hDigit
  have := isDecimalDigit_code hDigit
  omega

/-- The characters of a name can start a token. -/
theorem nameChar_startsToken {c : Char} (h : isNameChar c = true) : startsToken c = true := by
  rw [isNameChar_iff, isNameStart_iff] at h
  refine startsToken_of_code (by omega) ?_
  simp only [wideBlanks, List.mem_cons, List.not_mem_nil, or_false]
  omega

/-- Digits of any script can start a token. -/
theorem digit_startsToken {c : Char} (h : isDecimalDigit c = true) : startsToken c = true := by
  have hCode := isDecimalDigit_code h
  refine startsToken_of_code (by omega) ?_
  intro hWide
  -- no blank is within ten places of a zero
  have hNoDigit : ∀ n ∈ wideBlanks, offsetIn n zeroDigits = none := by decide
  rw [isDecimalDigit, digitValue?, hNoDigit c.toNat hWide] at h
  cases h

/-- Letters and numbers of any script can start a token. -/
theorem alphanumeric_startsToken {c : Char} (h : isAlphanumeric c = true) :
    startsToken c = true := by
  refine startsToken_of_code ?_ ?_
  · -- the table starts with the digits of ASCII
    rw [isAlphanumeric, alphanumericRanges, inRanges, Bool.and_eq_true, decide_eq_true_eq] at h
    omega
  · intro hWide
    have hNoLetter : ∀ n ∈ wideBlanks, inRanges n alphanumericRanges = false := by decide +kernel
    rw [isAlphanumeric, hNoLetter c.toNat hWide] at h
    cases h

/-- The ASCII letters and digits come first in the table of letters and numbers. -/
theorem inRanges_ascii (n : Nat) (ranges : List (Nat × Nat))
    (h : (48 ≤ n ∧ n ≤ 57) ∨ (65 ≤ n ∧ n ≤ 90) ∨ (97 ≤ n ∧ n ≤ 122)) :
    inRanges n ((0x30, 0x39) :: (0x41, 0x5a) :: (0x61, 0x7a) :: ranges) = true := by
  simp only [inRanges, Bool.and_eq_true, Bool.or_eq_true, decide_eq_true_eq]
  omega

/-- A character of a name is a letter or a digit, or it is the underscore, which is neither. -/
theorem nameChar_alphanumeric {c : Char} (h : isNameChar c = true) :
    isAlphanumeric c = true ∨ c = '_' := by
  rw [isNameChar_iff, isNameStart_iff] at h
  have hUnderscore : c = '_' ↔ c.toNat = 95 := Char.toNat_inj.symm
  by_cases hCode : c.toNat = 95
  · exact .inr (hUnderscore.mpr hCode)
  · exact .inl (inRanges_ascii c.toNat _ (by omega))

/-- The underscore is no letter and no number, though names may hold it. -/
theorem underscore_not_alphanumeric : isAlphanumeric '_' = false := by
  decide

end NameResolution
