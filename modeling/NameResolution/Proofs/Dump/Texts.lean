import NameResolution.Dump.Value
import NameResolution.Proofs.Text.Escape

/-!
# Texts in dumps — reading a string again

Each character of a string is one character, or an escape that tells which one it is. No escape
starts another one, and none starts with a quote, so a string ends at the first quote behind it that
no backslash stands in front of.

* `unescape`, `unescape_escapeChar` — the first character of an escaped text, read again.
* `printText_append_inj` — a printed string shows the string, and where it ends.
-/

namespace NameResolution.Dump

open Text

/-! ## Escapes -/

/-- The number in the first four hexadecimal digits of a text. -/
def unitAt (text : List Char) : Nat := hexValue (text.take 4)

/-- What a letter behind a backslash stands for. -/
def shortEscapes : List (Char × Char) :=
  [('n', '\n'), ('r', '\r'), ('t', '\t'), ('b', '\x08'), ('f', '\x0c')]

/-- The first character of an escaped text, and the text behind it. A unit from the first half of
the surrogates goes with the escape behind it. -/
def unescape : List Char → Option (Char × List Char)
  | '\\' :: 'u' :: text =>
    let unit := unitAt text
    if 0xd800 ≤ unit ∧ unit < 0xdc00 then
      let low := unitAt (text.drop 6)
      some (Char.ofNat (0x10000 + (unit - 0xd800) * 0x400 + (low - 0xdc00)), text.drop 10)
    else some (Char.ofNat unit, text.drop 4)
  | '\\' :: c :: text => some ((shortEscapes.lookup c).getD c, text)
  | c :: text => some (c, text)
  | [] => none

/-- Four digits in base 16 are read back as the number that they were written for. -/
theorem unitAt_hexDigits {n : Nat} (h : n < 0x10000) (rest : List Char) :
    unitAt (hexDigits 4 n ++ rest) = n := by
  have hLength : (hexDigits 4 n).length = 4 := hexDigits_length (by decide) h
  rw [unitAt, List.take_left' hLength, hexValue_hexDigits]

/-- Behind the four digits, the rest of the text is left. -/
theorem drop_hexDigits {n : Nat} (h : n < 0x10000) (rest : List Char) :
    (hexDigits 4 n ++ rest).drop 4 = rest :=
  List.drop_left' (hexDigits_length (by decide) h)

/-- No character is a surrogate, and none lies beyond the last plane. -/
theorem toNat_valid (c : Char) :
    c.toNat < 0xd800 ∨ 0xdfff < c.toNat ∧ c.toNat < 0x110000 :=
  c.valid

/-- An escape of one unit is read again, as no character is a surrogate. -/
theorem unescape_unit {c : Char} (h : c.toNat < 0x10000) (rest : List Char) :
    unescape (escapeUnit c.toNat ++ rest) = some (c, rest) := by
  have hValid : ¬ (0xd800 ≤ c.toNat ∧ c.toNat < 0xdc00) := by
    have := toNat_valid c
    omega
  rw [escapeUnit, List.cons_append, List.cons_append, unescape]
  simp only [unitAt_hexDigits h, drop_hexDigits h, if_neg hValid, Char.ofNat_toNat]

/-- Two escapes of surrogates are read as one character. -/
theorem unescape_pair {high low : Nat} (hHigh : 0xd800 ≤ high ∧ high < 0xdc00)
    (hLow : low < 0x10000) (rest : List Char) :
    unescape (escapeUnit high ++ escapeUnit low ++ rest) =
      some (Char.ofNat (0x10000 + (high - 0xd800) * 0x400 + (low - 0xdc00)), rest) := by
  have hFirst : high < 0x10000 := by omega
  -- the second escape stands behind the four digits of the first one and its own two marks
  have hBehind : (hexDigits 4 high ++ '\\' :: 'u' :: (hexDigits 4 low ++ rest)).drop 6 =
      hexDigits 4 low ++ rest := by
    rw [← List.drop_drop (i := 2) (j := 4), drop_hexDigits hFirst]
    rfl
  have hEnd : (hexDigits 4 high ++ '\\' :: 'u' :: (hexDigits 4 low ++ rest)).drop 10 = rest := by
    rw [← List.drop_drop (i := 4) (j := 6), hBehind, drop_hexDigits hLow]
  simp only [escapeUnit, List.cons_append, List.append_assoc, unescape]
  rw [unitAt_hexDigits hFirst, if_pos hHigh, hBehind, unitAt_hexDigits hLow, hEnd]

/-- The characters with one letter behind the backslash of their escape. -/
def marked : List Char := ['"', '\\', '\n', '\r', '\t', '\x08', '\x0c']

/-- A character with an escape of its own is read back. -/
theorem unescape_marked {c : Char} (h : c ∈ marked) (rest : List Char) :
    unescape (escapeChar c ++ rest) = some (c, rest) := by
  simp only [marked, List.mem_cons, List.not_mem_nil, or_false] at h
  obtain rfl | rfl | rfl | rfl | rfl | rfl | rfl := h <;> rfl

/-- Any other character stands for itself or is written by its code, in one unit or in two. -/
theorem escapeChar_unmarked {c : Char} (h : c ∉ marked) :
    escapeChar c = if ' ' ≤ c && c ≤ '~' then [c]
      else if c.toNat < 0x10000 then escapeUnit c.toNat
      else escapeUnit (0xd800 + (c.toNat - 0x10000) / 0x400) ++
        escapeUnit (0xdc00 + (c.toNat - 0x10000) % 0x400) := by
  simp only [marked, List.mem_cons, List.not_mem_nil, or_false, not_or] at h
  obtain ⟨hQuote, hBackslash, hFeed, hReturn, hTab, hBack, hForm⟩ := h
  simp [escapeChar, hQuote, hBackslash, hFeed, hReturn, hTab, hBack, hForm]

/-- The first character of an escaped text is read again. -/
theorem unescape_escapeChar (c : Char) (rest : List Char) :
    unescape (escapeChar c ++ rest) = some (c, rest) := by
  by_cases hMarked : c ∈ marked
  · exact unescape_marked hMarked rest
  rw [escapeChar_unmarked hMarked]
  split
  · -- a character that stands for itself starts no escape
    have hBackslash : c ≠ '\\' := by
      rintro rfl
      exact hMarked (by decide)
    rw [List.singleton_append, unescape]
    · exact fun _ h => absurd h hBackslash
    · exact fun _ _ h => absurd h hBackslash
  split
  · rename_i hSmall
    exact unescape_unit hSmall rest
  · have hBound := toNat_valid c
    -- the two units give the code back, as it has at most twenty bits
    have hCode : 0x10000 + (0xd800 + (c.toNat - 0x10000) / 0x400 - 0xd800) * 0x400 +
        (0xdc00 + (c.toNat - 0x10000) % 0x400 - 0xdc00) = c.toNat := by omega
    rw [unescape_pair (by omega) (by omega), hCode, Char.ofNat_toNat]

/-! ## Strings -/

variable {c d : Char} {cs ds rest rest' : List Char}

/-- From an escaped character, and what follows it, both can be told. -/
theorem escapeChar_append_inj (h : escapeChar c ++ rest = escapeChar d ++ rest') :
    c = d ∧ rest = rest' := by
  have hRead := congrArg unescape h
  rw [unescape_escapeChar, unescape_escapeChar] at hRead
  cases hRead
  exact ⟨rfl, rfl⟩

/-- What a character is written as does not start with a quote. -/
theorem escapeChar_ne_quote : escapeChar c ++ rest ≠ '"' :: rest' := by
  intro h
  have hRead : some (c, rest) = some ('"', rest') := by
    rw [← unescape_escapeChar, h]
    rfl
  -- only a quote is read off a quote, and it is written with a backslash in front
  cases hRead
  exact absurd (List.head_eq_of_cons_eq h) (by decide)

/-- The characters up to the closing quote are those of one string. -/
theorem escaped_append_inj
    (h : cs.flatMap escapeChar ++ '"' :: rest = ds.flatMap escapeChar ++ '"' :: rest') :
    cs = ds ∧ rest = rest' := by
  induction cs generalizing ds with
  | nil =>
    cases ds with
    | nil => exact ⟨rfl, List.tail_eq_of_cons_eq h⟩
    | cons d ds =>
      rw [List.flatMap_cons, List.append_assoc] at h
      -- a printed text goes on where the other one has its closing quote, and no escape starts with
      -- a quote
      exact absurd h.symm escapeChar_ne_quote
  | cons c cs ih =>
    cases ds with
    | nil =>
      rw [List.flatMap_cons, List.append_assoc] at h
      exact absurd h escapeChar_ne_quote
    | cons d ds =>
      rw [List.flatMap_cons, List.flatMap_cons, List.append_assoc, List.append_assoc] at h
      obtain ⟨rfl, hBehind⟩ := escapeChar_append_inj h
      obtain ⟨rfl, hRest⟩ := ih hBehind
      exact ⟨rfl, hRest⟩

/-- The characters of a printed text, with its quotes. -/
theorem printText_toList (s : String) :
    (printText s).toList = '"' :: (s.toList.flatMap escapeChar ++ ['"']) :=
  String.toList_ofList

/-- A printed string shows the string, and where it ends. -/
theorem printText_append_inj {s t : String}
    (h : (printText s).toList ++ rest = (printText t).toList ++ rest') : s = t ∧ rest = rest' := by
  rw [printText_toList, printText_toList, List.cons_append, List.cons_append, List.append_assoc,
    List.append_assoc] at h
  obtain ⟨hChars, hRest⟩ := escaped_append_inj (List.tail_eq_of_cons_eq h)
  exact ⟨String.toList_inj.mp hChars, hRest⟩

end NameResolution.Dump
