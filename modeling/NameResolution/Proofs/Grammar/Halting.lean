import NameResolution.Proofs.Grammar.Lockstep
import NameResolution.Proofs.Grammar.Positions

/-!
# Halting — what stops the reading of any text

No construct but a number stops the reading. A number does so that has too many digits, and those
stand one behind the other in the text, whether it is a program or not. A text is read in lockstep
with itself to see that.

* `RunOfDigits` — some digits in a text, and how many they are.
* `parse_numberTooLong` — the number that the reading stops at is in the text.
-/

namespace NameResolution.Grammar

open NameResolution.Grammar.Parser

variable {α : Type} {text : List Char}

/-- So many digits of any scripts stand one behind the other in the text. -/
def RunOfDigits (n : Nat) (text : List Char) : Prop :=
  ∃ digits, digits <:+: text ∧ digits.length = n ∧ ∀ d ∈ digits, Text.isDecimalDigit d = true

/-- A text beside itself. Both readings may stop at a run of too many digits. -/
def SideBySide.same (text : List Char) : SideBySide where
  ctx := contextOf maxDigits text
  ctx' := contextOf maxDigits text
  Alike cs cs' := cs = cs' ∧ cs <:+ text
  Stops n := maxDigits < n ∧ RunOfDigits n text
  Halts _ := False

/-! ## Lexemes -/

/-- A lexeme is taken from the front of what is left. -/
theorem lexeme_same {scan : List Char → Option (α × List Char)}
    (hEnding : ∀ ctx cs a rest, lexeme scan ctx cs = .matched a rest →
      rest <:+ skipTrivia cs) : Lockstep (.same text) (lexeme scan) := by
  rintro cs _ ⟨rfl, hText⟩
  show Agree _ (lexeme scan (contextOf maxDigits text) cs)
    (lexeme scan (contextOf maxDigits text) cs)
  obtain ⟨a, rest, hMatch⟩ | hReject :=
    lexeme_matched_or_rejected scan (contextOf maxDigits text) cs
  -- what is left is an end of the text, so the text goes on with itself
  · have hRest := hEnding _ cs a rest hMatch
    rw [hMatch]
    exact .matched a ⟨rfl, hRest.trans ((skipTrivia_suffix cs).trans hText)⟩
  · rw [hReject]
    exact .rejected

/-- The digits of a number that is too long are in the text. -/
theorem number_same : Lockstep (.same text) number := by
  rintro cs _ ⟨rfl, hText⟩
  have hStart : skipTrivia cs <:+ text := (skipTrivia_suffix cs).trans hText
  show Agree _ (number (contextOf maxDigits text) cs) (number (contextOf maxDigits text) cs)
  rw [number]
  split
  · exact .rejected
  · split
    -- the digits in question stand in the text, one behind the other
    · rename_i hLong
      refine .tooLong ⟨hLong, (skipTrivia cs).takeWhile Text.isDecimalDigit, ?_, rfl,
        fun d hd => List.mem_takeWhile_imp hd⟩
      exact (List.takeWhile_prefix _).isInfix.trans hStart.isInfix
    · exact .matched _ ⟨rfl, (List.dropWhile_suffix _).trans hStart⟩

/-- A text is in step with itself, and every number that its reading stops at is in it. -/
theorem same_lexed : (SideBySide.same text).Lexed where
  here := by
    rintro cs _ ⟨rfl, -⟩
    rfl
  symbol s _ := lexeme_same fun _ _ _ _ h => ⟨s, (symbol_eq_matched.mp h).symm⟩
  -- whatever is read, the text goes on behind it, so the rest is an end of the same text
  keyword k := lexeme_same fun _ _ _ _ h => ⟨k.chars, (keyword_eq_matched.mp h).1.symm⟩
  single := by
    refine lexeme_same fun _ _ _ _ h => ?_
    obtain ⟨c, -, -, hText, -⟩ := single_eq_matched.mp h
    exact ⟨[c], hText.symm⟩
  name := lexeme_same fun _ _ word _ h => ⟨word.toList, (name_eq_matched.mp h).2.1.symm⟩
  number := number_same
  string := lexeme_same fun _ _ literal _ h => ⟨literal.toList, (string_eq_matched.mp h).2.symm⟩
  endOfText := by
    refine lexeme_same fun _ cs _ _ h => ?_
    obtain ⟨-, rfl⟩ := endOfText_eq_matched.mp h
    exact List.nil_suffix

/-! ## Programs -/

/-- Whatever the text is, a number that its reading stops at is in it, with all its digits. -/
theorem parse_numberTooLong {source : String} {n : Nat}
    (h : parse source = .error (.numberTooLong n)) :
    maxDigits < n ∧ RunOfDigits n source.toList := by
  have hLexed : (SideBySide.same source.toList).Lexed := same_lexed
  have hBoth := hLexed.program_lockstep _ _ ⟨rfl, List.suffix_refl source.toList⟩
  change Agree _ (program (contextOf maxDigits source.toList) source.toList)
    (program (contextOf maxDigits source.toList) source.toList) at hBoth
  rw [parse, parseUpTo] at h
  generalize program (contextOf maxDigits source.toList) source.toList = outcome at hBoth h
  cases hBoth with
  | matched | rejected => cases h
  -- the two runs stop together, at a number of the text
  | tooLong hStops =>
    cases h
    exact hStops
  | halted hHalts => exact hHalts.elim

end NameResolution.Grammar
