import NameResolution.Proofs.CommandLine.Reading
import NameResolution.Proofs.Grammar.Lockstep
import NameResolution.Proofs.Grammar.Soundness
import NameResolution.Proofs.Text.LineEnds

/-!
# Carriage returns — the same program with either line ends

Between tokens a carriage return is a blank, in a comment it is a character like any other, and a
string can only hold one that no line feed follows. So a text without lone carriage returns and the
text with the pairs joined are read in lockstep.

* `SameScans` — a scan that takes the same from texts with the same lines.
* `sameLines_lexed` — every lexeme is taken so.
* `parse_joinPairs` — both texts are the same program, with the same positions.
-/

namespace NameResolution.Grammar

open NameResolution.Grammar.Parser
open NameResolution.Text (SameLines SamePlace)

variable {α : Type} {cs cs' rest : List Char}

/-! ## Trivia -/

/-- Trivia ends at the same place. -/
theorem skipTriviaFrom_samePlace (h : SameLines cs cs') (inComment : Bool) :
    SamePlace cs cs' (skipTriviaFrom inComment cs) (skipTriviaFrom inComment cs') := by
  induction h generalizing inComment with
  | nil => exact .whole .nil
  | @pair cs cs' hRest ih =>
    -- the carriage return is skipped, and the line feed ends a comment
    have hSkip : skipTriviaFrom inComment ('\r' :: '\n' :: cs) = skipTriviaFrom false cs ∧
        skipTriviaFrom inComment ('\n' :: cs') = skipTriviaFrom false cs' := by
      cases inComment <;> exact ⟨rfl, rfl⟩
    rw [hSkip.1, hSkip.2]
    exact (SamePlace.pair hRest).trans (ih false)
  | @char c cs cs' hChar hRest ih =>
    have hFront := SamePlace.char hChar hRest
    rw [skipTriviaFrom, skipTriviaFrom]
    split
    · exact hFront.trans (ih _)
    · split
      · exact hFront.trans (ih _)
      · split
        · exact hFront.trans (ih _)
        · exact .whole (.char hChar hRest)

/-! ## Scans -/

/-- Both scans take the same up to the same place of the texts, or both take nothing. -/
abbrev SameScan (cs cs' : List Char) : Option (α × List Char) → Option (α × List Char) → Prop :=
  Option.Rel fun taken taken' => taken.1 = taken'.1 ∧ SamePlace cs cs' taken.2 taken'.2

/-- The scan takes the same from texts with the same lines. -/
def SameScans (scan : List Char → Option (α × List Char)) : Prop :=
  ∀ cs cs', SameLines cs cs' → SameScan cs cs' (scan cs) (scan cs')

/-- A word without line ends starts both texts or neither. -/
theorem isPrefixOf?_sameLines {word : List Char} (hWord : '\r' ∉ word ∧ '\n' ∉ word)
    (h : SameLines cs cs') :
    Option.Rel (SamePlace cs cs') (word.isPrefixOf? cs) (word.isPrefixOf? cs') := by
  induction word generalizing cs cs' with
  | nil => exact .some (.whole h)
  | cons c word ih =>
    rw [List.mem_cons, List.mem_cons, not_or, not_or] at hWord
    obtain ⟨⟨hReturn, hReturns⟩, hFeed, hFeeds⟩ := hWord
    cases h with
    | nil => exact .none
    -- a word without line ends matches in front of neither of the two line ends
    | pair hRest =>
      rw [isPrefixOf?_of_head (by simpa using hReturn), isPrefixOf?_of_head (by simpa using hFeed)]
      exact .none
    | @char d cs cs' hChar hRest =>
      rw [List.isPrefixOf?, List.isPrefixOf?]
      split
      · have hOthers := ih ⟨hReturns, hFeeds⟩ hRest
        generalize word.isPrefixOf? cs = taken, word.isPrefixOf? cs' = taken' at hOthers
        cases hOthers with
        | some hPlace => exact .some ((SamePlace.char hChar hRest).trans hPlace)
        | none => exact .none
      · exact .none

/-- No symbol has a line end in it. -/
theorem punctuation_inLine : ∀ s ∈ Token.punctuation, '\r' ∉ s ∧ '\n' ∉ s := by
  decide

/-- No keyword has a line end in it. -/
theorem Keyword.chars_inLine (k : Keyword) : '\r' ∉ k.chars ∧ '\n' ∉ k.chars := by
  cases k <;> decide

/-- Symbols are found alike in texts with the same lines. -/
theorem scanSymbol_same {s : List Char} (hSymbol : s ∈ Token.punctuation) :
    SameScans (scanSymbol s) := by
  intro cs cs' h
  have hTaken := isPrefixOf?_sameLines (punctuation_inLine s hSymbol) h
  rw [scanSymbol, scanSymbol]
  generalize s.isPrefixOf? cs = taken, s.isPrefixOf? cs' = taken' at hTaken
  cases hTaken with
  | some hPlace => exact .some ⟨rfl, hPlace⟩
  | none => exact .none

/-- What does not tell a carriage return from a line feed holds of both first characters or of
neither. -/
theorem head?_any_sameLines {p : Char → Bool} (hp : p '\r' = p '\n') (h : SameLines cs cs') :
    cs.head?.any p = cs'.head?.any p := by
  cases h with
  | nil => rfl
  | pair => exact hp
  | char => rfl

/-- Keywords are found alike in texts with the same lines, also where what stands behind decides. -/
theorem scanKeyword_same (k : Keyword) : SameScans (scanKeyword k) := by
  intro cs cs' h
  have hTaken := isPrefixOf?_sameLines k.chars_inLine h
  rw [scanKeyword, scanKeyword]
  generalize k.chars.isPrefixOf? cs = taken, k.chars.isPrefixOf? cs' = taken' at hTaken
  cases hTaken with
  | some hPlace =>
    -- the keyword ends where no letter and no digit follows, and the next characters agree on that
    have hEnd := head?_any_sameLines (p := Text.isAlphanumeric) (by decide) hPlace.sameLines
    rw [Option.bind_some, Option.bind_some, hEnd]
    split
    · exact .none
    · exact .some ⟨rfl, hPlace⟩
  | none => exact .none

/-- A run of characters that are no line ends. -/
theorem takeWhile_sameLines {p : Char → Bool} (hReturn : p '\r' = false) (hFeed : p '\n' = false)
    (h : SameLines cs cs') : cs.takeWhile p = cs'.takeWhile p ∧
      SamePlace cs cs' (cs.dropWhile p) (cs'.dropWhile p) := by
  have hDrop : cs.takeWhile p = cs'.takeWhile p ∧
      SameLines (cs.dropWhile p) (cs'.dropWhile p) := by
    induction h with
    | nil => exact ⟨rfl, .nil⟩
    | pair hRest => simpa [hReturn, hFeed] using SameLines.pair hRest
    | @char c cs cs' hChar hRest ih =>
      by_cases hc : p c = true
      · simpa [hc] using ih
      · simpa [hc] using SameLines.char hChar hRest
  -- the run is the same text on both sides, without a carriage return, so it keeps the place
  have hRun : '\r' ∉ cs.takeWhile p := by
    intro hMem
    rw [List.mem_takeWhile_imp hMem] at hReturn
    cases hReturn
  refine ⟨hDrop.1, ?_⟩
  have hPlace := SamePlace.behind hRun hDrop.2
  rw [List.takeWhile_append_dropWhile, hDrop.1, List.takeWhile_append_dropWhile] at hPlace
  exact hPlace

/-- Names are found alike in texts with the same lines. -/
theorem scanName_same : SameScans scanName := by
  intro cs cs' h
  obtain ⟨hWord, hPlace⟩ := takeWhile_sameLines (p := isNameChar) (by decide) (by decide) h
  rw [scanName, scanName, hWord]
  split
  · exact .some ⟨rfl, hPlace⟩
  · exact .none

/-- Single signs are found alike in texts with the same lines. -/
theorem scanSingle_same : SameScans (scanSingle ['+', '-']) := by
  intro cs cs' h
  cases h with
  | nil => exact .none
  | pair => exact .none
  | @char c cs cs' hChar hRest =>
    have hSign : (['+', '-'].contains c && cs.head? != some c) =
        (['+', '-'].contains c && cs'.head? != some c) := by
      cases hRest with
      | nil => rfl
      | char => rfl
      | pair =>
        -- neither line end is a sign
        rw [Bool.eq_iff_iff, Bool.and_eq_true, Bool.and_eq_true]
        refine and_congr_right fun hOps => ?_
        have hNoEnd : c ≠ '\r' ∧ c ≠ '\n' := by
          constructor <;> rintro rfl <;> exact absurd hOps (by decide)
        simp [Ne.symm hNoEnd.1, Ne.symm hNoEnd.2]
    rw [scanSingle, scanSingle, hSign]
    split
    · exact .some ⟨rfl, .char hChar hRest⟩
    · exact .none

/-- What is made of the values leaves the places as they are. -/
theorem SameScan.map {β : Type} {mid mid' : List Char} {taken taken' : Option (α × List Char)}
    (h : SameScan mid mid' taken taken') (hFront : SamePlace cs cs' mid mid') (f : α → β) :
    SameScan cs cs' (taken.map fun (a, rest) => (f a, rest))
      (taken'.map fun (a, rest) => (f a, rest)) := by
  cases h with
  | some hTaken => exact .some ⟨congrArg f hTaken.1, hFront.trans hTaken.2⟩
  | none => exact .none

/-- A string that is closed in its line holds no carriage return, as a line feed would follow. -/
theorem scanStringBody_same : SameScans scanStringBody := by
  intro cs cs' h
  fun_induction scanStringBody cs generalizing cs' with
  | case1 =>
    cases h
    exact .none
  | case2 rest =>
    cases h with
    | char hChar hRest => exact .some ⟨rfl, .char hChar hRest⟩
  | case3 c rest hNewline =>
    obtain rfl : c = '\n' := by simpa using hNewline
    cases h with
    | char _ hRest =>
      cases hRest with
      | char => exact .none
  | case4 c rest hNewline ih =>
    cases h with
    | char hChar hRest =>
      cases hRest with
      -- the line feed of the pair ends the scan in the one text and is escaped in the other
      | pair => exact .none
      | char hEscaped hBelow =>
        rw [scanStringBody, if_neg hNewline]
        exact (ih _ hBelow).map ((SamePlace.char hChar (.char hEscaped hBelow)).trans
          (.char hEscaped hBelow)) (fun body => '\\' :: c :: body)
  | case5 c rest hQuote hEscape hStop =>
    cases h with
    | pair => cases hStop
    | char hChar hRest =>
      rw [Bool.or_eq_true, beq_iff_eq, beq_iff_eq] at hStop
      obtain rfl | rfl := hStop
      · exact .none
      · -- a backslash that escapes nothing ends the text
        cases hRest with
        | nil => exact .none
        | pair => exact (hEscape _ _ rfl rfl).elim
        | char => exact (hEscape _ _ rfl rfl).elim
  | case6 c rest hQuote hEscape hStop ih =>
    cases h with
    -- the line feed of the pair ends the scan in both texts
    | pair => exact .none
    | char hChar hRest =>
      have hBackslash : c ≠ '\\' := by
        rintro rfl
        exact hStop rfl
      rw [scanStringBody, if_neg hStop]
      · exact (ih _ hRest).map (.char hChar hRest) (fun body => c :: body)
      · exact hQuote
      · exact fun _ _ hEq _ => hBackslash hEq

/-- String literals are found alike in texts with the same lines, as none of them has a line end
in it. -/
theorem scanString_same : SameScans scanString := by
  intro cs cs' h
  cases h with
  | nil => exact .none
  | pair => exact .none
  | @char c cs cs' hChar hRest =>
    by_cases hQuote : c = '"'
    -- behind the quote both bodies are scanned; without one neither text has a literal
    · subst hQuote
      exact (scanStringBody_same cs cs' hRest).map (.char hChar hRest)
        fun body => String.ofList ('"' :: body)
    · rw [scanString, scanString]
      · exact .none
      · exact fun _ hText => hQuote (List.cons.inj hText).1
      · exact fun _ hText => hQuote (List.cons.inj hText).1

/-! ## Lexemes -/

/-- Two texts with the same lines, side by side. -/
def SideBySide.sameLines (text text' : List Char) : SideBySide where
  ctx := contextOf maxDigits text
  ctx' := contextOf maxDigits text'
  Alike := SamePlace text text'
  Stops _ := True
  Halts _ := False

section Lexemes

variable {text text' : List Char}

/-- Behind the trivia, too, two texts with the same lines are at the same place. -/
theorem skipTrivia_samePlace (h : SamePlace text text' cs cs') :
    SamePlace text text' (skipTrivia cs) (skipTrivia cs') :=
  h.trans (skipTriviaFrom_samePlace h.sameLines false)

/-- A scan that finds the same in texts with the same lines makes two parsers that go in step. -/
theorem SameScans.lockstep {scan : List Char → Option (α × List Char)} (hScan : SameScans scan) :
    Lockstep (.sameLines text text') (lexeme scan) := by
  intro cs cs' hAlike
  have hStart := skipTrivia_samePlace hAlike
  have hTaken := hScan _ _ hStart.sameLines
  rw [lexeme, lexeme]
  -- from here on only what the two scans have found counts
  generalize scan (skipTrivia cs) = taken, scan (skipTrivia cs') = taken' at hTaken
  cases hTaken with
  | @some x x' hSame =>
    obtain ⟨hValue, hPlace⟩ := hSame
    show Agree _ (.matched x.1 x.2) (.matched x'.1 x'.2)
    rw [hValue]
    exact .matched _ (hStart.trans hPlace)
  | none => exact .rejected

/-- Numbers are read alike, and are too long alike. -/
theorem number_lockstep : Lockstep (.sameLines text text') number := by
  intro cs cs' hAlike
  have hStart := skipTrivia_samePlace hAlike
  -- digits are no line ends, so both texts go on with the same ones
  obtain ⟨hDigits, hPlace⟩ :=
    takeWhile_sameLines (p := Text.isDecimalDigit) (by decide) (by decide) hStart.sameLines
  have hLimit : (SideBySide.sameLines text text').ctx'.limit =
      (SideBySide.sameLines text text').ctx.limit := rfl
  rw [number, number, hDigits, hLimit]
  split
  · exact .rejected
  · split
    · exact .tooLong trivial
    · exact .matched _ (hStart.trans hPlace)

/-- Texts with the same lines end together. -/
theorem endOfText_same : SameScans fun cs => if cs.isEmpty then some ((), []) else none := by
  intro cs cs' h
  cases h with
  | nil => exact .some ⟨rfl, .whole .nil⟩
  | pair | char => exact .none

/-- All lexemes go in step in texts with the same lines. -/
theorem sameLines_lexed : (SideBySide.sameLines text text').Lexed where
  here _ _ hAlike := (skipTrivia_samePlace hAlike).locate
  symbol _ hSymbol := (scanSymbol_same hSymbol).lockstep
  keyword k := (scanKeyword_same k).lockstep
  single := scanSingle_same.lockstep
  name := scanName_same.lockstep
  number := number_lockstep
  string := scanString_same.lockstep
  endOfText := endOfText_same.lockstep

end Lexemes

/-! ## Programs -/

/-- Texts with the same lines are read as the same program or fail in the same way. -/
theorem parse_sameLines {source source' : String} (h : SameLines source.toList source'.toList) :
    parse source = parse source' := by
  have hLexed : (SideBySide.sameLines source.toList source'.toList).Lexed := sameLines_lexed
  have hRead := hLexed.program_lockstep _ _ (.whole h)
  -- positions and the limit are the same for both, so the two runs can be compared step by step
  rw [parse, parse, parseUpTo, parseUpTo]
  change Agree _ (program (contextOf maxDigits source.toList) source.toList)
    (program (contextOf maxDigits source'.toList) source'.toList) at hRead
  generalize program (contextOf maxDigits source.toList) source.toList = outcome,
    program (contextOf maxDigits source'.toList) source'.toList = outcome' at hRead
  -- neither run is halted: nothing stops this comparison in the middle
  cases hRead with
  | matched | rejected | tooLong => rfl
  | halted hHalts => exact hHalts.elim

/-- **Line ends.** Let every carriage return of a source be one of a pair. With a line feed in the
place of each pair it is read as the same tree, positions included, or fails in the same way. That
text is what a file with the source is read as, so a run over the file says of the program what is
said of the source. -/
theorem parse_joinPairs (source : String) (hPaired : Text.Paired source.toList) :
    parse (String.ofList (Text.joinPairs source.toList)) = parse source ∧
      CommandLine.decode source.toUTF8 = some (String.ofList (Text.joinPairs source.toList)) ∧
      ∀ (o : CommandLine.Options) (style : CommandLine.Style) (path : CommandLine.Path)
          (p : Program),
        parse source = .ok p → CommandLine.runOn o style path (.bytes source.toUTF8) =
          CommandLine.runProgram o style path (style.unusualName path) p := by
  have hLines := hPaired.sameLines
  have hSame : parse source = parse (String.ofList (Text.joinPairs source.toList)) :=
    parse_sameLines (by rw [String.toList_ofList]; exact hLines)
  have hSource : CommandLine.sourceOf source = String.ofList (Text.joinPairs source.toList) :=
    congrArg String.ofList hLines.normalizeNewlines
  -- the file is decoded to the joined text, which is read as the source is
  refine ⟨hSame.symm, (CommandLine.decode_toUTF8 source).trans (congrArg some hSource),
    fun o style path p hRead => ?_⟩
  rw [CommandLine.runOn_toUTF8, hSource, ← hSame, hRead]

/-- Three lines that end with pairs, one of them in a comment, and a string with a backslash. -/
def pairedLines : String :=
  "# \u00e9\r\ninteger x.\r\nvoid f[][disp<-\"\\a\" + x.]"

/-- Positions behind pairs, in a run over the file as well. -/
theorem pairedLines_positions :
    ∃ p, parse pairedLines = .ok p ∧
      p.positions = [⟨2, 9⟩, ⟨3, 6⟩, ⟨3, 16⟩, ⟨3, 23⟩] ∧
      Text.Paired pairedLines.toList ∧
      String.ofList (Text.joinPairs pairedLines.toList) =
        "# \u00e9\ninteger x.\nvoid f[][disp<-\"\\a\" + x.]" ∧
      parse (String.ofList (Text.joinPairs pairedLines.toList)) = parse pairedLines ∧
      CommandLine.decode pairedLines.toUTF8 =
        some (String.ofList (Text.joinPairs pairedLines.toList)) ∧
      ∀ (o : CommandLine.Options) (style : CommandLine.Style) (path : CommandLine.Path),
        CommandLine.runOn o style path (.bytes pairedLines.toUTF8) =
          CommandLine.runProgram o style path (style.unusualName path) p := by
  have hPositions : (parse pairedLines).toOption.map Program.positions =
      some [⟨2, 9⟩, ⟨3, 6⟩, ⟨3, 16⟩, ⟨3, 23⟩] := by
    decide +kernel
  obtain ⟨p, hRead, hList⟩ := exists_of_seen hPositions
  have hPaired : Text.Paired pairedLines.toList := by decide +kernel
  have hJoined : String.ofList (Text.joinPairs pairedLines.toList) =
      "# \u00e9\ninteger x.\nvoid f[][disp<-\"\\a\" + x.]" := by
    decide +kernel
  obtain ⟨hSame, hDecode, hRun⟩ := parse_joinPairs pairedLines hPaired
  exact ⟨p, hRead, hList, hPaired, hJoined, hSame, hDecode, fun o style path =>
    hRun o style path p hRead⟩

end NameResolution.Grammar
