import NameResolution.Proofs.Grammar.Joining
import NameResolution.Proofs.Grammar.Lockstep

/-!
# Forked texts — texts that differ behind a digit

The parser tries alternatives and gives them up again, but none of them looks behind a digit before
a number has been read there. So two texts that go on differently behind a digit are read in
lockstep up to it. If a number starts there that is too long, the reading of that text ends with
it, and nothing behind it matters.

* `Meets`, `Front` — a text in front of a digit, and what may be left of it to read.
* `Steady` — a scan that does not look behind the digit.
* `forked_lexed` — every lexeme but the number at the digit is read from both texts.
* `parse_overlong` — the number that ends the reading.
-/

namespace NameResolution.Grammar

open NameResolution.Grammar.Parser

variable {α : Type} {pre v w s gap long short more : List Char} {d : Char} {t : Token}

/-! ## In front of a digit -/

/-- The digit starts a token behind the text: it does not go on with a name, and digits in front of
it are the end of a word. -/
structure Meets (pre : List Char) (d : Char) : Prop where
  digit : Text.isDecimalDigit d = true
  apart : ∀ c ∈ pre.getLast?, isNameChar c = true → isNameChar d = false
  inWord : ∀ w v, pre = w ++ v → v ≠ [] → (∀ c ∈ v, Text.isDecimalDigit c = true) →
    (∀ c ∈ v, isNameChar c = true) ∧ ∃ c ∈ w.getLast?, isNameChar c = true

/-- What may be left to read of the text in front of the digit: not the inside of a string or of a
comment, and not the last digits of a word. -/
structure Front (pre v : List Char) : Prop where
  suffix : v <:+ pre
  outside : Outside v
  whole : v ≠ [] → ∃ c ∈ v, Text.isDecimalDigit c = false

namespace Front

theorem nil (pre : List Char) : Front pre [] where
  suffix := List.nil_suffix
  outside := rfl
  whole hSome := absurd rfl hSome

/-- At the start of the text all of it is left. -/
theorem all (hMeets : Meets pre d) (hOutside : Outside pre) : Front pre pre where
  suffix := List.suffix_refl pre
  outside := hOutside
  whole hSome := by
    by_contra hDigits
    obtain ⟨-, c, hc, -⟩ := hMeets.inWord [] pre rfl hSome (by simpa using hDigits)
    cases hc

/-- Behind a piece that does not end like a word. -/
theorem behind_mark (h : Front pre (s ++ w)) (hMeets : Meets pre d) (hOutside : Outside s)
    (hMark : ∃ c ∈ s.getLast?, isNameChar c = false) : Front pre w where
  suffix := (List.suffix_append s w).trans h.suffix
  outside := hOutside.append_iff.mp h.outside
  whole hSome := by
    -- otherwise all that is left are digits, the last ones of a word that starts further in front;
    -- but the character in front of them is in no word
    by_contra hDigits
    obtain ⟨front, hFront⟩ := h.suffix
    obtain ⟨-, c, hc, hWord⟩ := hMeets.inWord (front ++ s) w
      (by rw [List.append_assoc, hFront]) hSome (by simpa using hDigits)
    obtain ⟨e, he, hNoWord⟩ := hMark
    rw [Option.mem_def.mp (List.mem_getLast?_append_of_mem_getLast? he)] at hc
    obtain rfl := Option.some.inj hc
    rw [hNoWord] at hWord
    cases hWord

/-- In front of what cannot be the inside of a word. -/
theorem behind_word (h : Front pre (s ++ w)) (hMeets : Meets pre d) (hOutside : Outside s)
    (hNext : ∀ c ∈ w.head?, Text.isDecimalDigit c = true → isNameChar c = false) : Front pre w where
  suffix := (List.suffix_append s w).trans h.suffix
  outside := hOutside.append_iff.mp h.outside
  whole hSome := by
    by_contra hDigits
    have hAll : ∀ c ∈ w, Text.isDecimalDigit c = true := by simpa using hDigits
    -- if all that is left are digits, they belong to a word, and then the first of them is a name
    -- character
    obtain ⟨front, hFront⟩ := h.suffix
    obtain ⟨hWord, -⟩ := hMeets.inWord (front ++ s) w
      (by rw [List.append_assoc, hFront]) hSome hAll
    obtain ⟨c, w, rfl⟩ := List.exists_cons_of_ne_nil hSome
    have hNo := hNext c rfl (hAll c List.mem_cons_self)
    rw [hWord c List.mem_cons_self] at hNo
    cases hNo

end Front

/-- Trivia does not end like a token. -/
theorem Trivia.last (h : Trivia s) (hSome : s ≠ []) : ∃ c ∈ s.getLast?, startsToken c = false := by
  induction h with
  | nil => exact absurd rfl hSome
  | @blank c cs hBlank _ ih =>
    by_cases hLast : cs = []
    · subst hLast
      exact ⟨c, rfl, by rw [startsToken, hBlank, Bool.not_true, Bool.and_false]⟩
    · obtain ⟨e, he, hStart⟩ := ih hLast
      refine ⟨e, ?_, hStart⟩
      rw [← List.singleton_append]
      exact List.mem_getLast?_append_of_mem_getLast? he
  | @comment body cs _ _ ih =>
    by_cases hLast : cs = []
    · subst hLast
      refine ⟨'\n', ?_, by decide⟩
      rw [← List.cons_append]
      exact List.getLast?_concat
    · obtain ⟨e, he, hStart⟩ := ih hLast
      refine ⟨e, ?_, hStart⟩
      have hFront : '#' :: (body ++ '\n' :: cs) = ('#' :: (body ++ ['\n'])) ++ cs := by simp
      rw [hFront]
      exact List.mem_getLast?_append_of_mem_getLast? he

/-- Behind the trivia a front is left again, and it does not depend on what follows the digit. -/
theorem Front.skip (h : Front pre v) (hMeets : Meets pre d) :
    ∃ w, Front pre w ∧ ∀ more, skipTrivia (v ++ d :: more) = w ++ d :: more := by
  -- either only trivia stands in front of the digit, or a word that the fork does not cut
  obtain hTrivia | ⟨word, hSome, hOutside, hFront⟩ := h.outside.front
  · refine ⟨[], .nil pre, fun more => ?_⟩
    rw [hTrivia.skip, skipTrivia_of_starts (digit_startsToken hMeets.digit)]
    rfl
  · refine ⟨word, ?_, fun more => hFront _⟩
    obtain ⟨gap, hGap, hText⟩ := trivia_of_token (hFront []) hSome
    rw [List.append_nil, List.append_nil] at hText
    subst hText
    by_cases hNone : gap = []
    · subst hNone
      exact h
    -- trivia was skipped, so the word stands behind a character of no word
    · obtain ⟨c, hc, hBlank⟩ := hGap.last hNone
      refine h.behind_mark hMeets hGap.outside ⟨c, hc, ?_⟩
      rw [← Bool.not_eq_true]
      intro hWord
      rw [nameChar_startsToken hWord] at hBlank
      cases hBlank

/-! ## Scans -/

/-- In front of the digit, the scan does not look at what follows it. -/
def Steady (pre : List Char) (d : Char) (scan : List Char → Option (α × List Char)) : Prop :=
  ∀ v, Front pre v → ∃ taken? : Option (α × List Char),
    (∀ more, scan (v ++ d :: more) = taken?.map fun (a, rest) => (a, rest ++ d :: more)) ∧
      ∀ taken ∈ taken?, Front pre taken.2

/-- A word without digits is found in front of the digit or not at all. -/
theorem isPrefixOf?_front (hDigit : Text.isDecimalDigit d = true)
    (hWord : ∀ c ∈ s, Text.isDecimalDigit c = false) (v more : List Char) :
    s.isPrefixOf? (v ++ d :: more) = (s.isPrefixOf? v).map (· ++ d :: more) := by
  induction s generalizing v with
  | nil => rfl
  | cons c s ih =>
    obtain ⟨hFirst, hOthers⟩ := List.forall_mem_cons.mp hWord
    cases v with
    | nil =>
      -- the digit is not in the word, so the word cannot go on with it
      have hOther : c ≠ d := by
        rintro rfl
        rw [hDigit] at hFirst
        cases hFirst
      rw [isPrefixOf?_of_head (by simpa using Ne.symm hOther)]
      rfl
    | cons e v =>
      rw [List.cons_append, List.isPrefixOf?, List.isPrefixOf?]
      split
      · exact ih hOthers v
      · rfl

/-- The characters of a mark belong to no word and to no number. -/
theorem punctuation_chars (hSymbol : s ∈ Token.punctuation) :
    ∀ c ∈ s, Text.isDecimalDigit c = false ∧ isNameChar c = false := by
  have hAll : ∀ s ∈ Token.punctuation,
      s.all (fun c => !Text.isDecimalDigit c && !isNameChar c) = true := by
    decide
  intro c hc
  simpa using List.all_eq_true.mp (hAll s hSymbol) c hc

/-- A symbol ends with a character that is in no word and no number. -/
theorem punctuation_last (hSymbol : s ∈ Token.punctuation) :
    ∃ c ∈ s.getLast?, Text.isDecimalDigit c = false ∧ isNameChar c = false := by
  have hNone : [] ∉ Token.punctuation := by decide
  have hSome : s ≠ [] := by
    rintro rfl
    exact hNone hSymbol
  exact ⟨s.getLast hSome, List.getLast?_eq_some_getLast hSome,
    punctuation_chars hSymbol _ (List.getLast_mem hSome)⟩

/-- Plus and minus are symbols. -/
theorem sign_symbol {c : Char} (h : c ∈ ['+', '-']) : [c] ∈ Token.punctuation := by
  rw [List.mem_cons, List.mem_singleton] at h
  rcases h with rfl | rfl <;> decide

/-- No keyword has a digit in it. -/
theorem Keyword.no_digits (k : Keyword) : ∀ c ∈ k.chars, Text.isDecimalDigit c = false := by
  have hAll : k.chars.all (fun c => !Text.isDecimalDigit c) = true := by
    cases k <;> decide
  intro c hc
  simpa using List.all_eq_true.mp hAll c hc

/-- Symbols are found without a look behind the digit. -/
theorem scanSymbol_steady (hMeets : Meets pre d) (hSymbol : s ∈ Token.punctuation) :
    Steady pre d (scanSymbol s) := by
  intro v hFront
  have hNoDigits : ∀ c ∈ s, Text.isDecimalDigit c = false :=
    fun c hc => (punctuation_chars hSymbol c hc).1
  obtain ⟨c, hc, -, hMark⟩ := punctuation_last hSymbol
  refine ⟨scanSymbol s v, fun more => ?_, ?_⟩
  · rw [scanSymbol, scanSymbol, isPrefixOf?_front hMeets.digit hNoDigits,
      Option.map_map, Option.map_map]
    rfl
  · intro taken hTaken
    obtain ⟨rest, hRest, rfl⟩ := Option.map_eq_some_iff.mp hTaken
    rw [List.isPrefixOf?_eq_some_iff_append_eq] at hRest
    subst hRest
    -- a symbol ends with a mark, so what follows is a front
    exact hFront.behind_mark hMeets (Token.WellFormed.outside (t := .symbol s) hSymbol)
      ⟨c, hc, hMark⟩

/-- Keywords are found without a look behind the digit. -/
theorem scanKeyword_steady (hMeets : Meets pre d) (k : Keyword) :
    Steady pre d (scanKeyword k) := by
  intro v hFront
  -- the digit itself is what may follow the keyword
  have hNext : ∀ rest more : List Char, (rest ++ d :: more).head? = (rest ++ [d]).head? := by
    intro rest more
    cases rest <;> rfl
  refine ⟨(k.chars.isPrefixOf? v).bind fun rest =>
    if (rest ++ [d]).head?.any Text.isAlphanumeric then none else some ((), rest),
    fun more => ?_, ?_⟩
  · rw [scanKeyword, isPrefixOf?_front hMeets.digit k.no_digits, Option.bind_map, Option.map_bind]
    congr 1
    funext rest
    rw [Function.comp_apply, Function.comp_apply, hNext]
    split <;> rfl
  · intro taken hTaken
    obtain ⟨rest, hRest, hEnd⟩ := Option.bind_eq_some_iff.mp hTaken
    rw [List.isPrefixOf?_eq_some_iff_append_eq] at hRest
    subst hRest
    split at hEnd
    · cases hEnd
    · rename_i hOpen
      cases hEnd
      refine hFront.behind_word hMeets (Token.WellFormed.outside (t := .keyword k) trivial) ?_
      intro c hc hDigit
      rw [← Bool.not_eq_true]
      intro hWord
      obtain hLetter | rfl := nameChar_alphanumeric hWord
      · obtain ⟨rest', rfl⟩ := List.head?_eq_some_iff.mp hc
        exact hOpen hLetter
      · cases hDigit

/-- Single signs are found without a look behind the digit. -/
theorem scanSingle_steady (hMeets : Meets pre d) : Steady pre d (scanSingle ['+', '-']) := by
  intro v hFront
  cases v with
  | nil =>
    -- the digit itself is no sign
    refine ⟨none, fun more => ?_, nofun⟩
    have hSign : ['+', '-'].contains d = false := by
      rw [← Bool.not_eq_true, List.contains_iff_mem]
      intro hMem
      have hDigit := hMeets.digit
      rw [(punctuation_chars (sign_symbol hMem) d (List.mem_singleton_self d)).1] at hDigit
      cases hDigit
    rw [List.nil_append, scanSingle, hSign, Bool.false_and]
    rfl
  | cons c v =>
    -- a sign is single by what stands right behind it, and that is never behind the digit
    have hNext : ∀ more : List Char, (v ++ d :: more).head? = (v ++ [d]).head? := by
      intro more
      cases v <;> rfl
    refine ⟨if ['+', '-'].contains c && (v ++ [d]).head? != some c then some (String.singleton c, v)
      else none, fun more => ?_, ?_⟩
    · rw [List.cons_append, scanSingle, hNext]
      split <;> rfl
    · intro taken hTaken
      split at hTaken
      · rename_i hSign
        cases hTaken
        rw [Bool.and_eq_true, List.contains_iff_mem] at hSign
        have hSymbol := sign_symbol hSign.1
        have hMark := (punctuation_chars hSymbol c (List.mem_singleton_self c)).2
        exact Front.behind_mark (s := [c]) hFront hMeets
          (Token.WellFormed.outside (t := .symbol [c]) hSymbol) ⟨c, rfl, hMark⟩
      · cases hTaken

/-- A run of characters that ends in front of the digit, or does not go on with it. -/
theorem takeWhile_front {p : Char → Bool} (h : (∃ c ∈ v, p c = false) ∨ p d = false)
    (more : List Char) : (v ++ d :: more).takeWhile p = v.takeWhile p ∧
      (v ++ d :: more).dropWhile p = v.dropWhile p ++ d :: more := by
  induction v with
  | nil =>
    -- an empty text: the run stops at the digit if it stops anywhere
    obtain ⟨c, hc, -⟩ | hd := h
    · cases hc
    · simp [hd]
  | cons e v ih =>
    by_cases he : p e = true
    · have hRest : (∃ c ∈ v, p c = false) ∨ p d = false := by
        refine h.imp_left ?_
        rintro ⟨c, hc, hNo⟩
        obtain rfl | hc := List.mem_cons.mp hc
        · rw [he] at hNo
          cases hNo
        · exact ⟨c, hc, hNo⟩
      simpa [he] using ih hRest
    · simp [he]

/-- Names are found without a look behind the digit. -/
theorem scanName_steady (hMeets : Meets pre d) : Steady pre d scanName := by
  intro v hFront
  by_cases hNone : v = []
  · subst hNone
    refine ⟨none, fun more => ?_, nofun⟩
    -- no name starts with a digit
    have hNoName : isName ((d :: more).takeWhile isNameChar) = false := by
      rw [← Bool.not_eq_true]
      intro hName
      obtain ⟨⟨c, s, hWord, hStart⟩, -, -⟩ := isName_iff.mp hName
      have hFirst : c = d := by
        rw [List.takeWhile_cons] at hWord
        split at hWord
        · exact (List.cons.inj hWord).1.symm
        · cases hWord
      have hDigit := hMeets.digit
      rw [← hFirst, not_digit_of_nameStart hStart] at hDigit
      cases hDigit
    rw [List.nil_append, scanName, hNoName]
    rfl
  · -- a name that reaches the digit ends there
    have hEnds : (∃ c ∈ v, isNameChar c = false) ∨ isNameChar d = false := by
      by_cases hWord : ∃ c ∈ v, isNameChar c = false
      · exact .inl hWord
      · right
        obtain ⟨front, hPre⟩ := hFront.suffix
        refine hMeets.apart (v.getLast hNone) ?_ ?_
        · rw [← hPre]
          exact List.mem_getLast?_append_of_mem_getLast? (List.getLast?_eq_some_getLast hNone)
        · by_contra hLast
          exact hWord ⟨_, List.getLast_mem hNone, by simpa using hLast⟩
    refine ⟨scanName v, fun more => ?_, ?_⟩
    · obtain ⟨hTake, hDrop⟩ := takeWhile_front hEnds more
      rw [scanName, scanName, hTake, hDrop]
      split <;> rfl
    · intro taken hTaken
      rw [scanName] at hTaken
      split at hTaken
      · rename_i hName
        cases hTaken
        have hToken : (Token.name default (String.ofList (v.takeWhile isNameChar))).WellFormed := by
          show isName (String.ofList (v.takeWhile isNameChar)).toList = true
          rw [String.toList_ofList]
          exact hName
        have hOutside := hToken.outside
        rw [show (Token.name default _).chars = _ from String.toList_ofList] at hOutside
        refine Front.behind_word (s := v.takeWhile isNameChar) ?_ hMeets hOutside ?_
        · rw [List.takeWhile_append_dropWhile]
          exact hFront
        · intro c hc _
          have hStop := List.head?_dropWhile_not isNameChar v
          rw [Option.mem_def.mp hc] at hStop
          simpa using hStop
      · cases hTaken

/-- What is scanned behind the first quote ends with a quote. -/
theorem scanStringBody_last {cs body rest : List Char} (h : scanStringBody cs = some (body, rest)) :
    body.getLast? = some '"' := by
  fun_induction scanStringBody cs generalizing body rest with
  | case1 => cases h
  | case2 cs =>
    cases h
    rfl
  | case3 c cs hNewline => cases h
  | case4 c cs hNewline ih =>
    obtain ⟨⟨inner, mid⟩, hInner, hResult⟩ := Option.map_eq_some_iff.mp h
    cases hResult
    rw [List.getLast?_cons, List.getLast?_cons, ih hInner]
    -- the last character of the body is the last one of what follows it
    rfl
  | case5 c cs hQuote hEscape hStop => cases h
  | case6 c cs hQuote hEscape hStop ih =>
    obtain ⟨⟨inner, mid⟩, hInner, hResult⟩ := Option.map_eq_some_iff.mp h
    cases hResult
    rw [List.getLast?_cons, ih hInner]
    rfl

/-- A string ends with its closing quote. -/
theorem string_last {literal : String} (h : scanString literal.toList = some (literal, [])) :
    literal.toList.getLast? = some '"' := by
  obtain ⟨s, hChars⟩ := string_quote h
  rw [hChars] at h ⊢
  obtain ⟨⟨body, mid⟩, hBody, hResult⟩ := Option.map_eq_some_iff.mp h
  obtain ⟨hLiteral, -⟩ := Prod.mk.inj hResult
  rw [← hLiteral, String.toList_ofList] at hChars
  cases hChars
  rw [List.getLast?_cons, scanStringBody_last hBody]
  rfl

/-- A string that is closed is read as far as that, or a line feed ends it before. -/
theorem scanStringBody_inside (h : Region.string.after v = .code) (more : List Char) :
    scanStringBody (v ++ more) =
      (scanStringBody v).map fun (body, rest) => (body, rest ++ more) := by
  fun_induction scanStringBody v with
  | case1 => cases h
  -- the closing quote is in the piece, and what follows is rest in both cases
  | case2 rest => rfl
  | case3 c rest hNewline =>
    rw [List.cons_append, List.cons_append, scanStringBody, if_pos hNewline]
    rfl
  | case4 c rest hNewline ih =>
    rw [List.cons_append, List.cons_append, scanStringBody, if_neg hNewline, ih h, Option.map_map,
      Option.map_map]
    rfl
  | case5 c rest hQuote hEscape hStop =>
    -- a line feed ends the search in both texts
    rw [Bool.or_eq_true, beq_iff_eq, beq_iff_eq] at hStop
    obtain rfl | rfl := hStop
    · rfl
    · -- a backslash at the end leaves the string open
      cases rest with
      | nil => cases h
      | cons c rest => exact (hEscape c rest rfl rfl).elim
  | case6 c rest hQuote hEscape hStop ih =>
    have hPlain : c ≠ '\\' := by
      rintro rfl
      exact hStop rfl
    have hNext : Region.string.next c = .string := by
      have hNoQuote : c ≠ '"' := hQuote
      simp [Region.next, hNoQuote, hPlain]
    rw [Region.after_cons, hNext] at h
    rw [List.cons_append, scanStringBody, if_neg hStop, ih h, Option.map_map, Option.map_map]
    · rfl
    · exact hQuote
    · exact fun _ _ hEq _ => hPlain hEq

/-- Strings are found without a look behind the digit. -/
theorem scanString_steady (hMeets : Meets pre d) : Steady pre d scanString := by
  intro v hFront
  have hOther : ∀ {c : Char}, c ≠ '"' → ∀ rest, scanString (c :: rest) = none := by
    intro c hc rest
    rw [scanString]
    exact fun _ hText => hc (List.cons.inj hText).1
  cases v with
  | nil =>
    refine ⟨none, fun more => hOther ?_ more, fun taken hTaken => by cases hTaken⟩
    rintro rfl
    exact absurd hMeets.digit (by decide)
  | cons c v =>
    by_cases hQuote : c = '"'
    · subst hQuote
      -- the fork is outside of strings, so the literal is closed in front of it
      have hInside : Region.string.after v = .code := hFront.outside
      refine ⟨scanString ('"' :: v), fun more => ?_, ?_⟩
      · rw [List.cons_append, scanString, scanString, scanStringBody_inside hInside, Option.map_map,
          Option.map_map]
        rfl
      · rintro ⟨literal, rest⟩ hTaken
        obtain ⟨hText, hAgain⟩ := scanString_append hTaken
        have hToken : (Token.string default literal).WellFormed := by
          have hSelf := hAgain []
          rw [List.append_nil] at hSelf
          exact hSelf
        -- a literal ends with its quote, so what follows is a front
        rw [hText] at hFront
        exact hFront.behind_mark hMeets hToken.outside ⟨'"', string_last hToken, by decide⟩
    · exact ⟨none, fun more => hOther hQuote _, fun taken hTaken => by cases hTaken⟩

/-! ## Side by side up to the digit -/

/-- The two texts that go on differently behind the digit. The reading of the first one may halt at
the number that starts there. -/
def SideBySide.forked (pre : List Char) (d : Char) (long short : List Char) : SideBySide where
  ctx := contextOf maxDigits (pre ++ d :: long)
  ctx' := contextOf maxDigits (pre ++ d :: short)
  Alike cs cs' := ∃ v, Front pre v ∧ cs = v ++ d :: long ∧ cs' = v ++ d :: short
  Stops _ := True
  Halts n := n = ((d :: long).takeWhile Text.isDecimalDigit).length

section Forked

variable (hMeets : Meets pre d)
include hMeets

/-- A steady scan makes two parsers that go in step up to the digit. -/
theorem Steady.lockstep {scan : List Char → Option (α × List Char)} (hScan : Steady pre d scan) :
    Lockstep (.forked pre d long short) (lexeme scan) := by
  rintro _ _ ⟨v, hFront, rfl, rfl⟩
  obtain ⟨w, hRest, hSkip⟩ := hFront.skip hMeets
  obtain ⟨taken?, hTaken, hLeft⟩ := hScan w hRest
  rw [lexeme, lexeme, hSkip, hSkip, hTaken, hTaken]
  cases taken? with
  | none => exact .rejected
  | some taken => exact .matched taken.1 ⟨taken.2, hLeft taken rfl, rfl, rfl⟩

/-- The number at the digit is the only lexeme that is read from what differs. -/
theorem number_forked (hLong : maxDigits < ((d :: long).takeWhile Text.isDecimalDigit).length) :
    Lockstep (.forked pre d long short) number := by
  rintro _ _ ⟨v, hFront, rfl, rfl⟩
  obtain ⟨w, hRest, hSkip⟩ := hFront.skip hMeets
  by_cases hNone : w = []
  · subst hNone
    have hHalt : number (SideBySide.forked pre d long short).ctx (v ++ d :: long) =
        .tooLong ((d :: long).takeWhile Text.isDecimalDigit).length := by
      change number ⟨_, maxDigits⟩ _ = _
      rw [number, hSkip, List.nil_append, if_neg, if_pos hLong]
      rw [List.takeWhile_cons, hMeets.digit]
      exact Bool.false_ne_true
    rw [hHalt]
    exact .halted rfl _
  · obtain ⟨c, hc, hNo⟩ := hRest.whole hNone
    have hTake := fun more => takeWhile_front (d := d) (.inl ⟨c, hc, hNo⟩) more
    -- both readings are told the same limit
    change Agree _ (number ⟨_, maxDigits⟩ _) (number ⟨_, maxDigits⟩ _)
    rw [number, number, hSkip, hSkip, (hTake long).1, (hTake short).1, (hTake long).2,
      (hTake short).2]
    dsimp only
    split
    · exact .rejected
    · rename_i hSome
      split
      · exact .tooLong trivial
      · refine .matched _ ⟨w.dropWhile Text.isDecimalDigit, ?_, rfl, rfl⟩
        have hToken : (Token.number default (w.takeWhile Text.isDecimalDigit)).WellFormed :=
          ⟨by simpa using hSome, fun e he => List.mem_takeWhile_imp he⟩
        refine Front.behind_word (s := w.takeWhile Text.isDecimalDigit) ?_ hMeets hToken.outside ?_
        · rw [List.takeWhile_append_dropWhile]
          exact hRest
        · intro e he hDigit
          have hStop := List.head?_dropWhile_not Text.isDecimalDigit w
          rw [Option.mem_def.mp he] at hStop
          simp [hDigit] at hStop

/-- All lexemes go in step up to the digit, where the first text has an overlong number. -/
theorem forked_lexed (hLong : maxDigits < ((d :: long).takeWhile Text.isDecimalDigit).length) :
    (SideBySide.forked pre d long short).Lexed where
  here := by
    rintro _ _ ⟨v, hFront, rfl, rfl⟩
    obtain ⟨w, hRest, hSkip⟩ := hFront.skip hMeets
    rw [hSkip, hSkip]
    -- the positions are those in the text up to the digit
    have hEnding : w ++ [d] <:+ pre ++ [d] := by
      obtain ⟨front, rfl⟩ := hRest.suffix
      exact ⟨front, (List.append_assoc _ _ _).symm⟩
    have hPlace : ∀ more, Text.locate (pre ++ d :: more) (w ++ d :: more) =
        Text.locate (pre ++ [d]) (w ++ [d]) := by
      intro more
      have hFork := Text.locate_front more hEnding (by simp)
      rw [List.append_assoc, List.append_assoc] at hFork
      exact hFork
    exact (hPlace long).trans (hPlace short).symm
  symbol _ hSymbol := (scanSymbol_steady hMeets hSymbol).lockstep hMeets
  keyword k := (scanKeyword_steady hMeets k).lockstep hMeets
  single := (scanSingle_steady hMeets).lockstep hMeets
  name := (scanName_steady hMeets).lockstep hMeets
  number := number_forked hMeets hLong
  string := (scanString_steady hMeets).lockstep hMeets
  endOfText := by
    refine Steady.lockstep hMeets fun v _ => ⟨none, fun more => ?_, nofun⟩
    rw [if_neg]
    · rfl
    · simp

/-- **The end of the reading.** If a text is a program that has a number behind `pre`, and another
one has a number there that is too long, the reading of that one ends with it. -/
theorem parse_overlong (hOutside : Outside pre)
    (hLong : maxDigits < ((d :: long).takeWhile Text.isDecimalDigit).length) {q : Program}
    (hRead : parse (String.ofList (pre ++ d :: short)) = .ok q) :
    parse (String.ofList (pre ++ d :: long)) =
      .error (.numberTooLong ((d :: long).takeWhile Text.isDecimalDigit).length) := by
  have hLexed : (SideBySide.forked pre d long short).Lexed := forked_lexed hMeets hLong
  have hBoth := hLexed.program_lockstep _ _ ⟨pre, .all hMeets hOutside, rfl, rfl⟩
  rw [parse, parseUpTo_eq_ok, String.toList_ofList] at hRead
  change Agree _ (program (contextOf maxDigits (pre ++ d :: long)) (pre ++ d :: long))
    (program (contextOf maxDigits (pre ++ d :: short)) (pre ++ d :: short)) at hBoth
  rw [hRead] at hBoth
  rw [parse, parseUpTo, String.toList_ofList]
  generalize program (contextOf maxDigits (pre ++ d :: long)) (pre ++ d :: long) = outcome at hBoth
  cases hBoth with
  | matched p hRest =>
    -- the digit would be left in both texts
    obtain ⟨v, -, -, hNothing⟩ := hRest
    exact absurd hNothing.symm (by simp)
  | halted hHalts => rw [show _ = _ from hHalts]

end Forked

/-! ## Texts that meet a digit -/

namespace Meets

/-- Behind a text that does not end with a digit, and not like a name that the digit goes on
with. -/
theorem of_last (hDigit : Text.isDecimalDigit d = true) {c : Char} (hLast : c ∈ pre.getLast?)
    (hNoDigit : Text.isDecimalDigit c = false)
    (hApart : isNameChar c = true → isNameChar d = false) : Meets pre d where
  digit := hDigit
  apart e he := by
    obtain rfl := Option.some.inj (hLast.symm.trans he)
    exact hApart
  inWord w v hText hSome hDigits := by
    subst hText
    -- the last of the digits would be the last character of the text, which is none
    have hEnd : v.getLast hSome ∈ (w ++ v).getLast? :=
      List.mem_getLast?_append_of_mem_getLast? (List.getLast?_eq_some_getLast hSome)
    have hSame := Option.some.inj (hLast.symm.trans hEnd)
    rw [hSame, hDigits _ (List.getLast_mem hSome)] at hNoDigit
    cases hNoDigit

/-- What stands further in front changes nothing. -/
theorem append (h : Meets pre d) (hSome : pre ≠ []) (front : List Char) :
    Meets (front ++ pre) d where
  digit := h.digit
  apart c hc := by
    rw [List.getLast?_append_of_ne_nil front hSome] at hc
    exact h.apart c hc
  inWord w v hText hV hDigits := by
    rcases List.append_eq_append_iff.mp hText with ⟨inner, rfl, hPre⟩ | ⟨inner, -, rfl⟩
    · obtain ⟨hWord, c, hc, hLast⟩ := h.inWord inner v hPre hV hDigits
      exact ⟨hWord, c, List.mem_getLast?_append_of_mem_getLast? hc, hLast⟩
    · -- all of the text would be the last digits of a word
      obtain ⟨-, c, hc, -⟩ := h.inWord [] pre rfl hSome fun c hc =>
        hDigits c (List.mem_append_right inner hc)
      cases hc

/-- Trivia in front of a digit, if there is any, keeps it from all words. -/
theorem of_gap (hDigit : Text.isDecimalDigit d = true) (hGap : Trivia gap) : Meets gap d := by
  -- without trivia nothing is in front; otherwise its last character decides
  by_cases hNone : gap = []
  · subst hNone
    exact ⟨hDigit, nofun, fun w v hText hSome =>
      absurd (List.append_eq_nil_iff.mp hText.symm).2 hSome⟩
  · obtain ⟨c, hc, hBlank⟩ := hGap.last hNone
    have hOther : ∀ p : Char → Bool, (∀ d, p d = true → startsToken d = true) → p c = false := by
      intro p hStarts
      rw [← Bool.not_eq_true]
      intro hp
      rw [hStarts c hp] at hBlank
      cases hBlank
    refine of_last hDigit hc (hOther _ fun _ => digit_startsToken) fun hWord => ?_
    rw [hOther _ fun _ => nameChar_startsToken] at hWord
    cases hWord

/-- A keyword that ends in front of the digit. -/
theorem of_keyword (hDigit : Text.isDecimalDigit d = true) (k : Keyword)
    (hEnded : Text.isAlphanumeric d = false) (front : List Char) : Meets (front ++ k.chars) d := by
  have hLast := List.getLast?_eq_some_getLast k.chars_ne_nil
  refine of_last hDigit (List.mem_getLast?_append_of_mem_getLast? hLast)
    (k.no_digits _ (List.getLast_mem _)) fun _ => ?_
  rw [← Bool.not_eq_true]
  intro hWord
  obtain hLetter | rfl := nameChar_alphanumeric hWord
  · rw [hEnded] at hLetter
    cases hLetter
  · cases hDigit

/-- Only in a word do digits stand in front of the digit, and the first of a word is none. -/
theorem of_name (hDigit : Text.isDecimalDigit d = true) {word : List Char}
    (hName : isName word = true) (hEnded : isNameChar d = false) (front : List Char) :
    Meets (front ++ word) d where
  digit := hDigit
  apart _ _ _ := hEnded
  inWord w v hText hSome hDigits := by
    obtain ⟨⟨c, s, rfl, hStart⟩, hAll, -⟩ := isName_iff.mp hName
    -- a name starts with no digit, so its digits at the end are not all of it
    have hFirst : ∀ v : List Char, (∀ e ∈ v, Text.isDecimalDigit e = true) → c ∉ v := by
      intro v hDigits hc
      have hNoDigit := hDigits c hc
      rw [not_digit_of_nameStart hStart] at hNoDigit
      cases hNoDigit
    rcases List.append_eq_append_iff.mp hText with ⟨inner, rfl, hWord⟩ | ⟨inner, -, rfl⟩
    · rw [hWord] at hAll
      refine ⟨fun e he => hAll e (List.mem_append_right inner he), ?_⟩
      cases inner with
      | nil =>
        rw [List.nil_append] at hWord
        subst hWord
        exact absurd List.mem_cons_self (hFirst _ hDigits)
      | cons e inner =>
        have hInner : e :: inner ≠ [] := List.cons_ne_nil e inner
        exact ⟨_, List.mem_getLast?_append_of_mem_getLast? (List.getLast?_eq_some_getLast hInner),
          hAll _ (List.mem_append_left v (List.getLast_mem hInner))⟩
    · exact absurd (List.mem_append_right inner List.mem_cons_self) (hFirst _ hDigits)

/-- A token that ends in front of the digit. -/
theorem of_token (hDigit : Text.isDecimalDigit d = true) (hForm : t.WellFormed)
    (hEnded : t.Ended (d :: more)) (front : List Char) : Meets (front ++ t.chars) d := by
  -- only names and words can go on with a digit; the others end with what is in no word, and a
  -- number would have gone on
  cases t with
  | keyword k => exact of_keyword hDigit k (hEnded d rfl) front
  | truth pos value => exact of_keyword hDigit (Token.truthWord value) (hEnded d rfl) front
  | name pos word => exact of_name hDigit hForm (hEnded d rfl) front
  | number pos digits =>
    have hOther : Text.isDecimalDigit d = false := hEnded d rfl
    rw [hDigit] at hOther
    cases hOther
  | string pos literal =>
    have hQuote : '"' ∈ literal.toList.getLast? := string_last hForm
    exact of_last hDigit (List.mem_getLast?_append_of_mem_getLast? hQuote) (by decide)
      fun hWord => absurd hWord (by decide)
  | symbol s =>
    obtain ⟨c, hc, hNoDigit, hMark⟩ := punctuation_last hForm
    exact of_last hDigit (List.mem_getLast?_append_of_mem_getLast? hc) hNoDigit
      fun hWord => by rw [hMark] at hWord; cases hWord

end Meets

end NameResolution.Grammar
