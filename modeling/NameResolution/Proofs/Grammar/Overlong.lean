import NameResolution.Proofs.Grammar.Dialects
import NameResolution.Proofs.Grammar.Forked
import NameResolution.Proofs.Grammar.Shortened

/-!
# Overlong numbers — the first one is reported

A source may be a program but for the length of its numbers. Let all the numbers from the first
overlong one on be cut down to their first digits: that text is a program, and up to the first digit
of that number it is the same text. So the reading of the source ends with that number.

* `parse_first_overlong` — the number that ends the reading.
* `Unlimited`, `unlimited_iff` — sources that are programs if numbers may have any length.
* `parseUpTo_ok_iff` — what is read under a limit.
* `parse_unlimited` — what they are read as.
-/

namespace NameResolution

/-- The position and the value of an integer literal. -/
def Mark.integer? : Mark → Option (Position × Int)
  | number pos value => some (pos, value)
  | name _ | truth _ _ | string _ _ | operator _ => none

/-- The integer literals of a program, in the order of the text. -/
def Program.integers (p : Program) : List (Position × Int) :=
  p.marks.filterMap Mark.integer?

namespace Grammar

open NameResolution.Grammar.Parser

variable {limit : Nat} {ts us vs : List Token} {t : Token} {behind : Bool} {d : Char}
  {s cs mid rest gap more : List Char}

/-! ## The first overlong number of a source -/

/-- Where tokens and trivia are in front of a digit, the digit starts a token. -/
theorem SignedCut.meets (h : FoundBehind behind us cs mid) (hForm : Formed us)
    (hGap : Trivia gap) (hMid : mid = gap ++ d :: more) (hDigit : Text.isDecimalDigit d = true) :
    ∃ pre, cs = pre ++ d :: more ∧ Outside pre ∧ Meets pre d := by
  induction h with
  | nil behind cs => exact ⟨gap, hMid, hGap.outside, .of_gap hDigit hGap⟩
  | @cons behind t ts cs mid' rest hText hSome hEnded _ _ ih =>
    obtain ⟨hToken, hOthers⟩ := List.forall_mem_cons.mp hForm
    obtain ⟨pre, rfl, hOutside, hMeets⟩ := ih hOthers hMid
    -- the tokens behind it end in front of the digit, or none of them is left and this one does
    obtain ⟨front, hFront, rfl⟩ := trivia_of_token hText hSome
    refine ⟨front ++ (t.chars ++ pre), by simp, ?_, ?_⟩
    · rw [hFront.outside.append_iff, hToken.outside.append_iff]
      exact hOutside
    · by_cases hNone : pre = []
      · subst hNone
        rw [List.append_nil]
        exact .of_token hDigit hToken hEnded front
      · rw [← List.append_assoc]
        exact hMeets.append hNone _

/-- In the place of a number with all that follows it, its first digit and the tokens behind it,
shortened, are found behind the same text. -/
theorem SignedCut.fork {front ds back : List Char} {pos : Position}
    (hUs : FoundBehind behind us cs mid) (hFirst : Formed us) (hFront : cs = front ++ mid)
    (hGap : Trivia gap) (hMid : mid = gap ++ d :: (ds ++ back))
    (hDigit : Text.isDecimalDigit d = true)
    (hEnded : (Token.number pos (d :: ds)).Ended back) (hOthers : Formed vs)
    (hVs : FoundBehind true vs back rest) :
    ∃ back', FoundBehind behind (us ++ .number pos [d] :: vs.map Token.shorten)
      (front ++ (gap ++ d :: back')) rest := by
  obtain ⟨back', hBack, hHead⟩ := FoundBehind.shorten hVs hOthers
  have hToken : (Token.number pos [d]).WellFormed :=
    ⟨List.cons_ne_nil d [], List.forall_mem_singleton.mpr hDigit⟩
  have hSkip : skipTrivia (gap ++ d :: back') = [d] ++ back' := by
    rw [hGap.skip]
    exact hToken.skip back'
  have hSecond : FoundBehind true (.number pos [d] :: vs.map Token.shorten) (gap ++ d :: back')
      rest :=
    .cons hSkip hToken.ne_nil (hEnded.of_head hHead) (fun _ => not_false) hBack
  -- the tokens in front end at the same character
  have hEdge : ∀ t : Token, t.WellFormed → t.chars <:+ front →
      t.EndsAlike mid (gap ++ d :: back') := by
    intro t _ _
    have hSame : (gap ++ d :: back').head? = mid.head? := by
      rw [hMid]
      cases gap <;> rfl
    exact ⟨fun hEnd => hEnd.of_head hSame, fun hDouble => hDouble.of_head hSame⟩
  exact ⟨back', (FoundBehind.replace hUs hFirst hFront hEdge).append hSecond⟩

/-- The first number of the tokens that is too long ends the reading. -/
theorem parse_first_overlong {source : String} {p : Program} {pos : Position} {digits : List Char}
    (hDerives : DerivesProgram .unlimited (us ++ .number pos digits :: vs) p)
    (hCut : FoundBehind behind (us ++ .number pos digits :: vs) source.toList rest)
    (hEnd : skipTrivia rest = []) (hShort : us.map Token.shorten = us)
    (hLong : maxDigits < digits.length) :
    parse source = .error (.numberTooLong digits.length) := by
  have hForm := hDerives.formed
  rw [Formed, List.forall_mem_append, List.forall_mem_cons] at hForm
  obtain ⟨hFirst, hNumber, hOthers⟩ := hForm
  obtain ⟨mid, hUs, hRest⟩ := SignedCut.split hCut
  cases hRest with
  | @cons _ _ _ _ back _ hText hSome hEnded _ hVs =>
    obtain ⟨gap, hGap, hGapText⟩ := trivia_of_token hText hSome
    obtain ⟨d, ds, rfl⟩ := List.exists_cons_of_ne_nil hNumber.1
    have hMid : mid = gap ++ d :: (ds ++ back) := hGapText
    have hDigit : Text.isDecimalDigit d = true := hNumber.2 d List.mem_cons_self
    obtain ⟨front, hFront⟩ := hUs.suffix
    obtain ⟨back', hFork⟩ := hUs.fork hFirst hFront.symm hGap hMid hDigit hEnded hOthers hVs
    obtain ⟨pre, hPre, hOutside, hMeets⟩ := hUs.meets hFirst hGap hMid hDigit
    -- the text in front of the digit is the same in both texts
    have hSame : front ++ gap = pre := by
      refine (List.append_left_inj (d :: (ds ++ back))).mp ?_
      rw [List.append_assoc, ← hMid, hFront, hPre]
    have hNewText : front ++ (gap ++ d :: back') = (String.ofList (pre ++ d :: back')).toList := by
      rw [String.toList_ofList, ← hSame, List.append_assoc]
    rw [hNewText] at hFork
    obtain ⟨p', hShorter⟩ := hDerives.shorten
    have hOne : (Token.number pos (d :: ds)).shorten = .number pos [d] := by
      rw [Token.shorten, shortDigits, if_pos hLong]
      rfl
    rw [List.map_append, List.map_cons, hShort, hOne] at hShorter
    obtain ⟨q, hRead, -⟩ := parse_found hShorter hFork.unsigned hEnd
    -- the number is read as far as it goes
    have hRun : (d :: (ds ++ back)).takeWhile Text.isDecimalDigit = d :: ds :=
      (takeWhile_append_stop hNumber.2 hEnded).1
    have hHalt : parse (String.ofList (pre ++ d :: (ds ++ back))) =
        .error (.numberTooLong ((d :: (ds ++ back)).takeWhile Text.isDecimalDigit).length) :=
      parse_overlong hMeets hOutside (by rw [hRun]; exact hLong) hRead
    rw [← hPre, String.ofList_toList, hRun] at hHalt
    exact hHalt

/-! ## Numbers of any length -/

/-- The position and the digits of a number. -/
def Token.number? : Token → Option (Position × List Char)
  | number pos digits => some (pos, digits)
  | keyword _ | symbol _ | truth _ _ | name _ _ | string _ _ => none

/-- The numbers among the tokens. -/
def numbersOf (ts : List Token) : List (Position × List Char) :=
  ts.filterMap Token.number?

/-- The tokens as the parser finds them, with their positions, and numbers of any length. -/
abbrev PlacedCut (locate : List Char → Position) :
    Bool → List Token → List Char → List Char → Prop :=
  SignedCut fun start mid t => t.Ended mid ∧ ∀ pos ∈ t.pos?, pos = locate start

/-- The source is a program with that tree if numbers may have any length: it is cut into the tokens
as the parser cuts it, and they derive the tree. -/
structure Unlimited (source : String) (ts : List Token) (p : Program) : Prop where
  derives : DerivesProgram .unlimited ts p
  cut : ∃ rest, PlacedCut (Text.locate source.toList) false ts source.toList rest ∧
    skipTrivia rest = []

/-- The integers of a program are the values of its numbers, in the order of the text. -/
theorem integers_of_tokens {p : Program} (h : DerivesProgram .unlimited ts p) :
    p.integers = (numbersOf ts).map fun n => (n.1, (Text.decimalValue n.2 : Int)) := by
  rw [Program.integers, ← h.marks, marksOf, numbersOf, List.filterMap_filterMap,
    List.map_filterMap]
  refine List.filterMap_congr fun t _ => ?_
  cases t with
  | symbol s =>
    rw [Token.mark?]
    split <;> rfl
  | keyword | truth | name | number | string => rfl

/-- No number of the tokens has more digits. -/
def Short (limit : Nat) (ts : List Token) : Prop :=
  ∀ n ∈ numbersOf ts, n.2.length ≤ limit

/-- Fewer tokens have no overlong numbers either. -/
theorem Short.mono (h : Short limit ts) (hPart : us.Sublist ts) : Short limit us :=
  fun n hn => h n ((hPart.filterMap Token.number?).subset hn)

/-- Short numbers are those of the grammar with a limit. -/
theorem short_transfers : Transfers .unlimited (.orderedUpTo limit) (Short limit) where
  part h hPart := h.mono hPart.sublist
  arguments _ hList := hList
  formals _ hList := hList
  operand _ _ hLead := hLead
  opening _ _ hLead := hLead
  digits h _ := h _ (List.mem_singleton_self _)

/-- Numbers that keep to a limit are numbers. -/
theorem any_transfers : Transfers (.orderedUpTo limit) .unlimited fun _ => True where
  part _ _ := trivial
  arguments _ hList := hList
  formals _ hList := hList
  operand _ _ hLead := hLead
  opening _ _ hLead := hLead
  digits _ _ := trivial

/-- The parser finds the tokens if no number is too long. -/
theorem seenCut_iff {ctx : Context} : SeenCut ctx behind ts cs rest ↔
    PlacedCut ctx.locate behind ts cs rest ∧ Short ctx.limit ts := by
  constructor
  · intro h
    -- only numbers are asked about their length, each one where it is read
    induction h with
    | nil behind cs => exact ⟨.nil behind cs, nofun⟩
    | @cons behind t ts cs mid rest hText hSome hBound hSingle _ ih =>
      obtain ⟨hCut, hOthers⟩ := ih
      refine ⟨.cons hText hSome ⟨hBound.1.ended, hBound.2⟩ hSingle hCut, ?_⟩
      cases t with
      | number pos digits => exact List.forall_mem_cons.mpr ⟨hBound.1.2, hOthers⟩
      | keyword | symbol | truth | name | string => exact hOthers
  · rintro ⟨h, hShort⟩
    -- the other way, too, a token only needs what the list says of the numbers in it
    induction h with
    | nil behind cs => exact .nil behind cs
    | @cons behind t ts cs mid rest hText hSome hBound hSingle _ ih =>
      have hRead : t.Read ctx.limit mid := by
        cases t with
        | number pos digits => exact ⟨hBound.1, hShort (pos, digits) List.mem_cons_self⟩
        | keyword | symbol | truth | name | string => exact hBound.1
      exact .cons hText hSome ⟨hRead, hBound.2⟩ hSingle
        (ih (hShort.mono (List.sublist_cons_self t ts)))

/-- A cut with positions is one without them. -/
theorem PlacedCut.found {locate : List Char → Position} (h : PlacedCut locate behind ts cs rest) :
    FoundBehind behind ts cs rest := by
  induction h with
  | nil behind cs => exact .nil behind cs
  | cons hText hSome hBound hSingle _ ih => exact .cons hText hSome hBound.1 hSingle ih

/-- The sources that are read as a program are those that are one if numbers may have any length,
and in which no number is too long. -/
theorem parseUpTo_ok_iff {source : String} {p : Program} :
    parseUpTo limit source = .ok p ↔ ∃ ts, Unlimited source ts p ∧ Short limit ts := by
  constructor
  · intro h
    obtain ⟨ts, rest, hCut, hEnd, hDerives⟩ := parseUpTo_seen h
    obtain ⟨hPlaced, hShort⟩ := seenCut_iff.mp hCut
    exact ⟨ts, ⟨hDerives.transfer any_transfers trivial, rest, hPlaced.unsigned, hEnd⟩, hShort⟩
  · rintro ⟨ts, ⟨hDerives, rest, hCut, hEnd⟩, hShort⟩
    exact parseUpTo_located (hDerives.transfer short_transfers hShort)
      (seenCut_iff.mpr ⟨hCut, hShort⟩) hEnd

/-- A source is read as a program exactly if it is one with numbers of any length, and none of
its numbers is too long. -/
theorem parse_ok_iff {source : String} {p : Program} :
    parse source = .ok p ↔ ∃ ts, Unlimited source ts p ∧ Short maxDigits ts :=
  parseUpTo_ok_iff

/-- Some limit is large enough for all the numbers. -/
theorem exists_short (ts : List Token) : ∃ limit, Short limit ts := by
  induction ts with
  | nil => exact ⟨0, nofun⟩
  | cons t ts ih =>
    obtain ⟨limit, hOthers⟩ := ih
    cases t with
    | number pos digits =>
      refine ⟨max digits.length limit, List.forall_mem_cons.mpr ⟨Nat.le_max_left _ _, ?_⟩⟩
      exact fun n hn => Nat.le_trans (hOthers n hn) (Nat.le_max_right _ _)
    | keyword | symbol | truth | name | string => exact ⟨limit, hOthers⟩

/-- A source is a program with numbers of any length if the parser reads it as that program under
some limit. -/
theorem unlimited_iff {source : String} {p : Program} :
    (∃ ts, Unlimited source ts p) ↔ ∃ limit, parseUpTo limit source = .ok p := by
  constructor
  · rintro ⟨ts, h⟩
    obtain ⟨limit, hShort⟩ := exists_short ts
    exact ⟨limit, parseUpTo_ok_iff.mpr ⟨ts, h, hShort⟩⟩
  · rintro ⟨limit, h⟩
    obtain ⟨ts, hUnlimited, -⟩ := parseUpTo_ok_iff.mp h
    exact ⟨ts, hUnlimited⟩

/-- In front of the first number that is too long there is nothing to shorten. -/
theorem first_overlong {n : Position × List Char}
    (h : (numbersOf ts).find? (fun n => maxDigits < n.2.length) = some n) :
    ∃ us vs, ts = us ++ .number n.1 n.2 :: vs ∧ us.map Token.shorten = us := by
  induction ts with
  | nil => cases h
  | cons t ts ih =>
    -- a token that is not the one in question stays in front, as it is
    have hSkip (hRest : (numbersOf ts).find? (fun n => maxDigits < n.2.length) = some n)
        (hSame : t.shorten = t) :
        ∃ us vs, t :: ts = us ++ .number n.1 n.2 :: vs ∧ us.map Token.shorten = us := by
      obtain ⟨us, vs, rfl, hUs⟩ := ih hRest
      exact ⟨t :: us, vs, rfl, by rw [List.map_cons, hSame, hUs]⟩
    cases t with
    | number pos digits =>
      have hHead : numbersOf (.number pos digits :: ts) = (pos, digits) :: numbersOf ts := rfl
      rw [hHead, List.find?_cons] at h
      split at h
      · cases h
        exact ⟨[], ts, rfl, rfl⟩
      · rename_i hShort
        exact hSkip h (Token.shorten_of_length (by simpa using hShort))
    | keyword | symbol | truth | name | string => exact hSkip h rfl

/-- **Overlong numbers.** Take a source that is a program if numbers may have any length. It is read
as a program exactly if no number has more than 4300 digits, and each literal has the value of its
digits then. Otherwise the reading fails with the number of digits of the first number that is too
long, in the order of the text. -/
theorem parse_unlimited {source : String} {p : Program} (h : Unlimited source ts p) :
    ((∃ q, parse source = .ok q) ↔ ∀ n ∈ numbersOf ts, n.2.length ≤ 4300) ∧
    (∀ q, parse source = .ok q → q = p ∧
      q.integers = (numbersOf ts).map fun n => (n.1, (Text.decimalValue n.2 : Int))) ∧
    ∀ n, (numbersOf ts).find? (fun n => 4300 < n.2.length) = some n →
      parse source = .error (.numberTooLong n.2.length) := by
  have hOverlong : ∀ n, (numbersOf ts).find? (fun n => maxDigits < n.2.length) = some n →
      parse source = .error (.numberTooLong n.2.length) := by
    intro n hFind
    obtain ⟨us, vs, rfl, hShort⟩ := first_overlong hFind
    obtain ⟨hDerives, rest, hCut, hEnd⟩ := h
    -- in front of it every number is short enough, so the reading gets there and no further
    exact parse_first_overlong hDerives (PlacedCut.found hCut) hEnd hShort
      (by simpa using List.find?_some hFind)
  have hShort : (∃ q, parse source = .ok q) → Short maxDigits ts := by
    rintro ⟨q, hRead⟩ n hn
    by_contra hLong
    cases hFind : (numbersOf ts).find? (fun n => maxDigits < n.2.length) with
    -- without an overlong number there is nothing to show; with one the reading has failed
    | none => exact hLong (by simpa using List.find?_eq_none.mp hFind n hn)
    | some first =>
      rw [hOverlong first hFind] at hRead
      cases hRead
  refine ⟨⟨hShort, fun hAll => ⟨p, parse_ok_iff.mpr ⟨ts, h, hAll⟩⟩⟩, ?_, hOverlong⟩
  intro q hRead
  -- the program that was read is the one that the tokens are, as both come from them
  rw [parse_ok_iff.mpr ⟨ts, h, hShort ⟨q, hRead⟩⟩] at hRead
  cases hRead
  exact ⟨rfl, integers_of_tokens h.derives⟩

/-- A token behind some trivia, at its position. -/
theorem PlacedCut.step {locate : List Char → Position} (hGap : Trivia gap) (hForm : t.WellFormed)
    (hEnded : t.Ended mid) (hPos : ∀ pos ∈ t.pos?, pos = locate (t.chars ++ mid))
    (hSingle : behind = true → ¬ t.Doubled mid)
    (hCut : PlacedCut locate t.endsOperand ts mid rest) :
    PlacedCut locate behind (t :: ts) (gap ++ (t.chars ++ mid)) rest := by
  have hText : skipTrivia (gap ++ (t.chars ++ mid)) = t.chars ++ mid := by
    rw [hGap.skip, hForm.skip]
  exact .cons hText hForm.ne_nil ⟨hEnded, by rw [hText]; exact hPos⟩ hSingle hCut

/-- A symbol other than plus and minus may stand in front of any tokens. -/
theorem PlacedCut.mark {locate : List Char → Position} (hSymbol : s ∈ Token.punctuation)
    (hSign : s ≠ ['+'] ∧ s ≠ ['-'])
    (hCut : PlacedCut locate (Token.symbol s).endsOperand ts mid rest) :
    PlacedCut locate behind (.symbol s :: ts) (s ++ mid) rest :=
  .step .nil hSymbol trivial nofun (fun _ => Token.not_doubled hSign mid) hCut

/-- A statement that prints a number, in front of a text. -/
def printed (digits more : List Char) : List Char :=
  Keyword.disp.chars ++ (['<', '-'] ++ (digits ++ (['.'] ++ more)))

/-- The tokens of the statement. -/
def printedTokens (pos : Position) (digits : List Char) : List Token :=
  [.keyword .disp, .symbol ['<', '-'], .number pos digits, .symbol ['.']]

/-- The tokens of a printed number are found in its text. -/
theorem printed_cut {locate : List Char → Position} {digits : List Char} {pos : Position}
    (hForm : (Token.number pos digits).WellFormed) (hPos : pos = locate (digits ++ (['.'] ++ more)))
    (hCut : PlacedCut locate false ts more rest) :
    PlacedCut locate false (printedTokens pos digits ++ ts) (printed digits more) rest := by
  have hPoint : PlacedCut locate true (.symbol ['.'] :: ts) (['.'] ++ more) rest :=
    .mark (by decide) (by decide) hCut
  have hNumber : PlacedCut locate false (.number pos digits :: .symbol ['.'] :: ts)
      (digits ++ (['.'] ++ more)) rest :=
    .step .nil hForm (by rintro c ⟨⟩; decide) (by rintro _ ⟨⟩; exact hPos) nofun hPoint
  exact .step .nil trivial (by rintro c ⟨⟩; decide) nofun nofun
    (.mark (by decide) (by decide) hNumber)

/-- The tokens of a printed number are a statement that writes its value. -/
theorem printed_derives {digits : List Char} {pos : Position}
    (hForm : (Token.number pos digits).WellFormed) :
    DerivesStmt .unlimited (printedTokens pos digits)
      (.write (.intLit pos (Text.decimalValue digits))) :=
  .write ((DerivesExpr.intLit pos hForm trivial).lift .assignment)

/-- A function that prints two numbers. -/
def twoPrinted (first second : List Char) : List Char :=
  Keyword.void.chars ++ ([' '] ++ (['f'] ++ (['['] ++ ([']'] ++ (['['] ++
    printed first (printed second ([']'] ++ [])))))))

theorem twoPrinted_unlimited {first second : List Char}
    (hFirst : (Token.number default first).WellFormed)
    (hSecond : (Token.number default second).WellFormed) :
    ∃ ts p pos pos', Unlimited (String.ofList (twoPrinted first second)) ts p ∧
      numbersOf ts = [(pos, first), (pos', second)] := by
  -- from the end to the front: what stands behind each token is part of its position
  let locate := Text.locate (twoPrinted first second)
  let behindSecond := [']'] ++ []
  let behindFirst := printed second behindSecond
  let named := ['f'] ++ (['['] ++ ([']'] ++ (['['] ++ printed first behindFirst)))
  let pos := locate (first ++ (['.'] ++ behindFirst))
  let pos' := locate (second ++ (['.'] ++ behindSecond))
  let body := printedTokens pos first ++ (printedTokens pos' second ++ [.symbol [']']])
  let ts := .keyword .void :: .name (locate named) "f" :: .symbol ['['] :: .symbol [']'] ::
    .symbol ['['] :: body
  have hBody : PlacedCut locate false body (printed first behindFirst) [] :=
    printed_cut hFirst rfl (printed_cut hSecond rfl (.mark (by decide) (by decide) (.nil _ _)))
  have hBrackets : PlacedCut locate true (.symbol ['['] :: .symbol [']'] :: .symbol ['['] :: body)
      (['['] ++ ([']'] ++ (['['] ++ printed first behindFirst))) [] :=
    .mark (by decide) (by decide) (.mark (by decide) (by decide)
      (.mark (by decide) (by decide) hBody))
  have hNamed : PlacedCut locate false ts.tail ([' '] ++ named) [] :=
    .step (.blank (by decide) .nil) (show isName ['f'] = true by decide)
      (by rintro c ⟨⟩; decide) (by rintro _ ⟨⟩; rfl) nofun hBrackets
  have hCut : PlacedCut locate false ts (twoPrinted first second) [] :=
    .step .nil trivial (by rintro c ⟨⟩; decide) nofun nofun hNamed
  have hStmts : Rows (DerivesStmt .unlimited) (printedTokens pos first ++ printedTokens pos' second)
      [.write (.intLit pos (Text.decimalValue first)),
        -- two statements, each of which writes one of the numbers
        .write (.intLit pos' (Text.decimalValue second))] := by
    refine ⟨[(printedTokens pos first, _), (printedTokens pos' second, _)], ?_, rfl, rfl⟩
    exact List.forall_mem_cons.mpr ⟨printed_derives hFirst,
      List.forall_mem_singleton.mpr (printed_derives hSecond)⟩
  have hDecl : DerivesDecl .unlimited ts _ :=
    .func .void (.name (locate named) (by decide)) [] (List.forall_mem_nil _) (.inl rfl)
      ⟨[], List.forall_mem_nil _, rfl, rfl⟩ hStmts
  refine ⟨ts, ⟨[_]⟩, pos, pos', ⟨⟨[(ts, _)], List.forall_mem_singleton.mpr hDecl, rfl, rfl⟩, [], ?_,
    rfl⟩, rfl⟩
  rw [String.toList_ofList]
  exact hCut

/-- Of two numbers that are too long the first one is reported, even if its digits are all zeros and
the other one is longer. -/
theorem two_overlong_reported :
    ∃ source ts p pos pos', Unlimited source ts p ∧
      numbersOf ts = [(pos, List.replicate 4301 '0'), (pos', List.replicate 5000 '9')] ∧
      parse source = .error (.numberTooLong 4301) := by
  -- a run of one digit is a number, if it is not empty
  have hForm : ∀ n c, Text.isDecimalDigit c = true → n ≠ 0 →
      (Token.number default (List.replicate n c)).WellFormed := by
    intro n c hDigit hSome
    refine ⟨by simpa using hSome, fun d hd => ?_⟩
    rw [List.eq_of_mem_replicate hd]
    exact hDigit
  obtain ⟨ts, p, pos, pos', hUnlimited, hNumbers⟩ :=
    twoPrinted_unlimited (hForm 4301 '0' (by decide) (by decide))
      (hForm 5000 '9' (by decide) (by decide))
  have hFirst : (numbersOf ts).find? (fun n => 4300 < n.2.length) =
      some (pos, List.replicate 4301 '0') := by
    rw [hNumbers, List.find?_cons_of_pos]
    rw [List.length_replicate]
    decide
  have hHalt := (parse_unlimited hUnlimited).2.2 _ hFirst
  rw [List.length_replicate] at hHalt
  exact ⟨_, ts, p, pos, pos', hUnlimited, hNumbers, hHalt⟩

end Grammar

end NameResolution
