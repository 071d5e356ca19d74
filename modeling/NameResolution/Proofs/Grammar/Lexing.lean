import Mathlib.Data.List.Infix
import Mathlib.Data.List.TakeWhile
import NameResolution.Grammar.Expression
import NameResolution.Proofs.Grammar.Run
import NameResolution.Proofs.Grammar.Token

/-!
# Lexing — when a reader of one lexeme matches, and when it rejects

Whether a lexeme is there is decided behind the trivia: `ahead` is the first character there.

* `symbol_eq_matched`, `keyword_eq_matched`, `name_eq_matched`, `number_eq_matched`,
  `string_eq_matched` — the texts that a reader accepts.
* `keyword_rejects_name`, `keyword_opens_name` — a keyword and a name that starts with it.
-/

namespace NameResolution.Grammar

open NameResolution.Grammar.Parser

variable {α : Type} {scan : List Char → Option (α × List Char)} {ctx : Context}
  {cs mid rest : List Char} {a : α}

/-- The first character of the text behind its trivia. -/
def ahead (cs : List Char) : Option Char :=
  (skipTrivia cs).head?

/-- What is ahead of some tokens is the first character of the first one. -/
theorem ahead_of_cut {bound : List Char → List Char → Token → Prop} {t : Token} {ts : List Token}
    (h : Cut bound (t :: ts) cs rest) : ahead cs = t.chars.head? := by
  cases h with
  | cons hText hSome _ _ =>
    obtain ⟨c, s, hChars⟩ := List.exists_cons_of_ne_nil hSome
    rw [ahead, hText, hChars]
    rfl

/-- What holds of the character ahead is what a reader asks of it. -/
theorem all_ahead {p : Char → Prop} {c : Char} (hAhead : ahead cs = some c) (hc : p c) :
    ∀ d ∈ ahead cs, p d := by
  rw [hAhead]
  intro d hd
  cases hd
  exact hc

/-! ## Lexemes in general -/

/-- A lexeme is scanned behind the trivia. -/
theorem lexeme_eq_matched :
    lexeme scan ctx cs = .matched a rest ↔ scan (skipTrivia cs) = some (a, rest) := by
  rw [lexeme]
  cases scan (skipTrivia cs) with
  | none => simp
  | some result => simp [Prod.ext_iff]

/-- A lexeme is rejected if the scan behind the trivia finds nothing. -/
theorem lexeme_eq_rejected :
    lexeme scan ctx cs = .rejected ↔ scan (skipTrivia cs) = none := by
  rw [lexeme]
  cases scan (skipTrivia cs) with
  | none => simp
  | some result => simp

/-- A lexeme never meets a number that is too long. -/
theorem lexeme_matched_or_rejected (scan : List Char → Option (α × List Char))
    (ctx : Context) (cs : List Char) :
    (∃ a rest, lexeme scan ctx cs = .matched a rest) ∨
      lexeme scan ctx cs = .rejected := by
  cases h : scan (skipTrivia cs) with
  | none => exact .inr (lexeme_eq_rejected.mpr h)
  | some result => exact .inl ⟨result.1, result.2, lexeme_eq_matched.mpr h⟩

/-- The position of what follows is that behind the trivia. -/
theorem here_bind {β : Type} (k : Position → Parser β) :
    (here >>= k) ctx cs = k (ctx.locate (skipTrivia cs)) ctx cs := rfl

/-- A parser whose next lexeme is the first character of something else rejects it. -/
theorem isPrefixOf?_of_head {c : Char} {s cs : List Char} (h : cs.head? ≠ some c) :
    (c :: s).isPrefixOf? cs = none := by
  rw [← Option.not_isSome_iff_eq_none, Option.isSome_iff_exists]
  rintro ⟨rest, hRest⟩
  rw [List.isPrefixOf?_eq_some_iff_append_eq] at hRest
  rw [← hRest] at h
  exact h rfl

/-! ## Symbols and operators -/

/-- A symbol is there exactly if the text goes on with it. -/
theorem symbol_eq_matched {s : List Char} {u : Unit} :
    symbol s ctx cs = .matched u rest ↔ skipTrivia cs = s ++ rest := by
  rw [symbol, lexeme_eq_matched, scanSymbol, Option.map_eq_some_iff]
  simp only [List.isPrefixOf?_eq_some_iff_append_eq, Prod.mk.injEq, true_and, exists_eq_right]
  exact eq_comm

/-- A symbol is rejected if something else is ahead. -/
theorem symbol_rejects {c : Char} {s : List Char} (h : ahead cs ≠ some c) :
    symbol (c :: s) ctx cs = .rejected := by
  rw [symbol, lexeme_eq_rejected, scanSymbol, isPrefixOf?_of_head h]
  rfl

/-- An operator that matches is one of those that are tried. -/
theorem operator_eq_matched {ops : List (List Char)} {o : String}
    (h : operator ops ctx cs = .matched o rest) :
    ∃ op ∈ ops, o = String.ofList op ∧ skipTrivia cs = op ++ rest := by
  rw [operator, lexeme_eq_matched, scanOperator] at h
  obtain ⟨op, hOp, hTaken⟩ := List.exists_of_findSome?_eq_some h
  obtain ⟨rest', hPrefix, hResult⟩ := Option.map_eq_some_iff.mp hTaken
  rw [List.isPrefixOf?_eq_some_iff_append_eq] at hPrefix
  cases hResult
  exact ⟨op, hOp, rfl, hPrefix.symm⟩

/-- Operators are rejected if none of their first characters is ahead. -/
theorem operator_rejects {ops : List (List Char)} (hSome : ∀ op ∈ ops, op ≠ [])
    (h : ∀ op ∈ ops, ahead cs ≠ op.head?) : operator ops ctx cs = .rejected := by
  rw [operator, lexeme_eq_rejected, scanOperator, List.findSome?_eq_none_iff]
  intro op hOp
  cases op with
  | nil => exact absurd rfl (hSome [] hOp)
  | cons c s =>
    rw [isPrefixOf?_of_head (h (c :: s) hOp)]
    rfl

/-- No operator is read where none of the characters stands that they start with. -/
theorem operator_rejects_marks {ops : List (List Char)} {marks : List Char}
    (hOps : ∀ op ∈ ops, op.head?.any marks.contains = true)
    (h : ∀ c ∈ marks, ahead cs ≠ some c) : operator ops ctx cs = .rejected := by
  -- each operator starts with one of the marks, and none of those is ahead
  have hHead : ∀ op ∈ ops, ∃ c ∈ marks, op.head? = some c := by
    intro op hOp
    obtain ⟨c, hc, hMark⟩ := (Option.any_eq_true _ _).mp (hOps op hOp)
    exact ⟨c, List.contains_iff_mem.mp hMark, hc⟩
  refine operator_rejects ?_ ?_
  · rintro op hOp rfl
    obtain ⟨c, -, hc⟩ := hHead [] hOp
    cases hc
  · intro op hOp
    obtain ⟨c, hMark, hc⟩ := hHead op hOp
    rw [hc]
    exact h c hMark

/-- One operator is there if the text goes on with it. -/
theorem operator_single {op : List Char} (h : skipTrivia cs = op ++ rest) :
    operator [op] ctx cs = .matched (String.ofList op) rest := by
  rw [operator, lexeme_eq_matched, scanOperator, List.findSome?_singleton, h,
    List.isPrefixOf?_eq_some_iff_append_eq.mpr rfl]
  rfl

/-- A sign stands alone: the character behind it is another one. -/
theorem single_eq_matched {ops : List Char} {o : String} :
    lexeme (scanSingle ops) ctx cs = .matched o rest ↔
      ∃ c ∈ ops, o = String.ofList [c] ∧ skipTrivia cs = c :: rest ∧ rest.head? ≠ some c := by
  rw [lexeme_eq_matched]
  -- at the end of the text there is no sign
  cases skipTrivia cs with
  | nil => simp [scanSingle]
  | cons c cs =>
    rw [scanSingle]
    constructor
    · intro h
      split at h
      · rename_i hTaken
        rw [Bool.and_eq_true, List.contains_iff_mem, bne_iff_ne] at hTaken
        cases h
        exact ⟨c, hTaken.1, rfl, rfl, hTaken.2⟩
      · cases h
    · rintro ⟨d, hOps, rfl, hText, hNext⟩
      obtain ⟨rfl, rfl⟩ := List.cons_eq_cons.mp hText
      rw [if_pos]
      · rfl
      · rw [Bool.and_eq_true, List.contains_iff_mem, bne_iff_ne]
        exact ⟨hOps, hNext⟩

/-- A sign that is doubled is no sign. -/
theorem single_rejects {ops : List Char}
    (h : ∀ c ∈ ops, ahead cs = some c → (skipTrivia cs).tail.head? = some c) :
    lexeme (scanSingle ops) ctx cs = .rejected := by
  rcases lexeme_matched_or_rejected (scanSingle ops) ctx cs with ⟨o, rest, hMatch⟩ | hReject
  · obtain ⟨c, hOps, -, hText, hNext⟩ := single_eq_matched.mp hMatch
    -- a sign that is doubled is not taken
    have hDouble := h c hOps (by rw [ahead, hText, List.head?_cons])
    rw [hText, List.tail_cons] at hDouble
    exact absurd hDouble hNext
  · exact hReject

/-! ## Keywords -/

/-- A keyword is there if no letter and no digit follows it. -/
theorem keyword_eq_matched {k : Keyword} {u : Unit} :
    keyword k ctx cs = .matched u rest ↔
      skipTrivia cs = k.chars ++ rest ∧ ∀ c ∈ rest.head?, Text.isAlphanumeric c = false := by
  rw [keyword, lexeme_eq_matched, scanKeyword, Option.bind_eq_some_iff]
  simp only [List.isPrefixOf?_eq_some_iff_append_eq]
  constructor
  · rintro ⟨rest', hText, hNext⟩
    split at hNext
    · cases hNext
    · rename_i hEnd
      cases hNext
      refine ⟨hText.symm, ?_⟩
      intro c hc
      rw [Option.mem_def.mp hc, Option.any_some, Bool.not_eq_true] at hEnd
      exact hEnd
  · rintro ⟨hText, hEnd⟩
    refine ⟨rest, hText.symm, ?_⟩
    -- the guard would need a letter or a digit right behind the keyword
    rw [if_neg]
    rw [Option.any_eq_true]
    rintro ⟨c, hc, hLetter⟩
    rw [hEnd c hc] at hLetter
    cases hLetter

/-- A keyword begins with a letter. -/
theorem Keyword.exists_chars (k : Keyword) : ∃ c s, k.chars = c :: s ∧ c.isAlpha = true := by
  cases k <;> exact ⟨_, _, rfl, by decide⟩

theorem Keyword.chars_ne_nil (k : Keyword) : k.chars ≠ [] := by
  obtain ⟨c, s, hChars, -⟩ := k.exists_chars
  rw [hChars]
  exact List.cons_ne_nil c s

/-- Where no letter is ahead there is no keyword. -/
theorem keyword_rejects {k : Keyword} (h : ∀ c ∈ ahead cs, c.isAlpha = false) :
    keyword k ctx cs = .rejected := by
  rcases lexeme_matched_or_rejected (scanKeyword k) ctx cs with ⟨u, rest, hMatch⟩ | hReject
  · obtain ⟨hText, -⟩ := keyword_eq_matched.mp hMatch
    -- every keyword starts with a letter
    obtain ⟨c, s, hChars, hStart⟩ := k.exists_chars
    rw [hChars] at hText
    have hFirst := h c (by rw [ahead, hText, List.cons_append, List.head?_cons]; rfl)
    rw [hStart] at hFirst
    cases hFirst
  · exact hReject

/-- No keyword starts another one. -/
theorem Keyword.eq_of_prefix {k k' : Keyword} (h : k.chars <+: k'.chars) : k = k' := by
  have hAll : ∀ k k' : Keyword, k.chars.isPrefixOf k'.chars = true → k = k' := by
    intro k k'
    cases k <;> cases k' <;> decide
  exact hAll k k' (List.isPrefixOf_iff_prefix.mpr h)

/-- Where one keyword stands there is no other. -/
theorem keyword_rejects_keyword {k k' : Keyword} (hText : skipTrivia cs = k'.chars ++ rest)
    (hOther : k ≠ k') : keyword k ctx cs = .rejected := by
  rcases lexeme_matched_or_rejected (scanKeyword k) ctx cs with ⟨u, mid, hMatch⟩ | hReject
  · obtain ⟨hText', -⟩ := keyword_eq_matched.mp hMatch
    -- both keywords would start the text, so one would start the other
    have hPrefix : k.chars <+: skipTrivia cs := ⟨mid, hText'.symm⟩
    have hPrefix' : k'.chars <+: skipTrivia cs := ⟨rest, hText.symm⟩
    rcases List.prefix_or_prefix_of_prefix hPrefix hPrefix' with h | h
    · exact absurd (Keyword.eq_of_prefix h) hOther
    · exact absurd (Keyword.eq_of_prefix h).symm hOther
  · exact hReject

/-! ## Names -/

/-- A word that is followed by something else is what is taken. -/
theorem takeWhile_append_stop {p : Char → Bool} {word rest : List Char}
    (hAll : ∀ c ∈ word, p c = true) (hStop : ∀ c ∈ rest.head?, p c = false) :
    (word ++ rest).takeWhile p = word ∧ (word ++ rest).dropWhile p = rest := by
  rw [List.takeWhile_append_of_pos hAll, List.dropWhile_append_of_pos hAll]
  cases rest with
  | nil => simp
  | cons c rest =>
    have hFirst : p c = false := hStop c rfl
    simp [hFirst]

/-- A name starts as names do, goes on so, and is no keyword. -/
theorem isName_iff {word : List Char} : isName word = true ↔
    (∃ c s, word = c :: s ∧ isNameStart c = true) ∧ (∀ c ∈ word, isNameChar c = true) ∧
      isKeyword word = false := by
  rw [isName, Bool.and_eq_true, Bool.and_eq_true, List.all_eq_true, Bool.not_eq_true', and_assoc]
  cases word with
  | nil => simp
  | cons c s => simp

/-- A name reaches up to the first character that is none of a name. -/
theorem name_eq_matched {word : String} : name ctx cs = .matched word rest ↔
    isName word.toList = true ∧ skipTrivia cs = word.toList ++ rest ∧
      ∀ c ∈ rest.head?, isNameChar c = false := by
  rw [name, lexeme_eq_matched, scanName]
  constructor
  · intro h
    split at h
    · rename_i hName
      cases h
      rw [String.toList_ofList]
      refine ⟨hName, List.takeWhile_append_dropWhile.symm, ?_⟩
      intro c hc
      -- the longest run of characters of a name stops in front of the first other one
      have hStop := List.head?_dropWhile_not isNameChar (skipTrivia cs)
      rw [Option.mem_def.mp hc] at hStop
      simpa using hStop
    · cases h
  · rintro ⟨hName, hText, hStop⟩
    obtain ⟨-, hAll, -⟩ := isName_iff.mp hName
    obtain ⟨hTake, hDrop⟩ := takeWhile_append_stop hAll hStop
    rw [hText, hTake, hDrop, if_pos hName, String.ofList_toList]

/-- An identifier is a name with its position and no symbol. -/
theorem ident_eq_matched {id : Ident} : ident ctx cs = .matched id rest ↔
    id.pos = ctx.locate (skipTrivia cs) ∧ id.symbol? = none ∧ isName id.name.toList = true ∧
      skipTrivia cs = id.name.toList ++ rest ∧ ∀ c ∈ rest.head?, isNameChar c = false := by
  -- an identifier is a name with the position behind the trivia
  have hRead : ident ctx cs = .matched id rest ↔
      ∃ word, name ctx cs = .matched word rest ∧
        id = ⟨ctx.locate (skipTrivia cs), word, none⟩ := by
    rw [ident, here_bind, bind_eq_matched]
    constructor
    · rintro ⟨word, mid, hName, hPure⟩
      obtain ⟨rfl, rfl⟩ := pure_eq_matched.mp hPure
      exact ⟨word, hName, rfl⟩
    · rintro ⟨word, hName, rfl⟩
      exact ⟨word, rest, hName, pure_eq_matched.mpr ⟨rfl, rfl⟩⟩
  rw [hRead]
  constructor
  · rintro ⟨word, hName, rfl⟩
    exact ⟨rfl, rfl, name_eq_matched.mp hName⟩
  · rintro ⟨hPos, hSymbol, hName⟩
    refine ⟨id.name, name_eq_matched.mpr hName, ?_⟩
    rw [← hPos, ← hSymbol]

/-- Where no name can start there is no identifier. -/
theorem ident_rejects (h : ∀ c ∈ ahead cs, isNameStart c = false) :
    ident ctx cs = .rejected := by
  have hName : name ctx cs = .rejected := by
    -- had a name been found, its first character would start a name and be ahead
    rcases lexeme_matched_or_rejected scanName ctx cs with ⟨word, rest, hMatch⟩ | hReject
    · obtain ⟨hName, hText, -⟩ := name_eq_matched.mp hMatch
      obtain ⟨⟨c, s, hWord, hStart⟩, -, -⟩ := isName_iff.mp hName
      rw [hWord] at hText
      have hFirst := h c (by rw [ahead, hText, List.cons_append, List.head?_cons]; rfl)
      rw [hStart] at hFirst
      cases hFirst
    · exact hReject
  rw [ident, here_bind]
  exact bind_of_rejected hName

/-! ## Numbers and strings -/

/-- A number is read if it has digits, and no more than the limit allows. -/
theorem number_eq_matched {value : Nat} : number ctx cs = .matched value rest ↔
    ∃ digits, (digits ≠ [] ∧ ∀ d ∈ digits, Text.isDecimalDigit d = true) ∧
      digits.length ≤ ctx.limit ∧ skipTrivia cs = digits ++ rest ∧
      (∀ c ∈ rest.head?, Text.isDecimalDigit c = false) ∧ value = Text.decimalValue digits := by
  rw [number]
  constructor
  -- the digits are all that are there, so the rest starts with something else
  · intro h
    split at h
    · cases h
    · rename_i hSome
      split at h
      · cases h
      · rename_i hShort
        cases h
        refine ⟨_, ⟨?_, ?_⟩, Nat.le_of_not_lt hShort, List.takeWhile_append_dropWhile.symm, ?_, rfl⟩
        · rw [List.isEmpty_iff] at hSome
          exact hSome
        · intro d hd
          exact List.mem_takeWhile_imp hd
        · intro c hc
          have hStop := List.head?_dropWhile_not Text.isDecimalDigit (skipTrivia cs)
          rw [Option.mem_def.mp hc] at hStop
          simpa using hStop
  · rintro ⟨digits, ⟨hSome, hAll⟩, hShort, hText, hStop, rfl⟩
    obtain ⟨hTake, hDrop⟩ := takeWhile_append_stop hAll hStop
    simp only [hText, hTake, hDrop]
    rw [if_neg, if_neg (Nat.not_lt.mpr hShort)]
    rw [List.isEmpty_iff]
    exact hSome

/-- Where no digit is ahead there is no number. -/
theorem number_rejects (h : ∀ c ∈ ahead cs, Text.isDecimalDigit c = false) :
    number ctx cs = .rejected := by
  have hTake : (skipTrivia cs).takeWhile Text.isDecimalDigit = [] := by
    rw [ahead] at h
    cases hText : skipTrivia cs with
    | nil => rfl
    | cons c s =>
      rw [hText] at h
      rw [List.takeWhile_cons, h c rfl, if_neg Bool.false_ne_true]
  simp only [number, hTake]
  rfl

/-- A string ends at its closing quote, whatever follows it. -/
theorem scanStringBody_append {cs body rest : List Char}
    (h : scanStringBody cs = some (body, rest)) :
    cs = body ++ rest ∧ ∀ more, scanStringBody (body ++ more) = some (body, more) := by
  fun_induction scanStringBody cs generalizing body rest with
  | case1 => cases h
  | case2 cs =>
    cases h
    exact ⟨rfl, fun more => rfl⟩
  | case3 c cs hNewline => cases h
  | case4 c cs hNewline ih =>
    obtain ⟨⟨inner, mid⟩, hInner, hResult⟩ := Option.map_eq_some_iff.mp h
    cases hResult
    obtain ⟨hText, hAgain⟩ := ih hInner
    refine ⟨by rw [hText]; rfl, ?_⟩
    intro more
    rw [List.cons_append, List.cons_append, scanStringBody, if_neg hNewline, hAgain more]
    rfl
  | case5 c cs hQuote hEscape hStop => cases h
  | case6 c cs hQuote hEscape hStop ih =>
    obtain ⟨⟨inner, mid⟩, hInner, hResult⟩ := Option.map_eq_some_iff.mp h
    cases hResult
    obtain ⟨hText, hAgain⟩ := ih hInner
    refine ⟨by rw [hText]; rfl, ?_⟩
    intro more
    -- a backslash that escapes nothing would have ended the scan
    have hBackslash : c ≠ '\\' := by
      rintro rfl
      exact hStop rfl
    rw [List.cons_append, scanStringBody, if_neg hStop, hAgain more]
    · rfl
    · exact hQuote
    · rintro d tail rfl -
      exact hBackslash rfl

/-- A string that is scanned ends with itself, whatever comes behind it. -/
theorem scanString_append {literal : String} {cs rest : List Char}
    (h : scanString cs = some (literal, rest)) :
    cs = literal.toList ++ rest ∧
      ∀ more, scanString (literal.toList ++ more) = some (literal, more) := by
  cases cs with
  | nil => cases h
  | cons c cs =>
    by_cases hQuote : c = '"'
    · subst hQuote
      obtain ⟨⟨body, mid⟩, hBody, hResult⟩ := Option.map_eq_some_iff.mp h
      cases hResult
      -- the body ends at the same quote, whatever follows it
      obtain ⟨hText, hAgain⟩ := scanStringBody_append hBody
      rw [String.toList_ofList]
      refine ⟨by rw [hText]; rfl, ?_⟩
      intro more
      rw [List.cons_append, scanString, hAgain more]
      rfl
    · rw [scanString] at h
      · cases h
      · intro rest hEq
        exact hQuote (List.cons_eq_cons.mp hEq).1

/-- A string starts with its quote. -/
theorem string_quote {literal : String} (h : scanString literal.toList = some (literal, [])) :
    ∃ s, literal.toList = '"' :: s := by
  unfold scanString at h
  split at h
  · rename_i s hChars
    exact ⟨s, hChars⟩
  · cases h

/-- A string is read up to the quote that closes it. -/
theorem string_eq_matched {literal : String} : string ctx cs = .matched literal rest ↔
    scanString literal.toList = some (literal, []) ∧ skipTrivia cs = literal.toList ++ rest := by
  rw [string, lexeme_eq_matched]
  constructor
  · intro h
    obtain ⟨hText, hAgain⟩ := scanString_append h
    have hSelf := hAgain []
    rw [List.append_nil] at hSelf
    exact ⟨hSelf, hText⟩
  · rintro ⟨hSelf, hText⟩
    rw [hText]
    exact (scanString_append hSelf).2 rest

/-- Where no quote is ahead there is no string. -/
theorem string_rejects (h : ahead cs ≠ some '"') : string ctx cs = .rejected := by
  rw [string, lexeme_eq_rejected]
  rw [ahead] at h
  cases hText : skipTrivia cs with
  | nil => rfl
  | cons c s =>
    rw [scanString]
    intro rest hEq
    rw [hText, (List.cons_eq_cons.mp hEq).1] at h
    exact h rfl

/-- The end is there if only trivia is left. -/
theorem endOfText_eq_matched {u : Unit} :
    endOfText ctx cs = .matched u rest ↔ skipTrivia cs = [] ∧ rest = [] := by
  rw [endOfText, lexeme_eq_matched]
  cases skipTrivia cs with
  | nil => simp [eq_comm]
  | cons c s => simp

/-! ## Keywords that start a name -/

/-- The name goes on with an underscore after the keyword, which can therefore be read there. -/
def Keyword.Opens (k : Keyword) (word : String) : Prop :=
  k.chars ++ ['_'] <+: word.toList

instance (k : Keyword) (word : String) : Decidable (k.Opens word) :=
  inferInstanceAs (Decidable (k.chars ++ ['_'] <+: word.toList))

/-- A keyword could be a name by its characters. -/
theorem Keyword.nameChars (k : Keyword) : ∀ c ∈ k.chars, isNameChar c = true := by
  have hAll : k.chars.all isNameChar = true := by
    cases k <;> decide
  exact List.all_eq_true.mp hAll

theorem Keyword.isKeyword_chars (k : Keyword) : isKeyword k.chars = true := by
  cases k <;> decide

/-- Where a name stands, a keyword is read only in front of an underscore of that name. -/
theorem keyword_matched_name {k : Keyword} {u : Unit} {word : String}
    (hName : isName word.toList = true) (hText : skipTrivia cs = word.toList ++ rest)
    (hEnd : ∀ c ∈ rest.head?, isNameChar c = false)
    (hMatch : keyword k ctx cs = .matched u mid) :
    ∃ tail, word.toList = k.chars ++ '_' :: tail ∧ mid = '_' :: tail ++ rest := by
  obtain ⟨-, hAll, hNoKeyword⟩ := isName_iff.mp hName
  obtain ⟨hTaken, hNext⟩ := keyword_eq_matched.mp hMatch
  have hOther : k.chars ≠ word.toList := by
    intro hEq
    rw [← hEq, k.isKeyword_chars] at hNoKeyword
    cases hNoKeyword
  rw [hText] at hTaken
  rcases List.append_eq_append_iff.mp hTaken with ⟨more, hKeyword, hRest⟩ | ⟨more, hWord, hMid⟩
  · -- the keyword would go on behind the name, with a character of names
    cases more with
    | nil =>
      rw [List.append_nil] at hKeyword
      exact absurd hKeyword hOther
    | cons c more =>
      have hLetter := k.nameChars c (by rw [hKeyword]; simp)
      rw [hEnd c (by rw [hRest]; rfl)] at hLetter
      cases hLetter
  · cases more with
    | nil =>
      rw [List.append_nil] at hWord
      exact absurd hWord.symm hOther
    -- the text that is left starts with the next character of the name, which ends the keyword
    | cons c tail =>
      have hInside := hAll c (by rw [hWord]; simp)
      rcases nameChar_alphanumeric hInside with hLetter | rfl
      · rw [hNext c (by rw [hMid]; rfl)] at hLetter
        cases hLetter
      · exact ⟨tail, hWord, hMid⟩

/-- A keyword with an underscore behind it matches, and the name goes on. -/
theorem keyword_opens_name {k : Keyword} {word : String} {tail : List Char}
    (hText : skipTrivia cs = word.toList ++ rest) (hWord : word.toList = k.chars ++ '_' :: tail) :
    keyword k ctx cs = .matched () ('_' :: tail ++ rest) := by
  refine keyword_eq_matched.mpr ⟨by rw [hText, hWord, List.append_assoc], ?_⟩
  intro c hc
  cases hc
  exact underscore_not_alphanumeric

/-- Where a name stands, a keyword is rejected or opens the name. -/
theorem keyword_name_cases (k : Keyword) (ctx : Context) {word : String}
    (hName : isName word.toList = true) (hText : skipTrivia cs = word.toList ++ rest)
    (hEnd : ∀ c ∈ rest.head?, isNameChar c = false) :
    keyword k ctx cs = .rejected ∨
      ∃ tail, word.toList = k.chars ++ '_' :: tail ∧
        keyword k ctx cs = .matched () ('_' :: tail ++ rest) := by
  rcases lexeme_matched_or_rejected (scanKeyword k) ctx cs with ⟨u, mid, hMatch⟩ | hReject
  · obtain ⟨tail, hWord, rfl⟩ := keyword_matched_name hName hText hEnd hMatch
    exact .inr ⟨tail, hWord, hMatch⟩
  · exact .inl hReject

/-- Where a name stands that the keyword does not open, it is rejected. -/
theorem keyword_rejects_name {k : Keyword} {word : String} (hName : isName word.toList = true)
    (hText : skipTrivia cs = word.toList ++ rest) (hEnd : ∀ c ∈ rest.head?, isNameChar c = false)
    (hOpens : ¬ k.Opens word) : keyword k ctx cs = .rejected := by
  rcases keyword_name_cases k ctx hName hText hEnd with hReject | ⟨tail, hWord, -⟩
  · exact hReject
  · refine absurd ⟨tail, ?_⟩ hOpens
    rw [hWord, List.append_assoc]
    rfl

/-- What is left of a name behind a keyword is a name. -/
theorem isName_tail {k : Keyword} {word : String} {tail : List Char}
    (hName : isName word.toList = true) (hWord : word.toList = k.chars ++ '_' :: tail) :
    isName (String.ofList ('_' :: tail)).toList = true := by
  obtain ⟨-, hAll, -⟩ := isName_iff.mp hName
  rw [String.toList_ofList]
  refine isName_iff.mpr ⟨⟨'_', tail, rfl, by decide⟩, ?_, ?_⟩
  · intro c hc
    exact hAll c (by rw [hWord]; exact List.mem_append_right _ hc)
  · simp [isKeyword, Keyword.all, Keyword.chars]

/-- Where a keyword stands alone there is no identifier. -/
theorem ident_rejects_keyword {k : Keyword} (hText : skipTrivia cs = k.chars ++ rest)
    (hEnd : ∀ c ∈ rest.head?, isNameChar c = false) : ident ctx cs = .rejected := by
  rw [ident, here_bind]
  refine bind_of_rejected ?_
  rcases lexeme_matched_or_rejected scanName ctx cs with ⟨word, rest', hMatch⟩ | hReject
  · obtain ⟨hName, hText', hEnd'⟩ := name_eq_matched.mp hMatch
    obtain ⟨-, hAll, hNoKeyword⟩ := isName_iff.mp hName
    -- up to the end of the word, the text is both the name and the keyword
    have hWord : word.toList = k.chars := by
      rw [← (takeWhile_append_stop hAll hEnd').1, ← hText', hText,
        (takeWhile_append_stop k.nameChars hEnd).1]
    rw [hWord, k.isKeyword_chars] at hNoKeyword
    cases hNoKeyword
  · exact hReject

end NameResolution.Grammar
