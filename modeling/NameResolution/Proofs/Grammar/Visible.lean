import Mathlib.Data.List.Chain
import NameResolution.Proofs.Grammar.Spelling

/-!
# Visible characters — what a text says outside of its trivia and its strings

However a text is cut into tokens, the cuts agree in the characters that are neither trivia nor
inside of a string. That shows where colons stand: in a sentence, each of them is behind the
character of a name.

* `visible`, `Cut.visible` — the visible characters of a text are those of its tokens.
* `DerivesProgram.colons` — the colons of a sentence.
-/

namespace NameResolution.Grammar

variable {ts us : List Token} {cs mid rest : List Char}

/-! ## Visible characters of texts -/

/-- Where in a text a character stands. -/
inductive Region where
  | code
  | comment
  | string
  /-- Behind a backslash in a string. -/
  | escape
deriving DecidableEq, Repr

/-- The characters that are neither blank nor inside of comments and strings; the quotes of a string
are visible. -/
def visible : Region → List Char → List Char
  | _, [] => []
  | .code, c :: cs =>
    if c == '#' then visible .comment cs
    else if Text.isBlank c then visible .code cs
    else if c == '"' then c :: visible .string cs
    else c :: visible .code cs
  | .comment, c :: cs => visible (if c == '\n' then .code else .comment) cs
  | .string, c :: cs =>
    if c == '"' then c :: visible .code cs
    else visible (if c == '\\' then .escape else .string) cs
  | .escape, _ :: cs => visible .string cs

/-- The characters that a token shows; of a string, these are its quotes. -/
def Token.visible : Token → List Char
  | string _ _ => ['"', '"']
  | t => t.chars

/-- Skipping trivia skips nothing visible. -/
theorem visible_skipTriviaFrom (inComment : Bool) (cs : List Char) :
    visible .code (skipTriviaFrom inComment cs) =
      visible (if inComment then .comment else .code) cs := by
  induction cs generalizing inComment with
  | nil => cases inComment <;> rfl
  | cons c cs ih =>
    rw [skipTriviaFrom]
    cases inComment with
    | true =>
      rw [if_pos rfl, ih, if_pos rfl, visible]
      -- only the newline ends a comment, and all of it is hidden
      by_cases hNewline : c = '\n'
      · simp [hNewline]
      · simp [hNewline]
    | false =>
      rw [if_neg Bool.false_ne_true, if_neg Bool.false_ne_true, visible]
      by_cases hComment : (c == '#') = true
      · rw [if_pos hComment, if_pos hComment, ih, if_pos rfl]
      · rw [if_neg hComment, if_neg hComment]
        by_cases hBlank : Text.isBlank c = true
        · rw [if_pos hBlank, if_pos hBlank, ih, if_neg Bool.false_ne_true]
        · rw [if_neg hBlank, if_neg hBlank, visible, if_neg hComment, if_neg hBlank]

/-- In front of the first token nothing is visible. -/
theorem visible_skipTrivia (cs : List Char) :
    visible .code (skipTrivia cs) = visible .code cs :=
  visible_skipTriviaFrom false cs

/-! ## Visible characters of tokens -/

/-- Characters that start tokens are visible where no string begins. -/
theorem visible_plain {word : List Char}
    (hPlain : ∀ c ∈ word, startsToken c = true ∧ c ≠ '"') (rest : List Char) :
    visible .code (word ++ rest) = word ++ visible .code rest := by
  induction word with
  | nil => rfl
  | cons c word ih =>
    obtain ⟨⟨hStart, hQuote⟩, hOthers⟩ := List.forall_mem_cons.mp hPlain
    rw [startsToken, Bool.and_eq_true, bne_iff_ne, Bool.not_eq_true'] at hStart
    obtain ⟨hComment, hBlank⟩ := hStart
    rw [List.cons_append, visible, if_neg (by simpa using hComment), if_neg (by simp [hBlank]),
      if_neg (by simpa using hQuote), ih hOthers, List.cons_append]

/-- A string hides all that it contains. -/
theorem visible_stringBody {body : List Char} (h : scanStringBody cs = some (body, mid)) :
    visible .string cs = '"' :: visible .code mid := by
  fun_induction scanStringBody cs generalizing body mid with
  | case1 => cases h
  | case2 cs =>
    cases h
    rfl
  | case3 c cs hNewline => cases h
  | case4 c cs hNewline ih =>
    obtain ⟨⟨inner, mid'⟩, hInner, hResult⟩ := Option.map_eq_some_iff.mp h
    cases hResult
    rw [← ih hInner]
    rfl
  | case5 c cs hQuote hEscape hStop => cases h
  | case6 c cs hQuote hEscape hStop ih =>
    obtain ⟨⟨inner, mid'⟩, hInner, hResult⟩ := Option.map_eq_some_iff.mp h
    cases hResult
    -- any other character is hidden as long as the string goes on
    rw [Bool.or_eq_true, not_or] at hStop
    have hNoQuote : ¬ (c == '"') = true := by
      rw [beq_iff_eq]
      exact hQuote
    rw [visible, if_neg hNoQuote, if_neg hStop.2, ih hInner]

/-- Of a string its two quotes are visible. -/
theorem visible_string {literal : String} (h : scanString literal.toList = some (literal, []))
    (rest : List Char) :
    visible .code (literal.toList ++ rest) = '"' :: '"' :: visible .code rest := by
  -- the scanner finds the same string in front of any text
  have hMore := (scanString_append h).2 rest
  obtain ⟨s, hChars⟩ := string_quote h
  rw [hChars, List.cons_append] at hMore ⊢
  obtain ⟨⟨body, mid⟩, hBody, hResult⟩ := Option.map_eq_some_iff.mp hMore
  cases hResult
  exact congrArg ('"' :: ·) (visible_stringBody hBody)

theorem Token.WellFormed.visible_append {t : Token} (h : t.WellFormed) (rest : List Char) :
    Grammar.visible .code (t.chars ++ rest) = t.visible ++ Grammar.visible .code rest := by
  -- only strings show less than they have
  by_cases hString : ∃ pos literal, t = .string pos literal
  · obtain ⟨pos, literal, rfl⟩ := hString
    exact visible_string h rest
  · have hPlain := h.plain fun pos literal hEq => hString ⟨pos, literal, hEq⟩
    have hShown : t.visible = t.chars := by
      cases t with
      | string pos literal => exact absurd ⟨pos, literal, rfl⟩ hString
      | keyword | truth | symbol | name | number => rfl
    rw [hShown]
    exact visible_plain hPlain rest

/-- The visible characters of a text are those of its tokens. -/
theorem Cut.visible {bound : List Char → List Char → Token → Prop} (h : Cut bound ts cs rest)
    (hForm : Formed ts) :
    Grammar.visible .code cs = ts.flatMap Token.visible ++ Grammar.visible .code rest := by
  induction h with
  | nil => rfl
  | cons hText _ _ _ ih =>
    obtain ⟨hFirst, hOthers⟩ := List.forall_mem_cons.mp hForm
    rw [← visible_skipTrivia, hText, hFirst.visible_append, ih hOthers, List.flatMap_cons,
      List.append_assoc]

/-- Up to the end of a text, two cuts show the same characters. -/
theorem Cut.visible_eq {bound bound' : List Char → List Char → Token → Prop} {rest' : List Char}
    (h : Cut bound ts cs rest) (h' : Cut bound' us cs rest') (hForm : Formed ts)
    (hForm' : Formed us) (hEnd : skipTrivia rest = []) (hEnd' : skipTrivia rest' = []) :
    ts.flatMap Token.visible = us.flatMap Token.visible := by
  -- both are the visible characters of the one text, for nothing visible is left at its end
  have hVisible := h.visible hForm
  have hVisible' := h'.visible hForm'
  rw [← visible_skipTrivia rest, hEnd, Grammar.visible, List.append_nil] at hVisible
  rw [← visible_skipTrivia rest', hEnd', Grammar.visible, List.append_nil] at hVisible'
  rw [← hVisible, hVisible']

/-! ## Colons -/

/-- Each colon is behind the character of a name. -/
structure ColonsNamed (cs : List Char) : Prop where
  start : cs.head? ≠ some ':'
  behind : cs.IsChain fun c d => d = ':' → isNameChar c = true

theorem ColonsNamed.append (h : ColonsNamed cs) (h' : ColonsNamed mid) :
    ColonsNamed (cs ++ mid) := by
  constructor
  · rw [List.head?_append]
    cases cs with
    | nil => exact h'.start
    | cons c cs => exact h.start
  -- at the seam, the second text starts with no colon
  · refine h.behind.append h'.behind ?_
    rintro c - d hd rfl
    exact absurd hd h'.start

/-- In a text without the mark, whatever is asked of the character in front of a mark holds. -/
theorem isChain_of_none {mark : Char} {R : Char → Prop} (h : mark ∉ cs) :
    cs.IsChain fun c d => d = mark → R c := by
  induction cs with
  | nil => exact .nil
  | cons c cs ih =>
    rw [List.mem_cons, not_or] at h
    refine List.isChain_cons.mpr ⟨?_, ih h.2⟩
    rintro d hd rfl
    exact absurd (List.mem_of_mem_head? hd) h.2

/-- In a text without colons nothing has to be shown. -/
theorem colonsNamed_of_none (h : ':' ∉ cs) : ColonsNamed cs where
  start hHead := h (List.mem_of_mem_head? hHead)
  behind := isChain_of_none h

/-- None of the characters that frame lists and fields is one of a word, of a number or of a longer
symbol. -/
theorem framing_apart {c : Char} (h : [c] ∈ framing) :
    isNameChar c = false ∧ Text.isDecimalDigit c = false ∧ c ≠ '"' ∧
      ∀ s ∈ Token.punctuation, c ∈ s → s = [c] := by
  simp only [framing, List.mem_cons, List.cons.injEq, and_true, List.not_mem_nil, or_false] at h
  rcases h with rfl | rfl | rfl | rfl <;> decide

/-- The characters that frame lists and fields are shown by their own tokens only. -/
theorem Token.WellFormed.eq_symbol {t : Token} {c : Char} (h : t.WellFormed)
    (hFraming : [c] ∈ framing) (hMem : c ∈ t.visible) : t = .symbol [c] := by
  -- what is in a string is not visible but for its quotes
  obtain ⟨hNoName, hNoDigit, hNoQuote, hSingle⟩ := framing_apart hFraming
  cases t with
  | keyword k => exact absurd (k.nameChars c hMem) (by simp [hNoName])
  | truth pos value => exact absurd ((truthWord value).nameChars c hMem) (by simp [hNoName])
  | symbol s => rw [hSingle s h hMem]
  | name pos word => exact absurd ((isName_iff.mp h).2.1 c hMem) (by simp [hNoName])
  | number pos digits => exact absurd (h.2 c hMem) (by simp [hNoDigit])
  | string pos literal => exact absurd hMem (by simp [visible, hNoQuote])

/-- A location shows the character of a name last. -/
theorem DerivesLoc.visible_last {loc : Loc} (h : DerivesLoc ts loc) :
    ∃ s c, ts.flatMap Token.visible = s ++ [c] ∧ isNameChar c = true := by
  -- whether it is the root or the last field, a name stands at the end
  have hName : ∀ {us : List Token} {id : Ident}, DerivesIdent us id →
      ∃ s c, us.flatMap Token.visible = s ++ [c] ∧ isNameChar c = true := by
    intro us id hId
    cases hId with
    | @name pos word hName =>
      obtain ⟨⟨c, s, hWord, -⟩, hAll, -⟩ := isName_iff.mp hName
      have hSome : word.toList ≠ [] := by
        rw [hWord]
        exact List.cons_ne_nil c s
      refine ⟨word.toList.dropLast, word.toList.getLast hSome, ?_, hAll _ (List.getLast_mem hSome)⟩
      rw [List.flatMap_singleton, Token.visible, Token.chars, List.dropLast_append_getLast]
      rintro _ _ ⟨⟩
  cases h with
  | var hId => exact hName hId
  | @field ts _ _ _ _ hId =>
    obtain ⟨s, c, hShown, hLast⟩ := hName hId
    refine ⟨ts.flatMap Token.visible ++ [':'] ++ s, c, ?_, hLast⟩
    rw [List.flatMap_append, List.flatMap_cons, hShown, Token.visible, Token.chars,
      List.append_assoc, List.append_assoc]
    rintro _ _ ⟨⟩

/-- In the tokens of every part of a program, names stand on both sides of the colons. -/
theorem colons_compositional :
    Compositional fun ts => ColonsNamed (ts.flatMap Token.visible) where
  nil := colonsNamed_of_none List.not_mem_nil
  append h h' := by
    rw [List.flatMap_append]
    exact h.append h'
  single hForm hOther _ := by
    rw [List.flatMap_singleton]
    exact colonsNamed_of_none fun hColon => hOther (hForm.eq_symbol (by decide) hColon)
  field := by
    intro ts us loc id hLoc _ h h'
    obtain ⟨s, c, hShown, hLast⟩ := hLoc.visible_last
    rw [List.flatMap_append, List.flatMap_cons]
    -- the colon stands behind the last character of the location
    have hColon : ((Token.symbol [':']).visible ++ us.flatMap Token.visible).IsChain
        fun c d => d = ':' → isNameChar c = true := by
      refine List.isChain_cons.mpr ⟨?_, h'.behind⟩
      rintro d hd rfl
      exact absurd hd h'.start
    constructor
    · rw [List.head?_append]
      cases hHead : (ts.flatMap Token.visible).head? with
      | none =>
        rw [hShown] at hHead
        simp at hHead
      | some d =>
        rw [← hHead]
        simpa [hHead] using h.start
    · refine h.behind.append hColon ?_
      intro d hd e _ _
      rw [hShown, List.getLast?_concat] at hd
      cases hd
      exact hLast

/-- In a sentence, each colon is behind the character of a name. -/
theorem DerivesProgram.colons {d : Dialect} {p : Program} (h : DerivesProgram d ts p) :
    ColonsNamed (ts.flatMap Token.visible) :=
  h.holds colons_compositional.composed

end NameResolution.Grammar
