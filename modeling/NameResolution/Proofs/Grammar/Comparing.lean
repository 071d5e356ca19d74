import NameResolution.Proofs.Grammar.Relabelled
import NameResolution.Proofs.Grammar.Signed
import NameResolution.Proofs.Grammar.Spelling

/-!
# Comparing cuts — two tokens at one place of a text

A text can be cut in more than one way: a keyword can be taken off a name that goes on with an
underscore, and a symbol off a longer one. There are no other ways. Where two tokens start at one
place, they are the same, or one of them goes on behind the other.

* `Shape` — words, numbers, strings and symbols, told apart by their first characters.
* `Token.Proper.unplaced_eq` — a token is determined by its characters, but for its position.
* `Token.Within`, `Token.Within.cases` — a token at the start of a longer one.
* `cuts_compared` — the first tokens of two cuts of a text.
-/

namespace NameResolution.Grammar

variable {t u : Token} {ts us : List Token} {cs mid mid' rest rest' : List Char}

/-! ## Shapes -/

/-- How tokens look. -/
inductive Shape where
  | word
  | digits
  | quoted
  | mark
deriving DecidableEq

/-- What starts with the character. -/
def shapeOf (c : Char) : Shape :=
  if isNameStart c then .word
  else if Text.isDecimalDigit c then .digits
  else if c = '"' then .quoted
  else .mark

/-- The shape of a token, which its first character has too. -/
def Token.shape : Token → Shape
  | keyword _ | truth _ _ | name _ _ => .word
  | number _ _ => .digits
  | string _ _ => .quoted
  | symbol _ => .mark

/-- Every keyword starts as a word does. -/
theorem Keyword.shape (k : Keyword) : ∃ c s, k.chars = c :: s ∧ shapeOf c = .word := by
  obtain ⟨c, s, hChars, hLetter⟩ := k.exists_chars
  refine ⟨c, s, hChars, if_pos ?_⟩
  rw [isNameStart, hLetter, Bool.true_or]

/-- The first character of a token tells its shape. -/
theorem Token.WellFormed.shape (h : t.WellFormed) :
    ∃ c s, t.chars = c :: s ∧ shapeOf c = t.shape := by
  cases t with
  | keyword k => exact k.shape
  | truth pos value => exact (truthWord value).shape
  | name pos word =>
    -- the three cases with a proof are the open ones: a name by what a name is, a number by its
    -- first digit, a symbol by the list of them all
    obtain ⟨⟨c, s, hWord, hStart⟩, -⟩ := isName_iff.mp h
    exact ⟨c, s, hWord, if_pos hStart⟩
  | number pos digits =>
    obtain ⟨c, s, rfl⟩ := List.exists_cons_of_ne_nil h.1
    have hDigit : Text.isDecimalDigit c = true := h.2 c List.mem_cons_self
    have hNoName : ¬ isNameStart c = true := by
      intro hStart
      rw [not_digit_of_nameStart hStart] at hDigit
      cases hDigit
    exact ⟨c, s, rfl, by rw [shapeOf, if_neg hNoName, if_pos hDigit, Token.shape]⟩
  | string pos literal =>
    obtain ⟨s, hChars⟩ := string_quote h
    have hQuote : shapeOf '"' = .quoted := by decide
    exact ⟨'"', s, hChars, hQuote⟩
  | symbol s =>
    have hMarks : ∀ s ∈ punctuation, s.head?.map shapeOf = some .mark := by decide
    obtain ⟨c, hHead, hMark⟩ := Option.map_eq_some_iff.mp (hMarks s h)
    obtain ⟨s, rfl⟩ := List.head?_eq_some_iff.mp hHead
    exact ⟨c, s, rfl, hMark⟩

/-- Tokens that start alike have one shape. -/
theorem Token.shape_eq (ht : t.WellFormed) (hu : u.WellFormed)
    (hHead : t.chars.head? = u.chars.head?) : t.shape = u.shape := by
  obtain ⟨c, s, hChars, hShape⟩ := ht.shape
  obtain ⟨c', s', hChars', hShape'⟩ := hu.shape
  rw [hChars, hChars'] at hHead
  cases hHead
  rw [← hShape, ← hShape']

/-! ## Tokens with the same characters -/

/-- The token without its position. -/
def Token.unplaced : Token → Token :=
  Token.relabel nowhere Ident.unplaced

/-- A token without its position is written with the same characters. -/
theorem Token.unplaced_chars (t : Token) : t.unplaced.chars = t.chars := by
  cases t <;> rfl

/-- No name is a keyword. -/
theorem isName_not_keyword {k : Keyword} {word : String} (h : isName word.toList = true) :
    word.toList ≠ k.chars := by
  intro hEq
  obtain ⟨-, -, hNoKeyword⟩ := isName_iff.mp h
  rw [hEq, k.isKeyword_chars] at hNoKeyword
  cases hNoKeyword

/-- A token is determined by its characters, but for its position. -/
theorem Token.Proper.unplaced_eq (ht : t.Proper) (hu : u.Proper) (hChars : t.chars = u.chars) :
    t.unplaced = u.unplaced := by
  have hKeyword : ∀ {k k' : Keyword}, k.chars = k'.chars → k = k' := fun h =>
    Keyword.eq_of_prefix (h ▸ List.prefix_refl _)
  -- tokens of different shapes start with different characters, so only equal shapes are left
  have hShape := shape_eq ht.formed hu.formed (congrArg List.head? hChars)
  cases t with
  | keyword k =>
    cases u with
    | keyword k' => rw [hKeyword hChars]
    -- a keyword and a truth value can have the same characters, but then the first one is not a
    -- proper token
    | truth pos value => exact absurd (congrArg keyword (hKeyword hChars)) (ht.told value)
    | name pos word => exact absurd hChars.symm (isName_not_keyword hu.formed)
    | number | string | symbol => cases hShape
  | truth pos value =>
    cases u with
    | keyword k => exact absurd (congrArg keyword (hKeyword hChars.symm)) (hu.told value)
    | truth pos' value' =>
      have hSame : value = value' := by
        cases value <;> cases value' <;> simp_all [Token.chars, truthWord, Keyword.chars]
      rw [hSame]
      rfl
    | name pos word => exact absurd hChars.symm (isName_not_keyword hu.formed)
    | number | string | symbol => cases hShape
  | name pos word =>
    cases u with
    | keyword k => exact absurd hChars (isName_not_keyword ht.formed)
    | truth pos value => exact absurd hChars (isName_not_keyword ht.formed)
    | name pos' word' =>
      rw [String.toList_inj.mp hChars]
      rfl
    | number | string | symbol => cases hShape
  | number pos digits =>
    cases u with
    | number pos' digits' =>
      cases hChars
      rfl
    | keyword | truth | name | string | symbol => cases hShape
  -- a literal is written as it is, quotes included
  | string pos literal =>
    cases u with
    | string pos' literal' =>
      rw [String.toList_inj.mp hChars]
      rfl
    | keyword | truth | name | number | symbol => cases hShape
  | symbol s =>
    cases u with
    | symbol s' =>
      cases hChars
      rfl
    | keyword | truth | name | number | string => cases hShape

/-! ## A token at the start of another one -/

/-- The token `u` starts with `t` and goes on with `c`. -/
def Token.Within (t u : Token) (c : Char) : Prop :=
  ∃ more, u.chars = t.chars ++ c :: more

/-- Keywords and truth values are written like keywords. -/
def Token.keyword? : Token → Option Keyword
  | keyword k => some k
  | truth _ value => some (truthWord value)
  | symbol _ | name _ _ | number _ _ | string _ _ => none

/-- A token that could go on ends in front of an underscore of a name, or it is a symbol. -/
inductive Token.GoesOn : Token → Token → Char → Prop where
  | word {t : Token} {k : Keyword} (hWord : t.keyword? = some k) (pos : Position) (word : String) :
    GoesOn t (.name pos word) '_'
  | symbol (s s' : List Char) (c : Char) : GoesOn (.symbol s) (.symbol s') c

/-- A token that is a keyword in one sense is written as that keyword. -/
theorem Token.keyword?_chars {k : Keyword} (h : t.keyword? = some k) : t.chars = k.chars := by
  cases t with
  | keyword | truth =>
    cases h
    rfl
  | symbol | name | number | string => cases h

/-- Behind a keyword that ends in it, a word goes on with an underscore. -/
theorem Token.Within.word {c : Char} {k : Keyword} (h : t.Within u c) (ht : t.keyword? = some k)
    (hu : u.WellFormed) (hShape : u.shape = .word) (hEnd : Text.isAlphanumeric c = false) :
    t.GoesOn u c := by
  obtain ⟨more, hChars⟩ := h
  rw [keyword?_chars ht] at hChars
  -- no keyword is the start of another one
  have hKeyword : ∀ k' : Keyword, k'.chars ≠ k.chars ++ c :: more := by
    intro k' hEq
    obtain rfl := Keyword.eq_of_prefix ⟨c :: more, hEq.symm⟩
    simp at hEq
  cases u with
  | keyword k' => exact absurd hChars (hKeyword k')
  | truth pos value => exact absurd hChars (hKeyword (truthWord value))
  | name pos word =>
    -- a name that is longer than the keyword has a name character behind it; the keyword ends
    -- there, so it is no letter and no digit
    obtain ⟨-, hAll, -⟩ := isName_iff.mp hu
    have hInside : isNameChar c = true := hAll c (by rw [show word.toList = _ from hChars]; simp)
    obtain hLetter | rfl := nameChar_alphanumeric hInside
    · rw [hEnd] at hLetter
      cases hLetter
    · exact .word ht pos word
  | number | string | symbol => cases hShape

/-- A token that ends in front of a character, and is the start of a longer token there, goes on
in one of the ways that there are. -/
theorem Token.Within.cases {c : Char} (h : t.Within u c) (ht : t.WellFormed) (hu : u.WellFormed)
    (hEnd : t.Ended (c :: rest)) : t.GoesOn u c := by
  have hHead : t.chars.head? = u.chars.head? := by
    obtain ⟨d, s, hStart, -⟩ := ht.shape
    obtain ⟨more, hChars⟩ := h
    rw [hChars, hStart]
    rfl
  have hShape := (shape_eq ht hu hHead).symm
  cases t with
  | keyword k => exact h.word rfl hu hShape (hEnd c rfl)
  | truth pos value => exact h.word rfl hu hShape (hEnd c rfl)
  | name pos word =>
    -- all of a word is in the characters of a name
    obtain ⟨more, hChars⟩ := h
    have hInside : ∀ d ∈ u.chars, isNameChar d = true := by
      cases u with
      | keyword k => exact k.nameChars
      | truth pos value => exact (truthWord value).nameChars
      | name pos word => exact (isName_iff.mp hu).2.1
      | number | string | symbol => cases hShape
    have hMore := hInside c (by rw [hChars]; simp)
    rw [hEnd c rfl] at hMore
    cases hMore
  | number pos digits =>
    obtain ⟨more, hChars⟩ := h
    cases u with
    | number pos' digits' =>
      have hMore := hu.2 c (by rw [show digits' = _ from hChars]; simp [Token.chars])
      rw [hEnd c rfl] at hMore
      cases hMore
    | keyword | truth | name | string | symbol => cases hShape
  | string pos literal =>
    obtain ⟨more, hChars⟩ := h
    cases u with
    | string pos' literal' =>
      -- the string ends at the same quote
      have hAgain := (scanString_append ht).2 (c :: more)
      have hSelf : scanString literal'.toList = some (literal', []) := hu
      rw [show literal'.toList = literal.toList ++ c :: more from hChars, hAgain] at hSelf
      cases hSelf
    | keyword | truth | name | number | symbol => cases hShape
  | symbol s =>
    cases u with
    | symbol s' => exact .symbol s s' c
    | keyword | truth | name | number | string => cases hShape

/-! ## Two cuts of a text -/

/-- The first of the tokens starts with the character. -/
def FirstStarts (c : Char) (ts : List Token) : Prop :=
  ∃ v vs, ts = v :: vs ∧ v.chars.head? = some c

/-- The token `t` of one cut is the start of the token `u` of another one, and the next token in the
first cut starts inside of `u`. -/
def Overlap (t u : Token) (ts : List Token) : Prop :=
  ∃ c, t.Within u c ∧ t.GoesOn u c ∧ FirstStarts c ts

/-- What a token goes on with could start a token of its own. -/
theorem Token.GoesOn.starts {c : Char} (h : t.GoesOn u c) (hu : u.WellFormed)
    (hWithin : t.Within u c) : startsToken c = true := by
  obtain ⟨more, hChars⟩ := hWithin
  cases h with
  | word => decide
  | symbol s s' =>
    exact ((Token.WellFormed.plain hu nofun) c (by rw [hChars]; simp)).1

/-- The longer token leaves something that the next token of the other cut starts with. -/
theorem overlap_of_longer {bound : List Char → List Char → Token → Prop} {c : Char}
    (hChars : u.chars = t.chars ++ c :: mid') (ht : t.WellFormed) (hu : u.WellFormed)
    (hEnded : t.Ended (c :: mid)) (hCut : Cut bound ts (c :: mid) rest)
    (hEnd : skipTrivia rest = []) : Overlap t u ts := by
  have hWithin : t.Within u c := ⟨mid', hChars⟩
  have hOn : t.GoesOn u c := hWithin.cases ht hu hEnded
  -- no trivia stand where the longer token goes on, so the next token of the cut starts at that
  -- very character
  have hText : skipTrivia (c :: mid) = c :: mid := skipTrivia_of_starts (hOn.starts hu hWithin)
  refine ⟨c, hWithin, hOn, ?_⟩
  cases hCut with
  | nil =>
    rw [hText] at hEnd
    cases hEnd
  | @cons v vs _ mid'' _ hNext hSome _ _ =>
    refine ⟨v, vs, rfl, ?_⟩
    -- the next token starts with the character in question, as it has at least one
    obtain ⟨d, s, hv⟩ := List.exists_cons_of_ne_nil hSome
    rw [hText, hv] at hNext
    cases hNext
    rw [hv]
    rfl

/-- Where a text is cut in two ways, the first tokens are the same, but for their positions, or one
of them is the start of the other. -/
theorem cuts_compared {bound bound' : List Char → List Char → Token → Prop}
    (hBound : ∀ start mid t, bound start mid t → t.Ended mid)
    (hBound' : ∀ start mid t, bound' start mid t → t.Ended mid)
    (h : Cut bound (t :: ts) cs rest) (h' : Cut bound' (u :: us) cs rest') (ht : t.Proper)
    (hu : u.Proper) (hEnd : skipTrivia rest = []) (hEnd' : skipTrivia rest' = []) :
    t.unplaced = u.unplaced ∨ Overlap t u ts ∨ Overlap u t us := by
  cases h with
  | cons hText _ hEnded hCut =>
  cases h' with
  | cons hText' _ hEnded' hCut' =>
    have hTokenEnd := hBound _ _ _ hEnded
    have hTokenEnd' := hBound' _ _ _ hEnded'
    rw [hText] at hText'
    -- both first tokens start the same text, so one of them is a prefix of the other
    rcases List.append_eq_append_iff.mp hText' with ⟨more, hu', rfl⟩ | ⟨more, ht', rfl⟩
    · cases more with
      | nil => exact .inl (ht.unplaced_eq hu (by rw [hu', List.append_nil]))
      | cons c more =>
        exact .inr (.inl (overlap_of_longer hu' ht.formed hu.formed hTokenEnd hCut hEnd))
    · cases more with
      | nil => exact .inl (ht.unplaced_eq hu (by rw [ht', List.append_nil]))
      | cons c more =>
        exact .inr (.inr (overlap_of_longer ht' hu.formed ht.formed hTokenEnd' hCut' hEnd'))

end NameResolution.Grammar
