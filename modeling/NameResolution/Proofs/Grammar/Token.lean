import NameResolution.Proofs.Text.Classes

/-!
# Tokens — a text cut at the boundaries of its words

A token is a keyword, a symbol or a leaf of the tree; a leaf carries the position at which it
stands. A text is cut into tokens where white space and comments stand in front of each of them.

* `Token.chars` — how a token is written.
* `Token.Read`, `Token.Closed` — where a token may end: as a reader has found it, and such that
  every reader must find it.
* `Cut` — a text cut into tokens up to some rest.
-/

namespace NameResolution.Grammar

/-- What a text is made of between trivia. -/
inductive Token where
  | keyword (k : Keyword)
  | symbol (s : List Char)
  /-- One of the keywords `TRUE` and `FALSE`. -/
  | truth (pos : Position) (value : Bool)
  | name (pos : Position) (word : String)
  | number (pos : Position) (digits : List Char)
  | string (pos : Position) (literal : String)
deriving DecidableEq, Repr

namespace Token

/-- The keyword for a truth value. -/
def truthWord : Bool → Keyword
  | true => .trueWord
  | false => .falseWord

/-- The characters of a token. -/
def chars : Token → List Char
  | keyword k => k.chars
  | symbol s => s
  | truth _ value => (truthWord value).chars
  | name _ word => word.toList
  | number _ digits => digits
  | string _ literal => literal.toList

/-- The position that a leaf carries. -/
def pos? : Token → Option Position
  | keyword _ | symbol _ => none
  | truth pos _ | name pos _ | number pos _ | string pos _ => some pos

/-- The symbols of the grammar. -/
def punctuation : List (List Char) :=
  [['.'], [','], [':'], ['('], [')'], ['['], [']'], ['\x7b'], ['\x7d'], ['-', '>'], ['<', '-'],
    ['+', '+'], ['-', '-'], ['='], ['|'], ['&'], ['=', '='], ['^', '='], ['<', '='], ['>', '='],
    ['<'], ['>'], ['+'], ['-'], ['*'], ['/'], ['^']]

/-- The token is one of the language. -/
def WellFormed : Token → Prop
  | keyword _ | truth _ _ => True
  | symbol s => s ∈ punctuation
  | name _ word => isName word.toList = true
  | number _ digits => digits ≠ [] ∧ ∀ d ∈ digits, Text.isDecimalDigit d = true
  | string _ literal => scanString literal.toList = some (literal, [])

/-- A reader has found the token in front of `rest`: no letter or number follows a keyword, a name
and a number are read to their ends, and a number has no more digits than `limit`. -/
def Read (limit : Nat) (rest : List Char) : Token → Prop
  | keyword _ | truth _ _ => ∀ c ∈ rest.head?, Text.isAlphanumeric c = false
  | name _ _ => ∀ c ∈ rest.head?, isNameChar c = false
  | number _ digits =>
    (∀ c ∈ rest.head?, Text.isDecimalDigit c = false) ∧ digits.length ≤ limit
  | symbol _ | string _ _ => True

/-- The token cannot be mistaken for another one in front of `rest`: neither a letter, a number nor
an underscore follows a word, and a plus or a minus sign is not doubled. -/
def Closed (rest : List Char) : Token → Prop
  | keyword _ | truth _ _ | name _ _ =>
    ∀ c ∈ rest.head?, Text.isAlphanumeric c = false ∧ isNameChar c = false
  | number _ _ => ∀ c ∈ rest.head?, Text.isDecimalDigit c = false
  | symbol s => (s = ['+'] ∨ s = ['-']) → rest.head? ≠ s.head?
  | string _ _ => True

end Token

/-! ## Cuts -/

/-- The text is cut into the tokens in front of `rest`. What has to hold of a token depends on the
text that starts with it and on what follows. -/
inductive Cut (bound : List Char → List Char → Token → Prop) :
    List Token → List Char → List Char → Prop where
  | nil (cs : List Char) : Cut bound [] cs cs
  | cons {t : Token} {ts : List Token} {cs mid rest : List Char}
      (hText : skipTrivia cs = t.chars ++ mid) (hSome : t.chars ≠ [])
      (hBound : bound (skipTrivia cs) mid t) (hCut : Cut bound ts mid rest) :
      Cut bound (t :: ts) cs rest

/-- The tokens as a reader has found them, with their positions. -/
abbrev ReadCut (ctx : Context) : List Token → List Char → List Char → Prop :=
  Cut fun start mid t => t.Read ctx.limit mid ∧ ∀ pos ∈ t.pos?, pos = ctx.locate start

/-- The tokens as every reader must find them. -/
abbrev ClosedCut : List Token → List Char → List Char → Prop :=
  Cut fun _ mid t => t.Closed mid

namespace Cut

variable {bound : List Char → List Char → Token → Prop} {t : Token} {ts us : List Token}
  {cs mid rest : List Char}

/-- One token is cut off. -/
theorem single (hText : skipTrivia cs = t.chars ++ rest) (hSome : t.chars ≠ [])
    (hBound : bound (skipTrivia cs) rest t) : Cut bound [t] cs rest :=
  .cons hText hSome hBound (.nil rest)

/-- Two cuts in a row make one. -/
theorem append (hFirst : Cut bound ts cs mid) (hSecond : Cut bound us mid rest) :
    Cut bound (ts ++ us) cs rest := by
  induction hFirst with
  | nil => exact hSecond
  | cons hText hSome hBound _ ih => exact .cons hText hSome hBound (ih hSecond)

theorem eq_of_nil (h : Cut bound [] cs rest) : cs = rest := by
  cases h
  rfl

end Cut

/-! ## Trivia -/

/-- A token that starts here is not skipped. -/
theorem skipTrivia_of_starts {c : Char} {cs : List Char} (h : startsToken c = true) :
    skipTrivia (c :: cs) = c :: cs := by
  rw [startsToken, Bool.and_eq_true, bne_iff_ne, Bool.not_eq_true'] at h
  obtain ⟨hComment, hBlank⟩ := h
  rw [skipTrivia, skipTriviaFrom, if_neg Bool.false_ne_true, if_neg, if_neg]
  · rw [hBlank]
    exact Bool.false_ne_true
  · rw [beq_iff_eq]
    exact hComment

/-- A blank in front is skipped. -/
theorem skipTrivia_of_blank {c : Char} {cs : List Char} (hBlank : Text.isBlank c = true) :
    skipTrivia (c :: cs) = skipTrivia cs := by
  have hComment : (c == '#') = false := by
    rw [beq_eq_false_iff_ne]
    rintro rfl
    exact absurd hBlank (by decide)
  rw [skipTrivia, skipTriviaFrom, if_neg Bool.false_ne_true, hComment,
    if_neg Bool.false_ne_true, if_pos hBlank]
  rfl

theorem skipTriviaFrom_length (inComment : Bool) (cs : List Char) :
    (skipTriviaFrom inComment cs).length ≤ cs.length := by
  induction cs generalizing inComment with
  | nil => exact Nat.le_refl _
  | cons c cs ih =>
    rw [skipTriviaFrom, List.length_cons]
    -- whatever the character is, it is left out or the scan ends
    have hSkip := fun b => Nat.le_succ_of_le (ih b)
    split
    · exact hSkip _
    · split
      · exact hSkip _
      · split
        · exact hSkip _
        · exact Nat.le_refl _

theorem skipTrivia_length (cs : List Char) : (skipTrivia cs).length ≤ cs.length :=
  skipTriviaFrom_length false cs

/-- Each token takes at least a character. -/
theorem Cut.length {bound : List Char → List Char → Token → Prop} {ts : List Token}
    {cs rest : List Char} (h : Cut bound ts cs rest) : rest.length + ts.length ≤ cs.length := by
  induction h with
  | nil cs => simp
  | @cons t ts cs mid rest hText hSome _ _ ih =>
    -- each token takes a character at least
    have hTrivia := skipTrivia_length cs
    have hChars := List.length_pos_iff.mpr hSome
    rw [hText, List.length_append] at hTrivia
    rw [List.length_cons]
    omega

end NameResolution.Grammar
