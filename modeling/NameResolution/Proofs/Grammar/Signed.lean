import NameResolution.Proofs.Grammar.Lexing

/-!
# Signed cuts — a text cut as the parser cuts it

Behind an operand the parser takes a plus or a minus sign only where it is not doubled, while signs
in front of an operand may stand side by side. So what has to hold of a sign depends on the token in
front of it. All other tokens are taken wherever they end, and an underscore may follow a keyword.

* `Token.Ended`, `Token.Doubled` — where the parser ends a token, and the signs that it leaves
  behind an operand.
* `SignedCut` — a text cut into tokens such that no operand has a doubled sign behind it.
* `FoundBehind`, `SeenCut` — the tokens as the parser finds them, without and with their positions.
-/

namespace NameResolution.Grammar

/-! ## Ends of tokens -/

namespace Token

/-- The parser ends the token in front of `rest`: no letter or number follows a keyword, and a name
and a number are read to their ends. -/
def Ended (rest : List Char) : Token → Prop
  | keyword _ | truth _ _ => ∀ c ∈ rest.head?, Text.isAlphanumeric c = false
  | name _ _ => ∀ c ∈ rest.head?, isNameChar c = false
  | number _ _ => ∀ c ∈ rest.head?, Text.isDecimalDigit c = false
  | symbol _ | string _ _ => True

/-- The token is a plus or a minus sign, and `rest` starts with the same sign. -/
def Doubled (rest : List Char) : Token → Prop
  | symbol s => (s = ['+'] ∨ s = ['-']) ∧ rest.head? = s.head?
  | _ => False

/-- Whether an operand may end with the token. -/
def endsOperand : Token → Bool
  | truth _ _ | name _ _ | number _ _ | string _ _ => true
  | symbol s => s == [')']
  | keyword _ => false

/-- A token that is read ends there. -/
theorem Read.ended {t : Token} {limit : Nat} {rest : List Char} (h : t.Read limit rest) :
    t.Ended rest := by
  cases t with
  | number => exact h.1
  | keyword | truth | name | symbol | string => exact h

/-- A token that is closed ends there. -/
theorem Closed.ended {t : Token} {rest : List Char} (h : t.Closed rest) : t.Ended rest := by
  cases t with
  | keyword | truth => exact fun c hc => (h c hc).1
  | name => exact fun c hc => (h c hc).2
  | number => exact h
  | symbol | string => trivial

/-- A sign that is closed is not one of two. -/
theorem Closed.not_doubled {t : Token} {rest : List Char} (h : t.Closed rest) :
    ¬ t.Doubled rest := by
  cases t with
  | symbol s => exact fun ⟨hSign, hSame⟩ => h hSign hSame
  | keyword | truth | name | number | string => exact not_false

/-- A symbol other than plus and minus is never one of two. -/
theorem not_doubled {s : List Char} (h : s ≠ ['+'] ∧ s ≠ ['-']) (rest : List Char) :
    ¬ (symbol s).Doubled rest := by
  rintro ⟨hPlus | hMinus, -⟩
  · exact h.1 hPlus
  · exact h.2 hMinus

end Token

/-! ## Cuts -/

/-- The text is cut into the tokens in front of `rest`, where `behind` tells whether an operand ends
in front of the text. No sign behind an operand is doubled. -/
inductive SignedCut (bound : List Char → List Char → Token → Prop) :
    Bool → List Token → List Char → List Char → Prop where
  | nil (behind : Bool) (cs : List Char) : SignedCut bound behind [] cs cs
  | cons {behind : Bool} {t : Token} {ts : List Token} {cs mid rest : List Char}
      (hText : skipTrivia cs = t.chars ++ mid) (hSome : t.chars ≠ [])
      (hBound : bound (skipTrivia cs) mid t) (hSingle : behind = true → ¬ t.Doubled mid)
      (hCut : SignedCut bound t.endsOperand ts mid rest) :
      SignedCut bound behind (t :: ts) cs rest

/-- The tokens as the parser finds them, with their positions. -/
abbrev SeenCut (ctx : Context) :
    Bool → List Token → List Char → List Char → Prop :=
  SignedCut fun start mid t => t.Read ctx.limit mid ∧ ∀ pos ∈ t.pos?, pos = ctx.locate start

/-- The tokens as the parser finds them. -/
abbrev FoundBehind : Bool → List Token → List Char → List Char → Prop :=
  SignedCut fun _ mid t => t.Ended mid

/-- The tokens as the parser finds them where no operand ends in front of them. -/
abbrev FoundCut : List Token → List Char → List Char → Prop :=
  FoundBehind false

/-- Whether an operand ends in front of what follows the tokens. -/
def endsOperand (behind : Bool) (ts : List Token) : Bool :=
  ts.foldl (fun _ t => t.endsOperand) behind

variable {bound : List Char → List Char → Token → Prop} {behind : Bool} {t : Token}
  {ts us : List Token} {cs mid rest : List Char}

theorem endsOperand_append (behind : Bool) (ts us : List Token) :
    endsOperand behind (ts ++ us) = endsOperand (endsOperand behind ts) us :=
  List.foldl_append

namespace SignedCut

/-- The cut of one token. -/
theorem single (hText : skipTrivia cs = t.chars ++ rest) (hSome : t.chars ≠ [])
    (hBound : bound (skipTrivia cs) rest t) (hSingle : behind = true → ¬ t.Doubled rest) :
    SignedCut bound behind [t] cs rest :=
  .cons hText hSome hBound hSingle (.nil _ rest)

/-- What is cut behind an operand could stand behind anything. -/
theorem weaken (h : SignedCut bound true ts cs rest) (behind : Bool) :
    SignedCut bound behind ts cs rest := by
  cases h with
  | nil => exact .nil behind cs
  | cons hText hSome hBound hSingle hCut =>
    exact .cons hText hSome hBound (fun _ => hSingle rfl) hCut

/-- A cut behind an operand is a cut behind anything else. -/
theorem unsigned (h : SignedCut bound behind ts cs rest) : SignedCut bound false ts cs rest := by
  cases h with
  | nil => exact .nil false cs
  | cons hText hSome hBound _ hCut => exact .cons hText hSome hBound nofun hCut

/-- Two cuts behind each other are one, if the second one holds behind an operand. -/
theorem append (hFirst : SignedCut bound behind ts cs mid)
    (hSecond : SignedCut bound true us mid rest) : SignedCut bound behind (ts ++ us) cs rest := by
  induction hFirst with
  | nil behind cs => exact hSecond.weaken behind
  | cons hText hSome hBound hSingle _ ih =>
    exact .cons hText hSome hBound hSingle (ih hSecond)

/-- Behind a token that ends no operand, any cut goes on. -/
theorem lead (hFirst : SignedCut bound behind [t] cs mid) (hOpen : t.endsOperand = false)
    (hSecond : SignedCut bound false us mid rest) : SignedCut bound behind (t :: us) cs rest := by
  cases hFirst with
  | cons hText hSome hBound hSingle hNil =>
    cases hNil
    refine .cons hText hSome hBound hSingle ?_
    rw [hOpen]
    exact hSecond

theorem split (h : SignedCut bound behind (ts ++ us) cs rest) :
    ∃ mid, SignedCut bound behind ts cs mid ∧
      SignedCut bound (Grammar.endsOperand behind ts) us mid rest := by
  induction ts generalizing behind cs with
  | nil => exact ⟨cs, .nil behind cs, h⟩
  | cons t ts ih =>
    cases h with
    | cons hText hSome hBound hSingle hCut =>
      obtain ⟨mid, hFirst, hSecond⟩ := ih hCut
      exact ⟨mid, .cons hText hSome hBound hSingle hFirst, hSecond⟩

/-- Without what it says of signs, it is a cut. -/
theorem cut (h : SignedCut bound behind ts cs rest) : Cut bound ts cs rest := by
  induction h with
  | nil _ cs => exact .nil cs
  | cons hText hSome hBound _ _ ih => exact .cons hText hSome hBound ih

theorem eq_of_nil (h : SignedCut bound behind [] cs rest) : cs = rest :=
  h.cut.eq_of_nil

/-- Every token has at least one character. -/
theorem length (h : SignedCut bound behind ts cs rest) : rest.length + ts.length ≤ cs.length :=
  h.cut.length

/-- Behind a token less is left. -/
theorem shorter (h : SignedCut bound behind (t :: ts) cs rest) : rest.length < cs.length := by
  have hLength := h.length
  rw [List.length_cons] at hLength
  omega

end SignedCut

/-! ## Cuts without positions -/

/-- Closed tokens can stand behind anything. -/
theorem ClosedCut.signed (h : ClosedCut ts cs rest) (behind : Bool) :
    FoundBehind behind ts cs rest := by
  induction h generalizing behind with
  | nil cs => exact .nil behind cs
  | cons hText hSome hClosed _ ih =>
    exact .cons hText hSome hClosed.ended (fun _ => hClosed.not_doubled) (ih _)

/-- Tokens that every reader must find are found by the parser. -/
theorem ClosedCut.found (h : ClosedCut ts cs rest) : FoundCut ts cs rest :=
  ClosedCut.signed h false

/-- What is seen with positions is found. -/
theorem SeenCut.found {ctx : Context} (h : SeenCut ctx behind ts cs rest) :
    FoundBehind behind ts cs rest := by
  induction h with
  | nil behind cs => exact .nil behind cs
  | cons hText hSome hBound hSingle _ ih => exact .cons hText hSome hBound.1.ended hSingle ih

namespace FoundCut

/-- Two lists of tokens, the second one behind whatever the first one ends with. -/
theorem split (h : FoundCut (ts ++ us) cs rest) :
    ∃ mid, FoundCut ts cs mid ∧ FoundCut us mid rest := by
  obtain ⟨mid, hFirst, hSecond⟩ := SignedCut.split h
  exact ⟨mid, hFirst, hSecond.unsigned⟩

/-- The first token, and what is found behind it. -/
theorem uncons (h : FoundCut (t :: ts) cs rest) :
    ∃ mid, FoundCut [t] cs mid ∧ FoundCut ts mid rest := by
  rw [← List.singleton_append] at h
  exact h.split

/-- The cut of one token says that it stands there and ends. -/
theorem single_inv (h : FoundCut [t] cs rest) :
    skipTrivia cs = t.chars ++ rest ∧ t.Ended rest := by
  cases h with
  | cons hText _ hBound _ hCut =>
    obtain rfl := hCut.eq_of_nil
    exact ⟨hText, hBound⟩

/-- What is looked at ahead is the first character of the first token. -/
theorem ahead (h : FoundCut (t :: ts) cs rest) : Grammar.ahead cs = t.chars.head? :=
  ahead_of_cut h.cut

/-- The cut at a token behind an operand. -/
theorem behind_operand (h : FoundCut (ts ++ t :: us) cs rest)
    (hOperand : endsOperand false ts = true) :
    ∃ mid mid', FoundCut ts cs mid ∧ FoundCut [t] mid mid' ∧ ¬ t.Doubled mid' ∧
      FoundCut us mid' rest := by
  obtain ⟨mid, hFirst, hSecond⟩ := SignedCut.split h
  rw [hOperand] at hSecond
  cases hSecond with
  | cons hText hSome hBound hSingle hCut =>
    exact ⟨mid, _, hFirst, .single hText hSome hBound nofun, hSingle rfl, hCut.unsigned⟩

end FoundCut

end NameResolution.Grammar
