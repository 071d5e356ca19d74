import NameResolution.Proofs.Grammar.Accepting

/-!
# Accepting expressions — each level finds what is derived at it

The operators of a level are read in a loop that must not stop before the last one and must not take
what belongs to a looser level. So the induction over a derivation says three things of every
expression: that it is found if it ends there, that it is a chain of operands which another operator
may prolong, and that it is a run of signs in front of an operand.

* `DerivesExpr.untargeted` — an expression is not mistaken for an assignment.
* `Accepted` — what the induction carries.
* `DerivesExpr.accepted` — every expression of every level is read.
-/

namespace NameResolution.Grammar

open NameResolution.Grammar.Parser

variable {ctx : Context} {cs mid rest : List Char} {ts us : List Token}

/-! ## Literals and signs are no names -/

/-- A number does not start as names do. -/
theorem number_nameless {pos : Position} {digits : List Char}
    (hForm : (Token.number pos digits).WellFormed)
    (hCut : FoundCut (.number pos digits :: ts) cs rest) :
    ∀ c ∈ ahead cs, isNameStart c = false := by
  intro c hc
  rw [hCut.ahead] at hc
  have hDigit := hForm.2 c (List.mem_of_mem_head? hc)
  rw [← Bool.not_eq_true]
  intro hName
  rw [not_digit_of_nameStart hName] at hDigit
  cases hDigit

/-- A string starts with its quote. -/
theorem string_ahead {pos : Position} {literal : String}
    (hForm : (Token.string pos literal).WellFormed)
    (hCut : FoundCut (.string pos literal :: ts) cs rest) : ahead cs = some '"' := by
  obtain ⟨s, hChars⟩ := string_quote hForm
  rw [hCut.ahead, Token.chars, hChars]
  rfl

/-- What comes next in a text is ahead of it if it starts a token. -/
theorem head_ne_of_ahead {c : Char} (hToken : startsToken c = true) (h : ahead cs ≠ some c) :
    cs.head? ≠ some c := by
  intro hHead
  obtain ⟨s, rfl⟩ := List.head?_eq_some_iff.mp hHead
  rw [ahead, skipTrivia_of_starts hToken] at h
  exact h rfl

/-- A truth value is no name, unless an underscore follows it. -/
theorem truth_no_name {pos : Position} {value : Bool}
    (hCut : FoundCut [.truth pos value] cs rest) (hNext : ahead rest ≠ some '_') :
    ident ctx cs = .rejected := by
  obtain ⟨hText, hEnded⟩ := hCut.single_inv
  -- neither a letter nor a digit nor an underscore follows the keyword
  have hEnd : ∀ c ∈ rest.head?, isNameChar c = false := by
    intro c hc
    rw [← Bool.not_eq_true]
    intro hName
    rcases nameChar_alphanumeric hName with hLetter | rfl
    · rw [hEnded c hc] at hLetter
      cases hLetter
    · exact head_ne_of_ahead (by decide) hNext hc
  cases value with
  | true => exact ident_rejects_keyword (k := .trueWord) hText hEnd
  | false => exact ident_rejects_keyword (k := .falseWord) hText hEnd

/-- A sign does not start as names do. -/
theorem sign_nameless {op : List Char} (hOp : op ∈ signs)
    (hCut : FoundCut (.symbol op :: ts) cs rest) : ∀ c ∈ ahead cs, isNameStart c = false := by
  rcases List.mem_pair.mp hOp with rfl | rfl
  · exact all_ahead (hCut.ahead) (by decide)
  · exact all_ahead (hCut.ahead) (by decide)

/-! ## Expressions are not mistaken for assignments -/

/-- What follows is neither a field nor the sign of an assignment, though it may be `==`, and it
does not go on with a word. -/
structure Untargeted (cs : List Char) : Prop where
  noName : ahead cs ≠ some '_'
  noField : ahead cs ≠ some ':'
  noSign : ahead cs = some '=' → ∃ more, skipTrivia cs = '=' :: '=' :: more

theorem assignment_rejects_untargeted {expr : Parser Expr}
    (h : location ctx cs = .rejected ∨
      ∃ loc mid, location ctx cs = .matched loc mid ∧ Untargeted mid) :
    assignment expr ctx cs = .rejected := by
  rcases h with hReject | ⟨loc, mid, hLoc, -, -, hDouble⟩
  · exact bind_of_rejected (bind_of_rejected hReject)
  -- an equality sign stands behind the location, so the look for a second one is not in vain
  · by_cases hSign : ahead mid = some '='
    · obtain ⟨more, hText⟩ := hDouble hSign
      have hStart : skipTrivia ('=' :: more) = '=' :: more := skipTrivia_of_starts (by decide)
      have hFirst : symbol ['='] ctx mid = .matched () ('=' :: more) :=
        symbol_eq_matched.mpr hText
      have hSecond : symbol ['='] ctx ('=' :: more) = .matched () more :=
        symbol_eq_matched.mpr hStart
      refine bind_of_rejected ?_
      rw [assignmentParts, bind_of_matched hLoc, bind_of_matched hFirst]
      exact bind_of_rejected (notAhead_of_matched hSecond)
    · exact assignment_rejects hLoc hSign

/-- An operator does not turn the location in front of it into a target. -/
theorem untargeted_of_operator {op : List Char} (hName : op.head? ≠ some '_')
    (hOp : op.head? ≠ some ':') (hDouble : op.head? = some '=' → op = ['=', '='])
    (hCut : FoundCut (.symbol op :: ts) cs rest) : Untargeted cs := by
  have hAhead := hCut.ahead
  refine ⟨by rw [hAhead]; exact hName, by rw [hAhead]; exact hOp, ?_⟩
  intro hEq
  rw [hAhead] at hEq
  obtain ⟨mid, hSymbol, -⟩ := hCut.uncons
  refine ⟨mid, ?_⟩
  rw [hSymbol.single_inv.1, Token.chars, hDouble hEq]
  rfl

/-- An expression that is no assignment is not taken for the start of one. -/
theorem DerivesExpr.untargeted {d : Dialect} {level : Level} {e : Expr}
    (h : DerivesExpr d level ts e) (hLevel : level ≠ .assignment) (hCut : FoundCut ts cs rest)
    (hRest : Untargeted rest) :
    location ctx cs = .rejected ∨
      ∃ loc mid, location ctx cs = .matched loc mid ∧ Untargeted mid := by
  induction h generalizing rest with
  | @tighter level next _ _ hNext _ ih =>
    refine ih ?_ hCut hRest
    rintro rfl
    cases level <;> cases hNext
  | assign => exact absurd rfl hLevel
  | @operation level _ _ _ _ _ op hOp _ _ _ ihLeft _ =>
    obtain ⟨mid, hLeftCut, hCut⟩ := hCut.split
    -- whatever follows the leftmost operand, it is no colon and no single equality sign
    have hOps : ∀ level : Level, ∀ op ∈ level.operators,
        op.head? ≠ some '_' ∧ op.head? ≠ some ':' ∧ (op.head? = some '=' → op = ['=', '=']) := by
      intro level
      cases level <;> decide
    obtain ⟨hName, hColon, hDouble⟩ := hOps level op hOp
    exact ihLeft hLevel hLeftCut (untargeted_of_operator hName hColon hDouble hCut)
  | @comparison _ _ _ _ op hOp _ _ ihLeft _ =>
    obtain ⟨mid, hLeftCut, hCut⟩ := hCut.split
    have hOps : ∀ op ∈ comparisons,
        op.head? ≠ some '_' ∧ op.head? ≠ some ':' ∧
          (op.head? = some '=' → op = ['=', '=']) := by decide
    obtain ⟨hName, hColon, hDouble⟩ := hOps op hOp
    exact ihLeft (by decide) hLeftCut (untargeted_of_operator hName hColon hDouble hCut)
  | sign hOp _ _ =>
    exact .inl (location_rejects (sign_nameless hOp hCut))
  | trueLit pos => exact .inl (bind_of_rejected (truth_no_name hCut hRest.noName))
  | falseLit pos => exact .inl (bind_of_rejected (truth_no_name hCut hRest.noName))
  | intLit pos hForm _ => exact .inl (location_rejects (number_nameless hForm hCut))
  | strLit pos hForm =>
    exact .inl (location_rejects (all_ahead (string_ahead hForm hCut) (by decide)))
  | call hCallee _ _ _ _ _ =>
    obtain ⟨mid, hCalleeCut, hCut⟩ := hCut.split
    -- the callee is read as a location, which the parenthesis follows
    obtain ⟨id', hIdent, -⟩ := hCallee.accepted hCalleeCut ctx
    have hAhead : ahead mid = some '(' := hCut.ahead
    refine .inr ⟨_, mid, location_of_ident hIdent ?_, ?_, ?_, ?_⟩
    · rw [hAhead]
      decide
    · rw [hAhead]
      decide
    · rw [hAhead]
      decide
    · rw [hAhead]
      rintro hEq
      cases hEq
  | parenthesized _ _ =>
    have hAhead : ahead cs = some '(' := hCut.ahead
    exact .inl (location_rejects (all_ahead hAhead (by decide)))
  | loc hLoc _ =>
    obtain ⟨loc', hRead, -⟩ := hLoc.accepted hCut hRest.noField ctx
    exact .inr ⟨loc', rest, hRead, hRest⟩

/-! ## Operators -/

/-- An operator of a level is read as itself, if it stands alone. -/
theorem Level.operator_accepted {level : Level} {op : List Char} (hOp : op ∈ level.operators)
    (h : FoundCut [.symbol op] cs rest) (hSingle : ¬ (Token.symbol op).Doubled rest) :
    level.operator ctx cs = .matched (String.ofList op) rest := by
  have hText : skipTrivia cs = op ++ rest := h.single_inv.1
  cases level with
  | disjunction | conjunction =>
    obtain rfl := List.mem_singleton.mp hOp
    exact operator_single hText
  | product =>
    show Grammar.operator [['*'], ['/']] ctx cs = _
    rcases List.mem_pair.mp hOp with rfl | rfl
    · simp [Grammar.operator, lexeme, scanOperator, hText, List.isPrefixOf?]
    · simp [Grammar.operator, lexeme, scanOperator, hText, List.isPrefixOf?]
  | sum =>
    show lexeme (scanSingle ['+', '-']) ctx cs = _
    -- a doubled sign is not taken
    rcases List.mem_pair.mp hOp with rfl | rfl
    · exact single_eq_matched.mpr ⟨'+', by simp, rfl, hText, fun hSame => hSingle ⟨.inl rfl, hSame⟩⟩
    · exact single_eq_matched.mpr ⟨'-', by simp, rfl, hText, fun hSame => hSingle ⟨.inr rfl, hSame⟩⟩
  | assignment | comparison | unary | primary => cases hOp

/-- A comparison is read as a whole where no equality sign follows that would make it longer. -/
theorem comparison_accepted {op : List Char} (hOp : op ∈ comparisons)
    (h : FoundCut [.symbol op] cs rest) (hNext : rest.head? ≠ some '=')
    (ctx : Context) :
    operator comparisons ctx cs = .matched (String.ofList op) rest := by
  have hText : skipTrivia cs = op ++ rest := h.single_inv.1
  -- `<=` and `>=` are tried before `<` and `>`, and need the equality sign
  have hLonger : ['='].isPrefixOf? rest = none := isPrefixOf?_of_head hNext
  rw [operator, lexeme_eq_matched, scanOperator, hText]
  simp only [comparisons, List.mem_cons, List.not_mem_nil, or_false] at hOp
  rcases hOp with rfl | rfl | rfl | rfl | rfl | rfl <;>
    simp [comparisons, List.isPrefixOf?, hLonger]

/-- A sign is read as itself, if no equality sign follows. -/
theorem sign_accepted {op : List Char} (hOp : op ∈ signs) (h : FoundCut [.symbol op] cs rest)
    (hNext : ahead rest ≠ some '=') : sign ctx cs = .matched (String.ofList op) rest := by
  have hText : skipTrivia cs = op ++ rest := h.single_inv.1
  rcases List.mem_pair.mp hOp with rfl | rfl
  -- a minus sign is tried first and needs no look ahead; the other sign must not be part of the
  -- symbol that ends with an equals sign
  · exact orElse_of_matched (operator_single hText)
  · have hMinus : operator [['-']] ctx cs = .rejected := by
      refine operator_rejects (by simp) ?_
      rw [h.ahead]
      decide
    show (operator [['-']] <|> _) ctx cs = _
    rw [orElse_of_rejected hMinus, bind_of_matched (operator_single hText),
      bind_of_matched (notAhead_of_rejected (symbol_rejects hNext))]
    rfl

/-- A symbol that begins with no continuing character ends the level. -/
theorem ends_of_head {level : Level} {op : List Char} (hCut : FoundCut (.symbol op :: ts) cs rest)
    (hOther : op.head?.any level.continuing.contains = false) : Ends level cs := by
  refine ends_of_ahead ?_
  rw [hCut.ahead]
  intro c hc hContinue
  rw [Token.chars, Option.mem_def] at hc
  rw [hc, Option.any_some, List.contains_iff_mem.mpr hContinue] at hOther
  cases hOther

/-- An operator of a level ends its left operand. -/
theorem ends_at_operator {level next : Level} {op : List Char} (hOp : op ∈ level.operators)
    (hNext : level.tighter? = some next) (hCut : FoundCut (.symbol op :: ts) cs rest) :
    Ends next cs := by
  have hOps : ∀ level next : Level, level.tighter? = some next → ∀ op ∈ level.operators,
      op.head?.any next.continuing.contains = false := by
    intro level next hNext
    cases level <;> cases hNext <;> decide
  exact ends_of_head hCut (hOps level next hNext op hOp)

/-- A comparison ends the sum in front of it. -/
theorem ends_at_comparison {op : List Char} (hOp : op ∈ comparisons)
    (hCut : FoundCut (.symbol op :: ts) cs rest) : Ends .sum cs := by
  have hOps : ∀ op ∈ comparisons, op.head?.any Level.sum.continuing.contains = false := by decide
  exact ends_of_head hCut (hOps op hOp)

/-- A closing character ends every expression. -/
theorem ends_at {c : Char} (hAhead : ahead cs = some c)
    (hClosing : c ∉ Level.assignment.continuing) (level : Level) : Ends level cs := by
  have hWhole : Ends .assignment cs := ends_of_ahead (all_ahead hAhead hClosing)
  exact hWhole.mono (Nat.zero_le _)

/-- So does a doubled sign, which is no operator. -/
theorem ends_at_double {c : Char} {more : List Char} (hSign : c = '+' ∨ c = '-')
    (hText : skipTrivia cs = c :: c :: more) : Ends .assignment cs := by
  have hAhead : ahead cs = some c := by
    rw [ahead, hText]
    rfl
  -- of the characters that could go on, only the sign itself is there
  have hOther : c ∉ ['_', ':', '(', '=', '*', '/', '^', '<', '>', '&', '|'] := by
    rcases hSign with rfl | rfl <;> decide
  have hNot : ∀ d ∈ ['_', ':', '(', '=', '*', '/', '^', '<', '>', '&', '|'],
      ahead cs ≠ some d := by
    rw [hAhead]
    rintro d hd hEq
    cases hEq
    exact hOther hd
  refine ⟨hNot '_' (by decide), hNot ':' (by decide), hNot '(' (by decide),
    fun _ => hNot '=' (by decide), ?_⟩
  intro l _ ctx
  cases l with
  | sum =>
    show lexeme (scanSingle ['+', '-']) ctx cs = .rejected
    refine single_rejects ?_
    intro d _ hd
    rw [hAhead] at hd
    cases hd
    rw [hText]
    rfl
  | disjunction | conjunction | comparison | product =>
    exact operator_rejects_marks (by decide) hNot
  | assignment | unary | primary => rfl

/-- Where no expression can start there is none. -/
theorem expression_rejects (h : ∀ c ∈ ahead cs, startsExpr c = false) :
    expression ctx cs = .rejected := by
  -- none of the characters that one of the alternatives starts with
  have hParts : ∀ c ∈ ahead cs, isNameStart c = false ∧ Text.isDecimalDigit c = false ∧
      c ≠ '"' ∧ c ≠ '(' ∧ c ≠ '-' ∧ c ≠ '^' := by
    intro c hc
    have hNot := h c hc
    simp only [startsExpr, startsPrimary, Bool.or_eq_false_iff, beq_eq_false_iff_ne, and_assoc]
      at hNot
    exact hNot
  have hNot : ∀ d : Char, startsExpr d = true → ahead cs ≠ some d := by
    intro d hd hEq
    rw [h d hEq] at hd
    cases hd
  have hLoc : location ctx cs = .rejected := location_rejects fun c hc => (hParts c hc).1
  have hIdent : ident ctx cs = .rejected := ident_rejects fun c hc => (hParts c hc).1
  have hKeyword : ∀ k : Keyword, keyword k ctx cs = .rejected := by
    intro k
    refine keyword_rejects ?_
    intro c hc
    have hStart := (hParts c hc).1
    rw [isNameStart, Bool.or_eq_false_iff] at hStart
    exact hStart.1
  have hPrimary : primary expression ctx cs = .rejected := by
    have hCall : call expression ctx cs = .rejected := bind_of_rejected (bind_of_rejected hIdent)
    have hParen : parenthesized expression ctx cs = .rejected :=
      bind_of_rejected (symbol_rejects (hNot '(' (by decide)))
    rw [primary_without_literal (hKeyword _) (hKeyword _) (fun c hc => (hParts c hc).2.1)
      (hNot '"' (by decide)), orElse_of_rejected hCall, orElse_of_rejected hParen]
    exact map_of_rejected hLoc
  have hSign : sign ctx cs = .rejected := by
    refine sign_rejects ?_
    intro c hc
    exact (hParts c hc).2.2.2.2
  have hUnary : unary expression ctx cs = .rejected := by
    rw [unary, bind_of_matched (many_of_rejected hSign)]
    exact bind_of_rejected hPrimary
  have hComparison : comparison expression ctx cs = .rejected :=
    bind_of_rejected (bind_of_rejected (bind_of_rejected hUnary))
  have hDisjunction : disjunction expression ctx cs = .rejected :=
    bind_of_rejected (bind_of_rejected hComparison)
  have hAssign : assignment expression ctx cs = .rejected :=
    bind_of_rejected (bind_of_rejected hLoc)
  rw [expression_eq]
  show (assignment expression <|> disjunction expression) ctx cs = _
  rw [orElse_of_rejected hAssign, hDisjunction]

/-! ## Expressions -/

/-- The tokens are read as an expression of a level, in each of the ways that the parser of a looser
level needs it. -/
structure Accepted (ctx : Context) (level : Level) (ts : List Token) (e : Expr) : Prop where
  /-- The whole expression, if it ends there. -/
  found : ∀ cs rest, FoundCut ts cs rest → Ends level rest →
    ∃ e', levelParser expression level ctx cs = .matched e' rest ∧ e'.unplaced = e.unplaced
  /-- Operands with operators between them; another operator may follow. -/
  chained : ∀ next, level.operators ≠ [] → level.tighter? = some next →
    ∀ cs rest, FoundCut ts cs rest → Ends next rest →
    ∃ first mid pairs, levelParser expression next ctx cs = .matched first mid ∧
      Runs (operation level.operator (levelParser expression next)) ctx mid pairs rest ∧
      (foldPairs Expr.binary first pairs).unplaced = e.unplaced
  /-- Signs in front of a primary expression. -/
  signed : level = .unary → ∀ cs rest, FoundCut ts cs rest → Ends level rest →
    ∃ os mid operand, Runs sign ctx cs os mid ∧ sign ctx mid = .rejected ∧
      primary expression ctx mid = .matched operand rest ∧
      (os.foldr Expr.unary operand).unplaced = e.unplaced

/-- An expression that starts no chain of operators and signs of its own level. -/
theorem Accepted.of_found {level : Level} {e : Expr} (hOps : level.operators = [])
    (hUnary : level ≠ .unary)
    (h : ∀ cs rest, FoundCut ts cs rest → Ends level rest →
      ∃ e', levelParser expression level ctx cs = .matched e' rest ∧
        e'.unplaced = e.unplaced) : Accepted ctx level ts e where
  found := h
  chained _ hSome := absurd hOps hSome
  signed hLevel := absurd hLevel hUnary

/-- A chain of operators is accepted if its operands are. -/
theorem Accepted.of_chained {level next : Level} {e : Expr} (hOps : level.operators ≠ [])
    (hNext : level.tighter? = some next)
    (h : ∀ cs rest, FoundCut ts cs rest → Ends next rest →
      ∃ first mid pairs, levelParser expression next ctx cs = .matched first mid ∧
        Runs (operation level.operator (levelParser expression next)) ctx mid pairs rest ∧
        (foldPairs Expr.binary first pairs).unplaced = e.unplaced) : Accepted ctx level ts e where
  found cs rest hCut hEnds := by
    obtain ⟨first, mid, pairs, hFirst, hRuns, hShape⟩ :=
      h cs rest hCut (hEnds.tighter hNext)
    refine ⟨foldPairs Expr.binary first pairs, ?_, hShape⟩
    -- the chain stops where the expression ends
    have hStop : operation level.operator (levelParser expression next) ctx rest = .rejected :=
      operation_rejects (hEnds.operator_rejects ctx)
    rw [levelParser_operation expression hOps hNext, leftAssociative, bind_of_matched hFirst,
      bind_of_matched (many_of_runs hRuns hStop)]
    rfl
  chained next' _ hNext' := by
    obtain rfl : next = next' := Option.some.inj (hNext.symm.trans hNext')
    exact h
  signed hLevel := by
    rw [hLevel] at hOps
    exact absurd rfl hOps

theorem Accepted.of_signed {e : Expr}
    (h : ∀ cs rest, FoundCut ts cs rest → Ends .unary rest →
      ∃ os mid operand, Runs sign ctx cs os mid ∧ sign ctx mid = .rejected ∧
        primary expression ctx mid = .matched operand rest ∧
        (os.foldr Expr.unary operand).unplaced = e.unplaced) : Accepted ctx .unary ts e where
  found cs rest hCut hEnds := by
    -- the signs are a run of their own, and the primary expression ends it
    obtain ⟨os, mid, operand, hRuns, hStop, hOperand, hShape⟩ := h cs rest hCut hEnds
    refine ⟨os.foldr Expr.unary operand, ?_, hShape⟩
    show unary expression ctx cs = _
    rw [unary, bind_of_matched (many_of_runs hRuns hStop), bind_of_matched hOperand]
    rfl
  chained _ hSome := absurd rfl hSome
  signed _ := h

/-! ### Tighter levels -/

/-- What the next level accepts is accepted. -/
theorem Accepted.tighter {level next : Level} {e : Expr} (hNext : level.tighter? = some next)
    (hDerives : DerivesExpr ctx.dialect next ts e) (h : Accepted ctx next ts e) :
    Accepted ctx level ts e := by
  have hChain : level.operators ≠ [] → Accepted ctx level ts e := by
    intro hOps
    refine .of_chained hOps hNext ?_
    intro cs rest hCut hEnds
    obtain ⟨e', hRead, hShape⟩ := h.found cs rest hCut hEnds
    exact ⟨e', rest, [], hRead, .nil rest, hShape⟩
  cases level with
  | disjunction | conjunction | sum | product => exact hChain (by decide)
  | assignment =>
    refine .of_found rfl (by decide) ?_
    intro cs rest hCut hEnds
    obtain ⟨e', hRead, hShape⟩ := h.found cs rest hCut (hEnds.tighter hNext)
    -- what ends the expression is no sign of an assignment
    have hUntargeted : Untargeted rest :=
      ⟨hEnds.noName, hEnds.noField, fun hEq => absurd hEq (hEnds.noTarget rfl)⟩
    have hLevel : next ≠ .assignment := by
      cases hNext
      decide
    refine ⟨e', levelParser_tighter hNext hRead hEnds ?_ fun _ => ?_, hShape⟩
    · rintro rfl
      cases hNext
    · exact assignment_rejects_untargeted (hDerives.untargeted hLevel hCut hUntargeted)
  | comparison =>
    refine .of_found rfl (by decide) ?_
    intro cs rest hCut hEnds
    obtain ⟨e', hRead, hShape⟩ := h.found cs rest hCut (hEnds.tighter hNext)
    refine ⟨e', levelParser_tighter hNext hRead hEnds ?_ nofun, hShape⟩
    rintro rfl
    cases hNext
  | unary =>
    obtain rfl : next = .primary := (Option.some.inj hNext).symm
    refine .of_signed ?_
    intro cs rest hCut hEnds
    obtain ⟨e', hRead, hShape⟩ := h.found cs rest hCut (hEnds.tighter hNext)
    have hStart := hDerives.primary_opens
    refine ⟨[], cs, e', .nil cs, sign_rejects ?_, hRead, hShape⟩
    intro c hc
    constructor
    · rintro rfl
      exact hStart.ahead_ne hCut.cut (by decide) hc
    · rintro rfl
      exact hStart.ahead_ne hCut.cut (by decide) hc
  | primary => cases hNext

/-! ### Operators -/

/-- The two sides of an assignment are read as themselves. -/
theorem assignmentParts_accepted {target : Loc} {value : Expr} (hTarget : DerivesLoc ts target)
    (hDerives : DerivesExpr ctx.dialect .assignment us value)
    (h : Accepted ctx .assignment us value)
    (hCut : FoundCut (ts ++ .symbol ['='] :: us) cs rest) (hEnds : Ends .assignment rest) :
    ∃ target' value', assignmentParts expression ctx cs = .matched (target', value') rest ∧
      target'.unplaced = target.unplaced ∧ value'.unplaced = value.unplaced := by
  obtain ⟨mid, hTargetCut, hCut⟩ := hCut.split
  obtain ⟨mid', hSign, hValueCut⟩ := hCut.uncons
  have hColon : ahead mid ≠ some ':' := by
    rw [hCut.ahead]
    decide
  obtain ⟨target', hLoc, hLocShape⟩ := hTarget.accepted hTargetCut hColon ctx
  obtain ⟨value', hValue, hValueShape⟩ := h.found mid' rest hValueCut hEnds
  rw [← expression_eq] at hValue
  -- the value does not start with another equality sign
  have hSingle : symbol ['='] ctx mid' = .rejected :=
    symbol_rejects (hDerives.opens.ahead_ne hValueCut.cut (by decide))
  refine ⟨target', value', ?_, hLocShape, hValueShape⟩
  rw [assignmentParts, bind_of_matched hLoc, bind_of_matched (symbol_accepted hSign),
    bind_of_matched (notAhead_of_rejected hSingle), bind_of_matched hValue]
  rfl

/-- An assignment is accepted if its value is. -/
theorem Accepted.assign {target : Loc} {value : Expr} (hTarget : DerivesLoc ts target)
    (hDerives : DerivesExpr ctx.dialect .assignment us value)
    (h : Accepted ctx .assignment us value) :
    Accepted ctx .assignment (ts ++ .symbol ['='] :: us) (.assign target value) := by
  -- an assignment is no operand of its own level
  refine .of_found rfl (by decide) ?_
  intro cs rest hCut hEnds
  obtain ⟨target', value', hParts, hLocShape, hValueShape⟩ :=
    assignmentParts_accepted hTarget hDerives h hCut hEnds
  refine ⟨.assign target' value', orElse_of_matched ?_, ?_⟩
  · rw [assignment, bind_of_matched hParts]
    rfl
  · rw [Expr.unplaced_assign, hLocShape, hValueShape, Expr.unplaced_assign]

/-- An operand ends with an expression. -/
theorem DerivesIdent.endsOperand {id : Ident} (h : DerivesIdent ts id) (behind : Bool) :
    endsOperand behind ts = true := by
  cases h
  rfl

/-- A location ends an operand. -/
theorem DerivesLoc.endsOperand {loc : Loc} (h : DerivesLoc ts loc) (behind : Bool) :
    endsOperand behind ts = true := by
  cases h with
  | var hId => exact hId.endsOperand behind
  | field _ hId =>
    rw [endsOperand_append]
    exact hId.endsOperand _

/-- An expression ends an operand. -/
theorem DerivesExpr.endsOperand {d : Dialect} {level : Level} {e : Expr}
    (h : DerivesExpr d level ts e) (behind : Bool) : endsOperand behind ts = true := by
  -- the end of the rightmost part is that of the whole
  have hEnclosed : ∀ (behind : Bool) (ts : List Token),
      Grammar.endsOperand behind (enclosed '(' ')' ts) = true := by
    intro behind ts
    rw [enclosed, ← List.cons_append, endsOperand_append]
    rfl
  induction h generalizing behind with
  | tighter _ _ ih => exact ih behind
  | assign _ _ ih | operation _ _ _ _ _ ih | comparison _ _ _ _ ih =>
    rw [endsOperand_append]
    exact ih _
  | sign _ _ ih => exact ih _
  | trueLit | falseLit | intLit | strLit => rfl
  | call =>
    rw [endsOperand_append]
    exact hEnclosed _ _
  | parenthesized => exact hEnclosed _ _
  | loc hLoc _ => exact hLoc.endsOperand behind

/-- The last operator is joined last. -/
theorem foldPairs_concat (first : Expr) (pairs : List (String × Expr)) (o : String) (e : Expr) :
    foldPairs Expr.binary first (pairs ++ [(o, e)]) =
      .binary o (foldPairs Expr.binary first pairs) e := by
  rw [foldPairs, List.foldl_append]
  rfl

/-- An operation is its operator and its operand. -/
theorem operation_accepted {op : Parser String} {operand : Parser Expr} {o : String} {e : Expr}
    (hOp : op ctx cs = .matched o mid) (hOperand : operand ctx mid = .matched e rest) :
    operation op operand ctx cs = .matched (o, e) rest := by
  rw [operation, bind_of_matched hOp, bind_of_matched hOperand]
  rfl

theorem Accepted.operation {level next : Level} {op : List Char} {left right : Expr}
    (hOp : op ∈ level.operators) (hNext : level.tighter? = some next)
    (hDerives : DerivesExpr ctx.dialect level ts left)
    (hLeft : Accepted ctx level ts left) (hRight : Accepted ctx next us right) :
    Accepted ctx level (ts ++ .symbol op :: us) (.binary (String.ofList op) left right) := by
  have hOps : level.operators ≠ [] := List.ne_nil_of_mem hOp
  refine .of_chained hOps hNext ?_
  intro cs rest hCut hEnds
  obtain ⟨mid, mid', hLeftCut, hOpCut, hSingle, hRightCut⟩ :=
    hCut.behind_operand (hDerives.endsOperand false)
  -- the left side is a chain of the same level, to which the new operator is added
  obtain ⟨first, cs₁, pairs, hFirst, hRuns, hShape⟩ := hLeft.chained next hOps hNext cs mid
    hLeftCut (ends_at_operator hOp hNext hOpCut)
  obtain ⟨right', hRead, hRightShape⟩ := hRight.found mid' rest hRightCut hEnds
  have hShorter : rest.length < mid.length := by
    have hRight := hRightCut.length
    have hLeft := hOpCut.shorter
    omega
  refine ⟨first, cs₁, pairs ++ [(String.ofList op, right')], hFirst,
    hRuns.snoc (operation_accepted (level.operator_accepted hOp hOpCut hSingle) hRead) hShorter,
    ?_⟩
  rw [foldPairs_concat, Expr.unplaced_binary, hShape, hRightShape, Expr.unplaced_binary]

/-- A comparison joins two sums. -/
theorem Accepted.comparison {op : List Char} {left right : Expr} (hOp : op ∈ comparisons)
    (hDerives : DerivesExpr ctx.dialect .sum us right) (hLeft : Accepted ctx .sum ts left)
    (hRight : Accepted ctx .sum us right) :
    Accepted ctx .comparison (ts ++ .symbol op :: us) (.binary (String.ofList op) left right) := by
  refine .of_found rfl (by decide) ?_
  intro cs rest hCut hEnds
  obtain ⟨mid, hLeftCut, hCut⟩ := hCut.split
  obtain ⟨mid', hOpCut, hRightCut⟩ := hCut.uncons
  obtain ⟨left', hFirst, hLeftShape⟩ :=
    hLeft.found cs mid hLeftCut (ends_at_comparison hOp hCut)
  obtain ⟨right', hRead, hRightShape⟩ :=
    hRight.found mid' rest hRightCut (hEnds.tighter rfl)
  -- the right operand starts with no equality sign, so the operator is not a longer one
  have hNext : mid'.head? ≠ some '=' :=
    head_ne_of_ahead (by decide) (hDerives.opens.ahead_ne hRightCut.cut (by decide))
  have hPair := operation_accepted (comparison_accepted hOp hOpCut hNext ctx) hRead
  refine ⟨.binary (String.ofList op) left' right', ?_, ?_⟩
  · show Grammar.comparison expression ctx cs = _
    rw [Grammar.comparison, bind_of_matched (p := sum expression) hFirst,
      bind_of_matched (optional_of_matched (p := Grammar.operation _ (sum expression)) hPair)]
    rfl
  · rw [Expr.unplaced_binary, hLeftShape, hRightShape, Expr.unplaced_binary]

theorem Accepted.sign {op : List Char} {e : Expr} (hOp : op ∈ signs)
    (hDerives : DerivesExpr ctx.dialect .unary ts e) (h : Accepted ctx .unary ts e) :
    Accepted ctx .unary (.symbol op :: ts) (.unary (String.ofList op) e) := by
  refine .of_signed ?_
  intro cs rest hCut hEnds
  obtain ⟨mid, hOpCut, hOperandCut⟩ := hCut.uncons
  -- the operand has signs of its own, and the new one comes in front of them
  obtain ⟨os, mid', operand, hRuns, hStop, hRead, hShape⟩ :=
    h.signed rfl mid rest hOperandCut hEnds
  have hNext : ahead mid ≠ some '=' := hDerives.opens.ahead_ne hOperandCut.cut (by decide)
  refine ⟨String.ofList op :: os, mid', operand,
    .cons (sign_accepted hOp hOpCut hNext) hOpCut.shorter hRuns, hStop, hRead, ?_⟩
  rw [List.foldr_cons, Expr.unplaced_unary, hShape, Expr.unplaced_unary]

/-! ### Primary expressions -/

theorem not_nameStart_alpha {c : Char} (h : isNameStart c = false) : c.isAlpha = false := by
  rw [isNameStart, Bool.or_eq_false_iff] at h
  exact h.1

/-- The word for true is read as that literal. -/
theorem trueLit_accepted {pos : Position} (h : FoundCut [.truth pos true] cs rest) :
    primary expression ctx cs = .matched (.trueLit (ctx.locate (skipTrivia cs))) rest := by
  refine orElse_of_matched ?_
  rw [trueLit, here_bind, bind_of_matched (p := keyword .trueWord) (truth_accepted h)]
  rfl

/-- The word for false is read as that literal. -/
theorem falseLit_accepted {pos : Position} (h : FoundCut [.truth pos false] cs rest) :
    primary expression ctx cs = .matched (.falseLit (ctx.locate (skipTrivia cs))) rest := by
  have hTrue : trueLit ctx cs = .rejected := by
    rw [trueLit, here_bind]
    have hText : skipTrivia cs = Keyword.falseWord.chars ++ rest := h.single_inv.1
    exact bind_of_rejected (keyword_rejects_keyword hText (by decide))
  rw [primary, orElse_of_rejected hTrue]
  refine orElse_of_matched ?_
  rw [falseLit, here_bind, bind_of_matched (p := keyword .falseWord) (truth_accepted h)]
  rfl

/-- Where no name starts, a primary expression is no truth value. -/
theorem primary_without_word (h : ∀ c ∈ ahead cs, isNameStart c = false) :
    primary expression ctx cs =
      (intLit <|> strLit <|> call expression <|> parenthesized expression <|>
        (Expr.loc <$> location)) ctx cs := by
  -- where no name can start, no keyword can, so the first two choices fail
  have hKeyword : ∀ k : Keyword, keyword k ctx cs = .rejected := fun k =>
    keyword_rejects fun c hc => not_nameStart_alpha (h c hc)
  have hTrue : trueLit ctx cs = .rejected := by
    rw [trueLit, here_bind]
    exact bind_of_rejected (hKeyword .trueWord)
  have hFalse : falseLit ctx cs = .rejected := by
    rw [falseLit, here_bind]
    exact bind_of_rejected (hKeyword .falseWord)
  rw [primary, orElse_of_rejected hTrue, orElse_of_rejected hFalse]

/-- A number that is not too long is read with its value. -/
theorem intLit_accepted {pos : Position} {digits : List Char}
    (hForm : (Token.number pos digits).WellFormed) (hDigits : digits.length ≤ ctx.limit)
    (h : FoundCut [.number pos digits] cs rest) :
    primary expression ctx cs =
      .matched (.intLit (ctx.locate (skipTrivia cs)) (Text.decimalValue digits)) rest := by
  obtain ⟨hText, hEnded⟩ := h.single_inv
  -- the digits are within the limit, so the number is read and not refused
  have hNumber : number ctx cs = .matched (Text.decimalValue digits) rest :=
    number_eq_matched.mpr ⟨digits, hForm, hDigits, hText, hEnded, rfl⟩
  rw [primary_without_word]
  · refine orElse_of_matched ?_
    rw [intLit, here_bind, bind_of_matched hNumber]
    rfl
  · exact number_nameless hForm h

theorem strLit_accepted {pos : Position} {literal : String}
    (hForm : (Token.string pos literal).WellFormed) (h : FoundCut [.string pos literal] cs rest) :
    primary expression ctx cs =
      .matched (.strLit (ctx.locate (skipTrivia cs)) literal) rest := by
  -- the quote ahead excludes the words and the numbers
  have hAhead := string_ahead hForm h
  have hString : string ctx cs = .matched literal rest :=
    string_eq_matched.mpr ⟨hForm, h.single_inv.1⟩
  have hInt : intLit ctx cs = .rejected := by
    rw [intLit, here_bind]
    exact bind_of_rejected (number_rejects (all_ahead hAhead (by decide)))
  rw [primary_without_word, orElse_of_rejected hInt]
  · refine orElse_of_matched ?_
    rw [strLit, here_bind, bind_of_matched hString]
    rfl
  · exact all_ahead hAhead (by decide)

/-- Where a name stands that does not start like a truth value, a primary expression is a call or a
location. -/
theorem primary_at_name {id : Ident} (hId : DerivesIdent ts id)
    (hOperand : ctx.dialect.operand id.name) (hCut : FoundCut ts cs mid) :
    primary expression ctx cs =
      (call expression <|> Expr.loc <$> location) ctx cs := by
  have hStart := hId.starts
  obtain ⟨c, hAhead, hName⟩ := hStart.ahead hCut.cut
  have hParen : parenthesized expression ctx cs = .rejected :=
    bind_of_rejected (symbol_rejects (hStart.ahead_ne hCut.cut (by decide)))
  -- the name does not open with the word of a truth value, so none is read
  have hKeyword : ∀ k : Keyword, ¬ k.Opens id.name → keyword k ctx cs = .rejected := by
    intro k hOpens
    cases hId with
    | @name pos word hName =>
      obtain ⟨hText, hEnded⟩ := hCut.single_inv
      exact keyword_rejects_name hName hText hEnded hOpens
  rw [primary_without_literal (hKeyword .trueWord hOperand.1) (hKeyword .falseWord hOperand.2)]
  · exact orElse_congr (orElse_of_rejected hParen)
  · exact all_ahead hAhead (not_digit_of_nameStart hName)
  · exact hStart.ahead_ne hCut.cut (by decide)

/-- The parts of a call are read where the arguments are. -/
theorem callParts_accepted {d : Dialect} {callee : Ident} {args : List (List Token × Expr)}
    (hCallee : DerivesIdent ts callee) (hList : d.Listed (args.map (·.1)) us)
    (hArgs : ∀ arg ∈ args, Accepted ctx .assignment arg.1 arg.2)
    (hCut : FoundCut (ts ++ enclosed '(' ')' us) cs rest) :
    ∃ callee' args', callParts expression ctx cs = .matched (callee', args') rest ∧
      callee'.unplaced = callee.unplaced ∧
      args'.map Expr.unplaced = (args.map (·.2)).map Expr.unplaced := by
  obtain ⟨cs₁, hCalleeCut, hCut⟩ := hCut.split
  obtain ⟨cs₂, hOpen, hCut⟩ := hCut.uncons
  obtain ⟨cs₃, hArgsCut, hClose⟩ := hCut.split
  obtain ⟨callee', hIdent, hShape⟩ := hCallee.accepted hCalleeCut ctx
  have hEnd : ahead cs₃ = some ')' := hClose.ahead
  -- neither a comma nor a closing parenthesis starts an argument
  have hReject : ∀ cs, (ahead cs = some ',' ∨ ahead cs = some ')') →
      expression ctx cs = .rejected := by
    intro cs h
    rcases h with h | h
    · exact expression_rejects (all_ahead h (by decide))
    · exact expression_rejects (all_ahead h (by decide))
  obtain ⟨args', hRead, hShapes⟩ := sepBy_accepted expression Expr.unplaced (Ends .assignment)
    ctx
    (by
      intro arg hArg cs rest hCut hEnds
      obtain ⟨e', hFound, hShape⟩ := (hArgs arg hArg).found cs rest hCut hEnds
      rw [← expression_eq] at hFound
      exact ⟨e', hFound, hShape⟩)
    (fun cs h => ⟨ends_at h (by decide) _, hReject cs (.inl h)⟩) hList hArgsCut
    (ends_at hEnd (by decide) _) (hReject cs₃ (.inr hEnd)) (by rw [hEnd]; decide)
  refine ⟨callee', args', ?_, hShape, ?_⟩
  · rw [callParts, bind_of_matched hIdent, bind_of_matched (symbol_accepted hOpen),
      bind_of_matched hRead, bind_of_matched (symbol_accepted hClose)]
    rfl
  · rw [hShapes, List.map_map]
    rfl

theorem Accepted.call {callee : Ident} {args : List (List Token × Expr)}
    (hCallee : DerivesIdent ts callee) (hOperand : ctx.dialect.operand callee.name)
    (hList : ctx.dialect.Listed (args.map (·.1)) us)
    (hArgs : ∀ arg ∈ args, Accepted ctx .assignment arg.1 arg.2) :
    Accepted ctx .primary (ts ++ enclosed '(' ')' us) (.call callee (args.map (·.2))) := by
  refine .of_found rfl (by decide) ?_
  intro cs rest hCut _
  obtain ⟨callee', args', hParts, hShape, hShapes⟩ :=
    callParts_accepted hCallee hList hArgs hCut
  obtain ⟨mid, hCalleeCut, -⟩ := hCut.split
  refine ⟨.call callee' args', ?_, ?_⟩
  · show primary expression ctx cs = _
    -- a name that does not start like a truth value comes to the last three choices
    rw [primary_at_name hCallee hOperand hCalleeCut]
    refine orElse_of_matched ?_
    rw [Grammar.call, bind_of_matched hParts]
    rfl
  · rw [Expr.unplaced_call, hShape, hShapes, Expr.unplaced_call]

/-- A bracketed expression is accepted if the one inside is. -/
theorem Accepted.parenthesized {e : Expr} (h : Accepted ctx .assignment ts e) :
    Accepted ctx .primary (enclosed '(' ')' ts) e := by
  refine .of_found rfl (by decide) ?_
  intro cs rest hCut _
  obtain ⟨cs₁, hOpen, hInnerCut⟩ := hCut.uncons
  obtain ⟨cs₂, hInner, hClose⟩ := hInnerCut.split
  obtain ⟨e', hFound, hShape⟩ :=
    h.found cs₁ cs₂ hInner (ends_at (hClose.ahead) (by decide) _)
  rw [← expression_eq] at hFound
  have hAhead : ahead cs = some '(' := hCut.ahead
  -- a call would have a name in front of its parenthesis
  have hCall : Grammar.call expression ctx cs = .rejected :=
    bind_of_rejected (bind_of_rejected (ident_rejects (all_ahead hAhead (by decide))))
  refine ⟨e', ?_, hShape⟩
  show primary expression ctx cs = _
  rw [primary_without_literal, orElse_of_rejected hCall]
  · refine orElse_of_matched ?_
    rw [Grammar.parenthesized, bind_of_matched (symbol_accepted hOpen), bind_of_matched hFound,
      bind_of_matched (symbol_accepted hClose)]
    rfl
  · exact keyword_rejects (all_ahead hAhead (by decide))
  · exact keyword_rejects (all_ahead hAhead (by decide))
  · exact all_ahead hAhead (by decide)
  · rw [hAhead]
    decide

/-- A location is accepted if its variable does not start like a truth value. -/
theorem Accepted.loc {location : Loc} (hLoc : DerivesLoc ts location)
    (hOperand : ctx.dialect.operand location.root.name) :
    Accepted ctx .primary ts (.loc location) := by
  refine .of_found rfl (by decide) ?_
  intro cs rest hCut hEnds
  obtain ⟨us, vs, rfl, hRoot, hFields, -⟩ := hLoc.root
  obtain ⟨location', hRead, hShape⟩ := hLoc.accepted hCut hEnds.noField ctx
  obtain ⟨mid, hRootCut, hFieldsCut⟩ := hCut.split
  -- behind the root there is a colon, or what ends the whole expression
  have hNoCall : ahead mid ≠ some '(' := by
    rcases hFields with rfl | ⟨ws, rfl⟩
    · obtain rfl := hFieldsCut.eq_of_nil
      exact hEnds.noCall
    · rw [hFieldsCut.ahead]
      decide
  obtain ⟨root', hIdent, -⟩ := hRoot.accepted hRootCut ctx
  have hCall : Grammar.call expression ctx cs = .rejected := by
    refine bind_of_rejected ?_
    rw [callParts, bind_of_matched hIdent]
    exact bind_of_rejected (symbol_rejects hNoCall)
  refine ⟨.loc location', ?_, ?_⟩
  · show primary expression ctx cs = _
    rw [primary_at_name hRoot hOperand hRootCut, orElse_of_rejected hCall]
    exact map_of_matched hRead
  · rw [Expr.unplaced_loc, hShape, Expr.unplaced_loc]

/-! ### All expressions -/

theorem DerivesExpr.accepted {level : Level} {e : Expr} (h : DerivesExpr ctx.dialect level ts e) :
    Accepted ctx level ts e := by
  induction h with
  -- each rule has a lemma of its own; here they are put together along the derivation
  | tighter hNext hInner ih => exact .tighter hNext hInner ih
  | assign hTarget hValue ih => exact .assign hTarget hValue ih
  | operation hOp hNext hLeft _ ihLeft ihRight =>
    exact .operation hOp hNext hLeft ihLeft ihRight
  | comparison hOp _ hRight ihLeft ihRight => exact .comparison hOp hRight ihLeft ihRight
  | sign hOp hOperand ih => exact .sign hOp hOperand ih
  | trueLit pos =>
    exact .of_found rfl (by decide) fun cs rest hCut _ => ⟨_, trueLit_accepted hCut, rfl⟩
  | falseLit pos =>
    exact .of_found rfl (by decide) fun cs rest hCut _ => ⟨_, falseLit_accepted hCut, rfl⟩
  | intLit pos hForm hDigits =>
    exact .of_found rfl (by decide) fun cs rest hCut _ =>
      ⟨_, intLit_accepted hForm hDigits hCut, rfl⟩
  | strLit pos hForm =>
    exact .of_found rfl (by decide) fun cs rest hCut _ =>
      ⟨_, strLit_accepted hForm hCut, rfl⟩
  | call hCallee hOperand args _ hList ih => exact .call hCallee hOperand hList ih
  | parenthesized _ ih => exact .parenthesized ih
  | loc hLoc hOperand => exact .loc hLoc hOperand

/-- A whole expression is read where something follows that ends it. -/
theorem expression_accepted {e : Expr} (h : DerivesExpr ctx.dialect .assignment ts e)
    (hCut : FoundCut ts cs rest) (hEnds : Ends .assignment rest) :
    ∃ e', expression ctx cs = .matched e' rest ∧ e'.unplaced = e.unplaced := by
  obtain ⟨e', hFound, hShape⟩ := h.accepted.found cs rest hCut hEnds
  rw [← expression_eq] at hFound
  exact ⟨e', hFound, hShape⟩

end NameResolution.Grammar
