import NameResolution.Proofs.Grammar.Derivation

/-!
# Levels — the parsers of expressions and statements as functions of themselves

The parser of a level reads operands of the next tighter level. Where no operator of the level
follows, it reads what the tighter one reads. All of them are parameterised by the parser of whole
expressions, which they enter behind the first character only; so are the parsers of statements.
Each parser takes at least one character.

* `levelParser`, `Level.operator` — the parser and the operators of a level.
* `Ends` — an expression of a level cannot go on with the text.
* `expression_eq`, `statement_eq` — the parsers obey their definitions.
-/

namespace NameResolution.Grammar

open NameResolution.Grammar.Parser

variable {α : Type} {expr : Parser Expr} {ctx : Context} {cs mid rest : List Char}
  {e : Expr}

/-! ## Parsers of the levels -/

/-- The parser of a level. -/
def levelParser (expr : Parser Expr) : Level → Parser Expr
  | .assignment => assignment expr <|> disjunction expr
  | .disjunction => disjunction expr
  | .conjunction => conjunction expr
  | .comparison => comparison expr
  | .sum => sum expr
  | .product => product expr
  | .unary => unary expr
  | .primary => primary expr

/-- What an expression of a level can go on with. -/
def Level.operator : Level → Parser String
  | .disjunction => Grammar.operator [['|']]
  | .conjunction => Grammar.operator [['&']]
  | .comparison => Grammar.operator comparisons
  | .sum => lexeme (scanSingle ['+', '-'])
  | .product => Grammar.operator [['*'], ['/']]
  | _ => reject

/-- On a level with operators, operands of the next level are joined from the left. -/
theorem levelParser_operation (expr : Parser Expr) {level next : Level}
    (hOps : level.operators ≠ []) (hNext : level.tighter? = some next) :
    levelParser expr level = leftAssociative level.operator (levelParser expr next) := by
  cases level with
  | disjunction | conjunction | sum | product =>
    cases hNext
    rfl
  | assignment | comparison | unary | primary => exact absurd rfl hOps

/-- The place of a level in the order of precedence; tighter levels come later. -/
def Level.rank : Level → Nat
  | assignment => 0
  | disjunction => 1
  | conjunction => 2
  | comparison => 3
  | sum => 4
  | product => 5
  | unary => 6
  | primary => 7

/-- The next level is one step tighter. -/
theorem Level.rank_tighter {level next : Level} (h : level.tighter? = some next) :
    next.rank = level.rank + 1 := by
  cases level <;> cases h <;> rfl

/-! ## Ends of expressions -/

/-- An expression of a level cannot go on with the text: no field and no call, and no operator of
the level or of a tighter one. Neither can a whole expression turn out to be the target of an
assignment, nor a truth value at its end the first part of a name. -/
structure Ends (level : Level) (cs : List Char) : Prop where
  noName : ahead cs ≠ some '_'
  noField : ahead cs ≠ some ':'
  noCall : ahead cs ≠ some '('
  noTarget : level = .assignment → ahead cs ≠ some '='
  noOperator : ∀ l : Level, level.rank ≤ l.rank → ∀ ctx, l.operator ctx cs = .rejected

/-- What ends a level ends all tighter ones. -/
theorem Ends.mono {level l : Level} (h : Ends level cs) (hRank : level.rank ≤ l.rank) :
    Ends l cs := by
  refine ⟨h.noName, h.noField, h.noCall, ?_, ?_⟩
  · rintro rfl
    refine h.noTarget ?_
    revert hRank
    cases level <;> decide
  · intro l' hLevel ctx
    exact h.noOperator l' (Nat.le_trans hRank hLevel) ctx

/-- What ends a level ends the next one. -/
theorem Ends.tighter {level next : Level} (h : Ends level cs) (hNext : level.tighter? = some next) :
    Ends next cs := by
  have hRank := Level.rank_tighter hNext
  exact h.mono (by omega)

/-- Where a level ends none of its operators is ahead. -/
theorem Ends.operator_rejects {level : Level} (h : Ends level cs) (ctx : Context) :
    level.operator ctx cs = .rejected :=
  h.noOperator level (Nat.le_refl _) ctx

/-- The characters that an expression of a level can go on with. -/
def Level.continuing : Level → List Char
  | .primary | .unary => ['_', ':', '(']
  | .product => ['*', '/', '_', ':', '(']
  | .sum => ['+', '-', '*', '/', '_', ':', '(']
  | .comparison => ['=', '^', '<', '>', '+', '-', '*', '/', '_', ':', '(']
  | .conjunction => ['&', '=', '^', '<', '>', '+', '-', '*', '/', '_', ':', '(']
  | .disjunction | .assignment => ['|', '&', '=', '^', '<', '>', '+', '-', '*', '/', '_', ':', '(']

/-- A tighter level is continued by fewer characters. -/
theorem Level.continuing_tighter {level l : Level} (h : level.rank ≤ l.rank) :
    l.continuing ⊆ level.continuing := by
  revert h
  cases level <;> cases l <;> decide

/-- Where no continuing character is ahead no operator is. -/
theorem Level.operator_rejects {level : Level} (h : ∀ c ∈ ahead cs, c ∉ level.continuing) :
    level.operator ctx cs = .rejected := by
  have hNot : ∀ c ∈ level.continuing, ahead cs ≠ some c := fun c hc hEq => h c hEq hc
  cases level with
  | disjunction | conjunction | comparison | product =>
    exact operator_rejects_marks (by decide) hNot
  | sum =>
    -- a plus or minus sign is not even ahead
    show lexeme (scanSingle ['+', '-']) ctx cs = .rejected
    refine single_rejects ?_
    intro c hc hAhead
    have hOps : ['+', '-'] ⊆ Level.sum.continuing := by decide
    exact absurd hAhead (hNot c (hOps hc))
  | assignment | unary | primary => rfl

/-- A level ends where no continuing character is ahead. -/
theorem ends_of_ahead {level : Level} (h : ∀ c ∈ ahead cs, c ∉ level.continuing) :
    Ends level cs := by
  have hNot : ∀ c, c ∈ level.continuing → ahead cs ≠ some c := fun c hc hEq => h c hEq hc
  refine ⟨hNot '_' ?_, hNot ':' ?_, hNot '(' ?_, ?_, ?_⟩
  · cases level <;> decide
  · cases level <;> decide
  · cases level <;> decide
  · rintro rfl
    exact hNot '=' (by decide)
  · intro l hLevel ctx
    -- what continues a tighter level continues this one, too
    refine l.operator_rejects ?_
    intro c hc hContinue
    exact h c hc (Level.continuing_tighter hLevel hContinue)

/-! ## A tighter expression is an expression -/

/-- A repetition without items reads nothing. -/
theorem many_of_rejected {p : Parser α} (h : p ctx cs = .rejected) :
    many p ctx cs = .matched [] cs :=
  many_of_runs (.nil cs) h

/-- Without an operator there is no operation. -/
theorem operation_rejects {op : Parser String} {operand : Parser Expr}
    (h : op ctx cs = .rejected) : operation op operand ctx cs = .rejected :=
  bind_of_rejected h

/-- An operand without an operator behind it is read alone. -/
theorem leftAssociative_of_operand {op : Parser String} {operand : Parser Expr}
    (h : operand ctx cs = .matched e rest) (hStop : op ctx rest = .rejected) :
    leftAssociative op operand ctx cs = .matched e rest := by
  have hMany : many (operation op operand) ctx rest = .matched [] rest :=
    many_of_rejected (operation_rejects hStop)
  rw [leftAssociative, bind_of_matched h, bind_of_matched hMany]
  rfl

/-- A sum without a comparison behind it is read alone. -/
theorem comparison_of_sum (h : sum expr ctx cs = .matched e rest)
    (hStop : operator comparisons ctx rest = .rejected) :
    comparison expr ctx cs = .matched e rest := by
  rw [comparison, bind_of_matched h,
    bind_of_matched (optional_of_rejected (operation_rejects hStop))]
  rfl

/-- A primary expression without a sign in front is read alone. -/
theorem unary_of_primary (h : primary expr ctx cs = .matched e rest)
    (hSign : sign ctx cs = .rejected) : unary expr ctx cs = .matched e rest := by
  rw [unary, bind_of_matched (many_of_rejected hSign), bind_of_matched h]
  rfl

/-- What the next level reads is read by this level too, if nothing of this level is in front or
behind. -/
theorem levelParser_tighter {level next : Level} (hNext : level.tighter? = some next)
    (h : levelParser expr next ctx cs = .matched e rest) (hEnds : Ends level rest)
    (hSign : next = .primary → sign ctx cs = .rejected)
    (hTarget : level = .assignment → assignment expr ctx cs = .rejected) :
    levelParser expr level ctx cs = .matched e rest := by
  cases level with
  | assignment =>
    cases hNext
    show (assignment expr <|> disjunction expr) ctx cs = _
    -- an assignment is tried first
    rw [orElse_of_rejected (hTarget rfl)]
    exact h
  | disjunction | conjunction | sum | product =>
    cases hNext
    -- no operator of the level comes next, so the row has one operand
    exact leftAssociative_of_operand h (hEnds.operator_rejects ctx)
  | comparison =>
    cases hNext
    exact comparison_of_sum h (hEnds.operator_rejects ctx)
  | unary =>
    cases hNext
    exact unary_of_primary h (hSign rfl)
  | primary => cases hNext

/-- A primary expression at the end of an expression of any level is the whole of it. -/
theorem levelParser_of_primary {level : Level} (h : primary expr ctx cs = .matched e rest)
    (hSign : sign ctx cs = .rejected) (hEnds : Ends level rest)
    (hTarget : level = .assignment → assignment expr ctx cs = .rejected) :
    levelParser expr level ctx cs = .matched e rest := by
  -- induction on the distance from the tightest level
  have hRise : ∀ n level, level.rank + n = 7 → Ends level rest →
      (level = .assignment → assignment expr ctx cs = .rejected) →
      levelParser expr level ctx cs = .matched e rest := by
    intro n
    induction n with
    | zero =>
      intro level hRank _ _
      cases level with
      | primary => exact h
      | _ => cases hRank
    | succ n ih =>
      intro level hRank hEnds hTarget
      obtain ⟨next, hNext⟩ : ∃ next, level.tighter? = some next := by
        cases level with
        | primary =>
          change 7 + (n + 1) = 7 at hRank
          omega
        | _ => exact ⟨_, rfl⟩
      have hNextRank := Level.rank_tighter hNext
      refine levelParser_tighter hNext (ih next (by omega) (hEnds.tighter hNext) ?_) hEnds
        (fun _ => hSign) hTarget
      rintro rfl
      cases hNextRank
  have hLe : level.rank ≤ 7 := by
    cases level <;> decide
  exact hRise (7 - level.rank) level (by omega) hEnds hTarget

/-! ## Names and signs -/

/-- The first character of a symbol is ahead of it. -/
theorem ahead_of_symbol {c : Char} {s : List Char} {u : Unit}
    (h : symbol (c :: s) ctx cs = .matched u rest) : ahead cs = some c := by
  rw [ahead, symbol_eq_matched.mp h]
  rfl

/-- An identifier without a colon behind it is a variable. -/
theorem location_of_ident {id : Ident} (hId : ident ctx cs = .matched id rest)
    (hColon : ahead rest ≠ some ':') : location ctx cs = .matched (.var id) rest := by
  have hField : (symbol [':'] >>= fun _ => ident) ctx rest = .rejected :=
    bind_of_rejected (symbol_rejects hColon)
  rw [location, bind_of_matched hId, bind_of_matched (many_of_rejected hField)]
  rfl

/-- Where no name can start there is no location. -/
theorem location_rejects (h : ∀ c ∈ ahead cs, isNameStart c = false) :
    location ctx cs = .rejected :=
  bind_of_rejected (ident_rejects h)

/-- A location that no equality sign follows is not assigned to. -/
theorem assignment_rejects {loc : Loc} (hLoc : location ctx cs = .matched loc mid)
    (hSign : ahead mid ≠ some '=') : assignment expr ctx cs = .rejected := by
  refine bind_of_rejected ?_
  rw [assignmentParts, bind_of_matched hLoc]
  exact bind_of_rejected (symbol_rejects hSign)

/-- Where neither a minus nor a negation is ahead there is no sign. -/
theorem sign_rejects (h : ∀ c ∈ ahead cs, c ≠ '-' ∧ c ≠ '^') : sign ctx cs = .rejected := by
  have hOperator : ∀ c : Char, ahead cs ≠ some c → operator [[c]] ctx cs = .rejected := by
    intro c hc
    refine operator_rejects (by simp) ?_
    simpa using hc
  show (operator [['-']] <|> _) ctx cs = _
  rw [orElse_of_rejected (hOperator '-' fun hEq => (h '-' hEq).1 rfl)]
  exact bind_of_rejected (hOperator '^' fun hEq => (h '^' hEq).2 rfl)

/-- Where no literal starts, a primary expression starts with a name or a parenthesis. -/
theorem primary_without_literal (hTrue : keyword .trueWord ctx cs = .rejected)
    (hFalse : keyword .falseWord ctx cs = .rejected)
    (hDigit : ∀ c ∈ ahead cs, Text.isDecimalDigit c = false) (hQuote : ahead cs ≠ some '"') :
    primary expr ctx cs =
      (call expr <|> parenthesized expr <|> (Expr.loc <$> location)) ctx cs := by
  -- literals come first among the choices, and none of their first characters is ahead
  have hTrueLit : trueLit ctx cs = .rejected := by
    rw [trueLit, here_bind]
    exact bind_of_rejected hTrue
  have hFalseLit : falseLit ctx cs = .rejected := by
    rw [falseLit, here_bind]
    exact bind_of_rejected hFalse
  have hIntLit : intLit ctx cs = .rejected := by
    rw [intLit, here_bind]
    exact bind_of_rejected (number_rejects hDigit)
  have hStrLit : strLit ctx cs = .rejected := by
    rw [strLit, here_bind]
    exact bind_of_rejected (string_rejects hQuote)
  rw [primary, orElse_of_rejected hTrueLit, orElse_of_rejected hFalseLit,
    orElse_of_rejected hIntLit, orElse_of_rejected hStrLit]

/-! ## What the parsers leave of a text -/

/-- A word that is read leaves a shorter text. -/
theorem shorter_of_text {s : List Char} (hText : skipTrivia cs = s ++ rest) (hSome : s ≠ []) :
    rest.length < cs.length := by
  have hTrivia := skipTrivia_length cs
  have hTaken := List.length_pos_iff.mpr hSome
  rw [hText, List.length_append] at hTrivia
  omega

theorem symbol_shrinks {s : List Char} (hSome : s ≠ []) : Shrinks (symbol s) := by
  intro ctx cs u rest h
  exact shorter_of_text (symbol_eq_matched.mp h) hSome

theorem keyword_shrinks (k : Keyword) : Shrinks (keyword k) := by
  intro ctx cs u rest h
  exact shorter_of_text (keyword_eq_matched.mp h).1 k.chars_ne_nil

theorem operator_shrinks {ops : List (List Char)} (hSome : ∀ op ∈ ops, op ≠ []) :
    Shrinks (operator ops) := by
  intro ctx cs o rest h
  obtain ⟨op, hOp, -, hText⟩ := operator_eq_matched h
  exact shorter_of_text hText (hSome op hOp)

theorem single_shrinks (ops : List Char) : Shrinks (lexeme (scanSingle ops)) := by
  intro ctx cs o rest h
  obtain ⟨c, -, -, hText, -⟩ := single_eq_matched.mp h
  exact shorter_of_text (s := [c]) hText (List.cons_ne_nil c [])

theorem ident_shrinks : Shrinks ident := by
  intro ctx cs id rest h
  obtain ⟨-, -, hName, hText, -⟩ := ident_eq_matched.mp h
  obtain ⟨⟨c, s, hWord, -⟩, -, -⟩ := isName_iff.mp hName
  exact shorter_of_text hText (by rw [hWord]; exact List.cons_ne_nil c s)

theorem number_shrinks : Shrinks number := by
  intro ctx cs value rest h
  obtain ⟨digits, ⟨hSome, -⟩, -, hText, -⟩ := number_eq_matched.mp h
  exact shorter_of_text hText hSome

theorem string_ne_nil {literal : String} (h : scanString literal.toList = some (literal, [])) :
    literal.toList ≠ [] := by
  intro hEmpty
  rw [hEmpty] at h
  cases h

theorem string_shrinks : Shrinks string := by
  intro ctx cs literal rest h
  obtain ⟨hSelf, hText⟩ := string_eq_matched.mp h
  exact shorter_of_text hText (string_ne_nil hSelf)

theorem here_keeps : Keeps here := by
  intro ctx cs pos rest h
  cases h
  exact Nat.le_refl _

theorem location_shrinks : Shrinks location :=
  ident_shrinks.bind fun _ =>
    ((symbol_shrinks (by decide)).bind fun _ => ident_shrinks.keeps).keeps.many.bind fun _ =>
      Keeps.pure _

/-! ## Parsers of expressions never lengthen the text -/

section Keeps

variable (hExpr : Keeps expr)
include hExpr

theorem callParts_shrinks : Shrinks (callParts expr) :=
  ident_shrinks.bind fun _ => (symbol_shrinks (by decide)).keeps.bind fun _ =>
    (hExpr.sepBy (symbol_shrinks (by decide)).keeps).bind fun _ =>
      (symbol_shrinks (by decide)).keeps.bind fun _ => Keeps.pure _

theorem parenthesized_shrinks : Shrinks (parenthesized expr) :=
  (symbol_shrinks (by decide)).bind fun _ => hExpr.bind fun _ =>
    (symbol_shrinks (by decide)).keeps.bind fun _ => Keeps.pure _

/-- Every choice of a primary expression takes something. -/
theorem primary_shrinks : Shrinks (primary expr) := by
  -- the alternatives in the order of `primary`
  have hTruth : ∀ (k : Keyword) (f : Position → Expr),
      Shrinks (here >>= fun pos => keyword k >>= fun _ => pure (f pos)) := fun k f =>
    here_keeps.bind_shrinks fun _ => (keyword_shrinks k).bind fun _ => Keeps.pure _
  have hInt : Shrinks intLit :=
    here_keeps.bind_shrinks fun _ => number_shrinks.bind fun _ => Keeps.pure _
  have hStr : Shrinks strLit :=
    here_keeps.bind_shrinks fun _ => string_shrinks.bind fun _ => Keeps.pure _
  have hCall : Shrinks (call expr) := (callParts_shrinks hExpr).bind fun _ => Keeps.pure _
  exact (hTruth .trueWord .trueLit).orElse <| (hTruth .falseWord .falseLit).orElse <|
    hInt.orElse <| hStr.orElse <| hCall.orElse <| (parenthesized_shrinks hExpr).orElse <|
    location_shrinks.map

omit hExpr in
theorem sign_shrinks : Shrinks sign :=
  (operator_shrinks (by decide)).orElse <|
    (operator_shrinks (by decide)).bind fun _ => Keeps.notAhead.bind fun _ => Keeps.pure _

theorem unary_shrinks : Shrinks (unary expr) :=
  sign_shrinks.keeps.many.bind_shrinks fun _ => (primary_shrinks hExpr).bind fun _ => Keeps.pure _

omit hExpr in
/-- An operation lengthens nothing. -/
theorem operation_keeps {op : Parser String} {operand : Parser Expr} (hOp : Keeps op)
    (hOperand : Keeps operand) : Keeps (operation op operand) :=
  hOp.bind fun _ => hOperand.bind fun _ => Keeps.pure _

omit hExpr in
/-- A level takes its first operand. -/
theorem leftAssociative_shrinks {op : Parser String} {operand : Parser Expr} (hOp : Keeps op)
    (hOperand : Shrinks operand) : Shrinks (leftAssociative op operand) :=
  hOperand.bind fun _ => (operation_keeps hOp hOperand.keeps).many.bind fun _ => Keeps.pure _

theorem product_shrinks : Shrinks (product expr) :=
  leftAssociative_shrinks (operator_shrinks (by decide)).keeps (unary_shrinks hExpr)

theorem sum_shrinks : Shrinks (sum expr) :=
  leftAssociative_shrinks (single_shrinks _).keeps (product_shrinks hExpr)

theorem comparison_shrinks : Shrinks (comparison expr) :=
  (sum_shrinks hExpr).bind fun _ =>
    (operation_keeps (operator_shrinks (by decide)).keeps (sum_shrinks hExpr).keeps).optional.bind
      fun _ => Keeps.pure _

theorem conjunction_shrinks : Shrinks (conjunction expr) :=
  leftAssociative_shrinks (operator_shrinks (by decide)).keeps (comparison_shrinks hExpr)

theorem disjunction_shrinks : Shrinks (disjunction expr) :=
  leftAssociative_shrinks (operator_shrinks (by decide)).keeps (conjunction_shrinks hExpr)

theorem assignment_shrinks : Shrinks (assignment expr) :=
  Shrinks.bind (location_shrinks.bind fun _ => (symbol_shrinks (by decide)).keeps.bind fun _ =>
    Keeps.notAhead.bind fun _ => hExpr.bind fun _ => Keeps.pure _) fun _ => Keeps.pure _

end Keeps

/-! ## Parsers of expressions enter themselves on shorter texts -/

section Agree

variable {n : Nat} {expr' : Parser Expr} (hKeeps : Keeps expr') (hAgree : AgreeBelow n expr expr')
include hKeeps hAgree

theorem callParts_agree : AgreeBelow (n + 1) (callParts expr) (callParts expr') :=
  AgreeBelow.bind_shrinks ident_shrinks fun _ =>
    (AgreeBelow.refl n _).bind (symbol_shrinks (by decide)).keeps fun _ =>
      (hAgree.sepBy hKeeps (symbol_shrinks (by decide)).keeps).bind_left

/-- Arguments and bracketed expressions are shorter than the expression around them. -/
theorem primary_agree : AgreeBelow (n + 1) (primary expr) (primary expr') := by
  have hRefl : ∀ p : Parser Expr, AgreeBelow (n + 1) p p := AgreeBelow.refl (n + 1)
  -- only a call and a parenthesis enter the parser of expressions
  have hCall : AgreeBelow (n + 1) (call expr) (call expr') :=
    (callParts_agree hKeeps hAgree).bind_left
  have hParen : AgreeBelow (n + 1) (parenthesized expr) (parenthesized expr') :=
    AgreeBelow.bind_shrinks (symbol_shrinks (by decide)) fun _ => hAgree.bind_left
  exact (hRefl _).orElse <| (hRefl _).orElse <| (hRefl _).orElse <| (hRefl _).orElse <|
    hCall.orElse <| hParen.orElse (hRefl _)

/-- Signs do not lengthen the text. -/
theorem unary_agree : AgreeBelow (n + 1) (unary expr) (unary expr') :=
  (AgreeBelow.refl _ _).bind sign_shrinks.keeps.many fun _ =>
    (primary_agree hKeeps hAgree).bind_left

omit hKeeps hAgree in
/-- A level agrees on short texts if its operands do. -/
theorem leftAssociative_agree {op : Parser String} {operand operand' : Parser Expr} (hOp : Keeps op)
    (hOperand : Shrinks operand') (h : AgreeBelow n operand operand') :
    AgreeBelow n (leftAssociative op operand) (leftAssociative op operand') := by
  refine h.bind hOperand.keeps fun first => ?_
  refine AgreeBelow.bind_left ?_
  refine AgreeBelow.many ?_ (operation_keeps hOp hOperand.keeps)
  exact (AgreeBelow.refl n _).bind hOp fun _ => h.bind_left

theorem sum_agree : AgreeBelow (n + 1) (sum expr) (sum expr') :=
  leftAssociative_agree (single_shrinks _).keeps (product_shrinks hKeeps) <|
    leftAssociative_agree (operator_shrinks (by decide)).keeps (unary_shrinks hKeeps) <|
      unary_agree hKeeps hAgree

theorem comparison_agree : AgreeBelow (n + 1) (comparison expr) (comparison expr') := by
  have hSum := sum_agree hKeeps hAgree
  refine hSum.bind (sum_shrinks hKeeps).keeps fun first => ?_
  refine AgreeBelow.bind_left ?_
  refine AgreeBelow.optional ?_
  exact (AgreeBelow.refl _ _).bind (operator_shrinks (by decide)).keeps fun _ => hSum.bind_left

theorem disjunction_agree : AgreeBelow (n + 1) (disjunction expr) (disjunction expr') :=
  leftAssociative_agree (operator_shrinks (by decide)).keeps (conjunction_shrinks hKeeps) <|
    leftAssociative_agree (operator_shrinks (by decide)).keeps (comparison_shrinks hKeeps) <|
      comparison_agree hKeeps hAgree

omit hKeeps in
/-- The value of an assignment is shorter than the assignment. -/
theorem assignment_agree : AgreeBelow (n + 1) (assignment expr) (assignment expr') :=
  AgreeBelow.bind_left <| AgreeBelow.bind_shrinks location_shrinks fun _ =>
    (AgreeBelow.refl n _).bind (symbol_shrinks (by decide)).keeps fun _ =>
      (AgreeBelow.refl n _).bind Keeps.notAhead fun _ => hAgree.bind_left

end Agree

/-! ## The parser of expressions -/

/-- The rule of expressions calls itself behind at least a character only. -/
theorem expression_guarded :
    Guarded fun expr : Parser Expr => assignment expr <|> disjunction expr where
  keeps hExpr := (assignment_shrinks hExpr).keeps.orElse (disjunction_shrinks hExpr).keeps
  agree hKeeps hAgree :=
    (assignment_agree hAgree).orElse (disjunction_agree hKeeps hAgree)

/-- Expressions are read by the loosest level. -/
theorem expression_eq : expression = levelParser expression .assignment :=
  expression_guarded.fix_eq

/-- An expression lengthens nothing. -/
theorem expression_keeps : Keeps expression :=
  expression_guarded.fix_keeps

/-! ## The parser of statements -/

/-- The alternatives of a statement, given the parser of the statements inside it. -/
def statementRule (stmt : Parser Stmt) : Parser Stmt :=
  ifStmt stmt <|> whileStmt stmt <|> readStmt <|> writeStmt <|> returnStmt <|> callStmt <|>
    incrementStmt <|> decrementStmt <|> assignStmt

theorem point_keeps {a : α} : Keeps (symbol ['.'] >>= fun _ => pure a) :=
  (symbol_shrinks (by decide)).keeps.bind fun _ => Keeps.pure _

theorem typeRef_shrinks : Shrinks typeRef := by
  have hBasic : ∀ (k : Keyword) (type : TypeRef),
      Shrinks (keyword k >>= fun _ => pure type) := fun k type =>
    (keyword_shrinks k).bind fun _ => Keeps.pure type
  have hStruct : Shrinks (keyword .struct >>= fun _ => ident >>= fun id =>
      pure (TypeRef.struct id)) :=
    (keyword_shrinks .struct).bind fun _ => ident_shrinks.keeps.bind fun _ => Keeps.pure _
  exact (hBasic _ _).orElse <| (hBasic _ _).orElse <| (hBasic _ _).orElse hStruct

theorem varDecl_shrinks : Shrinks varDecl :=
  typeRef_shrinks.bind fun _ => ident_shrinks.keeps.bind fun _ => point_keeps

theorem condition_shrinks (k : Keyword) : Shrinks (condition k) :=
  (keyword_shrinks k).bind fun _ => (parenthesized_shrinks expression_keeps).keeps

section Statements

variable {n : Nat} {stmt stmt' : Parser Stmt} (hKeeps : Keeps stmt')
include hKeeps

/-- A block may be empty. -/
theorem block_keeps : Keeps (block stmt') :=
  varDecl_shrinks.keeps.many.bind fun _ => hKeeps.many.bind fun _ => Keeps.pure _

theorem braced_shrinks : Shrinks (braced stmt') :=
  (symbol_shrinks (by decide)).bind fun _ => (block_keeps hKeeps).bind fun _ =>
    (symbol_shrinks (by decide)).keeps.bind fun _ => Keeps.pure _

theorem otherwise_keeps : Keeps (optional (keyword .elseWord >>= fun _ => braced stmt')) :=
  ((keyword_shrinks _).keeps.bind fun _ => (braced_shrinks hKeeps).keeps).optional

/-- Every choice of a statement takes something. -/
theorem statementRule_shrinks : Shrinks (statementRule stmt') := by
  -- increments and decrements differ in their sign only
  have hStepped : ∀ (s : List Char) (f : Loc → Stmt), s ≠ [] →
      Shrinks (location >>= fun target => symbol s >>= fun _ => symbol ['.'] >>= fun _ =>
        pure (f target)) := fun s f hSome =>
    location_shrinks.bind fun _ => (symbol_shrinks hSome).keeps.bind fun _ => point_keeps
  have hIf : Shrinks (ifStmt stmt') := by
    refine (condition_shrinks _).bind fun cond => (braced_shrinks hKeeps).keeps.bind
      fun body => (otherwise_keeps hKeeps).bind fun otherwise? => ?_
    cases otherwise? with
    | none => exact Keeps.pure _
    | some otherwise => exact Keeps.pure _
  have hWhile : Shrinks (whileStmt stmt') :=
    (condition_shrinks _).bind fun _ => (braced_shrinks hKeeps).keeps.bind fun _ =>
      Keeps.pure _
  have hRead : Shrinks readStmt :=
    (keyword_shrinks _).bind fun _ => (symbol_shrinks (by decide)).keeps.bind fun _ =>
      location_shrinks.keeps.bind fun _ => point_keeps
  have hWrite : Shrinks writeStmt :=
    (keyword_shrinks _).bind fun _ => (symbol_shrinks (by decide)).keeps.bind fun _ =>
      expression_keeps.bind fun _ => point_keeps
  have hReturn : Shrinks returnStmt :=
    (keyword_shrinks _).bind fun _ => expression_keeps.optional.bind fun _ => point_keeps
  have hCall : Shrinks callStmt :=
    (callParts_shrinks expression_keeps).bind fun _ => point_keeps
  have hAssign : Shrinks assignStmt :=
    Shrinks.bind (location_shrinks.bind fun _ => (symbol_shrinks (by decide)).keeps.bind
      fun _ => Keeps.notAhead.bind fun _ => expression_keeps.bind fun _ => Keeps.pure _)
      fun _ => point_keeps
  exact hIf.orElse <| hWhile.orElse <| hRead.orElse <| hWrite.orElse <| hReturn.orElse <|
    hCall.orElse <| (hStepped ['+', '+'] .increment (by decide)).orElse <|
    (hStepped ['-', '-'] .decrement (by decide)).orElse hAssign

variable (hAgree : AgreeBelow n stmt stmt')
include hAgree

/-- The statements between braces are shorter than the block. -/
theorem braced_agree : AgreeBelow n (braced stmt) (braced stmt') := by
  have hBlock : AgreeBelow n (block stmt) (block stmt') :=
    (AgreeBelow.refl n _).bind varDecl_shrinks.keeps.many fun _ =>
      (hAgree.many hKeeps).bind_left
  exact (AgreeBelow.refl n _).bind (symbol_shrinks (by decide)).keeps fun _ => hBlock.bind_left

/-- The blocks of a statement are shorter than the statement. -/
theorem statementRule_agree : AgreeBelow (n + 1) (statementRule stmt) (statementRule stmt') := by
  have hRefl : ∀ p : Parser Stmt, AgreeBelow (n + 1) p p := AgreeBelow.refl (n + 1)
  have hBraced := braced_agree hKeeps hAgree
  -- only these two alternatives enter the parser of statements
  have hIf : AgreeBelow (n + 1) (ifStmt stmt) (ifStmt stmt') := by
    refine AgreeBelow.bind_shrinks (condition_shrinks _) fun cond => ?_
    refine hBraced.bind (braced_shrinks hKeeps).keeps fun body => ?_
    refine AgreeBelow.bind_left (AgreeBelow.optional ?_)
    exact (AgreeBelow.refl n _).bind (keyword_shrinks _).keeps fun _ => hBraced
  have hWhile : AgreeBelow (n + 1) (whileStmt stmt) (whileStmt stmt') :=
    AgreeBelow.bind_shrinks (condition_shrinks _) fun _ => hBraced.bind_left
  exact hIf.orElse <| hWhile.orElse (hRefl _)

end Statements

/-- The rule of statements calls itself behind at least a character only. -/
theorem statement_guarded : Guarded statementRule where
  keeps hStmt := (statementRule_shrinks hStmt).keeps
  agree hKeeps hAgree := statementRule_agree hKeeps hAgree

/-- Statements are read by the rule with itself inside. -/
theorem statement_eq : statement = statementRule statement :=
  statement_guarded.fix_eq

/-- A statement takes at least a character. -/
theorem statement_shrinks : Shrinks statement := by
  rw [statement_eq]
  exact statementRule_shrinks statement_guarded.fix_keeps

/-! ## Declarations -/

theorem formal_shrinks : Shrinks formal :=
  typeRef_shrinks.bind fun _ => ident_shrinks.keeps.bind fun _ => Keeps.pure _

theorem structDecl_shrinks : Shrinks structDecl := by
  have hFields : Keeps (many1 varDecl) :=
    varDecl_shrinks.keeps.bind fun _ => varDecl_shrinks.keeps.many.bind fun _ => Keeps.pure _
  exact (keyword_shrinks _).bind fun _ => ident_shrinks.keeps.bind fun _ =>
    (symbol_shrinks (by decide)).keeps.bind fun _ => hFields.bind fun _ =>
      (symbol_shrinks (by decide)).keeps.bind fun _ => Keeps.pure _

theorem funcDecl_shrinks : Shrinks funcDecl := by
  have hSymbol {s : List Char} (hSome : s ≠ []) : Keeps (symbol s) := (symbol_shrinks hSome).keeps
  have hBody : Keeps (block statement) := block_keeps statement_shrinks.keeps
  exact typeRef_shrinks.bind fun _ => ident_shrinks.keeps.bind fun _ => (hSymbol (by decide)).bind
    fun _ => (formal_shrinks.keeps.sepBy (hSymbol (by decide))).bind fun _ =>
      (hSymbol (by decide)).bind fun _ => (hSymbol (by decide)).bind fun _ => hBody.bind fun _ =>
        (hSymbol (by decide)).bind fun _ => Keeps.pure _

theorem decl_shrinks : Shrinks decl :=
  structDecl_shrinks.map.orElse <| funcDecl_shrinks.map.orElse <| varDecl_shrinks.map

end NameResolution.Grammar
