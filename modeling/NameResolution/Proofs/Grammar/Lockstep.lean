import NameResolution.Grammar.Program
import NameResolution.Proofs.Grammar.Levels

/-!
# Lockstep — two texts read side by side

Where every lexeme of the grammar is read from two texts with the same value, and leaves two texts
of which that is true again, so is every construct. The parsers do not look at the text in any
other way. The reading of the first text may also halt at a number with too many digits; nothing is
said of the other text then.

* `SideBySide`, `Agree` — two texts, and what becomes of reading a construct from both.
* `Lockstep` — a parser for which the two readings agree, and a rule for every combinator.
* `SideBySide.Lexed`, `program_lockstep` — from the lexemes to whole programs.
-/

namespace NameResolution.Grammar

open NameResolution.Grammar.Parser

/-! ## Two readings -/

/-- Two texts: where their endings begin, which endings of them are alike, the numbers of digits at
which both readings may stop, and those at which the reading of the first text may halt whatever
the other one does. -/
structure SideBySide where
  ctx : Context
  ctx' : Context
  Alike : List Char → List Char → Prop
  Stops : Nat → Prop
  Halts : Nat → Prop

variable {α β σ : Type} {t : SideBySide}

/-- What becomes of reading a construct from the one text and from the other. -/
inductive Agree (t : SideBySide) : Outcome α → Outcome α → Prop where
  | matched (a : α) {rest rest' : List Char} (hRest : t.Alike rest rest') :
    Agree t (.matched a rest) (.matched a rest')
  | rejected : Agree t .rejected .rejected
  | tooLong {digits : Nat} (hStops : t.Stops digits) : Agree t (.tooLong digits) (.tooLong digits)
  | halted {digits : Nat} (hHalts : t.Halts digits) (outcome : Outcome α) :
    Agree t (.tooLong digits) outcome

/-- The parser does the same on texts that are alike. -/
def Lockstep (t : SideBySide) (p : Parser α) : Prop :=
  ∀ cs cs', t.Alike cs cs' → Agree t (p t.ctx cs) (p t.ctx' cs')

/-! ## Parsers that need some text -/

/-- At the end of the text the parser matches nothing. -/
def Starves (p : Parser α) : Prop :=
  ∀ ctx, p ctx [] = .rejected

/-- What starves its first part starves the whole. -/
theorem Starves.bind {p : Parser α} (hp : Starves p) (k : α → Parser β) : Starves (p >>= k) :=
  fun ctx => bind_of_rejected (hp ctx)

/-- A choice starves if both sides do. -/
theorem Starves.orElse {p q : Parser α} (hp : Starves p) (hq : Starves q) : Starves (p <|> q) := by
  intro ctx
  rw [orElse_of_rejected (hp ctx)]
  exact hq ctx

theorem none_ahead {p : Char → Prop} : ∀ c ∈ ahead [], p c := nofun

/-- A symbol needs characters. -/
theorem symbol_starves {s : List Char} (hSome : s ≠ []) : Starves (symbol s) := by
  obtain ⟨c, s, rfl⟩ := List.exists_cons_of_ne_nil hSome
  exact fun ctx => symbol_rejects nofun

/-- A keyword needs characters. -/
theorem keyword_starves (k : Keyword) : Starves (keyword k) :=
  fun _ => keyword_rejects none_ahead

theorem operator_starves {ops : List (List Char)} (hSome : ∀ op ∈ ops, op ≠ []) :
    Starves (operator ops) := by
  intro ctx
  refine operator_rejects hSome fun op hOp hHead => ?_
  exact hSome op hOp (List.head?_eq_none_iff.mp hHead.symm)

theorem location_starves : Starves location :=
  fun _ => location_rejects none_ahead

theorem sign_starves : Starves sign :=
  fun _ => sign_rejects none_ahead

theorem typeRef_starves : Starves typeRef :=
  ((keyword_starves _).bind _).orElse <| ((keyword_starves _).bind _).orElse <|
    ((keyword_starves _).bind _).orElse ((keyword_starves _).bind _)

theorem varDecl_starves : Starves varDecl :=
  typeRef_starves.bind _

/-- Every choice of a statement needs characters. -/
theorem statementRule_starves (stmt : Parser Stmt) : Starves (statementRule stmt) := by
  have hCondition : ∀ k, Starves (condition k) := fun k => (keyword_starves k).bind _
  have hKeyword : ∀ (k : Keyword) (next : Unit → Parser Stmt), Starves (keyword k >>= next) :=
    fun k next => (keyword_starves k).bind next
  have hIdent : Starves ident := fun _ => ident_rejects none_ahead
  exact ((hCondition _).bind _).orElse <| ((hCondition _).bind _).orElse <|
    (hKeyword _ _).orElse <| (hKeyword _ _).orElse <| (hKeyword _ _).orElse <|
    ((hIdent.bind _).bind _).orElse <| (location_starves.bind _).orElse <|
    (location_starves.bind _).orElse <| (location_starves.bind _).bind _

theorem statement_starves : Starves statement := by
  rw [statement_eq]
  exact statementRule_starves statement

theorem decl_starves : Starves decl :=
  (((keyword_starves _).bind _).bind _).orElse <| ((typeRef_starves.bind _).bind _).orElse <|
    varDecl_starves.bind _

/-- Each item takes a character and none is read from nothing, so more items than characters are not
looked for in vain. -/
theorem manyUpTo_enough {p : Parser α} (hShrinks : Shrinks p) (hStarves : Starves p)
    {ctx : Context} {cs : List Char} {n m : Nat} (hn : cs.length ≤ n)
    (hm : cs.length ≤ m) : manyUpTo p n ctx cs = manyUpTo p m ctx cs := by
  -- at the end of the text a repetition stops, however much fuel is left
  have hEnd : ∀ n, manyUpTo p n ctx [] = .matched [] [] := by
    intro n
    cases n with
    | zero => rfl
    | succ n => rw [manyUpTo_succ, hStarves ctx]
  induction n generalizing cs m with
  | zero =>
    obtain rfl := List.length_eq_zero_iff.mp (Nat.le_zero.mp hn)
    rw [hEnd, hEnd]
  | succ n ih =>
    cases m with
    | zero =>
      obtain rfl := List.length_eq_zero_iff.mp (Nat.le_zero.mp hm)
      rw [hEnd, hEnd]
    | succ m =>
      rw [manyUpTo_succ, manyUpTo_succ]
      cases hItem : p ctx cs with
      | matched a rest =>
        have hShorter := hShrinks _ _ _ _ hItem
        have hOthers : manyUpTo p n ctx rest = manyUpTo p m ctx rest :=
          -- an item has taken at least a character, so fuel for the rest is left
          ih (by omega) (by omega)
        show andThen (manyUpTo p n) _ ctx rest = andThen (manyUpTo p m) _ ctx rest
        rw [andThen, andThen, hOthers]
      | rejected => rfl
      | tooLong digits => rfl

/-! ## Combinators -/

namespace Lockstep

variable {p q : Parser α} {k : α → Parser β}

/-- An answer alone is the same in both texts. -/
theorem pure (a : α) : Lockstep t (Pure.pure a : Parser α) :=
  fun _ _ hAlike => .matched a hAlike

/-- Two parsers in a row stay in lockstep. -/
theorem bind (hp : Lockstep t p) (hk : ∀ a, Lockstep t (k a)) : Lockstep t (p >>= k) := by
  intro cs cs' hAlike
  show Agree t (andThen p k t.ctx cs) (andThen p k t.ctx' cs')
  have hFirst := hp cs cs' hAlike
  rw [andThen, andThen]
  generalize p t.ctx cs = first, p t.ctx' cs' = first' at hFirst
  cases hFirst with
  | matched a hRest => exact hk a _ _ hRest
  | rejected => exact .rejected
  | tooLong hStops => exact .tooLong hStops
  | halted hHalts => exact .halted hHalts _

/-- A function on the answers stays in lockstep. -/
theorem map (hp : Lockstep t p) (f : α → β) : Lockstep t (f <$> p) :=
  hp.bind fun a => Lockstep.pure (f a)

/-- Both texts take the same side of a choice. -/
theorem orElse (hp : Lockstep t p) (hq : Lockstep t q) : Lockstep t (p <|> q) := by
  intro cs cs' hAlike
  show Agree t (p.orElse q t.ctx cs) (p.orElse q t.ctx' cs')
  have hFirst := hp cs cs' hAlike
  rw [Parser.orElse, Parser.orElse]
  generalize p t.ctx cs = first, p t.ctx' cs' = first' at hFirst
  cases hFirst with
  | matched a hRest => exact .matched a hRest
  | rejected => exact hq cs cs' hAlike
  | tooLong hStops => exact .tooLong hStops
  | halted hHalts => exact .halted hHalts _

/-- An optional part is there in both texts or in neither. -/
theorem optional (hp : Lockstep t p) : Lockstep t (Parser.optional p) :=
  (hp.map some).orElse (Lockstep.pure none)

/-- A look ahead ends alike. -/
theorem notAhead (hp : Lockstep t p) : Lockstep t (Parser.notAhead p) := by
  intro cs cs' hAlike
  have hFirst := hp cs cs' hAlike
  rw [Parser.notAhead, Parser.notAhead]
  generalize p t.ctx cs = first, p t.ctx' cs' = first' at hFirst
  cases hFirst with
  | matched => exact .rejected
  | rejected => exact .matched () hAlike
  | tooLong hStops => exact .tooLong hStops
  | halted hHalts => exact .halted hHalts _

/-- Repetitions with the same fuel stay in lockstep. -/
theorem manyUpTo (hp : Lockstep t p) (n : Nat) : Lockstep t (Parser.manyUpTo p n) := by
  induction n with
  | zero => exact Lockstep.pure []
  | succ n ih =>
    intro cs cs' hAlike
    have hItem := hp cs cs' hAlike
    rw [manyUpTo_succ, manyUpTo_succ]
    generalize p t.ctx cs = item, p t.ctx' cs' = item' at hItem
    -- the two outcomes are of one kind, so the repetition goes on in both or ends in both
    cases hItem with
    | matched a hRest => exact ih.map (a :: ·) _ _ hRest
    | rejected => exact .matched [] hAlike
    | tooLong hStops => exact .tooLong hStops
    | halted hHalts => exact .halted hHalts _

/-- Repetitions stay in lockstep, though the texts give different fuel. -/
theorem many (hp : Lockstep t p) (hShrinks : Shrinks p) (hStarves : Starves p) :
    Lockstep t (Parser.many p) := by
  intro cs cs' hAlike
  -- the lengths of the texts differ, but either reading may look for more items
  have hItems := hp.manyUpTo (max cs.length cs'.length) cs cs' hAlike
  rw [Parser.many, Parser.many, manyUpTo_enough hShrinks hStarves (Nat.le_refl _)
    (Nat.le_max_left _ cs'.length), manyUpTo_enough hShrinks hStarves (Nat.le_refl _)
    (Nat.le_max_right cs.length _)]
  exact hItems

theorem many1 (hp : Lockstep t p) (hShrinks : Shrinks p) (hStarves : Starves p) :
    Lockstep t (Parser.many1 p) :=
  hp.bind fun _ => (hp.many hShrinks hStarves).bind fun _ => Lockstep.pure _

/-- Lists with separators stay in lockstep. -/
theorem sepBy {separator : Parser σ} (hp : Lockstep t p) (hSeparator : Lockstep t separator)
    (hKeeps : Keeps p) (hShrinks : Shrinks separator) (hStarves : Starves separator) :
    Lockstep t (Parser.sepBy p separator) := by
  have hItem : Lockstep t (separator >>= fun _ => p) := hSeparator.bind fun _ => hp
  have hItems := hItem.many (hShrinks.bind fun _ => hKeeps) (hStarves.bind _)
  exact hp.optional.bind fun _ => hItems.bind fun _ => Lockstep.pure _

/-- Recursive rules stay in lockstep, though the texts give different fuel. -/
theorem fix {rule : Parser α → Parser α} (hGuarded : Guarded rule)
    (hRule : ∀ n, Lockstep t (unroll rule n) → Lockstep t (rule (unroll rule n))) :
    Lockstep t (Parser.fix rule) := by
  have hUnroll : ∀ n, Lockstep t (unroll rule n) := by
    intro n
    induction n with
    | zero => exact fun _ _ _ => .rejected
    | succ n ih => exact hRule n ih
  intro cs cs' hAlike
  -- unrolled for the longer text, the rule is what is defined through itself on both
  have hBoth := hUnroll (max cs.length cs'.length + 1) cs cs' hAlike
  rw [hGuarded.unroll_eq_fix _ _ _ (by omega), hGuarded.unroll_eq_fix _ _ _ (by omega)] at hBoth
  exact hBoth

end Lockstep

/-! ## Lexemes -/

/-- Every lexeme of the grammar is read from texts that are alike, at the same position. -/
structure SideBySide.Lexed (t : SideBySide) : Prop where
  here : ∀ cs cs', t.Alike cs cs' → t.ctx.locate (skipTrivia cs) = t.ctx'.locate (skipTrivia cs')
  symbol : ∀ s ∈ Token.punctuation, Lockstep t (Grammar.symbol s)
  keyword : ∀ k, Lockstep t (Grammar.keyword k)
  single : Lockstep t (lexeme (scanSingle ['+', '-']))
  name : Lockstep t Grammar.name
  number : Lockstep t Grammar.number
  string : Lockstep t Grammar.string
  endOfText : Lockstep t Grammar.endOfText

theorem operator_cons (op : List Char) (ops : List (List Char)) (ctx : Context)
    (cs : List Char) : operator (op :: ops) ctx cs =
      (((fun _ => String.ofList op) <$> symbol op) <|> operator ops) ctx cs := by
  have hFirst : (∃ u rest, symbol op ctx cs = .matched u rest) ∨
      symbol op ctx cs = .rejected :=
    lexeme_matched_or_rejected (scanSymbol op) ctx cs
  -- the first operator matches or is rejected, and only then the others are tried
  rcases hFirst with ⟨u, rest, hMatch⟩ | hReject
  · rw [orElse_of_matched (map_of_matched hMatch), operator, lexeme_eq_matched, scanOperator,
      List.findSome?_cons, symbol_eq_matched.mp hMatch,
      List.isPrefixOf?_eq_some_iff_append_eq.mpr rfl]
    rfl
  · rw [orElse_of_rejected (map_of_rejected hReject), operator, operator, lexeme, lexeme,
      scanOperator, scanOperator, List.findSome?_cons]
    rw [symbol, lexeme_eq_rejected, scanSymbol, Option.map_eq_none_iff] at hReject
    rw [hReject]
    rfl

namespace SideBySide.Lexed

variable (h : t.Lexed)
include h

/-- Both texts note positions that agree. -/
theorem here_lockstep : Lockstep t Grammar.here := by
  intro cs cs' hAlike
  show Agree t (.matched (t.ctx.locate (skipTrivia cs)) cs)
    (.matched (t.ctx'.locate (skipTrivia cs')) cs')
  rw [h.here cs cs' hAlike]
  exact .matched _ hAlike

/-- Operators stay in lockstep as symbols do. -/
theorem operator_lockstep {ops : List (List Char)} (hOps : ops ⊆ Token.punctuation) :
    Lockstep t (Grammar.operator ops) := by
  induction ops with
  | nil => exact fun _ _ _ => .rejected
  | cons op ops ih =>
    obtain ⟨hOp, hOthers⟩ := List.cons_subset.mp hOps
    intro cs cs' hAlike
    rw [operator_cons, operator_cons]
    exact ((h.symbol op hOp).map _).orElse (ih hOthers) cs cs' hAlike

/-! ## Names and expressions -/

theorem ident_lockstep : Lockstep t ident :=
  h.here_lockstep.bind fun _ => h.name.bind fun _ => Lockstep.pure _

theorem location_lockstep : Lockstep t location := by
  have hField : Lockstep t (Grammar.symbol [':'] >>= fun _ => ident) :=
    (h.symbol _ (by decide)).bind fun _ => h.ident_lockstep
  have hFields := hField.many ((symbol_shrinks (by decide)).bind fun _ => ident_shrinks.keeps)
    ((symbol_starves (by decide)).bind _)
  exact h.ident_lockstep.bind fun _ => hFields.bind fun _ => Lockstep.pure _

theorem sign_lockstep : Lockstep t sign :=
  (h.operator_lockstep (by decide)).orElse <| (h.operator_lockstep (by decide)).bind fun _ =>
    (h.symbol _ (by decide)).notAhead.bind fun _ => Lockstep.pure _

section Expressions

variable {expr : Parser Expr} (hKeeps : Keeps expr) (hExpr : Lockstep t expr)
include hKeeps hExpr

theorem callParts_lockstep : Lockstep t (callParts expr) := by
  have hArgs := hExpr.sepBy (h.symbol [','] (by decide)) hKeeps (symbol_shrinks (by decide))
    (symbol_starves (by decide))
  exact h.ident_lockstep.bind fun _ => (h.symbol _ (by decide)).bind fun _ => hArgs.bind fun _ =>
    (h.symbol _ (by decide)).bind fun _ => Lockstep.pure _

omit hKeeps in
theorem parenthesized_lockstep : Lockstep t (parenthesized expr) :=
  (h.symbol _ (by decide)).bind fun _ => hExpr.bind fun _ => (h.symbol _ (by decide)).bind fun _ =>
    Lockstep.pure _

theorem primary_lockstep : Lockstep t (primary expr) := by
  -- the alternatives in the order of `primary`; four of them are literals
  have hTruth : ∀ (k : Keyword) (f : Position → Expr),
      Lockstep t (Grammar.here >>= fun pos => Grammar.keyword k >>= fun _ => pure (f pos)) :=
    fun k f => h.here_lockstep.bind fun _ => (h.keyword k).bind fun _ => Lockstep.pure _
  have hInt : Lockstep t intLit :=
    h.here_lockstep.bind fun _ => h.number.bind fun _ => Lockstep.pure _
  have hStr : Lockstep t strLit :=
    h.here_lockstep.bind fun _ => h.string.bind fun _ => Lockstep.pure _
  have hCall : Lockstep t (call expr) :=
    (h.callParts_lockstep hKeeps hExpr).bind fun _ => Lockstep.pure _
  exact (hTruth .trueWord .trueLit).orElse <| (hTruth .falseWord .falseLit).orElse <|
    hInt.orElse <| hStr.orElse <| hCall.orElse <| (h.parenthesized_lockstep hExpr).orElse <|
    h.location_lockstep.map _

theorem unary_lockstep : Lockstep t (unary expr) :=
  (h.sign_lockstep.many sign_shrinks sign_starves).bind fun _ =>
    (h.primary_lockstep hKeeps hExpr).bind fun _ => Lockstep.pure _

omit h hKeeps hExpr in
theorem operation_lockstep {op : Parser String} {operand : Parser Expr} (hOp : Lockstep t op)
    (hOperand : Lockstep t operand) : Lockstep t (operation op operand) :=
  hOp.bind fun _ => hOperand.bind fun _ => Lockstep.pure _

omit h hKeeps hExpr in
/-- A level stays in lockstep if its operands do. -/
theorem leftAssociative_lockstep {op : Parser String} {operand : Parser Expr} (hOp : Lockstep t op)
    (hOperand : Lockstep t operand) (hShrinks : Shrinks op) (hStarves : Starves op)
    (hKeeps : Keeps operand) : Lockstep t (leftAssociative op operand) := by
  have hItem := operation_lockstep hOp hOperand
  have hItems := hItem.many (hShrinks.bind fun _ => hKeeps.bind fun _ => Keeps.pure _)
    (hStarves.bind _)
  exact hOperand.bind fun _ => hItems.bind fun _ => Lockstep.pure _

theorem product_lockstep : Lockstep t (product expr) :=
  leftAssociative_lockstep (h.operator_lockstep (by decide)) (h.unary_lockstep hKeeps hExpr)
    (operator_shrinks (by decide)) (operator_starves (by decide)) (unary_shrinks hKeeps).keeps

theorem sum_lockstep : Lockstep t (sum expr) :=
  leftAssociative_lockstep h.single (h.product_lockstep hKeeps hExpr) (single_shrinks _)
    (fun _ => rfl) (product_shrinks hKeeps).keeps

theorem comparison_lockstep : Lockstep t (comparison expr) := by
  have hSum := h.sum_lockstep hKeeps hExpr
  have hSign : Lockstep t (Grammar.operator comparisons) := h.operator_lockstep (by decide)
  have hRest := operation_lockstep hSign hSum
  exact hSum.bind fun _ => hRest.optional.bind fun _ => Lockstep.pure _

theorem conjunction_lockstep : Lockstep t (conjunction expr) :=
  leftAssociative_lockstep (h.operator_lockstep (by decide)) (h.comparison_lockstep hKeeps hExpr)
    (operator_shrinks (by decide)) (operator_starves (by decide)) (comparison_shrinks hKeeps).keeps

theorem disjunction_lockstep : Lockstep t (disjunction expr) :=
  leftAssociative_lockstep (h.operator_lockstep (by decide)) (h.conjunction_lockstep hKeeps hExpr)
    (operator_shrinks (by decide)) (operator_starves (by decide)) (conjunction_shrinks hKeeps).keeps

omit hKeeps in
theorem assignmentParts_lockstep : Lockstep t (assignmentParts expr) :=
  h.location_lockstep.bind fun _ => (h.symbol _ (by decide)).bind fun _ =>
    (h.symbol _ (by decide)).notAhead.bind fun _ => hExpr.bind fun _ => Lockstep.pure _

end Expressions

theorem expression_lockstep : Lockstep t expression := by
  refine Lockstep.fix expression_guarded fun n hExpr => ?_
  have hKeeps := expression_guarded.unroll_keeps n
  exact ((h.assignmentParts_lockstep hExpr).bind fun _ => Lockstep.pure _).orElse
    (h.disjunction_lockstep hKeeps hExpr)

/-! ## Statements -/

theorem typeRef_lockstep : Lockstep t typeRef := by
  have hBasic : ∀ (k : Keyword) (type : TypeRef),
      Lockstep t (Grammar.keyword k >>= fun _ => pure type) := fun k type =>
    (h.keyword k).bind fun _ => Lockstep.pure type
  have hStruct : Lockstep t (Grammar.keyword .struct >>= fun _ => ident >>= fun id =>
      pure (TypeRef.struct id)) :=
    (h.keyword .struct).bind fun _ => h.ident_lockstep.bind fun _ => Lockstep.pure _
  exact (hBasic _ _).orElse <| (hBasic _ _).orElse <| (hBasic _ _).orElse hStruct

theorem point_lockstep (a : α) : Lockstep t (Grammar.symbol ['.'] >>= fun _ => pure a) :=
  (h.symbol _ (by decide)).bind fun _ => Lockstep.pure a

theorem varDecl_lockstep : Lockstep t varDecl :=
  h.typeRef_lockstep.bind fun _ => h.ident_lockstep.bind fun _ => h.point_lockstep _

theorem condition_lockstep (k : Keyword) : Lockstep t (condition k) :=
  (h.keyword k).bind fun _ => h.parenthesized_lockstep h.expression_lockstep

section Statements

variable {stmt : Parser Stmt} (hShrinks : Shrinks stmt) (hStarves : Starves stmt)
  (hStmt : Lockstep t stmt)
include hShrinks hStarves hStmt

theorem block_lockstep : Lockstep t (block stmt) :=
  (h.varDecl_lockstep.many varDecl_shrinks varDecl_starves).bind fun _ =>
    (hStmt.many hShrinks hStarves).bind fun _ => Lockstep.pure _

theorem braced_lockstep : Lockstep t (braced stmt) :=
  (h.symbol _ (by decide)).bind fun _ => (h.block_lockstep hShrinks hStarves hStmt).bind fun _ =>
    (h.symbol _ (by decide)).bind fun _ => Lockstep.pure _

/-- Statements stay in lockstep if those inside do. -/
theorem statementRule_lockstep : Lockstep t (statementRule stmt) := by
  have hBraced := h.braced_lockstep hShrinks hStarves hStmt
  -- increments and decrements differ in their sign only
  have hStepped : ∀ (s : List Char) (f : Loc → Stmt), s ∈ Token.punctuation →
      Lockstep t (location >>= fun target => Grammar.symbol s >>= fun _ =>
        Grammar.symbol ['.'] >>= fun _ => pure (f target)) := fun s f hSymbol =>
    h.location_lockstep.bind fun _ => (h.symbol s hSymbol).bind fun _ => h.point_lockstep _
  have hIf : Lockstep t (ifStmt stmt) := by
    have hElse : Lockstep t (Grammar.keyword .elseWord >>= fun _ => braced stmt) :=
      (h.keyword _).bind fun _ => hBraced
    refine (h.condition_lockstep _).bind fun cond => hBraced.bind fun body =>
      hElse.optional.bind fun otherwise? => ?_
    cases otherwise? with
    | none => exact Lockstep.pure _
    | some otherwise => exact Lockstep.pure _
  have hWhile : Lockstep t (whileStmt stmt) :=
    (h.condition_lockstep _).bind fun _ => hBraced.bind fun _ => Lockstep.pure _
  have hRead : Lockstep t readStmt :=
    (h.keyword _).bind fun _ => (h.symbol _ (by decide)).bind fun _ =>
      h.location_lockstep.bind fun _ => h.point_lockstep _
  have hWrite : Lockstep t writeStmt :=
    (h.keyword _).bind fun _ => (h.symbol _ (by decide)).bind fun _ =>
      h.expression_lockstep.bind fun _ => h.point_lockstep _
  have hReturn : Lockstep t returnStmt :=
    (h.keyword _).bind fun _ => h.expression_lockstep.optional.bind fun _ => h.point_lockstep _
  have hCall : Lockstep t callStmt :=
    (h.callParts_lockstep expression_keeps h.expression_lockstep).bind fun _ => h.point_lockstep _
  have hAssign : Lockstep t assignStmt :=
    (h.assignmentParts_lockstep h.expression_lockstep).bind fun _ => h.point_lockstep _
  exact hIf.orElse <| hWhile.orElse <| hRead.orElse <| hWrite.orElse <| hReturn.orElse <|
    hCall.orElse <| (hStepped ['+', '+'] .increment (by decide)).orElse <|
    (hStepped ['-', '-'] .decrement (by decide)).orElse hAssign

end Statements

theorem statement_lockstep : Lockstep t statement := by
  refine Lockstep.fix statement_guarded fun n hStmt => ?_
  have hShrinks : Shrinks (unroll statementRule n) := by
    cases n with
    | zero => exact nofun
    | succ n => exact statementRule_shrinks (statement_guarded.unroll_keeps n)
  have hStarves : Starves (unroll statementRule n) := by
    cases n with
    | zero => exact fun _ => rfl
    | succ n => exact statementRule_starves _
  exact h.statementRule_lockstep hShrinks hStarves hStmt

/-! ## Declarations and programs -/

theorem structDecl_lockstep : Lockstep t structDecl :=
  (h.keyword _).bind fun _ => h.ident_lockstep.bind fun _ => (h.symbol _ (by decide)).bind fun _ =>
    (h.varDecl_lockstep.many1 varDecl_shrinks varDecl_starves).bind fun _ =>
      (h.symbol _ (by decide)).bind fun _ => Lockstep.pure _

theorem funcDecl_lockstep : Lockstep t funcDecl := by
  have hFormal : Lockstep t formal :=
    h.typeRef_lockstep.bind fun _ => h.ident_lockstep.bind fun _ => Lockstep.pure _
  have hFormals := hFormal.sepBy (h.symbol [','] (by decide)) formal_shrinks.keeps
    (symbol_shrinks (by decide)) (symbol_starves (by decide))
  have hBody := h.block_lockstep statement_shrinks statement_starves h.statement_lockstep
  exact h.typeRef_lockstep.bind fun _ => h.ident_lockstep.bind fun _ =>
    (h.symbol _ (by decide)).bind fun _ => hFormals.bind fun _ => (h.symbol _ (by decide)).bind
      fun _ => (h.symbol _ (by decide)).bind fun _ => hBody.bind fun _ =>
        (h.symbol _ (by decide)).bind fun _ => Lockstep.pure _

/-- **Lockstep.** Texts whose lexemes are alike are read as the same program. -/
theorem program_lockstep : Lockstep t program := by
  have hDecl : Lockstep t decl :=
    (h.structDecl_lockstep.map _).orElse <| (h.funcDecl_lockstep.map _).orElse <|
      h.varDecl_lockstep.map _
  exact (hDecl.many decl_shrinks decl_starves).bind fun _ => h.endOfText.bind fun _ =>
    Lockstep.pure _

end SideBySide.Lexed

end NameResolution.Grammar
