import NameResolution.Proofs.Grammar.Derivation
import NameResolution.Proofs.Text.Decimal

/-!
# Printed tokens — what a printed program consists of

Printing puts every operation in parentheses, and the left side of a field access too. Numbers are
written in digits of ASCII.

* `Expr.tokens`, `Stmt.tokens`, `Program.tokens` — the tokens of the printed tree.
* `DerivesExpr.printed_number` — the digits that a number is printed with.
-/

namespace NameResolution

open Grammar

/-! ## Tokens of printed trees -/

/-- The token of an identifier. -/
def Ident.token (id : Ident) : Token := .name id.pos id.name

def TypeRef.tokens : TypeRef → List Token
  | boolean => [.keyword .boolean]
  | integer => [.keyword .integer]
  | void => [.keyword .void]
  | struct id => [.keyword .struct, id.token]

/-- The tokens that are printed for a location: what a field is taken of stands in parentheses. -/
def Loc.tokens : Loc → List Token
  | var id => [id.token]
  | field left id => enclosed '(' ')' left.tokens ++ [.symbol [':'], id.token]

mutual

/-- The tokens that are printed for an expression: every operation and assignment stands in
parentheses. -/
def Expr.tokens : Expr → List Token
  | .trueLit pos => [.truth pos true]
  | .falseLit pos => [.truth pos false]
  | .intLit pos value => [.number pos (Text.decimalText value).toList]
  | .strLit pos literal => [.string pos literal]
  | .loc location => location.tokens
  | .assign target value => enclosed '(' ')' (target.tokens ++ .symbol ['='] :: value.tokens)
  | .call callee args =>
    [callee.token] ++ enclosed '(' ')' (betweenCommas (Expr.tokensAll args))
  | .unary op operand => enclosed '(' ')' (.symbol op.toList :: operand.tokens)
  | .binary op left right =>
    enclosed '(' ')' (left.tokens ++ .symbol op.toList :: right.tokens)

def Expr.tokensAll : List Expr → List (List Token)
  | [] => []
  | e :: es => e.tokens :: Expr.tokensAll es

end

def VarDecl.tokens (d : VarDecl) : List Token :=
  d.type.tokens ++ [d.id.token] ++ [.symbol ['.']]

mutual

/-- The tokens that are printed for a statement. What is written out stands in parentheses once
more. -/
def Stmt.tokens : Stmt → List Token
  | .assign target value => target.tokens ++ .symbol ['='] :: (value.tokens ++ [.symbol ['.']])
  | .increment target => target.tokens ++ [.symbol ['+', '+'], .symbol ['.']]
  | .decrement target => target.tokens ++ [.symbol ['-', '-'], .symbol ['.']]
  | .ifThen cond ⟨decls, stmts⟩ =>
    .keyword .ifWord :: enclosed '(' ')' cond.tokens ++
      enclosed '\x7b' '\x7d' (decls.flatMap VarDecl.tokens ++ Stmt.tokensAll stmts)
  | .ifElse cond ⟨decls, stmts⟩ ⟨elseDecls, elseStmts⟩ =>
    .keyword .ifWord :: enclosed '(' ')' cond.tokens ++
      enclosed '\x7b' '\x7d' (decls.flatMap VarDecl.tokens ++ Stmt.tokensAll stmts) ++
      .keyword .elseWord ::
      enclosed '\x7b' '\x7d' (elseDecls.flatMap VarDecl.tokens ++ Stmt.tokensAll elseStmts)
  | .loop cond ⟨decls, stmts⟩ =>
    .keyword .whileWord :: enclosed '(' ')' cond.tokens ++
      enclosed '\x7b' '\x7d' (decls.flatMap VarDecl.tokens ++ Stmt.tokensAll stmts)
  | .read target => .keyword .input :: .symbol ['-', '>'] :: (target.tokens ++ [.symbol ['.']])
  | .write value =>
    .keyword .disp :: .symbol ['<', '-'] :: (enclosed '(' ')' value.tokens ++ [.symbol ['.']])
  | .call callee args =>
    [callee.token] ++ enclosed '(' ')' (betweenCommas (Expr.tokensAll args)) ++ [.symbol ['.']]
  | .ret none => [.keyword .returnWord, .symbol ['.']]
  | .ret (some value) => .keyword .returnWord :: (value.tokens ++ [.symbol ['.']])

def Stmt.tokensAll : List Stmt → List Token
  | [] => []
  | s :: ss => s.tokens ++ Stmt.tokensAll ss

end

def Formal.tokens (f : Formal) : List Token :=
  f.type.tokens ++ [f.id.token]

def Decl.tokens : Decl → List Token
  | var decl => decl.tokens
  | func f =>
    f.result.tokens ++ [f.id.token] ++
      enclosed '[' ']' (betweenCommas (f.formals.map Formal.tokens)) ++
      enclosed '[' ']' (f.body.decls.flatMap VarDecl.tokens ++ Stmt.tokensAll f.body.stmts)
  | struct s =>
    .keyword .struct :: ([s.id.token] ++ enclosed '[' ']' (s.fields.flatMap VarDecl.tokens))

/-- The tokens of the printed program. -/
def Program.tokens (p : Program) : List Token :=
  p.decls.flatMap Decl.tokens

/-- At least one token is printed for a location. -/
theorem Loc.tokens_ne_nil (loc : Loc) : loc.tokens ≠ [] := by
  cases loc <;> exact List.cons_ne_nil _ _

theorem Expr.tokensAll_eq_map (es : List Expr) : Expr.tokensAll es = es.map Expr.tokens := by
  induction es with
  | nil => rw [Expr.tokensAll, List.map_nil]
  | cons e es ih => rw [Expr.tokensAll, ih, List.map_cons]

theorem Stmt.tokensAll_eq_flatMap (ss : List Stmt) :
    Stmt.tokensAll ss = ss.flatMap Stmt.tokens := by
  induction ss with
  | nil => rw [Stmt.tokensAll, List.flatMap_nil]
  | cons s ss ih => rw [Stmt.tokensAll, ih, List.flatMap_cons]

namespace Grammar

variable {ts us : List Token}

/-! ## Names and numbers -/

/-- An identifier is derived from the token that is printed for it. -/
theorem DerivesIdent.printed {id : Ident} (h : DerivesIdent ts id) :
    DerivesIdent [id.token] id := by
  cases h with
  | name pos hName => exact .name pos hName

/-- An expression of a level is one of the loosest level. -/
theorem DerivesExpr.loosen {d : Dialect} {level : Level} {e : Expr}
    (h : DerivesExpr d level ts e) : DerivesExpr d .assignment ts e := by
  -- one step for each level in between
  cases level with
  | assignment => exact h
  | disjunction => exact .tighter rfl h
  | conjunction => exact .tighter rfl (.tighter rfl h)
  | comparison => exact .tighter rfl (.tighter rfl (.tighter rfl h))
  | sum => exact .tighter rfl (.tighter rfl (.tighter rfl (.tighter rfl h)))
  | product => exact .tighter rfl (.tighter rfl (.tighter rfl (.tighter rfl (.tighter rfl h))))
  | unary =>
    exact .tighter rfl (.tighter rfl (.tighter rfl (.tighter rfl (.tighter rfl (.tighter rfl h)))))
  | primary => exact h.lift .assignment

/-- A number is printed in digits of ASCII, and they are not too many. -/
theorem DerivesExpr.printed_number (pos : Position) {digits : List Char}
    (hDigits : Dialect.ordered.digits digits) :
    DerivesExpr .ordered .primary (Expr.intLit pos (Text.decimalValue digits)).tokens
      (.intLit pos (Text.decimalValue digits)) := by
  have hText : (Text.decimalText (Text.decimalValue digits)).toList =
      Nat.toDigits 10 (Text.decimalValue digits) := String.toList_ofList
  have hLength : (Nat.toDigits 10 (Text.decimalValue digits)).length ≤ maxDigits :=
    Text.toDigits_length (by decide) hDigits
  have hPrinted : DerivesExpr .ordered .primary _ _ :=
    .intLit pos ⟨Nat.toDigits_ne_nil, Text.toDigits_decimal (Text.decimalValue digits)⟩ hLength
  -- the digits of ASCII have the value that was read
  rw [Text.decimalValue_toDigits] at hPrinted
  rw [Expr.tokens, hText]
  exact hPrinted

end Grammar

end NameResolution
