import NameResolution.Grammar.Program
import NameResolution.Proofs.Grammar.Lexing
import NameResolution.Proofs.Tree.Sites

/-!
# Derivations — the grammar over tokens, and the tree of each sentence

The grammar is given twice with the same rules. Read as a context-free grammar it puts no condition
on names and numbers. The sentences that are read by trying the alternatives in order are those of
the other dialect: a name must not start with a keyword and an underscore where that keyword would
be tried first, and a list may start with a comma.

* `Dialect.contextFree`, `Dialect.ordered` — the two dialects.
* `Level`, `DerivesExpr` — expressions by precedence; every operator of a level nests to the left.
* `DerivesStmt`, `DerivesDecl`, `DerivesProgram` — all that a program consists of.
-/

namespace NameResolution.Grammar

/-! ## Dialects -/

/-- What the grammar leaves open. -/
structure Dialect where
  /-- Whether the items of a list may all stand behind commas, the first one too. -/
  leadingComma : Prop
  /-- The names that a variable or a call inside an expression may start with. -/
  operand : String → Prop
  /-- The names that an assignment or a call may start with as a statement. -/
  opening : String → Prop
  /-- The digits that a number may have. -/
  digits : List Char → Prop

/-- The grammar with no conditions on names and numbers. -/
def Dialect.contextFree : Dialect where
  leadingComma := False
  operand _ := True
  opening _ := True
  digits _ := True

/-- The grammar as it is read from a text by ordered choice, if numbers may have so many digits. -/
def Dialect.orderedUpTo (limit : Nat) : Dialect where
  leadingComma := True
  operand word := ¬ Keyword.Opens .trueWord word ∧ ¬ Keyword.Opens .falseWord word
  opening word := ¬ Keyword.Opens .returnWord word
  digits ds := ds.length ≤ limit

/-- The grammar as it is read from a text by ordered choice. -/
abbrev Dialect.ordered : Dialect := .orderedUpTo maxDigits

/-- The grammar as a parser reads it that is told so much. -/
abbrev Context.dialect (ctx : Context) : Dialect := .orderedUpTo ctx.limit

/-! ## Sequences -/

/-- The tokens are made up of rows, one for each of the values. -/
def Rows {α : Type} (derives : List Token → α → Prop) (ts : List Token) (xs : List α) : Prop :=
  ∃ rows : List (List Token × α), (∀ row ∈ rows, derives row.1 row.2) ∧
    ts = rows.flatMap (·.1) ∧ xs = rows.map (·.2)

/-- Every row behind a comma. -/
def behindCommas (rows : List (List Token)) : List Token :=
  rows.flatMap fun row => .symbol [','] :: row

/-- The rows with commas between them. -/
def betweenCommas : List (List Token) → List Token
  | [] => []
  | row :: rows => row ++ behindCommas rows

/-- The tokens are the rows with commas between them, or with a comma in front of each if the
dialect has that. -/
def Dialect.Listed (d : Dialect) (rows : List (List Token)) (ts : List Token) : Prop :=
  ts = betweenCommas rows ∨ d.leadingComma ∧ ts = behindCommas rows

/-- The tokens between a pair of brackets. -/
def enclosed (opening closing : Char) (ts : List Token) : List Token :=
  .symbol [opening] :: (ts ++ [.symbol [closing]])

/-! ## Names -/

/-- An identifier is one name token, and its tree has the word and the position of that token. -/
inductive DerivesIdent : List Token → Ident → Prop where
  | name (pos : Position) {word : String} (hName : isName word.toList = true) :
    DerivesIdent [.name pos word] ⟨pos, word, none⟩

/-- A location is an identifier, or a location and a field of it behind a colon. -/
inductive DerivesLoc : List Token → Loc → Prop where
  | var {ts : List Token} {id : Ident} (hId : DerivesIdent ts id) : DerivesLoc ts (.var id)
  | field {ts us : List Token} {left : Loc} {id : Ident} (hLeft : DerivesLoc ts left)
      (hId : DerivesIdent us id) :
    DerivesLoc (ts ++ .symbol [':'] :: us) (.field left id)

/-! ## Expressions -/

/-- The levels of expressions, from the loosest. -/
inductive Level where
  | assignment
  | disjunction
  | conjunction
  | comparison
  | sum
  | product
  | unary
  | primary
deriving DecidableEq, Repr

/-- The level of the operands. -/
def Level.tighter? : Level → Option Level
  | assignment => some disjunction
  | disjunction => some conjunction
  | conjunction => some comparison
  | comparison => some sum
  | sum => some product
  | product => some unary
  | unary => some primary
  | primary => none

/-- The operators of a level that nest to the left. -/
def Level.operators : Level → List (List Char)
  | disjunction => [['|']]
  | conjunction => [['&']]
  | sum => [['+'], ['-']]
  | product => [['*'], ['/']]
  | _ => []

/-- The signs in front of an operand. -/
def signs : List (List Char) := [['-'], ['^']]

/-- The tokens are an expression of a level, with its tree. -/
inductive DerivesExpr (d : Dialect) : Level → List Token → Expr → Prop where
  | tighter {level next : Level} {ts : List Token} {e : Expr}
      (hNext : level.tighter? = some next) (hInner : DerivesExpr d next ts e) :
    DerivesExpr d level ts e
  | assign {ts us : List Token} {target : Loc} {value : Expr} (hTarget : DerivesLoc ts target)
      (hValue : DerivesExpr d .assignment us value) :
    DerivesExpr d .assignment (ts ++ .symbol ['='] :: us) (.assign target value)
  | operation {level next : Level} {ts us : List Token} {left right : Expr} {op : List Char}
      (hOp : op ∈ level.operators) (hNext : level.tighter? = some next)
      (hLeft : DerivesExpr d level ts left) (hRight : DerivesExpr d next us right) :
    DerivesExpr d level (ts ++ .symbol op :: us) (.binary (String.ofList op) left right)
  | comparison {ts us : List Token} {left right : Expr} {op : List Char} (hOp : op ∈ comparisons)
      (hLeft : DerivesExpr d .sum ts left) (hRight : DerivesExpr d .sum us right) :
    DerivesExpr d .comparison (ts ++ .symbol op :: us) (.binary (String.ofList op) left right)
  | sign {ts : List Token} {e : Expr} {op : List Char} (hOp : op ∈ signs)
      (hOperand : DerivesExpr d .unary ts e) :
    DerivesExpr d .unary (.symbol op :: ts) (.unary (String.ofList op) e)
  -- leaves: the tree has what the token has, and the position of the token
  | trueLit (pos : Position) : DerivesExpr d .primary [.truth pos true] (.trueLit pos)
  | falseLit (pos : Position) : DerivesExpr d .primary [.truth pos false] (.falseLit pos)
  | intLit (pos : Position) {digits : List Char} (hForm : (Token.number pos digits).WellFormed)
      (hDigits : d.digits digits) :
    DerivesExpr d .primary [.number pos digits] (.intLit pos (Text.decimalValue digits))
  | strLit (pos : Position) {literal : String} (hForm : (Token.string pos literal).WellFormed) :
    DerivesExpr d .primary [.string pos literal] (.strLit pos literal)
  | call {ts us : List Token} {callee : Ident} (hCallee : DerivesIdent ts callee)
      (hOperand : d.operand callee.name) (args : List (List Token × Expr))
      (hArgs : ∀ arg ∈ args, DerivesExpr d .assignment arg.1 arg.2)
      (hList : d.Listed (args.map (·.1)) us) :
    DerivesExpr d .primary (ts ++ enclosed '(' ')' us) (.call callee (args.map (·.2)))
  | parenthesized {ts : List Token} {e : Expr} (hInner : DerivesExpr d .assignment ts e) :
    DerivesExpr d .primary (enclosed '(' ')' ts) e
  | loc {ts : List Token} {location : Loc} (hLoc : DerivesLoc ts location)
      (hOperand : d.operand location.root.name) :
    DerivesExpr d .primary ts (.loc location)

/-- What needs no parentheses is an expression of every level. -/
theorem DerivesExpr.lift {d : Dialect} {ts : List Token} {e : Expr}
    (h : DerivesExpr d .primary ts e) (level : Level) : DerivesExpr d level ts e := by
  -- nothing but the way through the levels, from the tightest one outwards
  have hUnary : DerivesExpr d .unary ts e := .tighter rfl h
  have hProduct : DerivesExpr d .product ts e := .tighter rfl hUnary
  have hSum : DerivesExpr d .sum ts e := .tighter rfl hProduct
  have hComparison : DerivesExpr d .comparison ts e := .tighter rfl hSum
  have hConjunction : DerivesExpr d .conjunction ts e := .tighter rfl hComparison
  have hDisjunction : DerivesExpr d .disjunction ts e := .tighter rfl hConjunction
  cases level with
  | assignment => exact .tighter rfl hDisjunction
  | disjunction => exact hDisjunction
  | conjunction => exact hConjunction
  | comparison => exact hComparison
  | sum => exact hSum
  | product => exact hProduct
  | unary => exact hUnary
  | primary => exact h

/-! ## Statements -/

/-- A type is one word for a scalar, or the name of a struct behind its word. -/
inductive DerivesType : List Token → TypeRef → Prop where
  | boolean : DerivesType [.keyword .boolean] .boolean
  | integer : DerivesType [.keyword .integer] .integer
  | void : DerivesType [.keyword .void] .void
  | struct {ts : List Token} {id : Ident} (hId : DerivesIdent ts id) :
    DerivesType (.keyword .struct :: ts) (.struct id)

/-- A declaration of a variable is a type, an identifier and a full stop. -/
inductive DerivesVarDecl : List Token → VarDecl → Prop where
  | intro {ts us : List Token} {type : TypeRef} {id : Ident} (hType : DerivesType ts type)
      (hId : DerivesIdent us id) :
    DerivesVarDecl (ts ++ us ++ [.symbol ['.']]) ⟨type, id, false⟩

/-- The statements. What stands in a block of braces is rows of declarations and then rows of
statements, so a statement is derived from lists of its parts. -/
inductive DerivesStmt (d : Dialect) : List Token → Stmt → Prop where
  | ifThen {ts us : List Token} {cond : Expr} {decls : List VarDecl}
      (hCond : DerivesExpr d .assignment ts cond) (hDecls : Rows DerivesVarDecl us decls)
      (stmts : List (List Token × Stmt)) (hStmts : ∀ s ∈ stmts, DerivesStmt d s.1 s.2) :
    DerivesStmt d
      -- a body is written between braces here; only the bodies of functions stand in brackets
      (.keyword .ifWord :: enclosed '(' ')' ts ++
        enclosed '\x7b' '\x7d' (us ++ stmts.flatMap (·.1)))
      (.ifThen cond ⟨decls, stmts.map (·.2)⟩)
  | ifElse {ts us us' : List Token} {cond : Expr} {decls decls' : List VarDecl}
      (hCond : DerivesExpr d .assignment ts cond) (hDecls : Rows DerivesVarDecl us decls)
      (stmts : List (List Token × Stmt)) (hStmts : ∀ s ∈ stmts, DerivesStmt d s.1 s.2)
      (hDecls' : Rows DerivesVarDecl us' decls')
      (stmts' : List (List Token × Stmt)) (hStmts' : ∀ s ∈ stmts', DerivesStmt d s.1 s.2) :
    DerivesStmt d
      (.keyword .ifWord :: enclosed '(' ')' ts ++
        enclosed '\x7b' '\x7d' (us ++ stmts.flatMap (·.1)) ++ .keyword .elseWord ::
        enclosed '\x7b' '\x7d' (us' ++ stmts'.flatMap (·.1)))
      (.ifElse cond ⟨decls, stmts.map (·.2)⟩ ⟨decls', stmts'.map (·.2)⟩)
  | loop {ts us : List Token} {cond : Expr} {decls : List VarDecl}
      (hCond : DerivesExpr d .assignment ts cond) (hDecls : Rows DerivesVarDecl us decls)
      (stmts : List (List Token × Stmt)) (hStmts : ∀ s ∈ stmts, DerivesStmt d s.1 s.2) :
    DerivesStmt d
      (.keyword .whileWord :: enclosed '(' ')' ts ++
        enclosed '\x7b' '\x7d' (us ++ stmts.flatMap (·.1)))
      (.loop cond ⟨decls, stmts.map (·.2)⟩)
  | read {ts : List Token} {target : Loc} (hTarget : DerivesLoc ts target) :
    DerivesStmt d (.keyword .input :: .symbol ['-', '>'] :: (ts ++ [.symbol ['.']]))
      (.read target)
  | write {ts : List Token} {value : Expr} (hValue : DerivesExpr d .assignment ts value) :
    DerivesStmt d (.keyword .disp :: .symbol ['<', '-'] :: (ts ++ [.symbol ['.']]))
      (.write value)
  | retNone : DerivesStmt d [.keyword .returnWord, .symbol ['.']] (.ret none)
  | retSome {ts : List Token} {value : Expr} (hValue : DerivesExpr d .assignment ts value) :
    DerivesStmt d (.keyword .returnWord :: (ts ++ [.symbol ['.']])) (.ret (some value))
  | call {ts us : List Token} {callee : Ident} (hCallee : DerivesIdent ts callee)
      (hOpening : d.opening callee.name) (args : List (List Token × Expr))
      (hArgs : ∀ arg ∈ args, DerivesExpr d .assignment arg.1 arg.2)
      (hList : d.Listed (args.map (·.1)) us) :
    DerivesStmt d (ts ++ enclosed '(' ')' us ++ [.symbol ['.']])
      (.call callee (args.map (·.2)))
  | increment {ts : List Token} {target : Loc} (hTarget : DerivesLoc ts target) :
    DerivesStmt d (ts ++ [.symbol ['+', '+'], .symbol ['.']]) (.increment target)
  | decrement {ts : List Token} {target : Loc} (hTarget : DerivesLoc ts target) :
    DerivesStmt d (ts ++ [.symbol ['-', '-'], .symbol ['.']]) (.decrement target)
  | assign {ts us : List Token} {target : Loc} {value : Expr} (hTarget : DerivesLoc ts target)
      (hOpening : d.opening target.root.name) (hValue : DerivesExpr d .assignment us value) :
    DerivesStmt d (ts ++ .symbol ['='] :: (us ++ [.symbol ['.']])) (.assign target value)

/-! ## Declarations and programs -/

/-- A formal parameter is a type and an identifier. -/
inductive DerivesFormal : List Token → Formal → Prop where
  | intro {ts us : List Token} {type : TypeRef} {id : Ident} (hType : DerivesType ts type)
      (hId : DerivesIdent us id) :
    DerivesFormal (ts ++ us) ⟨type, id⟩

/-- The declarations in front of and behind each other in a program: a struct with at least one
field, a function, or a variable. -/
inductive DerivesDecl (d : Dialect) : List Token → Decl → Prop where
  | struct {ts us : List Token} {id : Ident} {fields : List VarDecl} (hId : DerivesIdent ts id)
      (hFields : Rows DerivesVarDecl us fields) (hSome : fields ≠ []) :
    DerivesDecl d (.keyword .struct :: (ts ++ enclosed '[' ']' us))
      -- fields are derived as variables and become fields in the tree
      (.struct ⟨id, fields.map fun field => { field with isField := true }⟩)
  | func {ts us vs ds ss : List Token} {result : TypeRef} {id : Ident} {decls : List VarDecl}
      {stmts : List Stmt} (hResult : DerivesType ts result) (hId : DerivesIdent us id)
      (formals : List (List Token × Formal)) (hFormals : ∀ f ∈ formals, DerivesFormal f.1 f.2)
      (hList : d.Listed (formals.map (·.1)) vs) (hDecls : Rows DerivesVarDecl ds decls)
      (hStmts : Rows (DerivesStmt d) ss stmts) :
    DerivesDecl d (ts ++ us ++ enclosed '[' ']' vs ++ enclosed '[' ']' (ds ++ ss))
      (.func ⟨result, id, formals.map (·.2), ⟨decls, stmts⟩⟩)
  | var {ts : List Token} {decl : VarDecl} (hDecl : DerivesVarDecl ts decl) :
    DerivesDecl d ts (.var decl)

/-- The tokens are a program, with its tree. -/
def DerivesProgram (d : Dialect) (ts : List Token) (p : Program) : Prop :=
  Rows (DerivesDecl d) ts p.decls

end NameResolution.Grammar
