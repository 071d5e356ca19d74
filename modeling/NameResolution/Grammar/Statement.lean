import NameResolution.Grammar.Expression

/-!
# Statements — blocks, branches, loops and what ends with a point
-/

namespace NameResolution.Grammar

open NameResolution.Grammar.Parser

/-! ## Types and variables -/

/-- Reads a type; a struct type is `struct` and a name. -/
def typeRef : Parser TypeRef :=
  (do
    keyword .boolean
    pure .boolean)
  <|> (do
    keyword .integer
    pure .integer)
  <|> (do
    keyword .void
    pure .void)
  <|> (do
    keyword .struct
    let id ← ident
    pure (.struct id))

/-- Reads the declaration of a variable. -/
def varDecl : Parser VarDecl := do
  let type ← typeRef
  let id ← ident
  symbol ['.']
  pure ⟨type, id, false⟩

/-! ## Blocks -/

/-- Reads declarations and then statements. -/
def block (stmt : Parser Stmt) : Parser (Block Stmt) := do
  let decls ← many varDecl
  let stmts ← many stmt
  pure ⟨decls, stmts⟩

/-- Reads a block in braces. -/
def braced (stmt : Parser Stmt) : Parser (Block Stmt) := do
  symbol ['{']
  let body ← block stmt
  symbol ['}']
  pure body

/-- Reads an expression between a keyword and a block. -/
def condition (k : Keyword) : Parser Expr := do
  keyword k
  parenthesized expression

/-! ## Statements -/

/-- Reads a branch; an `else` without a whole block behind it is left unread. -/
def ifStmt (stmt : Parser Stmt) : Parser Stmt := do
  let cond ← condition .ifWord
  let body ← braced stmt
  let otherwise? ← optional (do
    keyword .elseWord
    braced stmt)
  match otherwise? with
  | none => pure (.ifThen cond body)
  | some otherwise => pure (.ifElse cond body otherwise)

/-- Reads a loop. -/
def whileStmt (stmt : Parser Stmt) : Parser Stmt := do
  let cond ← condition .whileWord
  let body ← braced stmt
  pure (.loop cond body)

/-- Reads a statement that reads into a location. -/
def readStmt : Parser Stmt := do
  keyword .input
  symbol ['-', '>']
  let target ← location
  symbol ['.']
  pure (.read target)

/-- Reads a statement that writes a value. -/
def writeStmt : Parser Stmt := do
  keyword .disp
  symbol ['<', '-']
  let value ← expression
  symbol ['.']
  pure (.write value)

/-- Reads a return, with or without a value. -/
def returnStmt : Parser Stmt := do
  keyword .returnWord
  let value? ← optional expression
  symbol ['.']
  pure (.ret value?)

/-- Reads a call that stands alone. -/
def callStmt : Parser Stmt := do
  let (callee, args) ← callParts expression
  symbol ['.']
  pure (.call callee args)

/-- Reads an increment. -/
def incrementStmt : Parser Stmt := do
  let target ← location
  symbol ['+', '+']
  symbol ['.']
  pure (.increment target)

/-- Reads a decrement. -/
def decrementStmt : Parser Stmt := do
  let target ← location
  symbol ['-', '-']
  symbol ['.']
  pure (.decrement target)

/-- Reads an assignment. -/
def assignStmt : Parser Stmt := do
  let (target, value) ← assignmentParts expression
  symbol ['.']
  pure (.assign target value)

/-- Reads a statement. -/
def statement : Parser Stmt :=
  fix fun stmt => ifStmt stmt <|> whileStmt stmt <|> readStmt <|> writeStmt <|> returnStmt <|>
    callStmt <|> incrementStmt <|> decrementStmt <|> assignStmt

end NameResolution.Grammar
