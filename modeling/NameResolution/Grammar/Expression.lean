import NameResolution.Grammar.Capture
import NameResolution.Grammar.Lexeme
import NameResolution.Tree.Basic

/-!
# Expressions — names, operators and their precedences

From the loosest to the tightest: assignment, which nests to the right; `|`; `&`; one comparison
at most; `+` and `-`; `*` and `/`; the signs in front; and what needs no parentheses. All other
operators nest to the left. A name that is followed by `(` is a call where the rest of a call
follows too.
-/

namespace NameResolution.Grammar

open NameResolution.Grammar.Parser

/-! ## Names -/

/-- Reads an identifier. -/
def ident : Parser Ident := do
  let pos ← here
  let word ← name
  pure ⟨pos, word, none⟩

/-- Reads a variable and the fields accessed from it. -/
def location : Parser Loc := do
  let first ← ident
  let fields ← many (do
    symbol [':']
    ident)
  pure (fields.foldl Loc.field (.var first))

/-! ## Primary expressions -/

/-- Reads the word for true. It stands where its text starts. -/
def trueLit : Parser Expr := do
  let pos ← here
  keyword .trueWord
  pure (.trueLit pos)

/-- Reads the word for false. It stands where its text starts. -/
def falseLit : Parser Expr := do
  let pos ← here
  keyword .falseWord
  pure (.falseLit pos)

/-- Reads a number. It stands where its first digit is. -/
def intLit : Parser Expr := do
  let pos ← here
  let value ← number
  pure (.intLit pos value)

/-- Reads a string with its quotes. It stands where its first quote is. -/
def strLit : Parser Expr := do
  let pos ← here
  let literal ← string
  pure (.strLit pos literal)

/-- Reads the function and the arguments of a call. -/
def callParts (expr : Parser Expr) : Parser (Ident × List Expr) := do
  let callee ← ident
  symbol ['(']
  let args ← sepBy expr (symbol [','])
  symbol [')']
  pure (callee, args)

/-- Reads a call. -/
def call (expr : Parser Expr) : Parser Expr := do
  let (callee, args) ← callParts expr
  pure (.call callee args)

/-- Reads an expression in parentheses. -/
def parenthesized (expr : Parser Expr) : Parser Expr := do
  symbol ['(']
  let e ← expr
  symbol [')']
  pure e

/-- Reads what needs no parentheses. A literal is tried before a name, so `TRUE_x` is read as the
literal `TRUE`, and what follows it does not belong to it. -/
def primary (expr : Parser Expr) : Parser Expr :=
  trueLit <|> falseLit <|> intLit <|> strLit <|> call expr <|> parenthesized expr <|>
    (Expr.loc <$> location)

/-! ## Operators -/

/-- Reads a minus sign or a `^` that no `=` follows. -/
def sign : Parser String :=
  operator [['-']] <|> (do
    let op ← operator [['^']]
    notAhead (symbol ['='])
    pure op)

/-- Reads the signs in front of a primary expression, and the expression. -/
def unary (expr : Parser Expr) : Parser Expr := do
  let signs ← many sign
  let operand ← primary expr
  pure (signs.foldr Expr.unary operand)

/-- Reads an operator and its right operand. -/
def operation (op : Parser String) (operand : Parser Expr) : Parser (String × Expr) := do
  let o ← op
  let right ← operand
  pure (o, right)

/-- Reads operands with operators between them. -/
def leftAssociative (op : Parser String) (operand : Parser Expr) : Parser Expr := do
  let first ← operand
  let rest ← many (operation op operand)
  pure (foldPairs Expr.binary first rest)

/-- Reads products and quotients. -/
def product (expr : Parser Expr) : Parser Expr :=
  leftAssociative (operator [['*'], ['/']]) (unary expr)

/-- Reads sums and differences. -/
def sum (expr : Parser Expr) : Parser Expr :=
  leftAssociative (lexeme (scanSingle ['+', '-'])) (product expr)

/-- The comparisons; a longer one comes before one that starts it. -/
def comparisons : List (List Char) :=
  [['=', '='], ['^', '='], ['<', '='], ['>', '='], ['<'], ['>']]

/-- Reads one operand, or two with a comparison between them. -/
def comparison (expr : Parser Expr) : Parser Expr := do
  let first ← sum expr
  let rest ← optional (operation (operator comparisons) (sum expr))
  pure (foldPairs Expr.binary first rest.toList)

/-- Reads conjunctions. -/
def conjunction (expr : Parser Expr) : Parser Expr :=
  leftAssociative (operator [['&']]) (comparison expr)

/-- Reads disjunctions. -/
def disjunction (expr : Parser Expr) : Parser Expr :=
  leftAssociative (operator [['|']]) (conjunction expr)

/-! ## Assignments -/

/-- Reads the two sides of an assignment; `==` is no assignment. -/
def assignmentParts (expr : Parser Expr) : Parser (Loc × Expr) := do
  let target ← location
  symbol ['=']
  notAhead (symbol ['='])
  let value ← expr
  pure (target, value)

/-- Reads an assignment. -/
def assignment (expr : Parser Expr) : Parser Expr := do
  let (target, value) ← assignmentParts expr
  pure (.assign target value)

/-- Reads an expression. -/
def expression : Parser Expr :=
  fix fun expr => assignment expr <|> disjunction expr

end NameResolution.Grammar
