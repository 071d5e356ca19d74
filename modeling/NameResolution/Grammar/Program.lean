import NameResolution.Grammar.Statement

/-!
# Programs — declarations up to the end of the text

* `parse` — the program that a source text is, or why it is none.
-/

namespace NameResolution.Grammar

open NameResolution.Grammar.Parser

/-! ## Declarations -/

/-- Reads a struct; each of its variables is a field, and it has at least one. -/
def structDecl : Parser StructDecl := do
  keyword .struct
  let id ← ident
  symbol ['[']
  let fields ← many1 varDecl
  symbol [']']
  pure ⟨id, fields.map fun field => { field with isField := true }⟩

/-- Reads a parameter: its type and its name. -/
def formal : Parser Formal := do
  let type ← typeRef
  let id ← ident
  pure ⟨type, id⟩

/-- Reads a function with its formals and its body. -/
def funcDecl : Parser FuncDecl := do
  let result ← typeRef
  let id ← ident
  symbol ['[']
  let formals ← sepBy formal (symbol [','])
  symbol [']']
  symbol ['[']
  let body ← block statement
  symbol [']']
  pure ⟨result, id, formals, body⟩

/-- Reads a declaration. -/
def decl : Parser Decl :=
  (Decl.struct <$> structDecl) <|> (Decl.func <$> funcDecl) <|> (Decl.var <$> varDecl)

/-! ## Programs -/

/-- Reads a whole text. -/
def program : Parser Program := do
  let decls ← many decl
  endOfText
  pure ⟨decls⟩

/-- Why a text is no program. -/
inductive ParseError where
  /-- The grammar does not allow it. -/
  | invalid
  /-- A number in it has more digits than can be read. -/
  | numberTooLong (digits : Nat)
deriving DecidableEq, Repr

/-- What is said about the error. -/
def ParseError.message : ParseError → String
  | invalid => "the text is not a program"
  | numberTooLong digits =>
    "Exceeds the limit (" ++ Text.decimalText maxDigits
      ++ " digits) for integer string conversion: value has " ++ Text.decimalText digits
      ++ " digits; use sys.set_int_max_str_digits() to increase the limit"

/-- What the endings of a text are read with, if numbers may have so many digits. -/
abbrev contextOf (limit : Nat) (text : List Char) : Context :=
  ⟨Text.locate text, limit⟩

/-- The program that the text is, if numbers may have so many digits. -/
def parseUpTo (limit : Nat) (source : String) : Except ParseError Program :=
  let text := source.toList
  match program (contextOf limit text) text with
  | .matched p _ => .ok p
  | .rejected => .error .invalid
  | .tooLong digits => .error (.numberTooLong digits)

/-- The program that the text is. -/
def parse (source : String) : Except ParseError Program :=
  parseUpTo maxDigits source

end NameResolution.Grammar
