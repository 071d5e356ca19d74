import NameResolution.Scope.Symbol
import NameResolution.Text.Position

/-!
# Programs — the tree of a source text

A program declares variables, functions and structs. Each identifier of the tree stands at a
position and can carry the symbol that name analysis has found for it; nothing else of a tree
changes in the analysis.

The operators of expressions are kept as they are written.
-/

namespace NameResolution

/-! ## Identifiers and types -/

/-- An occurrence of a name. -/
structure Ident where
  pos : Position
  name : String
  /-- What the name stands for here, once that has been found out. -/
  symbol? : Option Symbol := none
deriving DecidableEq, Repr

/-- The same occurrence, standing for `symbol`. -/
def Ident.bind (id : Ident) (symbol : Symbol) : Ident :=
  { id with symbol? := some symbol }

/-- The type in a declaration; a struct is referred to by its name. -/
inductive TypeRef where
  | boolean
  | integer
  | void
  | struct (id : Ident)
deriving DecidableEq, Repr

/-- The name of a type. -/
def TypeRef.name : TypeRef → String
  | boolean => "boolean"
  | integer => "integer"
  | void => "void"
  | struct id => id.name

/-! ## Expressions -/

/-- What can be assigned to: a variable, or a field of a location. -/
inductive Loc where
  | var (id : Ident)
  | field (left : Loc) (id : Ident)
deriving DecidableEq, Repr

/-- The rightmost identifier of a location. -/
def Loc.last : Loc → Ident
  | var id => id
  | field _ id => id

/-- What has a value. -/
inductive Expr where
  | trueLit (pos : Position)
  | falseLit (pos : Position)
  | intLit (pos : Position) (value : Int)
  /-- A string as it is written, with its quotes and escapes. -/
  | strLit (pos : Position) (literal : String)
  | loc (location : Loc)
  | assign (target : Loc) (value : Expr)
  | call (callee : Ident) (args : List Expr)
  | unary (op : String) (operand : Expr)
  | binary (op : String) (left right : Expr)
deriving Repr

/-! ## Statements -/

/-- A variable of a scope or a field of a struct. -/
structure VarDecl where
  type : TypeRef
  id : Ident
  isField : Bool := false
deriving DecidableEq, Repr

/-- Declarations and the statements after them, in braces or as the body of a function. -/
structure Block (σ : Type) where
  decls : List VarDecl := []
  stmts : List σ := []
deriving Repr

/-- What a body consists of after its declarations. -/
inductive Stmt where
  | assign (target : Loc) (value : Expr)
  | increment (target : Loc)
  | decrement (target : Loc)
  | ifThen (cond : Expr) (body : Block Stmt)
  | ifElse (cond : Expr) (body : Block Stmt) (otherwise : Block Stmt)
  | loop (cond : Expr) (body : Block Stmt)
  | read (target : Loc)
  | write (value : Expr)
  | call (callee : Ident) (args : List Expr)
  | ret (value? : Option Expr)
deriving Repr

/-! ## Declarations -/

/-- A parameter of a function. -/
structure Formal where
  type : TypeRef
  id : Ident
deriving DecidableEq, Repr

/-- A function. -/
structure FuncDecl where
  result : TypeRef
  id : Ident
  formals : List Formal := []
  body : Block Stmt := {}
deriving Repr

/-- The names of the parameter types. -/
def FuncDecl.paramTypes (f : FuncDecl) : List String :=
  f.formals.map fun formal => formal.type.name

/-- A struct. -/
structure StructDecl where
  id : Ident
  fields : List VarDecl := []
deriving DecidableEq, Repr

/-- What stands at the top level. -/
inductive Decl where
  | var (decl : VarDecl)
  | func (decl : FuncDecl)
  | struct (decl : StructDecl)
deriving Repr

/-- A source text as a tree. -/
structure Program where
  decls : List Decl := []
deriving Repr

end NameResolution
